import ReleaseJob.Proofs.Loop
import ReleaseJob.Proofs.Turns

namespace ReleaseJob

/-- How long commands take one after the other, in nanoseconds. -/
def totalDelay (runner : Runner) (past : List Invocation) : List Invocation → Nat
  | [] => 0
  | i :: rest => (runner (past ++ [i])).delay + totalDelay runner (past ++ [i]) rest

namespace Proofs
open RunnerAct

theorem totalDelay_append (runner : Runner) (past a b : List Invocation) :
    totalDelay runner past (a ++ b) =
      totalDelay runner past a + totalDelay runner (past ++ a) b := by
  induction a generalizing past with
  | nil => simp [totalDelay]
  | cons i rest ih => simp [totalDelay, ih, Nat.add_assoc]

/-- The commands of a step in a wait of one of them: what they have come to at its beginning, and
when it is over. -/
inductive CommandsPause (runner : Runner) (id : String) (c : StepContext) :
    List Invocation → Nat → List (List String) → StepRun → Nat → Prop
  | here {past : List Invocation} {elapsed : Nat} {program : String} {args : List String}
      {rest : List (List String)} {i : Invocation} {before after : List RunnerAct} {span : Span}
      (hi : i = c.ask program args)
      (ha : (runner (past ++ [i])).acts = before ++ .wait span :: after) :
      CommandsPause runner id c past elapsed ((program :: args) :: rest)
        ⟨commandSigns id c i (lines before), past ++ [i], elapsed + delay before, none⟩
        (elapsed + delay before + span.nanos)
  | later {past : List Invocation} {elapsed : Nat} {program : String} {args : List String}
      {rest : List (List String)} {i : Invocation} {o : CommandOutput} {r : StepRun} {till : Nat}
      (hi : i = c.ask program args) (ho : (runner (past ++ [i])).outcome = .ok o)
      (hs : o.success = true)
      (h : CommandsPause runner id c (past ++ [i]) (elapsed + (runner (past ++ [i])).delay) rest
        r till) :
      CommandsPause runner id c past elapsed ((program :: args) :: rest)
        (.after (commandSigns id c i (runner (past ++ [i])).lines) r) till

section Commands

variable {runner : Runner} {limit : Option Span} {id : String} {c : StepContext}
  {transcript : List String} {past : List Invocation} {elapsed till : Nat}
  {commands : List (List String)} {r : StepRun}

theorem CommandsPause.times (h : CommandsPause runner id c past elapsed commands r till) :
    elapsed ≤ r.elapsed ∧ r.elapsed ≤ till := by
  induction h with
  | here => exact ⟨Nat.le_add_right _ _, Nat.le_add_right _ _⟩
  | later _ _ _ _ ih => exact ⟨Nat.le_trans (Nat.le_add_right _ _) ih.1, ih.2⟩

theorem CommandsPause.result (h : CommandsPause runner id c past elapsed commands r till) :
    r.result = none := by
  induction h with
  | here => rfl
  | later _ _ _ _ ih => exact ih

/-- A limit within the wait breaks the commands off there. -/
theorem CommandsPause.held (h : CommandsPause runner id c past elapsed commands r till)
    (hin : inTime limit r.elapsed = true) (hout : inTime limit till = false)
    (transcript : List String) :
    ∃ e, Step.runCommands runner limit id c transcript past elapsed commands =
      { r with elapsed := e } := by
  induction h generalizing transcript with
  | here hi ha => exact ⟨_, runCommands_held hi ha hin hout⟩
  | later hi ho hs h ih =>
    obtain ⟨e, he⟩ := ih hin hout _
    rw [runCommands_next hi ho hs (inTime_mono h.times.1 hin), he]
    exact ⟨e, rfl⟩

/-- Commands that reach the wait have shown what was seen of them before it. -/
theorem CommandsPause.shown (h : CommandsPause runner id c past elapsed commands r till)
    (hin : inTime limit r.elapsed = true) (transcript : List String) :
    r.signs <+: (Step.runCommands runner limit id c transcript past elapsed commands).signs := by
  induction h generalizing transcript with
  | @here past elapsed _ _ rest i before after span hi ha =>
    have hshows := runCommands_shows runner limit id transcript past elapsed rest hi
    rw [ha, playActs_append hin, commandSigns_append] at hshows
    exact List.IsPrefix.trans ⟨_, rfl⟩ hshows
  | later hi ho hs h ih =>
    rw [runCommands_next hi ho hs (inTime_mono h.times.1 hin)]
    exact (List.prefix_append_right_inj _).mpr (ih hin _)

theorem commandSigns_invocation (id : String) (c : StepContext) (i : Invocation)
    (lines : List (OutputStream × String)) :
    (commandSigns id c i lines).filterMap StepSign.invocation? = [i] :=
  command_signs _ i lines

/-- A refusal, a code other than zero and a signal all count as no success. -/
theorem succeeded_or (r : Reply) :
    (∃ o, r.outcome = .ok o ∧ o.success = true) ∨ r.succeeded = false := by
  unfold Reply.succeeded
  cases ho : r.outcome with
  | error e => exact .inr rfl
  | ok o =>
    cases hs : o.success with
    | true => exact .inl ⟨o, rfl, hs⟩
    | false => exact .inr hs

/-- Without a limit commands come to their end, and nothing but the commands takes time. -/
theorem runCommands_free (runner : Runner) (id : String) (c : StepContext)
    (transcript : List String) (past : List Invocation) (elapsed : Nat)
    (commands : List (List String)) {r : StepRun}
    (he : Step.runCommands runner none id c transcript past elapsed commands = r) :
    r.result ≠ none ∧
    r.elapsed = elapsed + totalDelay runner past (r.signs.filterMap StepSign.invocation?) := by
  subst he
  induction commands generalizing transcript past elapsed with
  | nil => exact ⟨Option.some_ne_none _, rfl⟩
  | cons argv rest ih =>
    cases argv with
    | nil => exact ⟨Option.some_ne_none _, rfl⟩
    | cons program args =>
      obtain ⟨i, hi⟩ : ∃ i, i = c.ask program args := ⟨_, rfl⟩
      rcases succeeded_or (runner (past ++ [i])) with ⟨o, ho, hs⟩ | hf
      · rw [runCommands_next hi ho hs rfl]
        obtain ⟨hr, ht⟩ := ih (transcript ++ [o.output]) (past ++ [i])
          (elapsed + (runner (past ++ [i])).delay)
        refine ⟨hr, ?_⟩
        simp only [StepRun.after, List.filterMap_append, commandSigns_invocation]
        rw [ht, Nat.add_assoc]
        rfl
      · obtain ⟨error, output, hstop⟩ := runCommands_stopped id transcript hi hf
        rw [hstop none elapsed rest rfl]
        refine ⟨Option.some_ne_none _, ?_⟩
        simp only [StepRun.failure, List.filterMap_append, commandSigns_invocation]
        rfl

theorem runCommands_late (runner : Runner) (id : String) (transcript : List String)
    (past : List Invocation) (elapsed : Nat) (rest : List (List String))
    (hi : i = c.ask program args) :
    elapsed + (runner (past ++ [i])).delay ≤ (Step.runCommands runner none id c transcript past
      elapsed ((program :: args) :: rest)).elapsed := by
  rcases succeeded_or (runner (past ++ [i])) with ⟨o, ho, hs⟩ | hf
  · rw [runCommands_next hi ho hs rfl, StepRun.after, (runCommands_free _ _ _ _ _ _ _ rfl).2]
    exact Nat.le_add_right _ _
  · obtain ⟨error, output, hstop⟩ := runCommands_stopped id transcript hi hf
    rw [hstop none elapsed rest rfl]
    exact Nat.le_refl _

/-- A limit leaves the commands alone, or it falls into one of their waits. -/
theorem runCommands_cut (id : String) (c : StepContext) (transcript : List String)
    (past : List Invocation) (commands : List (List String)) {free : StepRun}
    (hin : inTime limit elapsed = true)
    (he : Step.runCommands runner none id c transcript past elapsed commands = free) :
    (inTime limit free.elapsed = true ∧
      Step.runCommands runner limit id c transcript past elapsed commands = free) ∨
    (inTime limit free.elapsed = false ∧
      ∃ r till, CommandsPause runner id c past elapsed commands r till ∧
        inTime limit r.elapsed = true ∧ inTime limit till = false) := by
  induction commands generalizing transcript past elapsed free with
  | nil =>
    subst he
    exact .inl ⟨hin, rfl⟩
  | cons argv rest ih =>
    cases argv with
    | nil =>
      subst he
      exact .inl ⟨hin, rfl⟩
    | cons program args =>
      obtain ⟨i, hi⟩ : ∃ i, i = c.ask program args := ⟨_, rfl⟩
      cases hw : inTime limit (elapsed + (runner (past ++ [i])).delay) with
      | false =>
        refine .inr ⟨?_, ?_⟩
        · subst he
          refine Bool.eq_false_iff.mpr fun ht => ?_
          rw [inTime_mono (runCommands_late runner id transcript past elapsed rest hi) ht] at hw
          contradiction
        -- the limit falls into a wait of this very command
        · obtain ⟨before, span, after, ha, hb, ho⟩ := acts_cut hin hw
          exact ⟨_, _, .here hi ha, hb, ho⟩
      | true =>
        rcases succeeded_or (runner (past ++ [i])) with ⟨o, ho, hs⟩ | hf
        · rw [runCommands_next hi ho hs rfl] at he
          rw [runCommands_next hi ho hs hw]
          subst he
          rcases ih (transcript ++ [o.output]) (past ++ [i]) hw rfl with
            ⟨ht, heq⟩ | ⟨ht, r, till, hp, hr, hout⟩
          · exact .inl ⟨ht, congrArg _ heq⟩
          · exact .inr ⟨ht, _, till, .later hi ho hs hp, hr, hout⟩
        · obtain ⟨error, output, hstop⟩ := runCommands_stopped id transcript hi hf
          rw [hstop none elapsed rest rfl] at he
          rw [hstop limit elapsed rest hw]
          subst he
          exact .inl ⟨hw, rfl⟩

end Commands

/-- A step in a wait of one of its commands. -/
inductive StepPause (setup : RunSetup) (j : Job) (w : String) (past : List Invocation)
    (elapsed : Nat) (s : Step) : StepRun → Nat → Prop
  | mk {r : StepRun} {till : Nat} (hm : (contextOf setup j w s).missing.isEmpty = true)
      (h : CommandsPause setup.runner s.id (contextOf setup j w s) past elapsed
        (s.commands (contextOf setup j w s)) r till) :
      StepPause setup j w past elapsed s (.after [.log ⟨.info, s!"Executing step: {s.id}"⟩] r) till

section Steps

variable {setup : RunSetup} {limit : Option Span} {j : Job} {w : String} {s : Step}
  {past : List Invocation} {elapsed till : Nat} {r free : StepRun}

theorem stepRun_equipped (hm : (contextOf setup j w s).missing.isEmpty = true)
    (limit : Option Span) (past : List Invocation) (elapsed : Nat) :
    stepRun setup limit j w past elapsed s = .after [.log ⟨.info, s!"Executing step: {s.id}"⟩]
      (Step.runCommands setup.runner limit s.id (contextOf setup j w s) [] past elapsed
        (s.commands (contextOf setup j w s))) :=
  if_pos hm

/-- A step that is short of a secret fails at once. -/
theorem stepRun_short (hm : (contextOf setup j w s).missing.isEmpty = false)
    (past : List Invocation) (elapsed : Nat) :
    ∃ signs error, signs.filterMap StepSign.invocation? = [] ∧ ∀ limit,
      stepRun setup limit j w past elapsed s = .failure signs past elapsed error "" := by
  unfold stepRun Step.run
  rw [hm]
  refine ⟨_, _, ?_, fun limit => rfl⟩
  rfl

theorem StepPause.times (h : StepPause setup j w past elapsed s r till) :
    elapsed ≤ r.elapsed ∧ r.elapsed ≤ till := by
  cases h with
  | mk hm h => exact h.times

theorem StepPause.result (h : StepPause setup j w past elapsed s r till) : r.result = none := by
  cases h with
  | mk hm h => exact h.result

theorem StepPause.held (h : StepPause setup j w past elapsed s r till)
    (hin : inTime limit r.elapsed = true) (hout : inTime limit till = false) :
    ∃ e, stepRun setup limit j w past elapsed s = { r with elapsed := e } := by
  cases h with
  | mk hm h =>
    obtain ⟨e, he⟩ := h.held hin hout []
    rw [stepRun_equipped hm, he]
    exact ⟨e, rfl⟩

theorem StepPause.shown (h : StepPause setup j w past elapsed s r till)
    (hin : inTime limit r.elapsed = true) :
    r.signs <+: (stepRun setup limit j w past elapsed s).signs := by
  cases h with
  | mk hm h =>
    rw [stepRun_equipped hm]
    exact (List.prefix_append_right_inj _).mpr (h.shown hin [])

/-- Without a limit a step has a result, and its commands take just the time of their waits. -/
theorem stepRun_free (he : stepRun setup none j w past elapsed s = r) :
    r.result ≠ none ∧
    r.elapsed = elapsed + totalDelay setup.runner past (r.signs.filterMap StepSign.invocation?) := by
  subst he
  cases hm : (contextOf setup j w s).missing.isEmpty with
  | false =>
    obtain ⟨signs, error, hi, hshort⟩ := stepRun_short hm past elapsed
    rw [hshort none]
    refine ⟨nofun, ?_⟩
    rw [StepRun.failure, hi]
    rfl
  | true =>
    obtain ⟨hr, ht⟩ := runCommands_free setup.runner s.id (contextOf setup j w s) [] past elapsed
      (s.commands (contextOf setup j w s)) rfl
    rw [stepRun_equipped hm]
    exact ⟨hr, ht⟩

/-- A limit either lets the step come to its result, or falls into one of its waits. -/
theorem stepRun_cut (past : List Invocation) (s : Step) (hin : inTime limit elapsed = true)
    (he : stepRun setup none j w past elapsed s = free) :
    (inTime limit free.elapsed = true ∧ stepRun setup limit j w past elapsed s = free) ∨
    (inTime limit free.elapsed = false ∧ ∃ r till, StepPause setup j w past elapsed s r till ∧
      inTime limit r.elapsed = true ∧ inTime limit till = false) := by
  subst he
  cases hm : (contextOf setup j w s).missing.isEmpty with
  | false =>
    obtain ⟨signs, error, _, hshort⟩ := stepRun_short hm past elapsed
    rw [hshort none, hshort limit]
    exact .inl ⟨hin, rfl⟩
  | true =>
    rw [stepRun_equipped hm, stepRun_equipped hm]
    rcases runCommands_cut s.id _ [] past (s.commands (contextOf setup j w s)) hin rfl with
      ⟨ht, heq⟩ | ⟨ht, r, till, hp, hr, hout⟩
    · exact .inl ⟨ht, congrArg _ heq⟩
    · exact .inr ⟨ht, _, till, .mk hm hp, hr, hout⟩

end Steps

end Proofs

end ReleaseJob
