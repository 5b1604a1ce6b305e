import ReleaseJob.Proofs.Course
import ReleaseJob.Proofs.Waits

namespace ReleaseJob.Proofs

/-- The loop over the steps in a wait of a command: what is left of it when it is broken off there,
and when the wait is over. -/
inductive Paused (setup : RunSetup) (j : Job) (w : String) :
    List Step → Counts → List Invocation → Nat → List Step → StepsRun → Nat → Prop
  | here {done rest : List Step} {counts : Counts} {past : List Invocation} {elapsed till : Nat}
      {s : Step} {r : StepRun} (hs : s.isPending = true)
      (h : StepPause setup j w past elapsed s r till) :
      Paused setup j w done counts past elapsed (s :: rest)
        ⟨done ++ s.withState (.running (setup.start.add ⟨elapsed⟩)) :: rest, counts,
          stepSigns setup j w (done.length + 1) s r, r.elapsed, .broken⟩ till
  | later {done rest : List Step} {counts : Counts} {past : List Invocation} {elapsed till : Nat}
      {s t : Step} {r : StepRun} {output : String} {p : StepsRun} (hs : s.isPending = true)
      (he : stepRun setup none j w past elapsed s = r) (hr : r.result = some (.success output))
      (ht : t = s.withState
        (.completed output (setup.start.add ⟨elapsed⟩) (setup.start.add ⟨r.elapsed⟩)))
      (h : Paused setup j w (done ++ [t]) (.ofSteps (done ++ t :: rest)) r.past r.elapsed rest p
        till) :
      Paused setup j w done counts past elapsed (s :: rest)
        { p with signs := stepSigns setup j w (done.length + 1) s r ++
            .event (.stepCompleted s.id) :: p.signs } till
  | idle {done rest : List Step} {counts : Counts} {past : List Invocation} {elapsed till : Nat}
      {s : Step} {p : StepsRun} (hs : s.isPending = false)
      (h : Paused setup j w (done ++ [s]) counts past elapsed rest p till) :
      Paused setup j w done counts past elapsed (s :: rest) p till

section Loop

variable {setup : RunSetup} {limit : Option Span} {j : Job} {w : String} {done l : List Step}
  {counts : Counts} {past : List Invocation} {elapsed till : Nat} {p free : StepsRun}

theorem elapsed_le {r : StepRun} {s : Step} (he : stepRun setup none j w past elapsed s = r) :
    elapsed ≤ r.elapsed := by
  rw [(stepRun_free he).2]
  exact Nat.le_add_right _ _

/-- The wait begins no earlier than the loop, and it ends no earlier than it begins. -/
theorem Paused.times (h : Paused setup j w done counts past elapsed l p till) :
    elapsed ≤ p.elapsed ∧ p.elapsed ≤ till := by
  induction h with
  | here _ h => exact h.times
  | later _ he _ _ _ ih => exact ⟨Nat.le_trans (elapsed_le he) ih.1, ih.2⟩
  | idle _ _ ih => exact ih

theorem Paused.ending (h : Paused setup j w done counts past elapsed l p till) :
    p.ending = .broken := by
  induction h with
  | here => rfl
  | later _ _ _ _ _ ih => exact ih
  | idle _ _ ih => exact ih

/-- A step that keeps the limit runs as it would without one. -/
theorem stepRun_within_limit {r : StepRun} {s : Step}
    (he : stepRun setup none j w past elapsed s = r) (hin : inTime limit r.elapsed = true) :
    stepRun setup limit j w past elapsed s = r := by
  rcases stepRun_cut past s (inTime_mono (elapsed_le he) hin) he with ⟨_, heq⟩ | ⟨ht, _⟩
  · exact heq
  · rw [hin] at ht
    contradiction

/-- A limit within the wait breaks the loop off there. -/
theorem Paused.held (h : Paused setup j w done counts past elapsed l p till)
    (hin : inTime limit p.elapsed = true) (hout : inTime limit till = false) :
    ∃ e, j.runSteps setup limit w done counts past elapsed l = { p with elapsed := e } := by
  induction h with
  | here hs h =>
    obtain ⟨e, he⟩ := h.held hin hout
    rw [runSteps_broken hs he h.result]
    exact ⟨e, rfl⟩
  | later hs he hr ht h ih =>
    obtain ⟨e, hn⟩ := ih hin hout
    rw [runSteps_passed hs (stepRun_within_limit he (inTime_mono h.times.1 hin)) hr ht hn.symm]
    exact ⟨e, rfl⟩
  | idle hs h ih =>
    rw [runSteps_idle hs]
    exact ih hin hout

theorem runSteps_shows {s : Step} {rest : List Step} {r : StepsRun}
    (hrun : j.runSteps setup limit w done counts past elapsed (s :: rest) = r)
    (hs : s.isPending = true) :
    stepSigns setup j w (done.length + 1) s (stepRun setup limit j w past elapsed s) <+:
      r.signs := by
  cases runSteps_turn hrun with
  | idle hidle =>
    rw [hs] at hidle
    cases hidle
  | broken _ he =>
    subst he
    exact List.prefix_rfl
  | passed _ he | failed _ he =>
    subst he
    exact ⟨_, rfl⟩

/-- A loop that reaches the wait has shown what was seen of it before. -/
theorem Paused.shown (h : Paused setup j w done counts past elapsed l p till)
    (hin : inTime limit p.elapsed = true) :
    p.signs <+: (j.runSteps setup limit w done counts past elapsed l).signs := by
  induction h with
  | here hs h =>
    refine List.IsPrefix.trans ?_ (runSteps_shows rfl hs)
    exact (List.prefix_cons_inj _).mpr ((h.shown hin).map _)
  | later hs he hr ht h ih =>
    rw [runSteps_passed hs (stepRun_within_limit he (inTime_mono h.times.1 hin)) hr ht rfl]
    exact (List.prefix_append_right_inj _).mpr ((List.prefix_cons_inj _).mpr (ih hin))
  | idle hs h ih =>
    rw [runSteps_idle hs]
    exact ih hin

/-- The steps before those that are left stay as they are. -/
theorem runSteps_done {r : StepsRun}
    (hrun : j.runSteps setup limit w done counts past elapsed l = r) : done <+: r.steps := by
  induction l generalizing done counts past elapsed r with
  | nil =>
    subst hrun
    exact List.prefix_rfl
  | cons s rest ih =>
    cases runSteps_turn hrun with
    | idle _ hn | passed _ _ _ _ hn =>
      have hnext := ih hn
      exact List.IsPrefix.trans ⟨_, rfl⟩ hnext
    | broken | failed => exact ⟨_, rfl⟩

/-- Where a loop over pending steps is held up: steps that completed, just as they do if it goes on,
then the one that is running, then pending ones. -/
theorem Paused.front (h : Paused setup j w done counts past elapsed l p till)
    (hl : ∀ s ∈ l, s.state = .pending) :
    ∃ before s after ended lead body t, l = before ++ s :: after ∧
      p.steps = done ++ (ended ++ s.withState (.running t) :: after) ∧
      Blocks setup j w (done.length + 1) before ended lead ∧
      (∀ x ∈ body, Within setup j w s x) ∧
      p.signs = lead ++ starting j (done.length + 1 + before.length) s :: body ∧
      done ++ ended <+: (j.runSteps setup none w done counts past elapsed l).steps := by
  induction h with
  | @here done rest _ past elapsed _ s r hs h =>
    have hpre : r.signs <+: (stepRun setup none j w past elapsed s).signs := h.shown rfl
    refine ⟨[], s, rest, [], [], _, _, rfl, rfl, .nil, ?_, rfl, ?_⟩
    · exact fun x hx => stepRun_within rfl x ((hpre.map _).subset hx)
    · rw [List.append_nil]
      exact runSteps_done rfl
  | @later done rest _ past elapsed _ s t r output p hs he hr ht h ih =>
    obtain ⟨before, s', after, ended, lead, body, u, hl', hsteps, hlead, hbody, hsigns, hkept⟩ :=
      ih fun s hs => hl s (List.mem_cons_of_mem _ hs)
    have hlength : (done ++ [t]).length = done.length + 1 := by simp
    rw [hlength] at hlead hsigns
    have hblocks : Blocks setup j w (done.length + 1) (s :: before) (t :: ended)
        (stepSigns setup j w (done.length + 1) s r ++ .event (.stepCompleted s.id) :: lead) := by
      subst ht
      exact .cons (stepRun_within he) hlead
    rw [runSteps_passed hs he hr ht rfl]
    refine ⟨s :: before, s', after, t :: ended, _, body, u, congrArg (s :: ·) hl', ?_, hblocks,
      hbody, ?_, ?_⟩
    · exact hsteps.trans (List.append_assoc ..)
    · have hnext : done.length + 1 + (s :: before).length =
          done.length + 1 + 1 + before.length := by
        rw [List.length_cons]
        omega
      rw [hsigns, hnext, List.append_assoc]
      rfl
    · rw [List.append_assoc] at hkept
      exact hkept
  | idle hs h ih =>
    -- a fresh job has no step to pass over
    rw [Step.isPending, hl _ List.mem_cons_self] at hs
    cases hs

/-- In a wait the counts are those of the steps, as they are between two steps. -/
theorem Paused.counts_eq (h : Paused setup j w done counts past elapsed l p till)
    (hc : counts = .ofSteps (done ++ l)) : p.counts = .ofSteps p.steps := by
  induction h with
  | @here done rest _ _ elapsed _ s _ hs h =>
    have hs : s.state = .pending := by
      cases hst : s.state <;> simp_all [Step.isPending, StepState.isPending]
    subst hc
    simp only [Counts.ofSteps, List.countP_append, List.countP_cons, Step.withState, hs]
    rfl
  | later _ _ _ _ _ ih => exact ih (by rw [List.append_assoc, List.singleton_append])
  | idle _ _ ih => exact ih (by rw [List.append_assoc, List.singleton_append, hc])

theorem stepRun_past {r : StepRun} {s : Step} (he : stepRun setup limit j w past elapsed s = r)
    (hr : r.result ≠ none) : r.past = past ++ r.signs.filterMap StepSign.invocation? := by
  obtain ⟨hi, hp, _⟩ := stepRun_invocations he hr
  rw [hi, hp]

/-- Without a limit the loop comes to its end, and its time is that of its commands. -/
theorem runSteps_free (hrun : j.runSteps setup none w done counts past elapsed l = free) :
    free.ending ≠ .broken ∧
    free.elapsed = elapsed + totalDelay setup.runner past (invocations free.signs) := by
  induction l generalizing done counts past elapsed free with
  | nil =>
    subst hrun
    exact ⟨nofun, rfl⟩
  | cons s rest ih =>
    cases runSteps_turn hrun with
    | idle _ hn => exact ih hn
    | broken _ he hr => exact absurd hr (stepRun_free he).1
    | passed _ he _ _ hn =>
      obtain ⟨hend, htime⟩ := stepRun_free he
      obtain ⟨hb, ht⟩ := ih hn
      refine ⟨hb, ht.trans ?_⟩
      rw [invocations_append, invocations_stepSigns, invocations_event, totalDelay_append,
        ← stepRun_past he hend, htime, Nat.add_assoc]
    | failed _ he =>
      refine ⟨nofun, (stepRun_free he).2.trans ?_⟩
      rw [invocations_append, invocations_stepSigns, invocations_event,
        invocations_closing (skipEvents_closing _ _), List.append_nil]

/-- The loop ends no earlier than its first step. -/
theorem runSteps_late {s : Step} {rest : List Step} (hs : s.isPending = true)
    (hrun : j.runSteps setup none w done counts past elapsed (s :: rest) = free) :
    (stepRun setup none j w past elapsed s).elapsed ≤ free.elapsed := by
  cases runSteps_turn hrun with
  | idle hidle =>
    rw [hs] at hidle
    cases hidle
  | broken _ he hr => exact absurd hr (stepRun_free he).1
  | passed _ he _ _ hn =>
    subst he
    exact Nat.le_of_add_right_le (Nat.le_of_eq (runSteps_free hn).2.symm)
  | failed _ he =>
    subst he
    exact Nat.le_refl _

/-- A limit leaves the loop alone, or it falls into a wait. -/
theorem runSteps_cut (done : List Step) (counts : Counts) (past : List Invocation) (l : List Step)
    (hin : inTime limit elapsed = true)
    (hf : j.runSteps setup none w done counts past elapsed l = free) :
    (inTime limit free.elapsed = true ∧
      j.runSteps setup limit w done counts past elapsed l = free) ∨
    (inTime limit free.elapsed = false ∧
      ∃ p till, Paused setup j w done counts past elapsed l p till ∧
        inTime limit p.elapsed = true ∧ inTime limit till = false) := by
  induction l generalizing done counts past elapsed free with
  | nil =>
    subst hf
    exact .inl ⟨hin, rfl⟩
  | cons s rest ih =>
    cases hs : s.isPending with
    | false =>
      rw [runSteps_idle hs] at hf ⊢
      rcases ih (done ++ [s]) counts past hin hf with hleft | ⟨ht, p, till, hp, h⟩
      · exact .inl hleft
      · exact .inr ⟨ht, p, till, .idle hs hp, h⟩
    | true =>
      obtain ⟨r, he⟩ : ∃ r, stepRun setup none j w past elapsed s = r := ⟨_, rfl⟩
      -- a step that is over in time has the same run under the limit
      rcases stepRun_cut past s hin he with ⟨ht, heq⟩ | ⟨ht, q, till, hq, hpause⟩
      · cases hr : r.result with
        | none => exact absurd hr (stepRun_free he).1
        | some result =>
          cases result with
          | success output =>
            rw [runSteps_passed hs he hr rfl rfl] at hf
            rw [runSteps_passed hs heq hr rfl rfl]
            subst hf
            rcases ih (done ++ [_]) (.ofSteps (done ++ _ :: rest)) r.past ht rfl with
              ⟨hlast, hsame⟩ | ⟨hlast, p, till, hp, h⟩
            · exact .inl ⟨hlast, by rw [hsame]⟩
            · exact .inr ⟨hlast, _, till, .later hs he hr rfl hp, h⟩
          | failed error output =>
            rw [runSteps_failed hs he hr rfl] at hf
            rw [runSteps_failed hs heq hr rfl]
            subst hf
            exact .inl ⟨ht, rfl⟩
      · subst hf
        refine .inr ⟨?_, _, till, .here hs hq, hpause⟩
        refine Bool.eq_false_iff.mpr fun hlast => ?_
        -- the loop ends no earlier than this step, so it cannot be in time either
        rw [inTime_mono (he ▸ runSteps_late hs rfl) hlast] at ht
        contradiction

end Loop

section Held

variable (setup : RunSetup) (j : Job) (w : String)

/-- The loop of a run held up in a wait. -/
def PausedRun (p : StepsRun) (till : Nat) : Prop :=
  Paused setup j w [] j.state.counts [] 0 j.steps p till

/-- What the job has come to there, and what was seen of it. -/
def heldJob (p : StepsRun) : Job :=
  { started setup j with
    steps := p.steps
    state := { (started setup j).state with counts := p.counts } }

def heldSigns (p : StepsRun) : List JobSign := entrance setup j w ++ p.signs

/-- The loop of a run that nothing breaks off. -/
def freeLoop : StepsRun := j.runSteps setup none w [] j.state.counts [] 0 j.steps

end Held

/-- The same run with nobody to cancel it. -/
def uncancelled (setup : RunSetup) : RunSetup := { setup with cancelAfter := none }

/-- What is seen of the loop is seen of the run. -/
theorem loop_shown {setup : RunSetup} {w : String} (hw : setup.workspace = .ok w) (j : Job)
    (limit : Option Span) (reason : String) :
    entrance setup j w ++ (stepsRun setup limit j w).signs <+:
      (j.runWithin setup limit reason).signs := by
  obtain ⟨last, hlast, _⟩ := settle_closes setup (started setup j) w
    (entrance setup j w ++ (stepsRun setup limit j w).signs) limit reason
    (stepsRun setup limit j w)
  rw [runWithin_somewhere setup limit reason j hw, hlast]
  exact List.prefix_append _ _

section Run

variable {setup : RunSetup} {limit : Option Span} {j : Job} {w : String} {p : StepsRun} {till : Nat}

/-- A run stops in the wait into which its limit or its cancellation falls. -/
theorem PausedRun.cut (h : PausedRun setup j w p till) (hstop : setup.stop limit = stop)
    (hin : inTime stop p.elapsed = true) (hout : inTime stop till = false) :
    ∃ e, stepsRun setup limit j w = { p with elapsed := e } := by
  obtain ⟨e, he⟩ := Paused.held h hin hout
  exact ⟨e, (stepsRun_eq ..).trans (hstop ▸ he)⟩

/-- A limit either lets the loop come to its end, or falls into one of its waits. -/
theorem stepsRun_cut (j : Job) (w : String) (hstop : setup.stop limit = stop) :
    (inTime stop (freeLoop setup j w).elapsed = true ∧
      stepsRun setup limit j w = freeLoop setup j w) ∨
    (inTime stop (freeLoop setup j w).elapsed = false ∧
      ∃ p till, PausedRun setup j w p till ∧ inTime stop p.elapsed = true ∧
        inTime stop till = false) := by
  rw [stepsRun_eq, hstop]
  exact runSteps_cut [] j.state.counts [] j.steps (inTime_zero _) rfl

/-- A run that goes on shows what was seen of it before, and more. -/
theorem PausedRun.shown (h : PausedRun setup j w p till) (hw : setup.workspace = .ok w)
    (hin : inTime limit p.elapsed = true) (reason : String) :
    heldSigns setup j w p <+: (j.runWithin (uncancelled setup) limit reason).signs := by
  have hon : (uncancelled setup).workspace = .ok w := hw
  refine List.IsPrefix.trans ?_ (loop_shown hon j limit reason)
  rw [stepsRun_eq, runSteps_congr (uncancelled setup) setup j j rfl rfl (fun _ => rfl) rfl]
  exact (List.prefix_append_right_inj _).mpr (Paused.shown h hin)

/-- Where a run of a fresh job is held up. -/
theorem PausedRun.front (h : PausedRun setup j w p till) (hf : Fresh j) :
    ∃ before s after ended lead body t, j.steps = before ++ s :: after ∧
      ended.map Step.fresh = before ∧ (∀ a ∈ after, a.state = .pending) ∧
      p.steps = ended ++ s.withState (.running t) :: after ∧
      Blocks setup j w 1 before ended lead ∧ (∀ x ∈ body, Within setup j w s x) ∧
      p.signs = lead ++ starting j (before.length + 1) s :: body ∧
      ended <+: (freeLoop setup j w).steps := by
  obtain ⟨before, s, after, ended, lead, body, t, hl, hsteps, hlead, hbody, hsigns, hkept⟩ :=
    Paused.front h hf.pending
  have hbefore : ∀ a ∈ before, a.state = .pending :=
    fun a ha => hf.pending a (hl ▸ List.mem_append_left _ ha)
  have hafter : ∀ a ∈ after, a.state = .pending :=
    fun a ha => hf.pending a (hl ▸ List.mem_append_right _ (List.mem_cons_of_mem _ ha))
  rw [List.length_nil, Nat.zero_add, Nat.add_comm] at hsigns
  exact ⟨before, s, after, ended, lead, body, t, hl, hlead.fresh.trans (fresh_map hbefore), hafter,
    hsteps, hlead, hbody, hsigns, hkept⟩

end Run

end ReleaseJob.Proofs
