import ReleaseJob.Proofs.Plan
import ReleaseJob.Proofs.Settlement

namespace ReleaseJob.Proofs

section Course

variable (setup : RunSetup) (j : Job) (w : String)

/-- What a step may show between its start and its end. -/
def Within (s : Step) : JobSign → Prop
  | .log _ => True
  | .invoked i => ready setup j w s = true ∧ i ∈ demand setup j w s
  | .event (.stepOutput id _ _) => id = s.id
  | _ => False

/-- Steps that complete, the first of them at a place: as they were, as they are left, and what is
seen of them. -/
inductive Blocks : Nat → List Step → List Step → List JobSign → Prop
  | nil {place : Nat} : Blocks place [] [] []
  | cons {place : Nat} {s : Step} {output : String} {t u : Instant} {rest ended : List Step}
      {body signs : List JobSign} (hb : ∀ x ∈ body, Within setup j w s x)
      (h : Blocks (place + 1) rest ended signs) :
      Blocks place (s :: rest) (s.withState (.completed output t u) :: ended)
        (starting j place s :: body ++ .event (.stepCompleted s.id) :: signs)

/-- The error that a step is left with when its job fails with a fault: its own one, or the text of
the timeout. -/
inductive Faults (kind : StepKind) : JobError → String → Prop
  | own {error : String} : Faults kind (.step kind error) error
  | timeout {limit : Span} : Faults kind (.timeout limit) (JobError.timeout limit).message

/-- The steps of a loop as they were, as they are left, and what is seen of them until the loop
ends. -/
inductive Course (place : Nat) : List Step → List Step → List JobSign → StepsEnding → Prop
  | done {l ended : List Step} {signs : List JobSign} (h : Blocks setup j w place l ended signs) :
      Course place l ended signs .done
  | failed {before ended after : List Step} {lead body : List JobSign} {s : Step}
      {error reason : String} {t u : Instant} {fault : JobError}
      (h : Blocks setup j w place before ended lead) (hb : ∀ x ∈ body, Within setup j w s x)
      (hf : Faults s.kind fault error) :
      Course place (before ++ s :: after)
        (ended ++ s.withState (.failed error t u) :: after.map (·.withState (.skipped reason)))
        (lead ++ starting j (place + before.length) s :: body ++ .event (.stepFailed s.id error) ::
          after.map fun a => .event (.stepSkipped a.id reason))
        (.failed fault)
  | broken {before ended after : List Step} {lead body : List JobSign} {s : Step} {t : Instant}
      (h : Blocks setup j w place before ended lead) (hb : ∀ x ∈ body, Within setup j w s x) :
      Course place (before ++ s :: after) (ended ++ s.withState (.running t) :: after)
        (lead ++ starting j (place + before.length) s :: body) .broken

end Course

variable {setup : RunSetup} {limit : Option Span} {j : Job} {w : String} {s : Step} {place : Nat}
  {l steps ended : List Step} {signs body : List JobSign} {ending : StepsEnding}

theorem Blocks.fresh (h : Blocks setup j w place l ended signs) :
    ended.map Step.fresh = l.map Step.fresh := by
  induction h with
  | nil => rfl
  | @cons _ s _ _ _ _ _ _ _ _ _ ih => exact congrArg (s.fresh :: ·) ih

/-- Only the step of the last block may come to another end. -/
theorem Blocks.completed (h : Blocks setup j w place l ended signs) :
    ∀ s ∈ ended, s.state.isCompleted = true := by
  induction h with
  | nil => nofun
  | cons _ _ ih =>
    intro s hs
    rcases List.mem_cons.mp hs with rfl | hs
    · rfl
    · exact ih s hs

/-- A step that completes goes in front of the course of the steps after it. -/
theorem Course.cons {output : String} {t u : Instant} (hb : ∀ x ∈ body, Within setup j w s x)
    (h : Course setup j w (place + 1) l steps signs ending) :
    Course setup j w place (s :: l) (s.withState (.completed output t u) :: steps)
      (starting j place s :: body ++ .event (.stepCompleted s.id) :: signs) ending := by
  have hfront {before ended : List Step} {lead : List JobSign}
      (h : Blocks setup j w (place + 1) before ended lead) :
      Blocks setup j w place (s :: before) (s.withState (.completed output t u) :: ended)
        (starting j place s :: body ++ .event (.stepCompleted s.id) :: lead) := .cons hb h
  have hplace (before : List Step) :
      place + 1 + before.length = place + (s :: before).length := by
    rw [List.length_cons]
    omega
  cases h with
  | done h => exact .done (hfront h)
  | failed h hr hf =>
    rw [hplace]
    simpa only [List.cons_append, List.append_assoc] using Course.failed (hfront h) hr hf
  | broken h hr =>
    rw [hplace]
    simpa only [List.cons_append, List.append_assoc] using Course.broken (hfront h) hr

/-- Whatever a step comes to, it invokes a first part of what it asks for. -/
theorem runCommands_invokes (runner : Runner) (limit : Option Span) (id : String) (c : StepContext)
    (transcript : List String) (past : List Invocation) (elapsed : Nat)
    (commands : List (List String)) :
    (Step.runCommands runner limit id c transcript past elapsed commands).signs.filterMap
      StepSign.invocation? <+: asked c commands := by
  fun_induction Step.runCommands runner limit id c transcript past elapsed commands with
  | case1 => exact List.nil_prefix
  | case2 => exact List.nil_prefix
  | case3 _ past _ argv rest _ hb i _ _ _ lines signs =>
    rw [asked_cons hb, command_signs _ i lines]
    exact ⟨_, rfl⟩
  | case4 _ past _ argv rest _ hb i _ _ _ lines signs =>
    have hs (l : LogLine) : (signs ++ [StepSign.log l]).filterMap StepSign.invocation? = [i] :=
      (snoc_log_signs signs l).trans (command_signs _ i lines)
    rw [asked_cons hb]
    exact ⟨_, congrArg (· ++ asked c rest) (hs _)⟩
  | case5 _ past _ argv rest _ hb i _ _ _ lines signs _ _ _ _ _ _ ih =>
    have hs : signs.filterMap StepSign.invocation? = [i] := command_signs _ i lines
    rw [asked_cons hb, StepRun.after, List.filterMap_append, hs]
    exact (List.prefix_cons_inj i).mpr ih
  | case6 _ past _ argv rest _ hb i _ _ _ lines signs =>
    have hs (l : LogLine) : (signs ++ [StepSign.log l]).filterMap StepSign.invocation? = [i] :=
      (snoc_log_signs signs l).trans (command_signs _ i lines)
    rw [asked_cons hb]
    exact ⟨_, congrArg (· ++ asked c rest) (hs _)⟩

/-- A step shows nothing but its own, and only a step that is ready invokes anything. -/
theorem stepRun_within {past : List Invocation} {elapsed : Nat} {r : StepRun}
    (he : stepRun setup limit j w past elapsed s = r) :
    ∀ x ∈ r.signs.map (.ofStep (contextOf setup j w s)), Within setup j w s x := by
  intro x hx
  obtain ⟨y, hy, rfl⟩ := List.mem_map.mp hx
  cases y with
  | log l => trivial
  | line stream text => rfl
  | invoked i =>
    have hm : i ∈ r.signs.filterMap StepSign.invocation? := List.mem_filterMap.mpr ⟨_, hy, rfl⟩
    subst he
    unfold stepRun Step.run at hm
    cases hmissing : (contextOf setup j w s).missing.isEmpty with
    | false =>
      simp [hmissing, StepRun.failure, StepSign.invocation?] at hm
    | true =>
      simp only [hmissing, ↓reduceIte, StepRun.after, List.cons_append, List.nil_append] at hm
      have hd : i ∈ demand setup j w s := (runCommands_invokes ..).subset hm
      refine ⟨?_, hd⟩
      rw [ready, ← missing_isEmpty setup j w s, hmissing, Bool.true_and]
      refine Bool.not_eq_false _ |>.mp fun hc => ?_
      rw [demand, asked_of_empty hc] at hd
      cases hd

theorem skipPending_eq (h : ∀ s ∈ l, s.state = .pending) (reason : String) :
    skipPending reason l = l.map (·.withState (.skipped reason)) := by
  refine List.map_congr_left fun s hs => ?_
  rw [h s hs]
  rfl

theorem skipEvents_eq (h : ∀ s ∈ l, s.state = .pending) (reason : String) :
    skipEvents reason l = l.map fun s => .event (.stepSkipped s.id reason) := by
  have hall : l.filter Step.isPending = l := by
    refine List.filter_eq_self.mpr fun s hs => ?_
    rw [Step.isPending, h s hs]
    rfl
  rw [skipEvents, hall]

/-- Every loop over pending steps has a course. -/
theorem runSteps_course {done l : List Step} {counts : Counts} {past : List Invocation}
    {elapsed : Nat} {r : StepsRun}
    (hrun : j.runSteps setup limit w done counts past elapsed l = r)
    (hl : ∀ s ∈ l, s.state = .pending) :
    ∃ steps, r.steps = done ++ steps ∧
      Course setup j w (done.length + 1) l steps r.signs r.ending := by
  induction l generalizing done counts past elapsed r with
  | nil =>
    subst hrun
    exact ⟨[], (List.append_nil _).symm, .done .nil⟩
  | cons s rest ih =>
    have hrest : ∀ t ∈ rest, t.state = .pending := fun t ht => hl t (List.mem_cons_of_mem _ ht)
    cases runSteps_turn hrun with
    | idle hs _ =>
      rw [Step.isPending, hl s List.mem_cons_self] at hs
      cases hs
    | broken hs he hr => exact ⟨_, rfl, .broken .nil (stepRun_within he)⟩
    | @passed r _ t _ hs he hr ht hn =>
      obtain ⟨steps, hsteps, hcourse⟩ := ih hn hrest
      rw [List.length_append] at hcourse
      refine ⟨t :: steps, ?_, ?_⟩
      · rw [hsteps, List.append_assoc, List.singleton_append]
      · subst ht
        exact hcourse.cons (stepRun_within he)
    | failed hs he hr ht =>
      rw [skipPending_eq hrest, skipEvents_eq hrest, ht]
      exact ⟨_, rfl, .failed .nil (stepRun_within he) .own⟩

/-- That a job is on its way makes no difference to its steps. -/
theorem stepsRun_eq (setup : RunSetup) (limit : Option Span) (j : Job) (w : String) :
    stepsRun setup limit j w =
      j.runSteps setup (setup.stop limit) w [] j.state.counts [] 0 j.steps :=
  runSteps_congr setup setup (started setup j) j rfl rfl (fun _ => rfl) rfl ..

/-- All steps of a fresh job are pending, so that its blocks are numbered by their places in the
job. -/
theorem stepsRun_course (hf : Fresh j) :
    Course setup j w 1 j.steps (stepsRun setup limit j w).steps (stepsRun setup limit j w).signs
      (stepsRun setup limit j w).ending := by
  obtain ⟨steps, hsteps, hcourse⟩ := runSteps_course (stepsRun_eq setup limit j w).symm hf.pending
  rw [hsteps]
  exact hcourse

section Signs

theorem Within.visible (hb : ∀ x ∈ body, Within setup j w s x) :
    ∀ x ∈ visible body, Within setup j w s x :=
  fun x hx => hb x (List.mem_filter.mp hx).1

theorem visible_skips (reason : String) (l : List Step) :
    visible (l.map fun s => .event (.stepSkipped s.id reason)) =
      l.map fun s => .event (.stepSkipped s.id reason) := by
  refine List.filter_eq_self.mpr fun x hx => ?_
  obtain ⟨s, _, rfl⟩ := List.mem_map.mp hx
  rfl

theorem Blocks.visible (h : Blocks setup j w place l ended signs) :
    Blocks setup j w place l ended (visible signs) := by
  induction h with
  | nil => exact .nil
  | cons hb h ih =>
    rw [visible_append]
    exact .cons (Within.visible hb) ih

/-- A course is told without the log. -/
theorem Course.visible (h : Course setup j w place l steps signs ending) :
    Course setup j w place l steps (visible signs) ending := by
  cases h with
  | done h => exact .done h.visible
  | failed h hb hf =>
    rw [visible_append, visible_append, visible_event, visible_skips]
    exact .failed h.visible (Within.visible hb) hf
  | broken h hb =>
    rw [visible_append]
    exact .broken h.visible (Within.visible hb)

end Signs

section Places

theorem Within.unplaced {x : JobSign} (h : Within setup j w s x) : x.place? = none := by
  cases x with
  | event e => cases e <;> first | rfl | cases h
  | log | opened | invoked | closed => rfl

/-- A step invokes only what it asks for itself, and nothing unless its secrets are all at hand. -/
theorem Within.demanded (hb : ∀ x ∈ body, Within setup j w s x) (hi : i ∈ invocations body) :
    ready setup j w s = true ∧ i ∈ demand setup j w s := by
  obtain ⟨x, hx, he⟩ := List.mem_filterMap.mp hi
  cases x with
  | invoked i =>
    cases he
    exact hb _ hx
  | log | event | opened | closed => cases he

/-- What a step invokes is found at its place. -/
theorem placed_block (hb : ∀ x ∈ body, Within setup j w s x) (p : Nat) :
    placed p (starting j place s :: body) = (invocations body).map (place, ·) :=
  placed_unstarted fun x hx => (hb x hx).unplaced

/-- An invocation at the place of a step that is ready and asks for it. -/
def AtPlace (setup : RunSetup) (j : Job) (w : String) (place : Nat) (l : List Step)
    (e : Nat × Invocation) : Prop :=
  ∃ k s, e.1 = place + k ∧ l[k]? = some s ∧ ready setup j w s = true ∧ e.2 ∈ demand setup j w s

theorem AtPlace.here (hb : ∀ x ∈ body, Within setup j w s x)
    (he : e ∈ (invocations body).map (place, ·)) : AtPlace setup j w place (s :: l) e := by
  obtain ⟨i, hi, rfl⟩ := List.mem_map.mp he
  exact ⟨0, s, rfl, rfl, Within.demanded hb hi⟩

theorem AtPlace.behind {a b : List Step} (h : AtPlace setup j w (place + a.length) b e) :
    AtPlace setup j w place (a ++ b) e := by
  obtain ⟨k, s, he, hs, hd⟩ := h
  refine ⟨a.length + k, s, by omega, ?_, hd⟩
  rw [List.getElem?_append_right (Nat.le_add_right _ _), Nat.add_sub_cancel_left]
  exact hs

theorem AtPlace.within {a b : List Step} (h : AtPlace setup j w place a e) :
    AtPlace setup j w place (a ++ b) e := by
  obtain ⟨k, s, he, hs, hd⟩ := h
  refine ⟨k, s, he, ?_, hd⟩
  rw [List.getElem?_append_left (List.getElem?_eq_some_iff.mp hs).1]
  exact hs

theorem Blocks.placed (h : Blocks setup j w place l ended signs) (p : Nat) :
    ∀ e ∈ placed p signs, AtPlace setup j w place l e := by
  induction h generalizing p with
  | nil => nofun
  | @cons place s _ _ _ rest _ body _ hb h ih =>
    intro e he
    rw [placed_append, placed_block hb] at he
    rcases List.mem_append.mp he with he | he
    · exact .here hb he
    · exact .behind (a := [s]) (ih _ e he)

/-- The step after the blocks has its place behind them. -/
theorem Blocks.placed_next {before after : List Step}
    (h : Blocks setup j w place before ended signs) (hb : ∀ x ∈ body, Within setup j w s x)
    (p : Nat) : ∀ e ∈ Proofs.placed p (signs ++ starting j (place + before.length) s :: body),
      AtPlace setup j w place (before ++ s :: after) e := by
  intro e he
  rw [placed_append, placed_block hb] at he
  rcases List.mem_append.mp he with he | he
  · exact .within (h.placed p e he)
  · exact .behind (.here hb he)

/-- Every invocation stands in the block of a step that asks for it. -/
theorem Course.placed (h : Course setup j w place l steps signs ending) (p : Nat) :
    ∀ e ∈ placed p signs, AtPlace setup j w place l e := by
  cases h with
  | done h => exact h.placed p
  | failed h hb hf =>
    rw [(Closes.append _ fun x hx => ?_).placed_eq p]
    · exact h.placed_next hb p
    · rcases List.mem_cons.mp hx with rfl | hx
      · rfl
      · obtain ⟨s, _, rfl⟩ := List.mem_map.mp hx
        rfl
  | broken h hb => exact h.placed_next hb p

/-- What a run invokes is found at the place of a step that asks for it. -/
theorem runWithin_placed (hf : Fresh j) (setup : RunSetup) (limit : Option Span) (reason : String) :
    ∀ e ∈ placed 0 (j.runWithin setup limit reason).signs,
      ∃ w, setup.workspace = .ok w ∧ AtPlace setup j w 1 j.steps e := by
  intro e he
  cases hw : setup.workspace with
  | error cause =>
    rw [runWithin_nowhere setup limit reason j hw, (runNowhere_closes ..).placed_eq] at he
    cases he
  | ok w =>
    rw [runWithin_somewhere setup limit reason j hw, (settle_closes ..).placed_eq,
      placed_append] at he
    exact ⟨w, rfl, (stepsRun_course hf).placed _ e he⟩

end Places

section Endings

variable {k : Job} {before after : List Step} {t : Instant}

theorem tearDown_visible (setup : RunSetup) (k : Job) (w : String) (signs : List JobSign)
    (result : Except JobError Unit) (now : Instant) :
    visible (k.tearDown setup w signs result now).signs =
      visible signs ++ [.closed w, .event (.tornDown k.state.id),
        .event (.ended k.state.id (k.tearDown setup w signs result now).job.state.status)] := by
  cases result <;> simp only [Job.tearDown, visible_append] <;> rfl

/-- No step is told to be skipped that was not pending. -/
theorem skipEvents_over (h : ∀ s ∈ l, s.isPending = false) (reason : String) :
    skipEvents reason l = [] := by
  rw [skipEvents, List.filter_eq_nil_iff.mpr fun s hs => by simp [h s hs]]
  rfl

theorem skipEvents_append (reason : String) (a b : List Step) :
    skipEvents reason (a ++ b) = skipEvents reason a ++ skipEvents reason b := by
  rw [skipEvents, List.filter_append, List.map_append]
  rfl

/-- At its timeout a run fails the step that is running and skips the ones after it. -/
theorem timeOut_eq (hk : k.steps = before ++ s.withState (.running t) :: after)
    (hp : ∀ s ∈ before, s.state.isCompleted = true) (hq : ∀ s ∈ after, s.state = .pending)
    (setup : RunSetup) (w : String) (signs : List JobSign) (now : Instant) :
    ∃ fault, k.timeOut setup w signs now = Job.tearDown setup
        { k with steps := before ++
            s.withState (.failed (JobError.timeout k.timeout).message t now) ::
              after.map (·.withState (.skipped "job timed out")) } w
        (signs ++ .log fault ::
          .event (.stepFailed s.id (JobError.timeout k.timeout).message) ::
            after.map fun a => .event (.stepSkipped a.id "job timed out"))
        (.error (.timeout k.timeout)) now := by
  refine ⟨⟨.error, s!"Pipeline {k.name} exceeded its timeout of {k.timeout.exactText}"⟩, ?_⟩
  generalize he : (JobError.timeout k.timeout).message = error
  have hover : ∀ s ∈ before, s.isPending = false := fun s hm => not_pending_of_completed (hp s hm)
  have hpair : Job.failRunning error now k.steps =
      (before ++ s.withState (.failed error t now) :: after, [.event (.stepFailed s.id error)]) := by
    rw [hk]
    exact failRunning_eq hp rfl error now after
  have hsteps : skipPending "job timed out" (before ++ s.withState (.failed error t now) :: after) =
      before ++ s.withState (.failed error t now) ::
        after.map (·.withState (.skipped "job timed out")) := by
    rw [skipPending_append, skipPending_over_eq hover]
    exact congrArg (before ++ _ :: ·) (skipPending_eq hq _)
  have hevents : skipEvents "job timed out" (before ++ s.withState (.failed error t now) :: after) =
      after.map fun a => .event (.stepSkipped a.id "job timed out") := by
    rw [skipEvents_append, skipEvents_over hover, List.nil_append]
    exact skipEvents_eq hq _
  simp only [Job.timeOut, he, hpair, hsteps, hevents]
  rw [List.append_assoc]
  rfl

end Endings

end ReleaseJob.Proofs
