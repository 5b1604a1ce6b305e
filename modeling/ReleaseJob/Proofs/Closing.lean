import ReleaseJob.Proofs.Loop

namespace ReleaseJob

/-- The step without its state. -/
def Step.fresh (s : Step) : Step := s.withState .pending

def Ending.status : Ending → Status
  | completed => .completed
  | failed _ => .failed
  | cancelled => .cancelled

namespace Proofs

structure Closed (j : Job) (r : Job.JobRun) : Prop where
  status : r.job.state.status = r.ending.status
  total : r.job.state.total = j.state.total
  counts : r.job.state.counts = .ofSteps r.job.steps
  same : r.job.steps.map Step.fresh = j.steps.map Step.fresh
  spent : ∀ s ∈ r.job.steps, s.isPending = false

theorem skipPending_fresh (reason : String) (l : List Step) :
    (skipPending reason l).map Step.fresh = l.map Step.fresh := by
  rw [skipPending, List.map_map]
  rfl

/-- A step in any other state is over, or it is running. -/
theorem skipPending_over (hs : s ∈ skipPending reason l) : s.isPending = false := by
  obtain ⟨t, _, rfl⟩ := List.mem_map.mp hs
  simp only [Step.isPending, StepState.skip]
  cases h : t.state.isPending with
  | true => rfl
  | false => exact h

theorem failRunning_fresh (error : String) (now : Instant) (l : List Step) :
    (Job.failRunning error now l).1.map Step.fresh = l.map Step.fresh := by
  induction l with
  | nil => rfl
  | cons s rest ih =>
    simp only [Job.failRunning]
    split
    · rfl
    · exact congrArg (s.fresh :: ·) ih

theorem interrupt_over (s : StepState) (reason : String) (now : Instant) :
    (s.interrupt reason now).isPending = false := by
  cases s <;> rfl

/-- The loop changes nothing of a step but its state. -/
theorem runSteps_fresh {setup : RunSetup} {limit : Option Span} {j : Job} {w : String}
    {done l : List Step} {counts : Counts} {past : List Invocation} {elapsed : Nat} {r : StepsRun}
    (hrun : j.runSteps setup limit w done counts past elapsed l = r) :
    r.steps.map Step.fresh = (done ++ l).map Step.fresh := by
  induction l generalizing done counts past elapsed r with
  | nil =>
    subst hrun
    simp [Job.runSteps]
  | cons s rest ih =>
    cases runSteps_turn hrun with
    | idle _ hn => simp [ih hn]
    | broken => simp [Step.fresh, Step.withState]
    | passed _ _ _ ht hn =>
      simp only [ih hn]
      simp [ht, Step.fresh, Step.withState]
    | failed _ _ _ ht =>
      simp only [List.map_append, List.map_cons, skipPending_fresh, ht]
      rfl

/-- Only a loop that was broken off leaves pending steps. -/
theorem runSteps_over {setup : RunSetup} {limit : Option Span} {j : Job} {w : String}
    {done l : List Step} {counts : Counts} {past : List Invocation} {elapsed : Nat} {r : StepsRun}
    (hrun : j.runSteps setup limit w done counts past elapsed l = r) (hb : r.ending ≠ .broken)
    (hd : ∀ s ∈ done, s.isPending = false) : ∀ s ∈ r.steps, s.isPending = false := by
  induction l generalizing done counts past elapsed r with
  | nil =>
    subst hrun
    exact hd
  | cons s rest ih =>
    have hd' (t : Step) (ht : t.isPending = false) : ∀ s ∈ done ++ [t], s.isPending = false := by
      intro u hu
      rcases List.mem_append.mp hu with hu | hu
      · exact hd u hu
      · rw [List.mem_singleton.mp hu]
        exact ht
    cases runSteps_turn hrun with
    | idle hs hn => exact ih hn hb (hd' s hs)
    | broken => exact absurd rfl hb
    | @passed _ _ t _ _ _ _ ht hn =>
      have hover : t.isPending = false := by
        rw [ht]
        rfl
      have hnext := ih hn hb (hd' t hover)
      exact hnext
    | failed _ _ _ ht =>
      intro u hu
      rcases List.mem_append.mp hu with hu | hu
      · exact hd u hu
      · rcases List.mem_cons.mp hu with rfl | hu
        · rw [ht]
          rfl
        · exact skipPending_over hu

section Endings

variable {setup : RunSetup} {limit : Option Span} {reason w : String} {j₀ j : Job}
  {signs : List JobSign} {result : Except JobError Unit} {now : Instant} {r : StepsRun}

theorem tearDown_closed (hf : j.steps.map Step.fresh = j₀.steps.map Step.fresh)
    (ht : j.state.total = j₀.state.total) (ho : ∀ s ∈ j.steps, s.isPending = false) :
    Closed j₀ (j.tearDown setup w signs result now) := by
  cases result with
  | ok => exact ⟨rfl, ht, rfl, hf, ho⟩
  | error e => exact ⟨rfl, ht, rfl, hf, ho⟩

theorem cancel_closed (hf : j.steps.map Step.fresh = j₀.steps.map Step.fresh)
    (ht : j.state.total = j₀.state.total) :
    Closed j₀ ⟨j.cancel reason now, signs, .cancelled⟩ := by
  refine ⟨rfl, ht, rfl, ?_, ?_⟩
  · change (j.steps.map _).map Step.fresh = _
    rw [List.map_map]
    exact hf
  · intro s hs
    obtain ⟨t, _, rfl⟩ := List.mem_map.mp hs
    exact interrupt_over t.state reason now

theorem timeOut_closed (hf : j.steps.map Step.fresh = j₀.steps.map Step.fresh)
    (ht : j.state.total = j₀.state.total) : Closed j₀ (j.timeOut setup w signs now) := by
  unfold Job.timeOut
  refine tearDown_closed ?_ ht ?_
  · change (skipPending _ _).map Step.fresh = _
    rw [skipPending_fresh, failRunning_fresh, hf]
  · exact fun s hs => skipPending_over hs

/-- Only a loop that was broken off leaves steps pending, and these are skipped at the end. -/
theorem settle_closed (hf : r.steps.map Step.fresh = j.steps.map Step.fresh)
    (ho : r.ending ≠ .broken → ∀ s ∈ r.steps, s.isPending = false) :
    Closed j (j.settle setup limit reason w signs r) := by
  unfold Job.settle
  cases he : r.ending with
  | done => exact tearDown_closed hf rfl (ho (by simp [he]))
  | failed e => exact tearDown_closed hf rfl (ho (by simp [he]))
  | broken =>
    dsimp only
    split
    · exact cancel_closed hf rfl
    · exact timeOut_closed hf rfl

theorem settle_ending : (j.settle setup limit reason w signs r).ending =
    match r.ending with
    | .done => .completed
    | .failed e => .failed e
    | .broken =>
      if setup.cancelsWithin limit then .cancelled else .failed (.timeout j.timeout) := by
  unfold Job.settle
  cases r.ending with
  | done => rfl
  | failed e => rfl
  | broken =>
    dsimp only
    split <;> rfl

end Endings

section Run

variable (setup : RunSetup) (limit : Option Span) (reason : String) (j : Job)

/-- The job at the start of its run. -/
def started : Job := { j with state := j.state.start j.steps.length setup.start }

/-- The loop of a run that found a place for its commands. -/
def stepsRun (w : String) : StepsRun :=
  (started setup j).runSteps setup (setup.stop limit) w [] j.state.counts [] 0 j.steps

/-- What is seen before the first step. -/
def entrance (w : String) : List JobSign :=
  (started setup j).opening ++ [.opened w, .log ⟨.debug, s!"Job workspace: {w}"⟩]

theorem runWithin_somewhere (hw : setup.workspace = .ok w) :
    j.runWithin setup limit reason =
      (started setup j).settle setup limit reason w
        (entrance setup j w ++ (stepsRun setup limit j w).signs) (stepsRun setup limit j w) := by
  simp only [Job.runWithin, hw, Job.runIn, entrance, List.append_assoc]
  rfl

theorem runWithin_nowhere (hw : setup.workspace = .error cause) :
    j.runWithin setup limit reason = (started setup j).runNowhere setup cause := by
  simp only [Job.runWithin, hw]
  rfl

/-- A run without a workspace skips all that is pending, and then no step is. -/
theorem runNowhere_closed (cause : OsError) : Closed j (j.runNowhere setup cause) :=
  ⟨rfl, rfl, rfl, skipPending_fresh .., fun _ hs => skipPending_over hs⟩

theorem runWithin_closed :
    Closed (started setup j) (j.runWithin setup limit reason) := by
  cases hw : setup.workspace with
  | error cause =>
    rw [runWithin_nowhere setup limit reason j hw]
    exact runNowhere_closed ..
  | ok w =>
    rw [runWithin_somewhere setup limit reason j hw]
    apply settle_closed
    · exact runSteps_fresh rfl
    · exact fun hb => runSteps_over rfl hb (by simp)

end Run

end Proofs

end ReleaseJob
