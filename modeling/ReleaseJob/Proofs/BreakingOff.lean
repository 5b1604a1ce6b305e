import Mathlib.Data.List.Forall2
import ReleaseJob.Proofs.Settlement

namespace ReleaseJob.Proofs

/-- How the state of a step changes when its job is broken off. -/
inductive Stops (reason : String) (now : Instant) : StepState → StepState → Prop
  | running {started : Instant} : Stops reason now (.running started) (.failed reason started now)
  | pending : Stops reason now .pending (.skipped reason)
  | final {state : StepState} (h : state.isFinal = true) : Stops reason now state state

/-- Nothing of a step changes but its state. -/
structure StepStops (reason : String) (now : Instant) (s t : Step) : Prop where
  same : t = s.withState t.state
  state : Stops reason now s.state t.state

/-- A job and what is left of it. Only its steps, its status, its end and its counts are other than
they were. -/
structure BrokenOff (reason : String) (now : Instant) (j left : Job) : Prop where
  steps : List.Forall₂ (StepStops reason now) j.steps left.steps
  same : left = { j with
    steps := left.steps
    state := { j.state with
      status := left.state.status, ended := left.state.ended, counts := left.state.counts } }
  status : left.state.status = .cancelled
  ended : left.state.ended = some now
  counts : left.state.counts = .ofSteps left.steps

section State

variable {reason : String} {now : Instant} {s t : StepState}

theorem Stops.isFinal (h : Stops reason now s t) : t.isFinal = true := by
  cases h with
  | running | pending => rfl
  | final h => exact h

theorem Stops.isCompleted (h : Stops reason now s t) : t.isCompleted = s.isCompleted := by
  cases h with
  | running | pending | final => rfl

/-- A step counts as failed if it had failed before, or was running. -/
theorem Stops.isFailed (h : Stops reason now s t) : t.isFailed = (s.isFailed || s.isRunning) := by
  cases h with
  | running | pending => rfl
  | final h => rw [(idle_of_final h).2, Bool.or_false]

end State

section Steps

variable {reason : String} {now : Instant} {l m : List Step}
  (h : List.Forall₂ (StepStops reason now) l m)
include h

theorem final_of_stops : ∀ t ∈ m, t.state.isFinal = true := by
  induction h with
  | nil => nofun
  | cons hs _ ih =>
    intro t ht
    rcases List.mem_cons.mp ht with rfl | ht
    · exact hs.state.isFinal
    · exact ih t ht

end Steps

section Job

variable {reason : String} {now : Instant} {j left : Job}

theorem BrokenOff.final (h : BrokenOff reason now j left) :
    ∀ t ∈ left.steps, t.state.isFinal = true :=
  final_of_stops h.steps

/-- No step is pending any more, so that no step comes next. -/
theorem BrokenOff.nextStep? (h : BrokenOff reason now j left) : left.nextStep? = none := by
  have hpending : left.steps.findIdx? Step.isPending = none := by
    apply List.findIdx?_eq_none_iff.mpr
    intro t ht
    exact (idle_of_final (h.final t ht)).1
  rw [Job.nextStep?, hpending, ite_self]

/-- The counts are made anew, so those that the job had before do not matter. -/
theorem BrokenOff.sum (h : BrokenOff reason now j left) :
    left.state.counts.sum = left.steps.length := by
  rw [h.counts]
  exact ofSteps_sum h.final

end Job

end ReleaseJob.Proofs
