import Mathlib.Data.List.Forall2
import ReleaseJob.Proofs.Closing

namespace ReleaseJob

/-- What a run that is broken off leaves of the step that it was at. -/
def RunSetup.breakText (setup : RunSetup) (limit : Option Span) (reason : String) (j : Job) :
    String :=
  if setup.cancelsWithin limit then reason else (JobError.timeout j.timeout).message

namespace Proofs

section Loop

variable (setup : RunSetup) (limit : Option Span) (j : Job) (w : String)

/-- What a loop makes of a step that has `k` steps before it, and what is seen of it meanwhile. -/
inductive Fate (k : Nat) (s : Step) : Step → List JobSign → Prop
  | unmoved : Fate k s s []
  | skipped {reason : String} :
      Fate k s (s.withState (.skipped reason)) [.event (.stepSkipped s.id reason)]
  | held {past : List Invocation} {elapsed : Nat} {r : StepRun} {t : Instant}
      (he : stepRun setup limit j w past elapsed s = r) (hr : r.result = none) :
      Fate k s (s.withState (.running t)) (stepSigns setup j w (k + 1) s r)
  | passed {past : List Invocation} {elapsed : Nat} {r : StepRun} {output : String} {t u : Instant}
      (he : stepRun setup limit j w past elapsed s = r) (hr : r.result = some (.success output)) :
      Fate k s (s.withState (.completed output t u))
        (stepSigns setup j w (k + 1) s r ++ [.event (.stepCompleted s.id)])
  | failed {past : List Invocation} {elapsed : Nat} {r : StepRun} {error output : String}
      {t u : Instant} (he : stepRun setup limit j w past elapsed s = r)
      (hr : r.result = some (.failed error output)) :
      Fate k s (s.withState (.failed error t u))
        (stepSigns setup j w (k + 1) s r ++ [.event (.stepFailed s.id error)])

/-- One fate for each step, in their order. -/
inductive Fates : Nat → List Step → List Step → List JobSign → Prop
  | nil {k : Nat} : Fates k [] [] []
  | cons {k : Nat} {s t : Step} {rest ended : List Step} {signs more : List JobSign}
      (h : Fate setup limit j w k s t signs) (hr : Fates (k + 1) rest ended more) :
      Fates k (s :: rest) (t :: ended) (signs ++ more)

end Loop

variable {setup : RunSetup} {limit : Option Span} {reason w : String} {j : Job}
  {l ended : List Step} {signs : List JobSign}

/-- Once the loop has ended, nothing happens to the steps that are left. -/
theorem Fates.unmoved (l : List Step) (k : Nat) : Fates setup limit j w k l l [] := by
  induction l generalizing k with
  | nil => exact .nil
  | cons s rest ih => exact .cons .unmoved (ih (k + 1))

theorem Fates.skipped (reason : String) (l : List Step) (k : Nat) :
    Fates setup limit j w k l (skipPending reason l) (skipEvents reason l) := by
  induction l generalizing k with
  | nil => exact .nil
  | cons s rest ih =>
    cases hs : s.isPending with
    | true =>
      have hstate : s.state.skip reason = .skipped reason := if_pos hs
      have hsteps : skipPending reason (s :: rest) =
          s.withState (.skipped reason) :: skipPending reason rest := by
        rw [← hstate]
        rfl
      have hsigns : skipEvents reason (s :: rest) =
          [.event (.stepSkipped s.id reason)] ++ skipEvents reason rest := by
        simp [skipEvents, hs]
      rw [hsteps, hsigns]
      exact .cons .skipped (ih (k + 1))
    | false =>
      have hstate : s.state.skip reason = s.state := if_neg (by simpa [Step.isPending] using hs)
      have hsteps : skipPending reason (s :: rest) = s :: skipPending reason rest := by
        simp [skipPending, hstate]
      have hsigns : skipEvents reason (s :: rest) = [] ++ skipEvents reason rest := by
        simp [skipEvents, hs]
      rw [hsteps, hsigns]
      exact .cons .unmoved (ih (k + 1))

/-- The loop gives each step one fate, at the place that the steps done before it leave. -/
theorem runSteps_fates {done : List Step} {counts : Counts} {past : List Invocation} {elapsed : Nat}
    {r : StepsRun} (hrun : j.runSteps setup limit w done counts past elapsed l = r) :
    ∃ ended, r.steps = done ++ ended ∧ Fates setup limit j w done.length l ended r.signs := by
  induction l generalizing done counts past elapsed r with
  | nil =>
    subst hrun
    exact ⟨[], (List.append_nil done).symm, .nil⟩
  | cons s rest ih =>
    have hnext (t : Step) : (done ++ [t]).length = done.length + 1 := by simp
    cases runSteps_turn hrun with
    | idle hs hn =>
      obtain ⟨ended, hsteps, hf⟩ := ih hn
      refine ⟨s :: ended, by simp [hsteps], ?_⟩
      rw [hnext s] at hf
      rw [← List.nil_append r.signs]
      exact .cons .unmoved hf
    | @broken r _ he hr =>
      refine ⟨_, rfl, ?_⟩
      rw [← List.append_nil (stepSigns setup j w (done.length + 1) s r)]
      exact .cons (.held he hr) (.unmoved rest _)
    | @passed _ _ t _ _ he hr ht hn =>
      obtain ⟨ended, hsteps, hf⟩ := ih hn
      refine ⟨t :: ended, by simp [hsteps], ?_⟩
      dsimp only
      rw [List.append_cons]
      rw [hnext t] at hf
      subst ht
      exact .cons (.passed he hr) hf
    | failed _ he hr ht =>
      refine ⟨_, rfl, ?_⟩
      dsimp only
      rw [List.append_cons]
      subst ht
      exact .cons (.failed he hr) (.skipped _ rest _)

/-- How the end of a run leaves a step: if it was running it fails with a fault. -/
inductive LeftBy (fault : String) (s : Step) : Step → Prop
  | same : LeftBy fault s s
  | stopped {t u : Instant} (hs : s.state = .running t) :
      LeftBy fault s (s.withState (.failed fault t u))
  | skipped {reason : String} (hs : s.state = .pending) :
      LeftBy fault s (s.withState (.skipped reason))

theorem LeftBy.unchanged {fault : String} {s : Step} {state : StepState} (hs : s.state = state) :
    LeftBy fault s (s.withState state) := by
  subst hs
  exact .same

theorem interrupt_leaves (reason : String) (now : Instant) (s : Step) :
    LeftBy reason s { s with state := s.state.interrupt reason now } := by
  cases hs : s.state with
  | pending => exact .skipped hs
  | running t => exact .stopped hs
  | completed | failed | skipped => exact .unchanged hs

theorem skipPending_leaves (fault reason : String) (l : List Step) :
    List.Forall₂ (LeftBy fault) l (skipPending reason l) := by
  refine List.forall₂_map_right_iff.mpr (List.forall₂_same.mpr fun s _ => ?_)
  cases hs : s.state with
  | pending => exact .skipped hs
  | running | completed | failed | skipped => exact .unchanged hs

/-- At the timeout a step fails if it is the first that is running, and those that are pending are
skipped. -/
theorem failRunning_leaves (fault reason : String) (now : Instant) (l : List Step) :
    List.Forall₂ (LeftBy fault) l (skipPending reason (Job.failRunning fault now l).1) := by
  induction l with
  | nil => exact .nil
  | cons s rest ih =>
    rw [Job.failRunning]
    split
    · next hs =>
      refine .cons ?_ (skipPending_leaves fault reason rest)
      cases hstate : s.state with
      | running t => exact .stopped hstate
      | pending | completed | failed | skipped =>
        rw [hstate] at hs
        cases hs
    · obtain ⟨hskip, -⟩ := List.forall₂_cons.mp (skipPending_leaves fault reason [s])
      exact .cons hskip ih

/-- At the end of a run only steps that are running or pending change. -/
theorem settle_leaves (r : StepsRun) :
    List.Forall₂ (LeftBy (setup.breakText limit reason j)) r.steps
      (j.settle setup limit reason w signs r).job.steps := by
  unfold Job.settle RunSetup.breakText
  cases r.ending with
  | done => exact List.forall₂_same.mpr fun s _ => .same
  | failed e => exact List.forall₂_same.mpr fun s _ => .same
  | broken =>
    dsimp only
    split
    · exact List.forall₂_map_right_iff.mpr (List.forall₂_same.mpr fun s _ => interrupt_leaves ..)
    · exact failRunning_leaves ..

/-- A relation on a list and one on what became of it, put together. -/
theorem forall₂_comp {R : α → β → Prop} {S : β → γ → Prop} {l : List α} {m : List β} {n : List γ}
    (h : List.Forall₂ R l m) (g : List.Forall₂ S m n) :
    List.Forall₂ (fun a c => ∃ b, R a b ∧ S b c) l n := by
  induction h generalizing n with
  | nil =>
    cases g
    exact .nil
  | cons hr _ ih =>
    cases g with
    | cons hs ht => exact .cons ⟨_, hr, hs⟩ (ih ht)

theorem Fates.forall₂ {k : Nat} (h : Fates setup limit j w k l ended signs) :
    List.Forall₂ (fun s t => ∃ k signs, Fate setup limit j w k s t signs) l ended := by
  induction h with
  | nil => exact .nil
  | cons h _ ih => exact .cons ⟨_, _, h⟩ ih

/-- After a run each step is what its fate in the loop and the end of the run made of it. Without a
workspace there is no loop. -/
theorem runWithin_fates (setup : RunSetup) (limit : Option Span) (reason : String) (j : Job) :
    List.Forall₂ (fun s t => ∃ u, (s = u ∨ ∃ w k signs, setup.workspace = .ok w ∧
        Fate setup (setup.stop limit) (started setup j) w k s u signs) ∧
      LeftBy (setup.breakText limit reason j) u t)
      j.steps (j.runWithin setup limit reason).job.steps := by
  cases hw : setup.workspace with
  | error cause =>
    rw [runWithin_nowhere setup limit reason j hw]
    exact (skipPending_leaves _ _ j.steps).imp fun s t h => ⟨s, .inl rfl, h⟩
  | ok w =>
    have hrun : (started setup j).runSteps setup (setup.stop limit) w [] j.state.counts [] 0 j.steps =
        stepsRun setup limit j w := rfl
    obtain ⟨ended, hsteps, hf⟩ := runSteps_fates hrun
    rw [List.nil_append] at hsteps
    rw [runWithin_somewhere setup limit reason j hw]
    refine (forall₂_comp hf.forall₂ (hsteps ▸ settle_leaves (stepsRun setup limit j w))).imp ?_
    rintro s t ⟨u, ⟨k, signs, hfate⟩, hu⟩
    exact ⟨u, .inr ⟨w, k, signs, rfl, hfate⟩, hu⟩

end Proofs

end ReleaseJob
