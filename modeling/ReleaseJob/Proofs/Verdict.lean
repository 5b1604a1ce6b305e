import ReleaseJob.Proofs.Fates
import ReleaseJob.Proofs.Report

namespace ReleaseJob.Proofs

/-- Which steps are completed. -/
def completedOf (l : List Step) : List Bool := l.map (·.state.isCompleted)

/-- Which steps are completed, or still to be run. -/
def hopefulOf (l : List Step) : List Bool := l.map fun s => s.isPending || s.state.isCompleted

variable {setup : RunSetup} {limit : Option Span} {reason w : String} {j : Job} {l done : List Step}

theorem all_completed_iff :
    (∀ s ∈ l, s.state.isCompleted = true) ↔ ∀ flag ∈ completedOf l, flag = true := by
  simp [completedOf]

theorem completedOf_append (a b : List Step) :
    completedOf (a ++ b) = completedOf a ++ completedOf b :=
  List.map_append

/-- The end of a run completes no step, and leaves a completed one as it is. -/
theorem LeftBy.isCompleted {fault : String} {s t : Step} (h : LeftBy fault s t) :
    s.state.isCompleted = t.state.isCompleted := by
  cases h with
  | same => rfl
  | stopped hs | skipped hs =>
    rw [hs]
    rfl

/-- The loop comes to its end if and only if every pending step is completed by it. -/
theorem runSteps_done_iff {counts : Counts} {past : List Invocation} {elapsed : Nat} {r : StepsRun}
    (hrun : j.runSteps setup limit w done counts past elapsed l = r) :
    r.ending = .done ↔ completedOf r.steps = completedOf done ++ hopefulOf l := by
  induction l generalizing done counts past elapsed r with
  | nil =>
    subst hrun
    simp [Job.runSteps, hopefulOf]
  | cons s rest ih =>
    cases runSteps_turn hrun with
    | idle hs hn =>
      rw [ih hn, completedOf_append, List.append_assoc]
      simp [completedOf, hopefulOf, hs]
    | broken hs =>
      refine iff_of_false (fun he => by cases he) ?_
      simp [completedOf, hopefulOf, hs, Step.withState, StepState.isCompleted]
    | @passed _ _ t next hs _ _ ht hn =>
      have ht : t.state.isCompleted = true := by
        rw [ht]
        rfl
      change next.ending = .done ↔ completedOf next.steps = _
      rw [ih hn, completedOf_append, List.append_assoc]
      simp [completedOf, hopefulOf, hs, ht]
    | failed hs _ _ ht =>
      subst ht
      refine iff_of_false (fun he => by cases he) ?_
      simp [completedOf, hopefulOf, hs, Step.withState, StepState.isCompleted]

/-- A loop that does not come to its end leaves a step that is not completed. -/
theorem runSteps_unfinished {counts : Counts} {past : List Invocation} {elapsed : Nat}
    {r : StepsRun} (hrun : j.runSteps setup limit w done counts past elapsed l = r)
    (he : r.ending ≠ .done) : false ∈ completedOf r.steps := by
  induction l generalizing done counts past elapsed r with
  | nil =>
    subst hrun
    exact absurd rfl he
  | cons s rest ih =>
    cases runSteps_turn hrun with
    | idle _ hn => exact ih hn he
    | broken =>
      rw [completedOf_append]
      exact List.mem_append_right _ List.mem_cons_self
    | passed _ _ _ _ hn =>
      have hnext := ih hn he
      exact hnext
    | failed _ _ _ ht =>
      subst ht
      rw [completedOf_append]
      exact List.mem_append_right _ List.mem_cons_self

/-- The end of a run completes no step and takes none back. -/
theorem settle_completed {signs : List JobSign} {r : StepsRun} :
    completedOf (j.settle setup limit reason w signs r).job.steps = completedOf r.steps := by
  have hleft : List.Forall₂ (LeftBy (setup.breakText limit reason j)) r.steps
      (j.settle setup limit reason w signs r).job.steps := settle_leaves r
  have hsame := hleft.imp fun _ _ => LeftBy.isCompleted
  have hflags : List.Forall₂ (· = ·) (completedOf r.steps)
      (completedOf (j.settle setup limit reason w signs r).job.steps) :=
    List.forall₂_map_left_iff.mpr (List.forall₂_map_right_iff.mpr hsame)
  rw [List.forall₂_eq_eq_eq] at hflags
  exact hflags.symm

theorem settle_completed_iff {signs : List JobSign} {r : StepsRun} :
    (j.settle setup limit reason w signs r).ending = .completed ↔ r.ending = .done := by
  rw [settle_ending]
  cases r.ending with
  | done => exact iff_of_true rfl rfl
  | failed e => exact iff_of_false nofun nofun
  | broken =>
    refine iff_of_false ?_ nofun
    dsimp only
    split <;> nofun

/-- Steps that had failed before stay as they are and are not asked about. -/
theorem runWithin_completed_iff (hw : setup.workspace = .ok w) :
    (j.runWithin setup limit reason).ending = .completed ↔
      completedOf (j.runWithin setup limit reason).job.steps = hopefulOf j.steps := by
  rw [runWithin_somewhere setup limit reason j hw, settle_completed_iff, settle_completed]
  exact runSteps_done_iff rfl

theorem completed_of_all_steps (hw : setup.workspace = .ok w)
    (h : ∀ s ∈ (j.runWithin setup limit reason).job.steps, s.state.isCompleted = true) :
    (j.runWithin setup limit reason).ending = .completed := by
  rw [runWithin_somewhere setup limit reason j hw] at h ⊢
  rw [all_completed_iff, settle_completed] at h
  rw [settle_completed_iff]
  refine Classical.byContradiction fun he => ?_
  cases h false (runSteps_unfinished rfl he)

/-- A run in a workspace reports success if and only if every step that was pending is completed.
So its verdict is that of all its steps, unless it succeeds in a job of which some step was neither
pending nor completed before. -/
theorem run_verdict (hw : setup.workspace = .ok w) (j : Job) :
    let r := j.run setup reason
    (r.ending = .completed ↔ r.job.state.status = .completed) ∧
    (r.ending = .completed ↔ completedOf r.job.steps = hopefulOf j.steps) ∧
    ((r.ending = .completed ↔ ∀ s ∈ r.job.steps, s.state.isCompleted = true) ↔
      (r.ending = .completed → ∀ s ∈ j.steps, s.isPending = true ∨ s.state.isCompleted = true)) := by
  intro r
  have hstatus : r.job.state.status = r.ending.status := (runWithin_closed ..).status
  have hverdict : r.ending = .completed ↔ completedOf r.job.steps = hopefulOf j.steps :=
    runWithin_completed_iff hw
  refine ⟨?_, hverdict, ?_⟩
  · rw [hstatus]
    exact status_completed_iff.symm
  · have hback : (∀ s ∈ r.job.steps, s.state.isCompleted = true) → r.ending = .completed :=
      completed_of_all_steps hw
    have hforth (he : r.ending = .completed) : (∀ s ∈ r.job.steps, s.state.isCompleted = true) ↔
        ∀ s ∈ j.steps, s.isPending = true ∨ s.state.isCompleted = true := by
      rw [all_completed_iff, hverdict.mp he]
      simp [hopefulOf]
    constructor
    · exact fun h he => (hforth he).mp (h.mp he)
    · exact fun h => ⟨fun he => (hforth he).mpr (h he), hback⟩

theorem stock_verdict :
    let r := stockJob.run untested
    untested.workspace = .ok "/work" ∧
    (r.ending = .completed ↔ ∀ s ∈ r.job.steps, s.state.isCompleted = true) := by
  intro r
  have hplace : untested.workspace = .ok "/work" := rfl
  have hsteps : ∀ s ∈ stockJob.steps, s.isPending = true ∨ s.state.isCompleted = true := by
    decide +kernel
  exact ⟨hplace, (run_verdict hplace stockJob).2.2.mpr fun _ => hsteps⟩

/-- The stock job after a run in which the tests failed. -/
def broken : Job := (stockJob.run untested).job

/-- Run once more, the job whose tests failed reports success although its tests are still failed. -/
theorem broken_completes :
    let r := broken.run shipped
    broken.state.status = .failed ∧ r.ending = .completed ∧ r.job.state.status = .completed ∧
    r.job.failedStep? = some "test" ∧
    ¬(r.ending = .completed ↔ ∀ s ∈ r.job.steps, s.state.isCompleted = true) := by
  intro r
  have hstatus : r.job.state.status = .completed := by decide +kernel
  have hclosed : r.job.state.status = r.ending.status := (runWithin_closed ..).status
  have hending : r.ending = .completed := status_completed_iff.mp (hclosed.symm.trans hstatus)
  have hsteps : ¬∀ s ∈ r.job.steps, s.state.isCompleted = true := by decide +kernel
  exact ⟨by decide +kernel, hending, hstatus, by decide +kernel, fun h => hsteps (h.mp hending)⟩

end ReleaseJob.Proofs
