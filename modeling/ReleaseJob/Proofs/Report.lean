import ReleaseJob.Proofs.Plan
import ReleaseJob.Proofs.Settlement
import ReleaseJob.Summary

namespace ReleaseJob.Proofs

/-- Steps that differ in their states agree in all that does not depend on them. -/
theorem map_eq_of_fresh {α : Type} {f : Step → α} {l k : List Step} (hf : ∀ s, f s.fresh = f s)
    (h : l.map Step.fresh = k.map Step.fresh) : l.map f = k.map f := by
  have hm (l : List Step) : (l.map Step.fresh).map f = l.map f := by
    rw [List.map_map]
    exact List.map_congr_left fun s _ => hf s
  rw [← hm l, h, hm k]

/-- What stands before a step of the sequence does not publish. -/
theorem kind_before {before after : List Step} {s : Step}
    (hk : (before ++ s :: after).map (·.kind) = StepKind.sequence) :
    ∀ b ∈ before, b.kind ≠ .publish := by
  intro b hb he
  have hd := congrArg List.dropLast hk
  rw [List.map_append, List.dropLast_append_of_ne_nil (by simp)] at hd
  have hm : StepKind.publish ∈ StepKind.sequence.dropLast := by
    rw [← hd, ← he]
    exact List.mem_append_left _ (List.mem_map_of_mem hb)
  revert hm
  decide

theorem published_iff {j : Job} :
    j.published = true ↔ ∃ s ∈ j.steps, s.kind = .publish ∧ s.state.isCompleted = true := by
  simp [Job.published]

theorem completed_of_all (hl : ∀ s ∈ l, s.state.isCompleted = true) :
    (Counts.ofSteps l).completed = l.length :=
  List.countP_eq_length.mpr hl

theorem completed_of_none (hl : ∀ s ∈ l, s.state.isCompleted = false) :
    (Counts.ofSteps l).completed = 0 :=
  List.countP_eq_zero.mpr fun s hs => by simp [hl s hs]

section Stopped

variable {before after : List Step} {s : Step} {error reason : String} {t u : Instant}

theorem stopped_completed (hp : ∀ s ∈ before, s.state.isCompleted = true)
    (hs : s.state = .failed error t u) (hq : ∀ s ∈ after, s.state = .skipped reason) :
    (Counts.ofSteps (before ++ s :: after)).completed = before.length := by
  have hb : before.countP (·.state.isCompleted) = before.length := completed_of_all hp
  have ha : after.countP (·.state.isCompleted) = 0 := completed_of_none fun s hm => by
    rw [hq s hm]
    rfl
  have hc : s.state.isCompleted = false := by
    rw [hs]
    rfl
  simp [Counts.ofSteps, List.countP_append, hb, ha, hc]

theorem stopped_find (hp : ∀ s ∈ before, s.state.isCompleted = true)
    (hs : s.state = .failed error t u) :
    (before ++ s :: after).find? (·.state.isFailed) = some s := by
  have hb : before.find? (·.state.isFailed) = none := by
    refine List.find?_eq_none.mpr fun b hm => ?_
    have := hp b hm
    cases hst : b.state <;> simp_all [StepState.isCompleted, StepState.isFailed]
  have hf : s.state.isFailed = true := by
    rw [hs]
    rfl
  simp [List.find?_append, hb, hf]

end Stopped

/-- Whether the steps of a job tell of a release. -/
structure Told (j : Job) (ending : Ending) : Prop where
  published : j.published = true ↔ ending = .completed
  completed : (Counts.ofSteps j.steps).completed = j.steps.length ↔ ending = .completed

theorem Settled.told {j : Job} (h : Settled ceiling reason j.steps ending)
    (hk : j.steps.map (·.kind) = StepKind.sequence) : Told j ending := by
  suffices ((∃ s ∈ j.steps, s.kind = .publish ∧ s.state.isCompleted = true) ↔
        ending = .completed) ∧
      ((Counts.ofSteps j.steps).completed = j.steps.length ↔ ending = .completed) from
    ⟨published_iff.trans this.1, this.2⟩
  generalize j.steps = l at h hk
  cases h with
  | completed hl =>
    refine ⟨iff_of_true ?_ rfl, iff_of_true (completed_of_all hl) rfl⟩
    have hm : StepKind.publish ∈ l.map (·.kind) := hk ▸ by decide
    obtain ⟨s, hs, he⟩ := List.mem_map.mp hm
    exact ⟨s, hs, he, hl s hs⟩
  | stopped hp hs hq hb =>
    have hne : ending ≠ .completed := by
      rintro rfl
      cases hb
    refine ⟨iff_of_false ?_ hne, iff_of_false ?_ hne⟩
    · rintro ⟨b, hm, hpub, hc⟩
      rcases List.mem_append.mp hm with hm | hm
      · exact kind_before hk b hm hpub
      · rcases List.mem_cons.mp hm with rfl | hm
        · rw [hs] at hc
          cases hc
        · rw [hq b hm] at hc
          cases hc
    · rw [stopped_completed hp hs hq]
      simp

/-- The failed step stands where the completed ones end. -/
theorem Settled.stop {j : Job} (h : Settled ceiling reason j.steps ending)
    (he : ending ≠ .completed) :
    ∃ s, j.steps[(Counts.ofSteps j.steps).completed]? = some s ∧ j.failedStep? = some s.id := by
  rw [Job.failedStep?]
  generalize j.steps = l at h
  cases h with
  | completed => exact absurd rfl he
  | @stopped before after s error t u reason _ hp hs hq hb =>
    refine ⟨s, ?_, ?_⟩
    · rw [stopped_completed hp hs hq]
      simp
    · rw [stopped_find hp hs]
      rfl

section Skipped

variable {j : Job} (hs : ∀ s ∈ j.steps, s.state.isSkipped = true)
include hs

theorem skipped_completed : (Counts.ofSteps j.steps).completed = 0 := by
  refine completed_of_none fun s hm => ?_
  have := hs s hm
  cases hst : s.state <;> simp_all [StepState.isCompleted, StepState.isSkipped]

theorem skipped_failedStep : j.failedStep? = none := by
  rw [Job.failedStep?, Option.map_eq_none_iff, List.find?_eq_none]
  intro s hm
  have := hs s hm
  cases hst : s.state <;> simp_all [StepState.isFailed, StepState.isSkipped]

/-- A run in which nothing was started is reported as not published, with no step to blame. -/
theorem skipped_told (hl : j.steps ≠ []) (he : ending ≠ .completed) : Told j ending := by
  refine ⟨iff_of_false ?_ he, iff_of_false ?_ he⟩
  · rw [published_iff]
    rintro ⟨s, hm, _, hc⟩
    have := hs s hm
    cases hst : s.state <;> simp_all [StepState.isCompleted, StepState.isSkipped]
  · rw [skipped_completed hs]
    exact fun h => hl (List.length_eq_zero_iff.mp h.symm)

end Skipped

theorem status_completed_iff {e : Ending} : e.status = .completed ↔ e = .completed := by
  cases e <;> simp [Ending.status]

theorem status_failed_iff {e : Ending} : e.status = .failed ↔ ∃ error, e = .failed error := by
  cases e <;> simp [Ending.status]

theorem status_cancelled_iff {e : Ending} : e.status = .cancelled ↔ e = .cancelled := by
  cases e <;> simp [Ending.status]

/-- Every command of every step was invoked, in order, and exited with code zero. -/
def Released (setup : RunSetup) (j : Job) (signs : List JobSign) : Prop :=
  ∃ w, setup.workspace = .ok w ∧
    (invocations signs).map (fun i => i.program :: i.args) =
      j.steps.flatMap (fun s => s.commands (j.contextFor s w setup.secrets)) ∧
    ∀ before i, before ++ [i] <+: invocations signs →
      ∃ o, (setup.runner (before ++ [i])).outcome = .ok o ∧ o.exit = some 0

section Run

variable {setup : RunSetup} {limit : Option Span} {reason : String} {j : Job}

/-- Completed steps have had all their commands succeed, and they are all of the job. -/
theorem runWithin_released (hf : Fresh j)
    (he : (j.runWithin setup limit reason).ending = .completed) :
    Released setup j (j.runWithin setup limit reason).signs := by
  cases hw : setup.workspace with
  | error cause =>
    rw [runWithin_nowhere setup limit reason j hw] at he
    cases he
  | ok w =>
    have hd : (stepsRun setup limit j w).ending = .done := by
      rw [runWithin_somewhere setup limit reason j hw, settle_ending] at he
      split at he
      · assumption
      · cases he
      · split at he <;> cases he
    obtain ⟨hi, hdone⟩ := runSteps_invocations (r := stepsRun setup limit j w) rfl (by simp [hd])
    obtain ⟨hpass, hready⟩ := hdone hd
    have hp : ∀ s ∈ j.steps, s.isPending = true := by
      intro s hs
      rw [Step.isPending, hf.pending s hs]
      rfl
    have hr : ∀ s ∈ j.steps, ready setup j w s = true := fun s hs => hready s hs (hp s hs)
    have hinv : invocations (j.runWithin setup limit reason).signs = plan setup j w j.steps := by
      rw [runWithin_invocations hw, hi]
      exact attempted_of_passes hpass
    refine ⟨w, hw, ?_, ?_⟩
    · rw [hinv, plan_of_ready hp hr, List.map_flatMap, List.flatMap_def, List.flatMap_def]
      exact congrArg List.flatten (List.map_congr_left fun s hs => demand_commands (hr s hs))
    · intro before i hb
      rw [hinv] at hb
      exact exit_of_passes hpass hb

theorem runWithin_kinds (setup : RunSetup) (limit : Option Span) (reason : String)
    (hk : j.steps.map (·.kind) = StepKind.sequence) :
    (j.runWithin setup limit reason).job.steps.map (·.kind) = StepKind.sequence :=
  (map_eq_of_fresh (fun _ => rfl) (runWithin_closed setup limit reason j).same).trans hk

theorem runWithin_told (hf : Fresh j) (hk : j.steps.map (·.kind) = StepKind.sequence) :
    Told (j.runWithin setup limit reason).job (j.runWithin setup limit reason).ending := by
  have hr := runWithin_kinds setup limit reason hk
  cases hw : setup.workspace with
  | error cause =>
    obtain ⟨hs, he⟩ : (∀ s ∈ (j.runWithin setup limit reason).job.steps, _) ∧ _ :=
      runWithin_skipped hf hw
    refine skipped_told hs ?_ (by simp [he])
    intro hnil
    rw [hnil] at hr
    cases hr
  | ok w => exact (runWithin_settled hf hw).told hr

/-- The step that a run stopped at stands where the completed ones end. -/
theorem runWithin_stop (hf : Fresh j) (hw : setup.workspace = .ok w)
    (he : (j.runWithin setup limit reason).ending ≠ .completed) :
    ∃ s, j.steps[(j.runWithin setup limit reason).job.state.counts.completed]? = some s ∧
      (j.runWithin setup limit reason).job.failedStep? = some s.id := by
  have hclosed := runWithin_closed setup limit reason j
  obtain ⟨b, hb, hfailed⟩ := (runWithin_settled hf hw).stop he
  rw [← hclosed.counts] at hb
  have hids : (j.runWithin setup limit reason).job.steps.map Step.id = j.steps.map Step.id :=
    map_eq_of_fresh (fun _ => rfl) hclosed.same
  have hid := congrArg (Option.map Step.id) hb
  rw [← List.getElem?_map, hids, List.getElem?_map] at hid
  obtain ⟨a, ha, heq⟩ := Option.map_eq_some_iff.mp hid
  exact ⟨a, ha, heq ▸ hfailed⟩

end Run

/-- What a summary tells of a run is what happened. -/
structure Truthful (setup : RunSetup) (j : Job) (r : Job.JobRun) (s : Summary) : Prop where
  published : s.published = true ↔ s.status = .completed
  counted : s.status = .completed ↔ s.completedSteps = s.totalSteps ∧ s.totalSteps = 4
  total : s.totalSteps = 4
  returned : s.status = .completed ↔ r.ending = .completed
  released : r.ending = .completed → Released setup j r.signs
  failed : s.status = .failed ↔ ∃ e, r.ending = .failed e
  cancelled : s.status = .cancelled ↔ r.ending = .cancelled
  unpublished : r.ending ≠ .completed → s.published = false
  stopped : ∀ w, setup.workspace = .ok w → r.ending ≠ .completed →
    ∃ t, j.steps[s.completedSteps]? = some t ∧ s.failedStep = some t.id
  unprovisioned : ∀ cause, setup.workspace = .error cause →
    r.ending = .failed (.workspace cause) ∧ s.failedStep = none ∧ s.completedSteps = 0

/-- For a configuration that passes validation, the summary of a run tells the truth: it says that
the release was published if and only if the run completed all four steps, for which every command
had to succeed; else it names the step that the run stopped at, if there was a place to run in. -/
theorem summary_truthful {c : Config} {p : Push} {id : RunId} {j : Job}
    (hv : c.validate = .ok ()) (hj : Job.forPush c p id = .ok (some j)) (setup : RunSetup)
    (timeout : Span) (reason : String) (now : Instant) :
    let r := { j with timeout }.run setup reason
    Truthful setup j r (.ofJob r.job now) := by
  intro r
  let s := Summary.ofJob r.job now
  have hf : Fresh { j with timeout } := (forPush_fresh hj).within timeout
  have hkinds : j.steps.map (·.kind) = StepKind.sequence :=
    forPush_kinds (admitted_of_validate hv) hj
  have hclosed : Closed (started setup { j with timeout }) r := runWithin_closed ..
  have htold : Told r.job r.ending := runWithin_told hf hkinds
  have hstatus : s.status = r.ending.status := hclosed.status
  have hfour {l : List Step} (hl : l.map (·.kind) = StepKind.sequence) : l.length = 4 :=
    List.length_map _ ▸ congrArg List.length hl
  have htotal : s.totalSteps = 4 := hclosed.total.trans (hfour hkinds)
  have hlength : r.job.steps.length = 4 := hfour (runWithin_kinds setup _ reason hkinds)
  have hcounted : s.completedSteps = 4 ↔ r.ending = .completed := by
    change r.job.state.counts.completed = 4 ↔ _
    rw [hclosed.counts, ← hlength]
    exact htold.completed
  refine ⟨?_, ?_, htotal, ?_, runWithin_released hf, ?_, ?_, ?_, ?_, ?_⟩
  · rw [hstatus, status_completed_iff]
    exact htold.published
  · rw [hstatus, status_completed_iff, ← hcounted, htotal]
    exact (and_iff_left rfl).symm
  · rw [hstatus]
    exact status_completed_iff
  · rw [hstatus]
    exact status_failed_iff
  · rw [hstatus]
    exact status_cancelled_iff
  · exact fun he => Bool.eq_false_iff.mpr (mt htold.published.mp he)
  · exact fun w hw he => runWithin_stop hf hw he
  · intro cause hw
    obtain ⟨hs, he⟩ : (∀ s ∈ r.job.steps, _) ∧ r.ending = _ := runWithin_skipped hf hw
    refine ⟨he, skipped_failedStep hs, ?_⟩
    change r.job.state.counts.completed = 0
    rw [hclosed.counts]
    exact skipped_completed hs

/-- Every command succeeds, and the token is at hand. -/
def shipped : RunSetup := scripted (fun _ => some 0) (.ofPairs [("CARGO_REGISTRY_TOKEN", "cio-7")])

theorem shipped_truthful :
    let s := Summary.ofJob (stockJob.run shipped).job ⟨0, 0⟩
    s.published = true ∧ s.completedSteps = 4 ∧ s.failedStep = none ∧
    (invocations (stockJob.run shipped).signs).length = 6 ∧
    Truthful shipped stockJob (stockJob.run shipped) s := by
  refine ⟨by decide +kernel, by decide +kernel, by decide +kernel, by decide +kernel, ?_⟩
  exact summary_truthful stock_validates forPush_stock shipped stockJob.timeout _ _

end ReleaseJob.Proofs
