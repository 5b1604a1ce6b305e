import ReleaseJob.Proofs.Admitted
import ReleaseJob.Proofs.Closing

namespace ReleaseJob.Proofs

/-- The steps of a fresh job when its loop ends. -/
inductive Front : List Step → StepsEnding → Prop
  | done {l : List Step} (hl : ∀ s ∈ l, s.state.isCompleted = true) : Front l .done
  | failed {before after : List Step} {s : Step} {error : String} {t u : Instant} {reason : String}
      (hp : ∀ s ∈ before, s.state.isCompleted = true) (hs : s.state = .failed error t u)
      (hq : ∀ s ∈ after, s.state = .skipped reason) :
      Front (before ++ s :: after) (.failed (.step s.kind error))
  | broken {before after : List Step} {s : Step} {t : Instant}
      (hp : ∀ s ∈ before, s.state.isCompleted = true) (hs : s.state = .running t)
      (hq : ∀ s ∈ after, s.state = .pending) : Front (before ++ s :: after) .broken

/-- Why a run stopped at a step: its own failure, the timeout of the job or a cancellation. -/
inductive Blame (limit : Span) (reason : String) (kind : StepKind) (error : String) : Ending → Prop
  | failure : Blame limit reason kind error (.failed (.step kind error))
  | timeout (he : error = (JobError.timeout limit).message) :
      Blame limit reason kind error (.failed (.timeout limit))
  | cancel (he : error = reason) : Blame limit reason kind error .cancelled

/-- The steps of a fresh job after a run that had a workspace. -/
inductive Settled (limit : Span) (reason : String) : List Step → Ending → Prop
  | completed {l : List Step} (hl : ∀ s ∈ l, s.state.isCompleted = true) :
      Settled limit reason l .completed
  | stopped {before after : List Step} {s : Step} {error : String} {t u : Instant} {r : String}
      {ending : Ending} (hp : ∀ s ∈ before, s.state.isCompleted = true)
      (hs : s.state = .failed error t u) (hq : ∀ s ∈ after, s.state = .skipped r)
      (hb : Blame limit reason s.kind error ending) :
      Settled limit reason (before ++ s :: after) ending

theorem skipPending_append (reason : String) (a b : List Step) :
    skipPending reason (a ++ b) = skipPending reason a ++ skipPending reason b :=
  List.map_append

/-- What is not pending is not skipped. -/
theorem skipPending_over_eq (h : ∀ s ∈ l, s.isPending = false) : skipPending reason l = l := by
  refine (List.map_congr_left fun s hs => ?_).trans (List.map_id l)
  have := h s hs
  simp only [Step.isPending] at this
  simp [StepState.skip, this]

theorem skipPending_pending (h : ∀ s ∈ l, s.state = .pending) :
    ∀ s ∈ skipPending reason l, s.state = .skipped reason := by
  intro s hs
  obtain ⟨t, ht, rfl⟩ := List.mem_map.mp hs
  simp [h t ht, StepState.skip, StepState.isPending]

theorem not_pending_of_completed (h : s.state.isCompleted = true) : Step.isPending s = false := by
  unfold Step.isPending
  cases hs : s.state <;> simp_all [StepState.isCompleted, StepState.isPending]

/-- The steps behind the loop are completed, and those before it are still pending. -/
theorem runSteps_front {setup : RunSetup} {limit : Option Span} {j : Job} {w : String}
    {done l : List Step} {counts : Counts} {past : List Invocation} {elapsed : Nat} {r : StepsRun}
    (hrun : j.runSteps setup limit w done counts past elapsed l = r)
    (hd : ∀ s ∈ done, s.state.isCompleted = true) (hl : ∀ s ∈ l, s.state = .pending) :
    Front r.steps r.ending := by
  induction l generalizing done counts past elapsed r with
  | nil =>
    subst hrun
    exact .done hd
  | cons s rest ih =>
    have hrest : ∀ t ∈ rest, t.state = .pending := fun t ht => hl t (List.mem_cons_of_mem _ ht)
    cases runSteps_turn hrun with
    | idle hs _ =>
      rw [Step.isPending, hl s List.mem_cons_self] at hs
      cases hs
    | broken => exact .broken hd rfl hrest
    | @passed _ _ t _ _ _ _ ht hn =>
      have hdone : ∀ u ∈ done ++ [t], u.state.isCompleted = true := by
        intro u hu
        rcases List.mem_append.mp hu with hu | hu
        · exact hd u hu
        · rw [List.mem_singleton.mp hu, ht]
          rfl
      have hnext := ih hn hdone hrest
      exact hnext
    | failed _ _ _ ht =>
      subst ht
      exact .failed (s := s.withState _) hd rfl (skipPending_pending hrest)

/-- The running step is the one that fails, and the steps before it are left alone. -/
theorem failRunning_eq (hp : ∀ s ∈ before, s.state.isCompleted = true)
    (hs : s.state = .running t) (error : String) (now : Instant) (after : List Step) :
    Job.failRunning error now (before ++ s :: after) =
      (before ++ s.withState (.failed error t now) :: after, [.event (.stepFailed s.id error)]) := by
  induction before with
  | nil => simp [Job.failRunning, hs, StepState.isRunning, StepState.fail, StepState.startOr,
      Step.withState]
  | cons b before ih =>
    have hb : b.state.isRunning = false := by
      have := hp b List.mem_cons_self
      cases hst : b.state <;> simp_all [StepState.isCompleted, StepState.isRunning]
    simp [Job.failRunning, hb, ih fun s hm => hp s (List.mem_cons_of_mem _ hm)]

theorem interrupt_completed {s : StepState} (h : s.isCompleted = true) (reason : String)
    (now : Instant) : s.interrupt reason now = s := by
  cases s with
  | completed => rfl
  | _ => cases h

/-- A job that is cancelled keeps its completed steps; the running one fails and the pending ones
are skipped, for the same reason. -/
theorem cancel_steps {k : Job} {before after : List Step} {s : Step} {t : Instant}
    (hk : k.steps = before ++ s :: after) (hp : ∀ s ∈ before, s.state.isCompleted = true)
    (hs : s.state = .running t) (hq : ∀ s ∈ after, s.state = .pending) (reason : String)
    (now : Instant) :
    (k.cancel reason now).steps = before ++ s.withState (.failed reason t now) ::
      after.map (·.withState (.skipped reason)) := by
  have hb : before.map (fun s => { s with state := s.state.interrupt reason now }) = before := by
    refine (List.map_congr_left fun s hm => ?_).trans (List.map_id before)
    rw [interrupt_completed (hp s hm)]
    rfl
  have ha : after.map (fun s => { s with state := s.state.interrupt reason now }) =
      after.map (·.withState (.skipped reason)) := by
    refine List.map_congr_left fun s hm => ?_
    rw [hq s hm]
    rfl
  change k.steps.map _ = _
  rw [hk, List.map_append, hb, List.map_cons, ha, hs]
  rfl

section Endings

variable {setup : RunSetup} {limit : Option Span} {reason w : String} {j : Job}
  {signs : List JobSign} {now : Instant} {r : StepsRun}

theorem timeOut_settled (hf : Front j.steps .broken) :
    Settled j.timeout reason (j.timeOut setup w signs now).job.steps
      (.failed (.timeout j.timeout)) := by
  change Settled j.timeout reason (skipPending _ (Job.failRunning _ now j.steps).1) _
  generalize j.steps = l at hf
  cases hf with
  | broken hp hs hq =>
    rw [failRunning_eq hp hs, skipPending_append,
      skipPending_over_eq fun s hm => not_pending_of_completed (hp s hm)]
    exact .stopped hp rfl (skipPending_pending hq) (.timeout rfl)

theorem cancel_settled {ceiling : Span} (hf : Front j.steps .broken) :
    Settled ceiling reason (j.cancel reason now).steps .cancelled := by
  generalize hk : j.steps = l at hf
  cases hf with
  | broken hp hs hq =>
    rw [cancel_steps hk hp hs hq]
    refine .stopped hp rfl (r := reason) (fun q hm => ?_) (.cancel rfl)
    obtain ⟨a, _, rfl⟩ := List.mem_map.mp hm
    rfl

/-- The end of a run fails the step that is running, and skips the rest. -/
theorem settle_settled (hf : Front r.steps r.ending) :
    Settled j.timeout reason (j.settle setup limit reason w signs r).job.steps
      (j.settle setup limit reason w signs r).ending := by
  obtain ⟨steps, counts, _, elapsed, ending⟩ := r
  unfold Job.settle
  cases ending with
  | done =>
    cases hf with
    | done hl => exact .completed hl
  | failed e =>
    cases hf with
    | failed hp hs hq => exact .stopped hp hs hq .failure
  | broken =>
    let stopped : Job := { j with steps, state := { j.state with counts } }
    dsimp only
    split
    · exact cancel_settled (j := stopped) hf
    · exact timeOut_settled (j := stopped) hf

/-- A loop over a fresh job starts with nothing behind it. -/
theorem stepsRun_front (hf : Fresh j) :
    Front (stepsRun setup limit j w).steps (stepsRun setup limit j w).ending :=
  runSteps_front rfl (List.forall_mem_nil _) hf.pending

theorem runWithin_settled (hf : Fresh j) (hw : setup.workspace = .ok w) :
    Settled j.timeout reason (j.runWithin setup limit reason).job.steps
      (j.runWithin setup limit reason).ending := by
  rw [runWithin_somewhere setup limit reason j hw]
  exact settle_settled (j := started setup j) (stepsRun_front hf)

theorem runWithin_skipped (hf : Fresh j) (hw : setup.workspace = .error cause) :
    (∀ s ∈ (j.runWithin setup limit reason).job.steps, s.state.isSkipped = true) ∧
    (j.runWithin setup limit reason).ending = .failed (.workspace cause) := by
  rw [runWithin_nowhere setup limit reason j hw]
  refine ⟨?_, rfl⟩
  intro s hs
  rw [skipPending_pending hf.pending s hs]
  rfl

end Endings

/-- A final state is counted once. -/
theorem counted_once {s : StepState} (h : s.isFinal = true) :
    (if s.isCompleted = true then 1 else 0) + (if s.isFailed = true then 1 else 0) +
      (if s.isSkipped = true then 1 else 0) = 1 := by
  cases s with
  | pending | running => cases h
  | completed | failed | skipped => rfl

theorem ofSteps_sum (hl : ∀ s ∈ l, s.state.isFinal = true) :
    (Counts.ofSteps l).sum = l.length := by
  induction l with
  | nil => rfl
  | cons s rest ih =>
    have hr := ih fun t ht => hl t (List.mem_cons_of_mem _ ht)
    have hs := counted_once (hl s List.mem_cons_self)
    simp only [Counts.sum, Counts.ofSteps, List.countP_cons, List.length_cons] at hr ⊢
    omega

def ExactlyOne (a b c : Prop) : Prop := (a ∨ b ∨ c) ∧ ¬(a ∧ b) ∧ ¬(a ∧ c) ∧ ¬(b ∧ c)

/-- All `n` steps came to their end. -/
def Finished (n k : Nat) (r : Job.JobRun) : Prop :=
  k = n ∧ r.ending = .completed ∧ r.job.state.status = .completed

/-- Step `k` failed and none after it ran. Its error is the one that is reported, or the text of the
timeout that is. -/
def Stopped (n k : Nat) (timeout : Span) (r : Job.JobRun) : Prop :=
  k < n ∧ r.job.state.status = .failed ∧
  (∀ s ∈ r.job.steps.drop (k + 1), s.state.isSkipped = true) ∧
  ∃ s error t u, r.job.steps[k]? = some s ∧ s.state = .failed error t u ∧
    (r.ending = .failed (.step s.kind error) ∨
      r.ending = .failed (.timeout timeout) ∧ error = (JobError.timeout timeout).message)

/-- No step ran for want of a workspace. -/
def Unprovisioned (setup : RunSetup) (k : Nat) (r : Job.JobRun) : Prop :=
  k = 0 ∧ r.job.state.status = .failed ∧ (∀ s ∈ r.job.steps, s.state.isSkipped = true) ∧
  ∃ cause, setup.workspace = .error cause ∧ r.ending = .failed (.workspace cause)

theorem not_finished_stopped : ¬(Finished n k r ∧ Stopped n k timeout r) := by
  rintro ⟨⟨hk, _⟩, hlt, _⟩
  omega

theorem not_finished_unprovisioned : ¬(Finished n k r ∧ Unprovisioned setup k r) := by
  rintro ⟨⟨_, he, _⟩, _, _, _, cause, _, hw⟩
  rw [he] at hw
  cases hw

theorem not_stopped_unprovisioned : ¬(Stopped n k timeout r ∧ Unprovisioned setup k r) := by
  rintro ⟨⟨_, _, _, s, error, _, _, _, _, he⟩, _, _, _, cause, _, hw⟩
  rw [hw] at he
  rcases he with he | ⟨he, _⟩ <;> cases he

theorem Settled.final (h : Settled ceiling reason l ending) : ∀ s ∈ l, s.state.isFinal = true := by
  cases h with
  | completed hl => exact fun s hm => by simp [StepState.isFinal, hl s hm]
  | stopped hp hs hq _ =>
    intro s hm
    rcases List.mem_append.mp hm with hm | hm
    · simp [StepState.isFinal, hp s hm]
    · rcases List.mem_cons.mp hm with rfl | hm
      · simp [StepState.isFinal, StepState.isFailed, hs]
      · simp [StepState.isFinal, StepState.isSkipped, hq s hm]

/-- The place where a run that was not cancelled stopped. -/
theorem Settled.place {r : Job.JobRun} (h : Settled timeout reason r.job.steps r.ending)
    (hc : r.ending ≠ .cancelled) (hs : r.job.state.status = r.ending.status) :
    ∃ k ≤ r.job.steps.length, (∀ s ∈ r.job.steps.take k, s.state.isCompleted = true) ∧
      (Finished r.job.steps.length k r ∨ Stopped r.job.steps.length k timeout r) := by
  unfold Finished Stopped
  rw [hs]
  generalize r.job.steps = l at h
  generalize r.ending = ending at h hc
  cases h with
  | completed hl =>
    refine ⟨l.length, Nat.le_refl _, ?_, .inl ⟨rfl, rfl, rfl⟩⟩
    rw [List.take_length]
    exact hl
  | @stopped before after s error t u _ _ hp hf hq hb =>
    have hlt : before.length < (before ++ s :: after).length := by simp
    refine ⟨before.length, Nat.le_of_lt hlt, ?_, .inr ⟨hlt, ?_, ?_, s, error, t, u, ?_, hf, ?_⟩⟩
    · rw [List.take_left]
      exact hp
    · cases hb with
      | failure | timeout => rfl
      | cancel => exact absurd rfl hc
    · intro q hm
      have hm : q ∈ after := by simpa [List.drop_append, List.drop_of_length_le] using hm
      rw [hq q hm]
      rfl
    · simp
    · cases hb with
      | failure => exact .inl rfl
      | timeout he => exact .inr ⟨rfl, he⟩
      | cancel => exact absurd rfl hc

theorem fresh_map {l : List Step} (h : ∀ s ∈ l, s.state = .pending) : l.map Step.fresh = l := by
  refine (List.map_congr_left fun s hs => ?_).trans (List.map_id l)
  rw [Step.fresh, ← h s hs]
  rfl

theorem idle_of_final {s : StepState} (h : s.isFinal = true) :
    s.isPending = false ∧ s.isRunning = false := by
  cases s with
  | pending | running => cases h
  | completed | failed | skipped => exact ⟨rfl, rfl⟩

/-- Only a run that somebody cancels is dropped. -/
theorem run_returns (hc : setup.cancelAfter = none) (j : Job) (limit : Option Span)
    (reason : String) : (j.runWithin setup limit reason).ending ≠ .cancelled := by
  cases hw : setup.workspace with
  | error cause =>
    rw [runWithin_nowhere setup limit reason j hw]
    nofun
  | ok w =>
    rw [runWithin_somewhere setup limit reason j hw, settle_ending]
    split
    · nofun
    · nofun
    · simp [RunSetup.cancelsWithin, hc]

/-- A fresh job that is run to its end has a front: `k` steps completed, and then either all did,
or step `k` failed and the rest was skipped, or there was no workspace to run in. The status, the
result and the counts tell the same. -/
theorem run_settles {c : Config} {p : Push} {id : RunId} {j : Job}
    (hj : Job.forPush c p id = .ok (some j)) (setup : RunSetup) (hc : setup.cancelAfter = none)
    (timeout : Span) :
    let r := { j with timeout }.run setup
    let n := c.steps.length
    (∃ k ≤ n, (∀ s ∈ r.job.steps.take k, s.state.isCompleted = true) ∧
      ExactlyOne (Finished n k r) (Stopped n k timeout r) (Unprovisioned setup k r)) ∧
    r.job.steps.map Step.fresh = j.steps ∧
    (∀ s ∈ r.job.steps, s.state.isPending = false ∧ s.state.isRunning = false) ∧
    r.job.state.total = n ∧ r.job.state.counts = .ofSteps r.job.steps ∧
    r.job.state.counts.sum = n := by
  intro r n
  have hf : Fresh { j with timeout } := (forPush_fresh hj).within timeout
  have hclosed : Closed (started setup { j with timeout }) r := runWithin_closed ..
  have hsame : r.job.steps.map Step.fresh = j.steps := hclosed.same.trans (fresh_map hf.pending)
  have hn : j.steps.length = n := by rw [forPush_steps hj, List.length_map]
  have hl : r.job.steps.length = n := by rw [← hn, ← hsame, List.length_map]
  have hone : (∃ k ≤ n, (∀ s ∈ r.job.steps.take k, s.state.isCompleted = true) ∧
      (Finished n k r ∨ Stopped n k timeout r ∨ Unprovisioned setup k r)) ∧
      ∀ s ∈ r.job.steps, s.state.isFinal = true := by
    cases hw : setup.workspace with
    | error cause =>
      obtain ⟨hs, he⟩ : (∀ s ∈ r.job.steps, _) ∧ r.ending = _ := runWithin_skipped hf hw
      refine ⟨⟨0, Nat.zero_le n, by simp, .inr (.inr ⟨rfl, ?_, hs, cause, hw, he⟩)⟩, ?_⟩
      · rw [hclosed.status, he]
        rfl
      · exact fun s hm => by simp [StepState.isFinal, hs s hm]
    | ok w =>
      have hset : Settled timeout _ r.job.steps r.ending := runWithin_settled hf hw
      obtain ⟨k, hk, hp, hor⟩ := hset.place (run_returns hc _ _ _) hclosed.status
      rw [hl] at hk hor
      exact ⟨⟨k, hk, hp, hor.imp_right .inl⟩, hset.final⟩
  obtain ⟨⟨k, hk, hp, hor⟩, hfinal⟩ := hone
  refine ⟨⟨k, hk, hp, hor, not_finished_stopped, not_finished_unprovisioned,
    not_stopped_unprovisioned⟩, hsame, fun s hs => idle_of_final (hfinal s hs), ?_,
    hclosed.counts, ?_⟩
  · exact hclosed.total.trans hn
  · rw [hclosed.counts, ofSteps_sum hfinal, hl]

/-- The tests fail. -/
def untested : RunSetup := scripted (fun n => if n = 5 then some 101 else some 0) .empty

theorem untested_settles :
    let r := stockJob.run untested
    (∀ s ∈ r.job.steps.take 2, s.state.isCompleted = true) ∧
    r.job.state.counts = ⟨2, 1, 1⟩ ∧ r.job.state.counts.sum = 4 ∧
    ∃ k ≤ 4, ExactlyOne (Finished 4 k r) (Stopped 4 k stockJob.timeout r)
      (Unprovisioned untested k r) := by
  obtain ⟨⟨k, hk, _, hone⟩, _, _, _, _, hsum⟩ :=
    run_settles forPush_stock untested rfl stockJob.timeout
  exact ⟨by decide +kernel, by decide +kernel, hsum, k, hk, hone⟩

end ReleaseJob.Proofs
