import ReleaseJob.Proofs.Pause
import ReleaseJob.Proofs.Report

namespace ReleaseJob.Proofs

section Counting

variable {l before after : List Step}

theorem ofSteps_append (a b : List Step) :
    Counts.ofSteps (a ++ b) =
      ⟨(Counts.ofSteps a).completed + (Counts.ofSteps b).completed,
        (Counts.ofSteps a).failed + (Counts.ofSteps b).failed,
        (Counts.ofSteps a).skipped + (Counts.ofSteps b).skipped⟩ := by
  simp [Counts.ofSteps]

theorem ofSteps_completed (hl : ∀ s ∈ l, s.state.isCompleted = true) :
    Counts.ofSteps l = ⟨l.length, 0, 0⟩ := by
  have hother (f : StepState → Bool) (hf : ∀ o t u, f (.completed o t u) = false) :
      ∀ s ∈ l, f s.state = false := by
    intro s hs
    have := hl s hs
    cases hst : s.state <;> simp_all [StepState.isCompleted]
  simp only [Counts.ofSteps, Counts.mk.injEq, List.countP_eq_length, List.countP_eq_zero,
    Bool.not_eq_true]
  exact ⟨hl, hother _ fun _ _ _ => rfl, hother _ fun _ _ _ => rfl⟩

/-- Steps that are not over count for nothing. -/
theorem ofSteps_open (hl : ∀ s ∈ l, s.state = .pending ∨ ∃ t, s.state = .running t) :
    Counts.ofSteps l = .zero := by
  have hnone (f : StepState → Bool) (hp : f .pending = false) (hr : ∀ t, f (.running t) = false) :
      ∀ s ∈ l, f s.state = false := by
    intro s hs
    rcases hl s hs with h | ⟨t, h⟩
    · rw [h, hp]
    · rw [h, hr]
  simp only [Counts.ofSteps, Counts.zero, Counts.mk.injEq, List.countP_eq_zero, Bool.not_eq_true]
  exact ⟨hnone _ rfl fun _ => rfl, hnone _ rfl fun _ => rfl, hnone _ rfl fun _ => rfl⟩

theorem ofSteps_skipped (reason : String) (l : List Step) :
    Counts.ofSteps (l.map (·.withState (.skipped reason))) = ⟨0, 0, l.length⟩ := by
  induction l with
  | nil => rfl
  | cons s rest ih =>
    rw [List.map_cons, ← List.singleton_append, ofSteps_append, ih]
    simp [Counts.ofSteps, Step.withState, StepState.isCompleted, StepState.isFailed,
      StepState.isSkipped, Nat.add_comm]

variable {s : Step} {t u : Instant}

/-- The step that is running is not counted yet. -/
theorem ofSteps_held (hp : ∀ s ∈ before, s.state.isCompleted = true)
    (hq : ∀ s ∈ after, s.state = .pending) :
    Counts.ofSteps (before ++ s.withState (.running t) :: after) = ⟨before.length, 0, 0⟩ := by
  have hopen : Counts.ofSteps (s.withState (.running t) :: after) = .zero := by
    refine ofSteps_open fun a ha => ?_
    rcases List.mem_cons.mp ha with rfl | ha
    · exact .inr ⟨t, rfl⟩
    · exact .inl (hq a ha)
  rw [ofSteps_append, ofSteps_completed hp, hopen]
  rfl

/-- The step that was running counts as failed, and all behind it as skipped. -/
theorem ofSteps_dropped (hp : ∀ s ∈ before, s.state.isCompleted = true) (error reason : String)
    (after : List Step) :
    Counts.ofSteps (before ++ s.withState (.failed error t u) ::
      after.map (·.withState (.skipped reason))) = ⟨before.length, 1, after.length⟩ := by
  rw [ofSteps_append, ofSteps_completed hp, ← List.singleton_append, ofSteps_append,
    ofSteps_skipped]
  simp [Counts.ofSteps, Step.withState, StepState.isCompleted, StepState.isFailed,
    StepState.isSkipped]

end Counting

section Runs

variable {setup : RunSetup} {limit : Option Span} {j : Job} {w reason : String} {p : StepsRun}
  {till : Nat} {s : Step} {before after : List Step} {t now : Instant}

theorem dropped_published {k : Job} {error : String} {u : Instant}
    (hp : ∀ s ∈ before, s.state.isCompleted = true)
    (hk : k.steps = before ++ s.withState (.failed error t u) ::
      after.map (·.withState (.skipped reason))) :
    k.published = true ↔ ∃ a ∈ before.map Step.fresh, a.kind = .publish := by
  rw [published_iff, hk]
  constructor
  · rintro ⟨a, ha, hpub, hdone⟩
    rcases List.mem_append.mp ha with ha | ha
    · exact ⟨a.fresh, List.mem_map_of_mem ha, hpub⟩
    · rcases List.mem_cons.mp ha with rfl | ha
      · cases hdone
      · obtain ⟨b, _, rfl⟩ := List.mem_map.mp ha
        cases hdone
  · rintro ⟨_, hm, hpub⟩
    obtain ⟨a, ha, rfl⟩ := List.mem_map.mp hm
    exact ⟨a, List.mem_append_left _ ha, hpub, hp a ha⟩

/-- A cancellation that counts is where the loop stops, and comes before the limit. -/
theorem stop_of_cancels (hc : setup.cancelsWithin limit = true) :
    ∃ c, setup.cancelAfter = some c ∧ setup.stop limit = some c ∧
      ∀ e, inTime (some c) e = true → inTime limit e = true := by
  have hstop : setup.stop limit = setup.cancelAfter := if_pos hc
  rw [hstop]
  unfold RunSetup.cancelsWithin at hc
  cases hafter : setup.cancelAfter with
  | none =>
    rw [hafter] at hc
    cases hc
  | some c =>
    refine ⟨c, rfl, rfl, fun e he => ?_⟩
    cases limit with
    | none => rfl
    | some l =>
      rw [hafter] at hc
      have hlt : c.nanos < l.nanos := of_decide_eq_true hc
      exact inTime_some.mpr (Nat.le_trans (inTime_some.mp he) (Nat.le_of_lt hlt))

/-- A run whose loop is broken off by a cancellation is dropped. -/
theorem settle_dropped (hw : setup.workspace = .ok w) (hc : setup.cancelsWithin limit = true)
    (hp : p.ending = .broken) {e : Nat}
    (he : stepsRun setup limit j w = { p with elapsed := e }) (reason : String) :
    j.runWithin setup limit reason =
      ⟨(heldJob setup j p).cancel reason (setup.start.add ((setup.stop limit).getD ⟨0⟩)),
        heldSigns setup j w p ++ [.closed w], .cancelled⟩ := by
  rw [runWithin_somewhere setup limit reason j hw, he]
  unfold Job.settle
  rw [hp, hc]
  rfl

/-- A run that is cancelled is dropped in a wait. -/
theorem cancelled_in_pause (hw : setup.workspace = .ok w) (limit : Option Span) (reason : String)
    (hend : (j.runWithin setup limit reason).ending = .cancelled) :
    ∃ p till now, PausedRun setup j w p till ∧ inTime limit p.elapsed = true ∧
      j.runWithin setup limit reason =
        ⟨(heldJob setup j p).cancel reason now, heldSigns setup j w p ++ [.closed w],
          .cancelled⟩ := by
  have hcut : (stepsRun setup limit j w).ending = .broken ∧
      setup.cancelsWithin limit = true := by
    rw [runWithin_somewhere setup limit reason j hw, settle_ending] at hend
    split at hend
    · cases hend
    · cases hend
    · next hb =>
      split at hend
      · next hc => exact ⟨hb, hc⟩
      · cases hend
  obtain ⟨hb, hc⟩ := hcut
  obtain ⟨c, _, hstop, hearly⟩ := stop_of_cancels hc
  rcases stepsRun_cut j w hstop with ⟨_, heq⟩ | ⟨_, p, till, hpause, hin, hout⟩
  · rw [heq] at hb
    exact absurd hb (runSteps_free rfl).1
  · obtain ⟨e, he⟩ := hpause.cut hstop hin hout
    exact ⟨p, till, _, hpause, hearly _ hin, settle_dropped hw hc hpause.ending he reason⟩

/-- A cancellation that falls into a wait drops the run there. -/
theorem PausedRun.cancelled_within {c : Span} (h : PausedRun setup j w p till)
    (hw : setup.workspace = .ok w) (hafter : setup.cancelAfter = some c)
    (hc : setup.cancelsWithin limit = true) (hstart : p.elapsed ≤ c.nanos) (hend : c.nanos < till) :
    j.runWithin setup limit reason =
      ⟨(heldJob setup j p).cancel reason (setup.start.add c),
        heldSigns setup j w p ++ [.closed w], .cancelled⟩ := by
  obtain ⟨c', hafter', hstop, _⟩ := stop_of_cancels hc
  obtain rfl : c = c' := Option.some.inj (hafter.symm.trans hafter')
  obtain ⟨e, he⟩ := h.cut hstop (inTime_some.mpr hstart) (inTime_some_false.mpr hend)
  rw [settle_dropped hw hc (Paused.ending h) he reason, hstop]
  rfl

end Runs

/-- Wherever a run of a fresh job is held up, a first part of its steps completed, one is running and
the others are pending. Dropped there and cancelled, the job keeps the completed steps, the running
one fails and the others are skipped; what was seen of it is a first part of what the run would have
shown, and no later step has invoked anything. A run that is cancelled is dropped in a wait, and a
cancellation that falls into a wait drops the run there. -/
theorem pause_cancels {j : Job} (hf : Fresh j) {setup : RunSetup} {w : String}
    (hw : setup.workspace = .ok w) (limit : Option Span) (reason : String) :
    (∀ p till now, PausedRun setup j w p till → inTime limit p.elapsed = true →
      let held := heldJob setup j p
      let seen := heldSigns setup j w p
      let left := held.cancel reason now
      let whole := j.runWithin (uncancelled setup) limit reason
      ∃ before s after ended t, j.steps = before ++ s :: after ∧
        ended.map Step.fresh = before ∧ (∀ a ∈ ended, a.state.isCompleted = true) ∧
        held.steps = ended ++ s.withState (.running t) :: after ∧
        (∀ a ∈ after, a.state = .pending) ∧
        held.state.status = .running ∧ held.state.counts = ⟨before.length, 0, 0⟩ ∧
        left.steps = ended ++ s.withState (.failed reason t now) ::
          after.map (·.withState (.skipped reason)) ∧
        left.state.status = .cancelled ∧
        left.state.counts = ⟨before.length, 1, after.length⟩ ∧
        left.state.total = j.steps.length ∧
        (left.published = true ↔ ∃ a ∈ before, a.kind = .publish) ∧
        invocations seen <+: invocations whole.signs ∧ events seen <+: events whole.signs ∧
        ∀ e ∈ placed 0 seen, e.1 ≤ before.length + 1) ∧
    ((j.runWithin setup limit reason).ending = .cancelled →
      ∃ p till now, PausedRun setup j w p till ∧ inTime limit p.elapsed = true ∧
        j.runWithin setup limit reason =
          ⟨(heldJob setup j p).cancel reason now, heldSigns setup j w p ++ [.closed w],
            .cancelled⟩) ∧
    ∀ p till c, PausedRun setup j w p till → setup.cancelAfter = some c →
      setup.cancelsWithin limit = true → p.elapsed ≤ c.nanos → c.nanos < till →
        j.runWithin setup limit reason =
          ⟨(heldJob setup j p).cancel reason (setup.start.add c),
            heldSigns setup j w p ++ [.closed w], .cancelled⟩ := by
  refine ⟨?_, ?_, ?_⟩
  · intro p till now hpause hin held seen left whole
    obtain ⟨before, s, after, ended, lead, body, t, hl, hfresh, hafter, hsteps, hlead, hbody, hsigns,
      _⟩ := hpause.front hf
    have hlength : ended.length = before.length := by rw [← hfresh, List.length_map]
    have hleft : left.steps = _ := cancel_steps hsteps hlead.completed rfl hafter reason now
    have hshown := hpause.shown hw hin reason
    refine ⟨before, s, after, ended, t, hl, hfresh, hlead.completed, hsteps, hafter, rfl, ?_,
      hleft, rfl, ?_, rfl, ?_, hshown.filterMap _, hshown.filterMap _, ?_⟩
    -- the counts of the held job are made at its last completed step, or none was made yet
    · have hzero : j.state.counts = .ofSteps j.steps :=
        hf.counts.trans (ofSteps_open fun a ha => .inl (hf.pending a ha)).symm
      have hcounts : held.state.counts = .ofSteps p.steps := Paused.counts_eq hpause hzero
      rw [hcounts, hsteps, ← hlength]
      exact ofSteps_held hlead.completed hafter
    · have hcounts : left.state.counts = .ofSteps left.steps := rfl
      rw [hcounts, hleft, ofSteps_dropped hlead.completed, hlength]
    · rw [dropped_published hlead.completed hleft, hfresh]
    · intro e he
      change e ∈ placed 0 (entrance setup j w ++ p.signs) at he
      rw [placed_append, hsigns, Nat.add_comm before.length] at he
      have hat : AtPlace setup j w 1 (before ++ [s]) e := hlead.placed_next hbody _ e he
      obtain ⟨k, a, hplace, hk, _⟩ := hat
      obtain ⟨hlt, _⟩ := List.getElem?_eq_some_iff.mp hk
      simp only [List.length_append, List.length_cons, List.length_nil] at hlt hplace
      omega
  · exact cancelled_in_pause hw limit reason
  · exact fun p till c hpause => hpause.cancelled_within hw

/-- Somebody cancels the stock job during its third command. -/
def interrupted : RunSetup := { untested with cancelAfter := some ⟨12⟩ }

/-- The step that was over by then stays completed, and the one at work counts as failed. -/
theorem interrupted_cancels :
    ∃ p till now, PausedRun interrupted stockJob "/work" p till ∧
      stockJob.run interrupted = ⟨(heldJob interrupted stockJob p).cancel "run cancelled" now,
        heldSigns interrupted stockJob "/work" p ++ [.closed "/work"], .cancelled⟩ ∧
      (heldJob interrupted stockJob p).state.counts = ⟨1, 0, 0⟩ ∧
      (stockJob.run interrupted).job.state.counts = ⟨1, 1, 2⟩ := by
  have hw : interrupted.workspace = .ok "/work" := rfl
  obtain ⟨hheld, hcancelled, _⟩ := pause_cancels (forPush_fresh forPush_stock) hw
    (some (Job.clockLimit stockJob.timeout)) "run cancelled"
  have hend : (stockJob.run interrupted).ending = .cancelled := by
    have his : (match (stockJob.run interrupted).ending with
      | .cancelled => true
      | _ => false) = true := by decide +kernel
    split at his
    · assumption
    · cases his
  obtain ⟨p, till, now, hpause, hin, hrun⟩ := hcancelled hend
  obtain ⟨before, s, after, ended, t, _, _, _, _, _, _, hcounts, _, _, hleft, _⟩ :=
    hheld p till now hpause hin
  have hfinal : (stockJob.run interrupted).job.state.counts = ⟨1, 1, 2⟩ := by decide +kernel
  have hplace : before.length = 1 := by
    have hsame := hleft.symm.trans ((congrArg (·.job.state.counts) hrun).symm.trans hfinal)
    exact congrArg Counts.completed hsame
  rw [hplace] at hcounts
  exact ⟨p, till, now, hpause, hrun, hcounts, hfinal⟩

end ReleaseJob.Proofs
