import ReleaseJob.Proofs.Pause

namespace ReleaseJob.Proofs

variable {setup : RunSetup} {limit : Option Span} {j k : Job} {w reason : String} {p r : StepsRun}
  {till : Nat} {signs : List JobSign}

/-- Timeouts below thirty years are taken as they are. -/
theorem clockLimit_eq {limit : Span}
    (h : limit.nanos < (Span.ofSeconds (30 * 365 * 86400)).nanos) :
    Job.clockLimit limit = limit := by
  have hclock : Nat.pow 2 63 = 9223372036854775808 := rfl
  refine if_pos ?_
  simp only [Span.ofSeconds, Span.seconds] at h ⊢
  omega

theorem uncancelled_stop (hc : setup.cancelAfter = none) (limit : Option Span) :
    setup.cancelsWithin limit = false ∧ setup.stop limit = limit := by
  have hno : setup.cancelsWithin limit = false := by simp [RunSetup.cancelsWithin, hc]
  exact ⟨hno, if_neg (by simp [hno])⟩

/-- A loop that was not broken off is settled in the same way under every limit. -/
theorem settle_unbroken (h : r.ending ≠ .broken) (a b : Option Span) :
    k.settle setup a reason w signs r = k.settle setup b reason w signs r ∧
      (k.settle setup a reason w signs r).job.steps = r.steps := by
  unfold Job.settle
  cases he : r.ending with
  | done => exact ⟨rfl, rfl⟩
  | failed e => exact ⟨rfl, rfl⟩
  | broken => exact absurd he h

/-- A limit that falls into a wait fails the run there. -/
theorem PausedRun.timed_out {l : Span} (h : PausedRun setup j w p till)
    (hw : setup.workspace = .ok w) (hc : setup.cancelAfter = none) (hin : p.elapsed ≤ l.nanos)
    (hout : l.nanos < till) (reason : String) :
    j.runWithin setup (some l) reason =
      (heldJob setup j p).timeOut setup w (heldSigns setup j w p) (setup.start.add l) := by
  obtain ⟨hno, hstop⟩ := uncancelled_stop hc (some l)
  obtain ⟨e, he⟩ := h.cut hstop (inTime_some.mpr hin) (inTime_some_false.mpr hout)
  rw [runWithin_somewhere setup (some l) reason j hw, he]
  unfold Job.settle
  rw [Paused.ending h, hno, hstop]
  rfl

theorem events_tearDown (setup : RunSetup) (k : Job) (w : String) (signs : List JobSign)
    (result : Except JobError Unit) (now : Instant) :
    events (k.tearDown setup w signs result now).signs = events signs ++ [.tornDown k.state.id,
      .ended k.state.id (k.tearDown setup w signs result now).job.state.status] := by
  rw [← events_visible, tearDown_visible, events_append, events_visible]
  rfl

theorem events_skips (reason : String) (l : List Step) :
    events (l.map fun s => .event (.stepSkipped s.id reason)) =
      l.map fun s => .stepSkipped s.id reason := by
  rw [events, List.filterMap_map]
  exact congrFun List.filterMap_eq_map l

/-- What a step shows while it runs are its own lines. -/
theorem events_within {s : Step} {body : List JobSign}
    (hb : ∀ x ∈ body, Within setup j w s x) :
    ∀ e ∈ events body, ∃ stream line, e = .stepOutput s.id stream line := by
  intro e he
  obtain ⟨x, hx, hxe⟩ := List.mem_filterMap.mp he
  have hin := hb x hx
  cases x with
  | event e' =>
    cases hxe
    cases e with
    | stepOutput id stream line =>
      cases hin
      exact ⟨stream, line, rfl⟩
    | _ => cases hin
  | log | opened | invoked | closed => cases hxe

theorem events_held {before : List Step} {s : Step} {lead body : List JobSign}
    (h : p.signs = lead ++ starting j (before.length + 1) s :: body) :
    events (heldSigns setup j w p) = events (entrance setup j w ++ lead) ++
      .stepStarted s.id s.name (before.length + 1) j.steps.length :: events body := by
  rw [heldSigns, h, ← List.append_assoc, events_append]
  rfl

/-- Without a limit and with nobody to cancel it, the loop is the one that nothing breaks off. -/
theorem stepsRun_free (hc : setup.cancelAfter = none) (j : Job) (w : String) :
    stepsRun setup none j w = freeLoop setup j w := by
  rw [stepsRun_eq, (uncancelled_stop hc none).2]
  rfl

/-- A run whose loop nothing breaks off is the run without a limit. -/
theorem runWithin_free (hw : setup.workspace = .ok w)
    (h : stepsRun setup limit j w = freeLoop setup j w) (hc : setup.cancelAfter = none)
    (reason : String) : j.runWithin setup limit reason = j.runWithin setup none reason := by
  rw [runWithin_somewhere setup limit reason j hw, runWithin_somewhere setup none reason j hw, h,
    stepsRun_free hc]
  exact (settle_unbroken (runSteps_free rfl).1 limit none).1

/-- A run without a limit leaves its steps as the loop does, and it takes the time of its
commands. -/
theorem free_run (hw : setup.workspace = .ok w) (hc : setup.cancelAfter = none) (j : Job)
    (reason : String) :
    (j.runWithin setup none reason).job.steps = (freeLoop setup j w).steps ∧
      (freeLoop setup j w).elapsed =
        totalDelay setup.runner [] (invocations (j.runWithin setup none reason).signs) := by
  obtain ⟨hend, htime⟩ : (freeLoop setup j w).ending ≠ .broken ∧ _ := runSteps_free rfl
  refine ⟨?_, ?_⟩
  · rw [runWithin_somewhere setup none reason j hw, stepsRun_free hc]
    exact (settle_unbroken hend none none).2
  · rw [runWithin_invocations hw, stepsRun_free hc]
    exact htime.trans (Nat.zero_add _)

/-- The timeout cuts a run and changes nothing before the cut. A fresh job whose commands take less
time than it has runs as it would without a timeout. One whose commands take more fails with its
timeout: it stops while a step is running, which fails, the steps before it are as the untimed run
leaves them and the ones after it are skipped. It shows what the untimed run shows up to a point
within the block of that step, and then what becomes of the steps and of the job. -/
theorem timeout_cuts {j : Job} (hf : Fresh j) {setup : RunSetup} {w : String}
    (hw : setup.workspace = .ok w) (hc : setup.cancelAfter = none)
    (hlimit : j.timeout.nanos < (Span.ofSeconds (30 * 365 * 86400)).nanos) (reason : String) :
    let timed := j.run setup reason
    let free := j.runWithin setup none reason
    let needed := totalDelay setup.runner [] (invocations free.signs)
    let error := (JobError.timeout j.timeout).message
    (needed < j.timeout.nanos → timed = free) ∧
    (j.timeout.nanos < needed →
      timed.ending = .failed (.timeout j.timeout) ∧
      invocations timed.signs <+: invocations free.signs ∧
      ∃ before s after ended t, j.steps = before ++ s :: after ∧ ended.map Step.fresh = before ∧
        (∃ p till, PausedRun setup j w p till ∧ p.elapsed ≤ j.timeout.nanos ∧
          j.timeout.nanos < till ∧ p.steps = ended ++ s.withState (.running t) :: after) ∧
        timed.job.steps =
          ended ++ s.withState (.failed error t (setup.start.add j.timeout)) ::
            after.map (·.withState (.skipped "job timed out")) ∧
        (∀ a ∈ ended, a.state.isCompleted = true) ∧ ended <+: free.job.steps ∧
        ∃ seen lines,
          let shown := seen ++ .stepStarted s.id s.name (before.length + 1) j.steps.length :: lines
          shown <+: events free.signs ∧
          (∀ e ∈ lines, ∃ stream line, e = .stepOutput s.id stream line) ∧
          events timed.signs = shown ++ (.stepFailed s.id error ::
            after.map fun a => .stepSkipped a.id "job timed out") ++
              [.tornDown j.state.id, .ended j.state.id .failed]) := by
  intro timed free needed error
  have hclock : timed = j.runWithin setup (some j.timeout) reason := by
    rw [← clockLimit_eq hlimit]
    rfl
  obtain ⟨hleft, htime⟩ := free_run hw hc j reason
  have hstop := (uncancelled_stop hc (some j.timeout)).2
  have hcut := stepsRun_cut j w hstop
  rw [htime] at hcut
  rw [hclock]
  -- either the free loop ends in time, or the limit falls into one of its waits
  rcases hcut with ⟨hin, heq⟩ | ⟨hlate, p, till, hpause, hin, hout⟩
  · refine ⟨fun _ => runWithin_free hw heq hc reason, fun hlt => ?_⟩
    exact absurd hlt (Nat.not_lt.mpr (inTime_some.mp hin))
  · refine ⟨fun hlt => absurd hlt (Nat.lt_asymm (inTime_some_false.mp hlate)), fun _ => ?_⟩
    obtain ⟨before, s, after, ended, lead, body, t, hl, hfresh, hafter, hsteps, hlead, hbody, hsigns,
      hkept⟩ := hpause.front hf
    obtain ⟨fault, hdown⟩ := timeOut_eq (k := heldJob setup j p) hsteps hlead.completed hafter
      setup w (heldSigns setup j w p) (setup.start.add j.timeout)
    have htimed := (hpause.timed_out hw hc (inTime_some.mp hin) (inTime_some_false.mp hout)
      reason).trans hdown
    have hshown : heldSigns setup j w p <+: free.signs := by
      have hsame : uncancelled setup = setup := by rw [uncancelled, ← hc]
      have hgoes : _ <+: (j.runWithin (uncancelled setup) none reason).signs :=
        hpause.shown hw rfl reason
      rwa [hsame] at hgoes
    refine ⟨by rw [htimed]; rfl, ?_, before, s, after, ended, t, hl, hfresh,
      ⟨p, till, hpause, inTime_some.mp hin, inTime_some_false.mp hout, hsteps⟩,
      by rw [htimed]; rfl, hlead.completed, by rw [hleft]; exact hkept,
      events (entrance setup j w ++ lead), events body, ?_, events_within hbody, ?_⟩
    · obtain ⟨e, he⟩ := hpause.cut hstop hin hout
      rw [runWithin_invocations hw, he]
      exact hshown.filterMap JobSign.invocation?
    · rw [← events_held hsigns]
      exact hshown.filterMap _
    · rw [htimed, events_tearDown, events_append, events_held hsigns]
      exact congrArg (fun skips => _ ++ .stepFailed s.id error :: skips ++ _)
        (events_skips "job timed out" after)

/-- The stock job has time for all its commands, the hurried one is cut in its third command. -/
theorem hurried_cut :
    stockJob.run untested = stockJob.runWithin untested none ∧
    invocations (hurried.run untested).signs <+:
      invocations (hurried.runWithin untested none).signs ∧
    (invocations (hurried.run untested).signs).length = 3 ∧
    (invocations (hurried.runWithin untested none).signs).length = 5 ∧
    (hurried.run untested).job.state.counts = ⟨1, 1, 2⟩ := by
  have hw : untested.workspace = .ok "/work" := rfl
  obtain ⟨hsame, _⟩ := timeout_cuts (forPush_fresh forPush_stock) hw rfl
    (by decide +kernel) "run cancelled"
  obtain ⟨_, hcut⟩ := timeout_cuts hurried_fresh hw rfl (by decide +kernel) "run cancelled"
  obtain ⟨_, hinvoked, _⟩ := hcut (by decide +kernel)
  exact ⟨hsame (by decide +kernel), hinvoked, by decide +kernel, by decide +kernel,
    by decide +kernel⟩

end ReleaseJob.Proofs
