import ReleaseJob.Proofs.Admitted
import ReleaseJob.Proofs.Closing

namespace ReleaseJob.Proofs

section Plan

variable (setup : RunSetup) (j : Job) (w : String)

/-- Every secret of the step is in the store, and none of its command lines is empty. -/
def ready (s : Step) : Bool :=
  s.secrets.all setup.secrets.contains &&
    (s.commands (contextOf setup j w s)).all (!·.isEmpty)

def demand (s : Step) : List Invocation :=
  asked (contextOf setup j w s) (s.commands (contextOf setup j w s))

def plan (l : List Step) : List Invocation :=
  ((l.filter Step.isPending).takeWhile (ready setup j w)).flatMap (demand setup j w)

end Plan

variable {setup : RunSetup} {limit : Option Span} {j : Job} {w : String} {s : Step}
  {l rest : List Step}

theorem plan_idle (hs : s.isPending = false) :
    plan setup j w (s :: rest) = plan setup j w rest := by
  simp [plan, hs]

theorem plan_ready (hs : s.isPending = true) (hr : ready setup j w s = true) :
    plan setup j w (s :: rest) = demand setup j w s ++ plan setup j w rest := by
  simp [plan, hs, hr]

/-- The plan ends before a step that misses a secret, and that step invokes nothing. -/
theorem plan_unready (hs : s.isPending = true) (hr : ready setup j w s = false) :
    plan setup j w (s :: rest) = [] := by
  simp [plan, hs, hr]

theorem plan_of_ready (hp : ∀ s ∈ l, s.isPending = true)
    (hr : ∀ s ∈ l, ready setup j w s = true) :
    plan setup j w l = l.flatMap (demand setup j w) := by
  induction l with
  | nil => rfl
  | cons s rest ih =>
    rw [plan_ready (hp s List.mem_cons_self) (hr s List.mem_cons_self), List.flatMap_cons,
      ih (fun t ht => hp t (List.mem_cons_of_mem _ ht))
        (fun t ht => hr t (List.mem_cons_of_mem _ ht))]

/-- A step that is ready asks for each of its command lines. -/
theorem demand_commands (hr : ready setup j w s = true) :
    (demand setup j w s).map (fun i => i.program :: i.args) =
      s.commands (contextOf setup j w s) := by
  rw [ready, Bool.and_eq_true] at hr
  exact asked_commands hr.2

theorem missing_isEmpty (setup : RunSetup) (j : Job) (w : String) (s : Step) :
    (contextOf setup j w s).missing.isEmpty = s.secrets.all setup.secrets.contains := by
  rw [Bool.eq_iff_iff]
  simp [contextOf, Job.contextFor, Bindings.contains, Option.isSome_iff_ne_none]

/-- Only a step with one command line can have an empty one, so it asks for nothing. -/
theorem asked_of_empty (h : (s.commands c).all (!·.isEmpty) = false) :
    asked c (s.commands c) = [] := by
  cases ha : s.action with
  | checkout => cases hc : c.commit <;> simp [Step.commands, ha, hc] at h
  | toolchain channel setOverride => cases setOverride <;> simp [Step.commands, ha] at h
  | run argv =>
    cases argv with
    | nil => simp [Step.commands, ha, asked]
    | cons => simp [Step.commands, ha] at h

/-- A step that was not broken off attempts what it asks for, if it is ready. -/
theorem stepRun_invocations {past : List Invocation} {elapsed : Nat} {r : StepRun}
    (he : stepRun setup limit j w past elapsed s = r) (hr : r.result ≠ none) :
    r.signs.filterMap StepSign.invocation? =
      (if ready setup j w s then attempted setup.runner past (demand setup j w s) else []) ∧
    r.past = past ++
      (if ready setup j w s then attempted setup.runner past (demand setup j w s) else []) ∧
    r.succeeded = (ready setup j w s && passes setup.runner past (demand setup j w s)) := by
  subst he
  unfold stepRun Step.run at hr ⊢
  rw [ready, ← missing_isEmpty setup j w s]
  cases hm : (contextOf setup j w s).missing.isEmpty with
  | false => simp [StepRun.failure, StepRun.succeeded, StepSign.invocation?]
  | true =>
    simp only [hm, ↓reduceIte] at hr ⊢
    obtain ⟨hi, hp, hw⟩ := runCommands_invocations rfl hr
    cases hc : (s.commands (contextOf setup j w s)).all (!·.isEmpty) with
    | true =>
      rw [hc, Bool.and_true] at hw
      exact ⟨hi, hp, hw⟩
    | false =>
      rw [hc, Bool.and_false] at hw
      rw [asked_of_empty hc] at hi hp
      exact ⟨hi, hp, hw⟩

/-- A loop that was not broken off attempts the plan; if it came to its end, the plan passed and no
step was short of anything. -/
theorem runSteps_invocations {done : List Step} {counts : Counts} {past : List Invocation}
    {elapsed : Nat} {r : StepsRun}
    (hrun : j.runSteps setup limit w done counts past elapsed l = r) (hb : r.ending ≠ .broken) :
    invocations r.signs = attempted setup.runner past (plan setup j w l) ∧
    (r.ending = .done → passes setup.runner past (plan setup j w l) = true ∧
      ∀ s ∈ l, s.isPending = true → ready setup j w s = true) := by
  induction l generalizing done counts past elapsed r with
  | nil =>
    subst hrun
    exact ⟨rfl, fun _ => ⟨rfl, by simp⟩⟩
  | cons s rest ih =>
    cases runSteps_turn hrun with
    | idle hs hn =>
      rw [plan_idle hs]
      obtain ⟨hi, hd⟩ := ih hn hb
      refine ⟨hi, fun h => ⟨(hd h).1, ?_⟩⟩
      intro t ht hp
      rcases List.mem_cons.mp ht with rfl | ht
      · rw [hs] at hp
        contradiction
      · exact (hd h).2 t ht hp
    -- a limit can cut a step between any two of its commands
    | broken => exact absurd rfl hb
    | @passed r output t next hs he hr _ hn =>
      obtain ⟨hi, hp, hw⟩ := stepRun_invocations he (by simp [hr])
      have hok : r.succeeded = true := by simp [StepRun.succeeded, hr]
      rw [hok, eq_comm, Bool.and_eq_true] at hw
      obtain ⟨hready, hpass⟩ := hw
      simp only [hready, ↓reduceIte, attempted_of_passes hpass] at hi hp
      obtain ⟨hnext, hd⟩ := ih hn hb
      rw [plan_ready hs hready]
      refine ⟨?_, fun h => ⟨?_, ?_⟩⟩
      · rw [attempted_append, if_pos hpass, ← hp, ← hnext]
        simp [invocations_stepSigns, hi]
      · rw [passes_append, hpass, ← hp]
        exact (hd h).1
      · intro t ht hp
        rcases List.mem_cons.mp ht with rfl | ht
        · exact hready
        · exact (hd h).2 t ht hp
    | @failed r error output t hs he hr _ =>
      obtain ⟨hi, _, hw⟩ := stepRun_invocations he (by simp [hr])
      have hno : r.succeeded = false := by simp [StepRun.succeeded, hr]
      refine ⟨?_, fun h => by cases h⟩
      simp only [invocations_append, invocations_stepSigns, invocations_event,
        invocations_closing (skipEvents_closing _ _), List.append_nil, hi]
      cases hready : ready setup j w s with
      | true =>
        have hpass : passes setup.runner past (demand setup j w s) = false := by
          simpa [hno, hready] using hw.symm
        simp [plan_ready hs hready, attempted_append, hpass]
      | false => simp [plan_unready hs hready, attempted]

/-- A loop without pending steps asks for nothing, whatever else the steps are. -/
theorem runSteps_spent {done : List Step} {counts : Counts} {past : List Invocation} {elapsed : Nat}
    (hl : ∀ s ∈ l, s.isPending = false) :
    invocations (j.runSteps setup limit w done counts past elapsed l).signs = [] := by
  induction l generalizing done with
  | nil => rfl
  | cons s rest ih =>
    rw [runSteps_idle (hl s List.mem_cons_self)]
    exact ih fun t ht => hl t (List.mem_cons_of_mem _ ht)

theorem runWithin_invocations (hw : setup.workspace = .ok w) :
    invocations (j.runWithin setup limit reason).signs =
      invocations (stepsRun setup limit j w).signs := by
  rw [runWithin_somewhere setup limit reason j hw, (settle_closes ..).invocations_eq,
    invocations_append]
  rfl

theorem runWithin_spent (hl : ∀ s ∈ j.steps, s.isPending = false) :
    invocations (j.runWithin setup limit reason).signs = [] := by
  cases hw : setup.workspace with
  | error cause =>
    rw [runWithin_nowhere setup limit reason j hw]
    exact (runNowhere_closes ..).invocations_eq
  | ok w => rw [runWithin_invocations hw, stepsRun, runSteps_spent hl]

/-- A run that was neither cancelled nor out of time ran its loop to an end. -/
theorem stepsRun_unbroken (hw : setup.workspace = .ok w) (hc : setup.cancelAfter = none)
    (ht : (j.runWithin setup limit reason).ending ≠ .failed (.timeout j.timeout)) :
    (stepsRun setup limit j w).ending ≠ .broken := by
  intro hb
  apply ht
  rw [runWithin_somewhere setup limit reason j hw, settle_ending, hb]
  simp [RunSetup.cancelsWithin, hc, started]

/-- The job after one run, and then after any number of runs. -/
def rerun (j : Job) (setups : List RunSetup) : Job :=
  setups.foldl (fun j setup => (j.run setup).job) j

/-- No run makes a step pending. -/
theorem rerun_spent (hl : ∀ s ∈ j.steps, s.isPending = false) (setups : List RunSetup) :
    ∀ s ∈ (rerun j setups).steps, s.isPending = false := by
  induction setups generalizing j with
  | nil => exact hl
  | cons setup rest ih => exact ih (runWithin_closed ..).spent

theorem mem_asked (hi : i ∈ asked c commands) :
    i.workdir = c.workdir ∧ i.env = c.processEnv ∧ i.envRemove = c.envRemove ∧
      i.program :: i.args ∈ commands := by
  induction commands with
  | nil => simp [asked] at hi
  | cons argv rest ih =>
    cases argv with
    | nil => simp [asked] at hi
    | cons program args =>
      rcases List.mem_cons.mp hi with rfl | hi
      · exact ⟨rfl, rfl, rfl, List.mem_cons_self⟩
      · obtain ⟨hw, he, hr, hm⟩ := ih hi
        exact ⟨hw, he, hr, List.mem_cons_of_mem _ hm⟩

theorem mem_plan (hi : i ∈ plan setup j w l) :
    ∃ s ∈ l, s.isPending = true ∧ ready setup j w s = true ∧ i ∈ demand setup j w s := by
  obtain ⟨s, hs, hi⟩ := List.mem_flatMap.mp hi
  have hm := List.mem_filter.mp ((List.takeWhile_sublist _).subset hs)
  exact ⟨s, hm.1, hm.2, List.all_eq_true.mp List.all_takeWhile s hs, hi⟩

/-- A run that is given its time invokes exactly the plan, cut after the first command that does not
succeed. Each command sees the workspace, the variables of its own step and none of the declared
secrets of the host. Runs after a run, whatever that one came to, invoke nothing. -/
theorem run_attempts_plan (j : Job) (setup : RunSetup) :
    (∀ w, setup.workspace = .ok w → setup.cancelAfter = none →
      (∀ limit, (j.run setup).ending ≠ .failed (.timeout limit)) →
      invocations (j.run setup).signs = attempted setup.runner [] (plan setup j w j.steps) ∧
      invocations (j.run setup).signs <+: plan setup j w j.steps ∧
      ∀ i ∈ invocations (j.run setup).signs,
        i.workdir = w ∧ i.envRemove = j.secretNames ∧
        (∀ name, name ∈ i.envRemove ↔ ∃ s ∈ j.steps, name ∈ s.secrets) ∧
        ∃ s ∈ j.steps, s.isPending = true ∧
          i.program :: i.args ∈ s.commands (j.contextFor s w setup.secrets) ∧
          i.env = (j.contextFor s w setup.secrets).processEnv) ∧
    ∀ later next, invocations ((rerun (j.run setup).job later).run next).signs = [] := by
  refine ⟨?_, ?_⟩
  · intro w hw hc ht
    have hi : invocations (j.run setup).signs =
        attempted setup.runner [] (plan setup j w j.steps) := by
      rw [Job.run, runWithin_invocations hw]
      exact (runSteps_invocations rfl (stepsRun_unbroken hw hc (ht _))).1
    have hp : invocations (j.run setup).signs <+: plan setup j w j.steps :=
      hi ▸ attempted_prefix ..
    refine ⟨hi, hp, ?_⟩
    intro i hm
    obtain ⟨s, hs, hpending, _, hd⟩ := mem_plan (hp.subset hm)
    obtain ⟨hdir, henv, hremove, hcommand⟩ := mem_asked hd
    refine ⟨hdir, hremove, ?_, s, hs, hpending, hcommand, henv⟩
    intro name
    rw [hremove]
    exact Names.mem_ofList.trans List.mem_flatMap
  · intro later next
    exact runWithin_spent (rerun_spent (runWithin_closed ..).spent later)

/-- The stock job once its checkout is done. -/
def resumed : Job :=
  { stockJob with
    steps := (stockJob.steps.take 1).map (·.withState (.completed "" ⟨0, 0⟩ ⟨0, 0⟩)) ++
      stockJob.steps.drop 1 }

/-- A signal ends the second command. -/
def killed : RunSetup := scripted (fun n => if n = 2 then none else some 0) .empty

/-- The checkout is not done again, and the signal ends the run. -/
theorem resumed_attempts_plan :
    invocations (resumed.run killed).signs =
      attempted killed.runner [] (plan killed resumed "/work" resumed.steps) ∧
    (invocations (resumed.run killed).signs).map (fun i => i.program :: i.args) =
      [["rustup", "toolchain", "install", "nightly", "--profile", "minimal"],
        ["rustup", "override", "set", "nightly"]] ∧
    (plan killed resumed "/work" resumed.steps).length = 3 ∧
    invocations ((rerun (resumed.run killed).job [killed]).run killed).signs = [] := by
  obtain ⟨hplan, hlater⟩ := run_attempts_plan resumed killed
  have htime : ∀ limit, (resumed.run killed).ending ≠ .failed (.timeout limit) := by
    intro limit h
    have hno : (match (resumed.run killed).ending with
        | .failed (.timeout _) => true
        | _ => false) = false := by decide +kernel
    rw [h] at hno
    contradiction
  obtain ⟨hi, _, _⟩ := hplan "/work" rfl rfl htime
  exact ⟨hi, by decide +kernel, by decide +kernel, hlater [killed] killed⟩

end ReleaseJob.Proofs
