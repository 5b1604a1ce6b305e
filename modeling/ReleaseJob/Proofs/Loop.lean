import ReleaseJob.Proofs.Views

namespace ReleaseJob

def Step.withState (s : Step) (state : StepState) : Step := { s with state }

namespace Proofs

section Turn

variable (setup : RunSetup) (limit : Option Span) (j : Job) (w : String)

def contextOf (s : Step) : StepContext := j.contextFor s w setup.secrets

def stepRun (past : List Invocation) (elapsed : Nat) (s : Step) : StepRun :=
  s.run setup.runner limit (contextOf setup j w s) past elapsed

/-- What is seen of a step that is run at a place. -/
def stepSigns (place : Nat) (s : Step) (r : StepRun) : List JobSign :=
  .event (.stepStarted s.id s.name place j.steps.length) ::
    r.signs.map (.ofStep (contextOf setup j w s))

end Turn

theorem invocations_stepSigns (setup : RunSetup) (j : Job) (w : String) (place : Nat) (s : Step)
    (r : StepRun) : invocations (stepSigns setup j w place s r) =
      r.signs.filterMap StepSign.invocation? :=
  invocations_ofStep ..

variable {setup : RunSetup} {limit : Option Span} {j : Job} {w : String} {s : Step}
  {done rest : List Step} {counts : Counts} {past : List Invocation} {elapsed : Nat}

theorem runSteps_idle (hs : s.isPending = false) :
    j.runSteps setup limit w done counts past elapsed (s :: rest) =
      j.runSteps setup limit w (done ++ [s]) counts past elapsed rest := by
  simp [Job.runSteps, hs]

theorem runSteps_broken (hs : s.isPending = true)
    (he : stepRun setup limit j w past elapsed s = r) (hr : r.result = none) :
    j.runSteps setup limit w done counts past elapsed (s :: rest) =
      ⟨done ++ s.withState (.running (setup.start.add ⟨elapsed⟩)) :: rest, counts,
        stepSigns setup j w (done.length + 1) s r, r.elapsed, .broken⟩ := by
  subst he
  unfold stepRun contextOf at hr
  simp only [Job.runSteps, hs, ↓reduceIte, hr]
  rfl

theorem runSteps_passed (hs : s.isPending = true)
    (he : stepRun setup limit j w past elapsed s = r) (hr : r.result = some (.success output))
    (ht : t = s.withState
      (.completed output (setup.start.add ⟨elapsed⟩) (setup.start.add ⟨r.elapsed⟩)))
    (hn : next = j.runSteps setup limit w (done ++ [t]) (.ofSteps (done ++ t :: rest)) r.past
      r.elapsed rest) :
    j.runSteps setup limit w done counts past elapsed (s :: rest) =
      { next with
        signs := stepSigns setup j w (done.length + 1) s r ++
          .event (.stepCompleted s.id) :: next.signs } := by
  subst he ht hn
  unfold stepRun contextOf at hr
  simp only [Job.runSteps, hs, ↓reduceIte, hr]
  rfl

theorem runSteps_failed (hs : s.isPending = true)
    (he : stepRun setup limit j w past elapsed s = r)
    (hr : r.result = some (.failed error output))
    (ht : t = s.withState
      (.failed error (setup.start.add ⟨elapsed⟩) (setup.start.add ⟨r.elapsed⟩))) :
    j.runSteps setup limit w done counts past elapsed (s :: rest) =
      ⟨done ++ t :: skipPending s!"step '{s.id}' failed" rest,
        .ofSteps (done ++ t :: skipPending s!"step '{s.id}' failed" rest),
        stepSigns setup j w (done.length + 1) s r ++ .event (.stepFailed s.id error) ::
          skipEvents s!"step '{s.id}' failed" rest,
        r.elapsed, .failed (.step s.kind error)⟩ := by
  subst he ht
  unfold stepRun contextOf at hr
  simp only [Job.runSteps, hs, ↓reduceIte, hr]
  rfl

/-- Of a setup the loop reads the runner and the start, and of a job the contexts of its steps and how
many they are. -/
theorem runSteps_congr (setup u : RunSetup) (j k : Job) (hrunner : setup.runner = u.runner)
    (hstart : setup.start = u.start) (hcontext : ∀ s, contextOf setup j w s = contextOf u k w s)
    (hlength : j.steps.length = k.steps.length) (limit : Option Span) (done : List Step)
    (counts : Counts) (past : List Invocation) (elapsed : Nat) (l : List Step) :
    j.runSteps setup limit w done counts past elapsed l =
      k.runSteps u limit w done counts past elapsed l := by
  induction l generalizing done counts past elapsed with
  | nil => rfl
  | cons s rest ih =>
    have hs := hcontext s
    unfold contextOf at hs
    simp only [Job.runSteps, hrunner, hstart, hs, hlength, ih]

/-- All that one turn of the loop can come to. -/
inductive Turn (setup : RunSetup) (limit : Option Span) (j : Job) (w : String) (done : List Step)
    (counts : Counts) (past : List Invocation) (elapsed : Nat) (s : Step) (rest : List Step) :
    StepsRun → Prop
  | idle {next : StepsRun} (hs : s.isPending = false)
      (hn : j.runSteps setup limit w (done ++ [s]) counts past elapsed rest = next) :
      Turn setup limit j w done counts past elapsed s rest next
  | broken {r : StepRun} (hs : s.isPending = true)
      (he : stepRun setup limit j w past elapsed s = r) (hr : r.result = none) :
      Turn setup limit j w done counts past elapsed s rest
        ⟨done ++ s.withState (.running (setup.start.add ⟨elapsed⟩)) :: rest, counts,
          stepSigns setup j w (done.length + 1) s r, r.elapsed, .broken⟩
  | passed {r : StepRun} {output : String} {t : Step} {next : StepsRun} (hs : s.isPending = true)
      (he : stepRun setup limit j w past elapsed s = r) (hr : r.result = some (.success output))
      (ht : t = s.withState
        (.completed output (setup.start.add ⟨elapsed⟩) (setup.start.add ⟨r.elapsed⟩)))
      (hn : j.runSteps setup limit w (done ++ [t]) (.ofSteps (done ++ t :: rest)) r.past r.elapsed
        rest = next) :
      Turn setup limit j w done counts past elapsed s rest
        { next with
          signs := stepSigns setup j w (done.length + 1) s r ++
            .event (.stepCompleted s.id) :: next.signs }
  | failed {r : StepRun} {error output : String} {t : Step} (hs : s.isPending = true)
      (he : stepRun setup limit j w past elapsed s = r)
      (hr : r.result = some (.failed error output))
      (ht : t = s.withState
        (.failed error (setup.start.add ⟨elapsed⟩) (setup.start.add ⟨r.elapsed⟩))) :
      Turn setup limit j w done counts past elapsed s rest
        ⟨done ++ t :: skipPending s!"step '{s.id}' failed" rest,
          .ofSteps (done ++ t :: skipPending s!"step '{s.id}' failed" rest),
          stepSigns setup j w (done.length + 1) s r ++ .event (.stepFailed s.id error) ::
            skipEvents s!"step '{s.id}' failed" rest,
          r.elapsed, .failed (.step s.kind error)⟩

/-- Whatever is said of the loop is shown by cases on its turns, and the definition is not opened
again. -/
theorem runSteps_turn {run : StepsRun}
    (h : j.runSteps setup limit w done counts past elapsed (s :: rest) = run) :
    Turn setup limit j w done counts past elapsed s rest run := by
  subst h
  cases hs : s.isPending with
  | false =>
    rw [runSteps_idle hs]
    exact .idle hs rfl
  | true =>
    obtain ⟨r, he⟩ : ∃ r, stepRun setup limit j w past elapsed s = r := ⟨_, rfl⟩
    cases hr : r.result with
    | none =>
      rw [runSteps_broken hs he hr]
      exact .broken hs he hr
    | some result =>
      cases result with
      | success output =>
        rw [runSteps_passed hs he hr rfl rfl]
        exact .passed hs he hr rfl rfl
      | failed error output =>
        rw [runSteps_failed hs he hr rfl]
        exact .failed hs he hr rfl

end Proofs

end ReleaseJob
