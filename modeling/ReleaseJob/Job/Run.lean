import ReleaseJob.Job
import ReleaseJob.Job.Event
import ReleaseJob.Step.Run

namespace ReleaseJob

inductive JobError
  | step (kind : StepKind) (error : String)
  | workspace (cause : OsError)
  | timeout (limit : Span)

def JobError.message : JobError → String
  | step .checkout error => s!"Checkout failed: {error}"
  | step .toolchain error => s!"Toolchain provisioning failed: {error}"
  | step .test error => s!"Tests failed: {error}"
  | step .publish error => s!"Publish failed: {error}"
  | workspace cause => s!"Could not provision the job workspace: {cause.message}"
  | timeout limit => s!"Job exceeded its timeout of {limit.exactText}"

/-- What can be seen of a job while it runs. -/
inductive JobSign
  | log (line : LogLine)
  | event (e : JobEvent)
  | opened (workspace : String)
  | invoked (i : Invocation)
  /-- The workspace is given up, and its removal tried. -/
  | closed (workspace : String)

namespace JobSign

def event? : JobSign → Option JobEvent
  | event e => some e
  | _ => none

def invocation? : JobSign → Option Invocation
  | invoked i => some i
  | _ => none

def log? : JobSign → Option LogLine
  | log l => some l
  | _ => none

/-- The lines of a step are shown masked. -/
def ofStep (c : StepContext) : StepSign → JobSign
  | .log l => log l
  | .invoked i => invoked i
  | .line stream text => event (.stepOutput c.stepId stream (c.redact text))

end JobSign

/-- What comes of removing a workspace. It is inferred, so that only a setup whose workspace stays
behind has to tell. -/
class Removal where
  fault : Option OsError := none

instance : Removal where

structure RunSetup where
  runner : Runner
  secrets : SecretStore
  /-- Where the commands run, if that place can be made. -/
  workspace : Except OsError String
  start : Instant
  cancelAfter : Option Span := none
  [removal : Removal]

namespace RunSetup

/-- A cancellation counts if it comes before the limit. -/
def cancelsWithin (setup : RunSetup) (limit : Option Span) : Bool :=
  match setup.cancelAfter, limit with
  | some c, some l => c.nanos < l.nanos
  | some _, none => true
  | none, _ => false

def stop (setup : RunSetup) (limit : Option Span) : Option Span :=
  if setup.cancelsWithin limit then setup.cancelAfter else limit

end RunSetup

inductive Ending
  | completed
  | failed (e : JobError)
  | cancelled

inductive StepsEnding
  | done
  | failed (e : JobError)
  | broken

structure StepsRun where
  steps : List Step
  counts : Counts
  signs : List JobSign
  elapsed : Nat
  ending : StepsEnding

def skipPending (reason : String) (steps : List Step) : List Step :=
  steps.map fun s => { s with state := s.state.skip reason }

def skipEvents (reason : String) (steps : List Step) : List JobSign :=
  (steps.filter Step.isPending).map fun s => .event (.stepSkipped s.id reason)

namespace Job

/-- Runs the pending ones of the steps that are left; `done` holds those before them. -/
def runSteps (setup : RunSetup) (limit : Option Span) (j : Job) (workspace : String)
    (done : List Step) (counts : Counts) (past : List Invocation) (elapsed : Nat) :
    List Step → StepsRun
  | [] => ⟨done, counts, [], elapsed, .done⟩
  | s :: rest =>
    if s.isPending then
      let c := j.contextFor s workspace setup.secrets
      let begun := { s with state := .running (setup.start.add ⟨elapsed⟩) }
      let r := s.run setup.runner limit c past elapsed
      let now := setup.start.add ⟨r.elapsed⟩
      let signs := .event (.stepStarted s.id s.name (done.length + 1) j.steps.length) ::
        r.signs.map (.ofStep c)
      match r.result with
      | none => ⟨done ++ begun :: rest, counts, signs, r.elapsed, .broken⟩
      | some (.success output) =>
        let ended := { begun with state := begun.state.complete output now }
        let next := runSteps setup limit j workspace (done ++ [ended])
          (.ofSteps (done ++ ended :: rest)) r.past r.elapsed rest
        { next with signs := signs ++ .event (.stepCompleted s.id) :: next.signs }
      | some (.failed error _) =>
        let ended := { begun with state := begun.state.fail error now }
        let reason := s!"step '{s.id}' failed"
        let steps := done ++ ended :: skipPending reason rest
        ⟨steps, .ofSteps steps, signs ++ .event (.stepFailed s.id error) :: skipEvents reason rest,
          r.elapsed, .failed (.step s.kind error)⟩
    else runSteps setup limit j workspace (done ++ [s]) counts past elapsed rest

def failRunning (error : String) (now : Instant) : List Step → List Step × List JobSign
  | [] => ([], [])
  | s :: rest =>
    if s.state.isRunning then
      ({ s with state := s.state.fail error now } :: rest, [.event (.stepFailed s.id error)])
    else
      let (steps, signs) := failRunning error now rest
      (s :: steps, signs)

/-- A limit too long for the clock counts as thirty years. -/
def clockLimit (timeout : Span) : Span :=
  if timeout.seconds < Nat.pow 2 63 then timeout else .ofSeconds (30 * 365 * 86400)

def conclude (setup : RunSetup) (j : Job) (result : Except JobError Unit) (now : Instant) :
    Job × List JobSign :=
  let (status, faults) : Status × List JobSign := match result with
    | .ok _ => (.completed, [])
    | .error e => (.failed, [.log ⟨.error, s!"Pipeline {j.name} failed: {setup.secrets.redact e.message}"⟩])
  let j := { j with state := j.state.finish status now }.recount
  (j, faults ++ [.log ⟨.info, s!"Pipeline execution finished: {j.name} - {status.name}"⟩,
    .event (.ended j.state.id status)])

structure JobRun where
  job : Job
  signs : List JobSign
  ending : Ending

/-- The end of a run that was not cancelled. -/
def tearDown (setup : RunSetup) (j : Job) (workspace : String) (signs : List JobSign)
    (result : Except JobError Unit) (now : Instant) : JobRun :=
  let (j, last) := j.conclude setup result now
  let ending := match result with
    | .ok _ => .completed
    | .error e => .failed e
  let removal : LogLine := match setup.removal.fault with
    | none => ⟨.debug, s!"Removed workspace {workspace}"⟩
    | some cause => ⟨.warn, s!"Failed to remove workspace {workspace}: {cause.message}"⟩
  ⟨j, signs ++ .closed workspace :: .log removal :: .event (.tornDown j.state.id) :: last, ending⟩

/-- The end of a run broken off at its limit: what was running fails, and the rest is skipped. -/
def timeOut (setup : RunSetup) (j : Job) (workspace : String) (signs : List JobSign)
    (now : Instant) : JobRun :=
  let error := JobError.timeout j.timeout
  let fault : JobSign :=
    .log ⟨.error, s!"Pipeline {j.name} exceeded its timeout of {j.timeout.exactText}"⟩
  let (steps, failed) := failRunning error.message now j.steps
  let reason := "job timed out"
  tearDown setup { j with steps := skipPending reason steps } workspace
    (signs ++ fault :: failed ++ skipEvents reason steps) (.error error) now

/-- What follows the steps; a run that was cancelled just stops, for the given reason. -/
def settle (setup : RunSetup) (limit : Option Span) (reason : String) (j : Job)
    (workspace : String) (signs : List JobSign) (r : StepsRun) : JobRun :=
  let j := { j with steps := r.steps, state := { j.state with counts := r.counts } }
  let now := setup.start.add ⟨r.elapsed⟩
  match r.ending with
  | .done => tearDown setup j workspace signs (.ok ()) now
  | .failed e => tearDown setup j workspace signs (.error e) now
  | .broken =>
    let now := setup.start.add ((setup.stop limit).getD ⟨0⟩)
    if setup.cancelsWithin limit then
      ⟨j.cancel reason now, signs ++ [.closed workspace], .cancelled⟩
    else timeOut setup j workspace signs now

def opening (j : Job) : List JobSign :=
  [.log ⟨.info, s!"Starting pipeline execution: {j.name} for {j.tag.name} ({j.state.id.text})"⟩,
    .event (.started j.state.id j.name j.tag.name)]

/-- A run that finds no place for its commands runs none. -/
def runNowhere (setup : RunSetup) (j : Job) (cause : OsError) : JobRun :=
  let reason := "job workspace could not be created"
  let error := JobError.workspace cause
  let (ended, last) :=
    conclude setup { j with steps := skipPending reason j.steps } (.error error) setup.start
  ⟨ended, j.opening ++ .log ⟨.error, s!"Failed to create workspace: {cause.message}"⟩ ::
    skipEvents reason j.steps ++ last, .failed error⟩

def runIn (setup : RunSetup) (limit : Option Span) (reason : String) (j : Job)
    (workspace : String) : JobRun :=
  let r := runSteps setup (setup.stop limit) j workspace [] j.state.counts [] 0 j.steps
  let signs := j.opening ++ .opened workspace ::
    .log ⟨.debug, s!"Job workspace: {workspace}"⟩ :: r.signs
  settle setup limit reason j workspace signs r

def runWithin (setup : RunSetup) (limit : Option Span) (j : Job)
    (reason : String := "run cancelled") : JobRun :=
  let j := { j with state := j.state.start j.steps.length setup.start }
  match setup.workspace with
  | .error cause => runNowhere setup j cause
  | .ok workspace => runIn setup limit reason j workspace

def run (setup : RunSetup) (j : Job) (reason : String := "run cancelled") : JobRun :=
  j.runWithin setup (some (clockLimit j.timeout)) reason

end Job

end ReleaseJob
