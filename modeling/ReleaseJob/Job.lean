import ReleaseJob.Config.Valid
import ReleaseJob.Job.State

namespace ReleaseJob

structure Job where
  name : String
  tag : ReleaseTag
  repository : String
  commit : Option String
  env : Env
  steps : List Step
  timeout : Span
  state : JobState

namespace Job

def ofConfig (c : Config) (tag : ReleaseTag) (p : Push) (id : RunId) : Job where
  name := c.name
  tag := tag
  repository := p.repository
  commit := p.commit
  env := c.env
  steps := c.steps.map Step.ofConfig
  timeout := c.timeoutSpan
  state := .fresh id

def forPush (c : Config) (p : Push) (id : RunId) : Except TriggerError (Option Job) := do
  let trigger ← c.trigger
  return (trigger.fire? p).map fun tag => ofConfig c tag p id

def find? (j : Job) (id : String) : Option Step := j.steps.find? (·.id = id)

def hasFailed (j : Job) : Bool := j.state.status = .failed

/-- The place of the next step to run; none in a failed job. -/
def nextStep? (j : Job) : Option Nat :=
  if j.hasFailed then none else j.steps.findIdx? Step.isPending

def isComplete (j : Job) : Bool := j.steps.all (·.state.isFinal)

def published (j : Job) : Bool :=
  j.steps.any fun s => s.kind = .publish && s.state.isCompleted

def failedStep? (j : Job) : Option String :=
  (j.steps.find? (·.state.isFailed)).map (·.id)

def recount (j : Job) : Job :=
  { j with state := { j.state with counts := .ofSteps j.steps } }

/-- Ends a job that was broken off: what ran fails and what did not start is skipped. -/
def cancel (j : Job) (reason : String) (now : Instant) : Job :=
  let steps := j.steps.map fun s => { s with state := s.state.interrupt reason now }
  let j := { j with steps }.recount
  { j with state := j.state.finish .cancelled now }

def secretNames (j : Job) : List String := Names.ofList (j.steps.flatMap (·.secrets))

/-- Sets more variables for the whole job, up to the first that goes by the name of a secret. -/
def override (j : Job) (secrets : List String) : List (String × String) → Except String Job
  | [] => .ok j
  | (name, value) :: rest =>
    if name ∈ secrets then .error name
    else override { j with env := j.env.insert name value } secrets rest

def releaseEnv (j : Job) : List (String × String) :=
  [("RELEASE_TAG", j.tag.name), ("RELEASE_VERSION", j.tag.version),
    ("RELEASE_REPOSITORY", j.repository)] ++
    (j.commit.map fun commit => ("RELEASE_COMMIT", commit)).toList

/-- The step's variables go over the job's, and what is told about the release over both. Only the
secrets that the step declares are bound; no command inherits a secret of any step. -/
def contextFor (j : Job) (s : Step) (workdir : String) (store : SecretStore) : StepContext where
  stepId := s.id
  tag := j.tag
  repository := j.repository
  commit := j.commit
  workdir := workdir
  env := (j.env.overlay s.env).insertAll j.releaseEnv
  secrets := s.secrets.filterMap fun name => (store.get? name).map (name, ·)
  envRemove := j.secretNames
  missing := s.secrets.filter fun name => (store.get? name).isNone

end Job

end ReleaseJob
