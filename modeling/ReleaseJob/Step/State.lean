import ReleaseJob.Time.Instant

namespace ReleaseJob

inductive StepState
  | pending
  | running (started : Instant)
  | completed (output : String) (started ended : Instant)
  | failed (error : String) (started ended : Instant)
  | skipped (reason : String)

namespace StepState

def isPending : StepState → Bool
  | pending => true
  | _ => false

def isRunning : StepState → Bool
  | running _ => true
  | _ => false

def isCompleted : StepState → Bool
  | completed .. => true
  | _ => false

def isFailed : StepState → Bool
  | failed .. => true
  | _ => false

def isSkipped : StepState → Bool
  | skipped _ => true
  | _ => false

def isFinal (s : StepState) : Bool := s.isCompleted || s.isFailed || s.isSkipped

/-- When the step started; a step that is not running starts with its end. -/
def startOr (s : StepState) (now : Instant) : Instant :=
  match s with
  | running started => started
  | _ => now

def complete (s : StepState) (output : String) (now : Instant) : StepState :=
  completed output (s.startOr now) now

def fail (s : StepState) (error : String) (now : Instant) : StepState :=
  failed error (s.startOr now) now

def skip (s : StepState) (reason : String) : StepState :=
  if s.isPending then skipped reason else s

/-- A running step fails and a pending one is skipped, both for the same reason. -/
def interrupt (s : StepState) (reason : String) (now : Instant) : StepState :=
  match s with
  | running started => failed reason started now
  | pending => skipped reason
  | s => s

end StepState

end ReleaseJob
