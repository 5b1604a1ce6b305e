import ReleaseJob.Decimal.Binary
import ReleaseJob.RunId
import ReleaseJob.Step

namespace ReleaseJob

inductive Status
  | pending | running | completed | failed | cancelled
  deriving DecidableEq

def Status.name : Status → String
  | pending => "Pending"
  | running => "Running"
  | completed => "Completed"
  | failed => "Failed"
  | cancelled => "Cancelled"

def Status.all : List Status := [pending, running, completed, failed, cancelled]

def Status.ofName? (name : String) : Option Status := all.find? (·.name = name)

structure Counts where
  completed : Nat
  failed : Nat
  skipped : Nat
  deriving DecidableEq

namespace Counts

def zero : Counts := ⟨0, 0, 0⟩

def ofSteps (steps : List Step) : Counts :=
  ⟨steps.countP (·.state.isCompleted), steps.countP (·.state.isFailed),
    steps.countP (·.state.isSkipped)⟩

def sum (c : Counts) : Nat := c.completed + c.failed + c.skipped

end Counts

structure JobState where
  id : RunId
  status : Status
  started : Option Instant
  ended : Option Instant
  total : Nat
  counts : Counts

namespace JobState

def fresh (id : RunId) : JobState := ⟨id, .pending, none, none, 0, .zero⟩

def start (s : JobState) (total : Nat) (now : Instant) : JobState :=
  { s with status := .running, started := some now, total }

def finish (s : JobState) (status : Status) (now : Instant) : JobState :=
  { s with status, ended := some now }

/-- The share of steps in a final state, counted in 64 bits and divided in double precision; `none`
if there are too many to count. -/
def progress? (s : JobState) : Option Binary := do
  if s.total = 0 then return .zero
  if Nat.pow 2 64 ≤ s.counts.sum then failure
  let (an, ad) := (← Binary.ofRatio? s.counts.sum 1).ratio
  let (bn, bd) := (← Binary.ofRatio? s.total 1).ratio
  Binary.ofRatio? (an * bd) (ad * bn)

end JobState

end ReleaseJob
