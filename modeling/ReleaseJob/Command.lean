import ReleaseJob.Config
import ReleaseJob.Host.OsError

namespace ReleaseJob

structure Invocation where
  program : String
  args : List String
  workdir : String
  /-- Variables set for the command. -/
  env : Env := .empty
  /-- Variables that the command does not inherit. -/
  envRemove : List String := []

namespace Invocation

def ofArgv? (argv : List String) (workdir : String) : Option Invocation :=
  match argv with
  | [] => none
  | program :: args => some { program, args, workdir }

def commandLine (i : Invocation) : String := " ".intercalate (i.program :: i.args)

/-- What the command finds in its environment: what it inherits, less the removed variables, under
the ones set for it. -/
def childEnv (i : Invocation) (host : Env) : Env := (host.eraseAll i.envRemove).overlay i.env

end Invocation

inductive RunnerError
  | spawn (program cause : String)
  | io (program cause : String)
  | emptyCommand

def RunnerError.message : RunnerError → String
  | spawn program cause => s!"Failed to spawn `{program}`: {cause}"
  | io program cause => s!"I/O error while running `{program}`: {cause}"
  | emptyCommand => "Empty command line"

structure CommandOutput where
  /-- None if a signal ended the command. -/
  exit : Option Int
  output : String

def CommandOutput.success (o : CommandOutput) : Bool := o.exit = some 0

inductive OutputStream
  | stdout | stderr
  deriving DecidableEq

inductive RunnerAct
  | line (stream : OutputStream) (text : String)
  | wait (span : Span)

structure Reply where
  acts : List RunnerAct
  outcome : Except RunnerError CommandOutput

/-- A runner may go by every command it was ever asked to run; the last one is the one to answer. -/
abbrev Runner := List Invocation → Reply

/-- Whether a moment comes before a limit, if there is one; nothing is broken off at the very
moment of the limit. -/
def inTime (limit : Option Span) (elapsed : Nat) : Bool :=
  limit.elim true fun l => elapsed ≤ l.nanos

/-- The lines of a reply, and the time when it is over; none if a wait goes beyond the limit. -/
def playActs (limit : Option Span) (elapsed : Nat) :
    List RunnerAct → List (OutputStream × String) × Option Nat
  | [] => ([], some elapsed)
  | .line stream text :: rest =>
    let (lines, time?) := playActs limit elapsed rest
    ((stream, text) :: lines, time?)
  | .wait span :: rest =>
    if inTime limit (elapsed + span.nanos) then playActs limit (elapsed + span.nanos) rest
    else ([], none)

end ReleaseJob
