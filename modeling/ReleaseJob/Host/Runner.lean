import ReleaseJob.Command.Streams
import ReleaseJob.Host.Shell

/-!
The machine as a runner, which stands for starting commands on a computer. No result rests on it.
-/

namespace ReleaseJob.Host

/-- Loops of a script end here at the latest. -/
def scriptFuel : Nat := 20000

def toolNames : List String := ["sh", "env"] ++ Tool.all.map Prod.fst

def standard (workdir : Place) : Machine := .ofTools toolNames workdir

namespace Machine

def hasZero (s : String) : Bool := s.toList.contains '\x00'

def start (m : Machine) (host : Env) (i : Invocation) : Except OsError (Trace × Machine) := do
  let texts := i.program :: i.workdir :: i.args ++ i.env.names ++ i.env.values
  if texts.any hasZero then throw .zeroInCommand
  let inside ← m.enter i.workdir
  let env := i.childEnv host
  let program ← inside.command i.program (env.get? "PATH")
  let (trace, after) := Shell.launch scriptFuel inside program (i.program :: i.args) env []
  return (trace, { after with workdir := m.workdir })

end Machine

namespace Trace

def ended (t : Trace) : Ended where
  out := .ofBytes (written .stdout t.output)
  err := .ofBytes (written .stderr t.output)
  exit := .ok (t.ending.code?.map Int.ofNat)

/-- Lines are read in the order in which they were ended. -/
def turns (t : Trace) : List OutputStream :=
  t.output.flatMap fun (stream, bytes) => List.replicate (bytes.count 10) stream

end Trace

def Machine.reply (m : Machine) (host : Env) (i : Invocation) : Reply :=
  match m.start host i with
  | .error e => ⟨[], .error (.spawn i.program e.message)⟩
  | .ok (t, _) => t.ended.collect i.program t.turns

def Machine.afterAll (m : Machine) (host : Env) (past : List Invocation) : Machine :=
  past.foldl (fun m i => ((m.start host i).toOption.map Prod.snd).getD m) m

/-- A command finds the files that those before it have left. -/
def Machine.runner (m : Machine) (host : Env) : Runner := fun past =>
  match past.getLast? with
  | some i => (m.afterAll host past.dropLast).reply host i
  | none => ⟨[], .error .emptyCommand⟩

end ReleaseJob.Host
