import ReleaseJob.Cli.Program
import ReleaseJob.History.Line

namespace ReleaseJob.Cli.Terminal

/-- The time at which a new file is made. -/
def clock : IO Instant := do
  let (handle, file) ← IO.FS.createTempFile
  handle.flush
  let time := (← file.metadata).modified
  IO.FS.removeFile file
  return ⟨time.sec, time.nsec.toNat⟩

/-- Random but for the two digits that mark such ids. -/
def freshId : IO (Option RunId) := do
  let digits ← (List.range 32).mapM fun i => do
    if i = 12 then return RunId.digitOf 4
    let n ← IO.rand 0 15
    return RunId.digitOf (if i = 16 then 8 + n % 4 else n)
  return RunId.ofDigits? (digits.map RunId.digitChar)

def knownVariables : List String :=
  ["PATH", "HOME", "XDG_DATA_HOME", "TMPDIR", "CLICOLOR_FORCE"]

def environment (names : List String) : IO Env := do
  let found ← (knownVariables ++ names).filterMapM fun name => do
    return (← IO.getEnv name).map (name, ·)
  return Bindings.ofList found

def fileOf : Task → Option String
  | .run o => o.file
  | .check _ file _ | .validate file _ => file
  | .history _ => none

def machineFor (task : Task) : IO Host.Machine := do
  let m := Host.standard ["home", "user"]
  match fileOf task with
  | none => return m
  | some file =>
    try return m.addFile file (← IO.FS.readBinFile file).toList
    catch _ => return m

def historyFile (s : Scene) : String := s.dataPlace ++ "/tagrelease/runs.tsv"

def loadHistory (s : Scene) : IO (Option History.Table) := do
  try
    IO.FS.createDirAll (s.dataPlace ++ "/tagrelease")
    let rows ← try IO.FS.lines (historyFile s) catch _ => pure #[]
    return some (History.Table.ofLines rows.toList)
  catch _ => return none

def saveHistory (s : Scene) (table : History.Table) : IO Unit := do
  try IO.FS.writeFile (historyFile s) ("\n".intercalate table.toLines)
  catch _ => return

/-- Configurations and the history are files of this computer. The commands of a run are carried out
by the tools of `Host`, so that a run can be rehearsed anywhere. -/
def carryOutHere (args : List String) : IO UInt32 := do
  let some id ← freshId | return 1
  let task? := (Args.ofList args).toOption.map (·.task)
  let machine ← match task? with
    | some task => machineFor task
    | none => pure (Host.standard [])
  let names := match task?.bind fileOf with
    | some file => ((Config.load machine.read (some file)).toOption.map Config.secretNames).getD []
    | none => Config.stock.secretNames
  let scene : Scene := { machine, env := ← environment names, now := ← clock, id }
  let kept ← loadHistory scene
  let (shown, kept) := carryOut scene kept args
  IO.print shown.text
  if let some table := kept then saveHistory scene table
  return UInt32.ofNat shown.code

end ReleaseJob.Cli.Terminal

def main (args : List String) : IO UInt32 := ReleaseJob.Cli.Terminal.carryOutHere args
