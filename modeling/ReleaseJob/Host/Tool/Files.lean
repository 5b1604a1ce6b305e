import ReleaseJob.Host.Tool.Text

/-!
The tools of the machine on files and directories, which stand for those of the system. No result
rests on them.
-/

namespace ReleaseJob.Host.Tool

def changeEach (call : Call) (names : List String) (said : String → OsError → String)
    (change : Machine → String → Except OsError Machine) : Trace × Machine :=
  let (output, m) := names.foldl (fun ((output, m) : Output × Machine) name =>
    match change m name with
    | .ok m => (output, m)
    | .error e => (output ++ [(.stderr, utf8 (said name e ++ "\n"))], m)) ([], call.machine)
  (⟨output, .code (if output.isEmpty then 0 else 1)⟩, m)

def isOption (a : String) : Bool := a.startsWith "-"

def operands (call : Call) : List String := call.args.filter fun a => !isOption a

def hasOption (call : Call) (letter : Char) : Bool :=
  (call.args.filter isOption).any fun a => a.toList.contains letter

def touch : Change := fun call =>
  let said (name : String) (e : OsError) := s!"touch: cannot touch '{name}': {e.cause}"
  changeEach call (operands call) said fun m name =>
    match m.find name with
    | .ok _ => .ok m
    | .error _ => m.write name []

def stages (path : String) : List String :=
  let names := path.splitOn "/"
  (List.range names.length).map fun i => "/".intercalate (names.take (i + 1))

def makeDirectory (m : Machine) (path : String) : Except OsError Machine :=
  match m.find path with
  | .ok _ => .error .alreadyThere
  | .error _ => m.put path .directory

def mkdir : Change := fun call =>
  let said (name : String) (e : OsError) := s!"mkdir: cannot create directory '{name}': {e.cause}"
  changeEach call (operands call) said fun m name =>
    if hasOption call 'p' then
      (stages name).foldlM (fun m path =>
        match m.find path with
        | .ok .directory => .ok m
        | .ok _ => .error .alreadyThere
        | .error _ => if path.isEmpty then .ok m else m.put path .directory) m
    else makeDirectory m name

def rm : Change := fun call =>
  let said (name : String) (e : OsError) := s!"rm: cannot remove '{name}': {e.cause}"
  changeEach call (operands call) said fun m name =>
    match m.find name with
    | .ok .directory =>
      if hasOption call 'r' || hasOption call 'R' then (m.locate name).map m.remove
      else .error .isDirectory
    | .ok _ => (m.locate name).map m.remove
    | .error e => if hasOption call 'f' then .ok m else .error e

/-- Where a file goes to: into a directory it goes under its own name. -/
def destination (m : Machine) (source target : String) : String :=
  match m.find target with
  | .ok .directory => target ++ "/" ++ ((source.splitOn "/").getLast?.getD source)
  | _ => target

def cp : Change := fun call =>
  match operands call with
  | [source, target] =>
    changeEach call [source] (fun name e => s!"cp: cannot stat '{name}': {e.cause}") fun m name => do
      m.write (destination m name target) (← m.read name)
  | _ => (.complains "cp: missing file operand\n" 1, call.machine)

def mv : Change := fun call =>
  match operands call with
  | [source, target] =>
    changeEach call [source] (fun name e => s!"mv: cannot stat '{name}': {e.cause}") fun m name => do
      let node ← m.find name
      (m.remove (← m.locate name)).put (destination m name target) node
  | _ => (.complains "mv: missing file operand\n" 1, call.machine)

/-- Lists directories; names that start with a dot are left out unless they are asked for. -/
def ls : Tool := fun call =>
  let shown (names : List String) : List String :=
    if hasOption call 'a' then "." :: ".." :: names
    else if hasOption call 'A' then names
    else names.filter fun n => !n.startsWith "."
  let list (path : String) : Output :=
    match call.machine.find path, call.machine.locate path with
    | .ok .directory, .ok place => [(.stdout, utf8 (lines (shown (call.machine.names place))))]
    | .ok _, _ => [(.stdout, utf8 (lines [path]))]
    | .error e, _ => [(.stderr, utf8 s!"ls: cannot access '{path}': {e.cause}\n")]
  let paths := operands call
  let output := (if paths.isEmpty then ["."] else paths).flatMap list
  ⟨output, .code (if output.any fun (stream, _) => stream = .stderr then 2 else 0)⟩

end ReleaseJob.Host.Tool
