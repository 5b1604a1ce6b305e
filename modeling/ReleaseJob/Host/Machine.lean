import ReleaseJob.Host.OsError

/-!
A machine to rehearse runs on. It and its shell and tools, the modules of `Host`, stand for the
computer that carries out the commands of a job, and for nothing that belongs to releases. What is
proved of a run is proved for every runner, so that no result rests on what a command does here.

The files of the machine: a path is walked from the root, or from the working directory, one name
after the other, and what is passed on the way must be a directory.
-/

namespace ReleaseJob.Host

inductive Node
  | directory
  | file (content : List UInt8)
  /-- A program that can be started, by its name. -/
  | program (name : String)

abbrev Place := List String

structure Machine where
  nodes : List (Place × Node)
  workdir : Place

/-- A place and all directories above it, from the root down. -/
def ancestry : Place → List Place
  | [] => [[]]
  | name :: rest => [] :: (ancestry rest).map (name :: ·)

namespace Machine

def node? (m : Machine) (place : Place) : Option Node :=
  if place.isEmpty then some .directory else m.nodes.lookup place

/-- The place that names lead to from another place. There need not be anything, but all on the way
are directories. -/
def walk (m : Machine) (place : Place) : List String → Except OsError Place
  | [] => .ok place
  | name :: rest =>
    match m.node? place with
    | some .directory =>
      if name.isEmpty || name = "." then walk m place rest
      else if name = ".." then walk m place.dropLast rest
      else if 255 < name.utf8ByteSize then .error .nameTooLong
      else walk m (place ++ [name]) rest
    | some _ => .error .notDirectory
    | none => .error .notFound

def isAbsolute (path : String) : Bool := path.toList.head? = some '/'

def locate (m : Machine) (path : String) : Except OsError Place :=
  if path.toList.contains '\x00' then .error .zeroInPath
  else if path.isEmpty then .error .notFound
  else if 4096 ≤ path.utf8ByteSize then .error .nameTooLong
  else m.walk (if isAbsolute path then [] else m.workdir) (path.splitOn "/")

def find (m : Machine) (path : String) : Except OsError Node := do
  match m.node? (← m.locate path) with
  | some node => return node
  | none => throw .notFound

/-- The first bytes of a program; they are no text. -/
def programBytes : List UInt8 := [0x7F, 0x45, 0x4C, 0x46, 0xFF]

def read (m : Machine) (path : String) : Except OsError (List UInt8) := do
  match ← m.find path with
  | .directory => throw .isDirectory
  | .file content => return content
  | .program _ => return programBytes

def program (m : Machine) (path : String) : Except OsError String := do
  match ← m.find path with
  | .program name => return name
  | _ => throw .denied

/-- The first program of that name in the directories; a refusal on the way is reported before
anything else. -/
def search (m : Machine) (name : String) (fault : OsError) : List String → Except OsError String
  | [] => .error fault
  | dir :: rest =>
    match m.program (if dir.isEmpty then name else dir ++ "/" ++ name) with
    | .ok found => .ok found
    | .error e => search m name (if fault = .denied then fault else e) rest

def defaultPath : String := "/usr/local/bin:/usr/bin:/bin"

def command (m : Machine) (name : String) (path : Option String) : Except OsError String :=
  if name.isEmpty then .error .notFound
  else if name.toList.contains '/' then m.program name
  else m.search name .notFound ((path.getD defaultPath).splitOn ":")

def users : String := "root:x:0:0:root:/root:/bin/sh\n"

def ofTools (tools : List String) (workdir : Place) : Machine where
  nodes :=
    ([["bin"], ["dev"], ["etc"], ["home"], ["opt"], ["root"], ["sbin"], ["tmp"], ["usr"], ["var"],
      ["usr", "bin"], ["usr", "local"], ["usr", "local", "bin"], ["usr", "sbin"]] ++
        ancestry workdir).map (·, Node.directory) ++
    [(["dev", "null"], .file []), (["etc", "passwd"], .file users.toUTF8.toList)] ++
    tools.flatMap fun name =>
      [(["bin", name], .program name), (["usr", "bin", name], .program name)]
  workdir := workdir

def place (m : Machine) (path : String) : Place :=
  let names := (path.splitOn "/").filter fun name => !(name.isEmpty || name = ".")
  if isAbsolute path then names else m.workdir ++ names

def addDirectory (m : Machine) (path : String) : Machine :=
  { m with nodes := (ancestry (m.place path)).map (·, Node.directory) ++ m.nodes }

/-- With a file more; the directories on the way to it are there too. -/
def addFile (m : Machine) (path : String) (content : List UInt8) : Machine :=
  let place := m.place path
  { m with nodes :=
      (place, .file content) :: (ancestry place.dropLast).map (·, Node.directory) ++ m.nodes }

def put (m : Machine) (path : String) (node : Node) : Except OsError Machine := do
  let place ← m.locate path
  match m.node? place.dropLast with
  | some .directory =>
    return { m with nodes := (place, node) :: m.nodes.filter (·.1 ≠ place) }
  | some _ => throw .notDirectory
  | none => throw .notFound

/-- Gives a file this content. The device that keeps nothing stays as it is. -/
def write (m : Machine) (path : String) (content : List UInt8) : Except OsError Machine := do
  match m.find path with
  | .ok .directory => throw .isDirectory
  | _ => if (← m.locate path) = ["dev", "null"] then return m else m.put path (.file content)

def remove (m : Machine) (place : Place) : Machine :=
  { m with nodes := m.nodes.filter fun (other, _) => !place.isPrefixOf other }

def names (m : Machine) (place : Place) : List String :=
  let found := m.nodes.filterMap fun (other, _) =>
    if other.length = place.length + 1 && place.isPrefixOf other then other.getLast? else none
  (found.eraseDups).mergeSort fun a b => a ≤ b

def enter (m : Machine) (path : String) : Except OsError Machine := do
  match ← m.find path with
  | .directory => return { m with workdir := ← m.locate path }
  | _ => throw .notDirectory

/-- Whether a directory is there or could be made. -/
def canHold (m : Machine) (path : String) : Except OsError Unit :=
  match m.find path with
  | .ok .directory | .error .notFound => .ok ()
  | .ok _ => .error .alreadyThere
  | .error e => .error e

end Machine

end ReleaseJob.Host
