import ReleaseJob.Bindings
import ReleaseJob.Ranked
import ReleaseJob.Text.Quoted

namespace ReleaseJob

/-- A value that no text of a run may show. -/
structure Secret where
  expose : String

def mask : String := "***"

namespace Redaction

/-- Every occurrence of `n :: ns`, from left to right, gives way to the mask. -/
def maskAll (n : Char) (ns : List Char) : List Char → List Char
  | [] => []
  | c :: rest =>
    if (n :: ns).isPrefixOf (c :: rest) then mask.toList ++ maskAll n ns (rest.drop ns.length)
    else c :: maskAll n ns rest
  termination_by text => text.length
  decreasing_by
    all_goals simp only [List.length_drop, List.length_cons]
    all_goals omega

/-- An empty value occurs nowhere. -/
def maskValue (value : String) (text : String) : String :=
  match value.toList with
  | [] => text
  | n :: ns => String.ofList (maskAll n ns text.toList)

/-- The longest values first, so that a value which holds another one goes as a whole. -/
def byLength (values : List String) : List String :=
  Ranked.ofList (fun v w => w.utf8ByteSize < v.utf8ByteSize) values

end Redaction

/-- Masks the values one after the other, each in what the ones before it left. -/
def redactAll (values : List Secret) (text : String) : String :=
  (Redaction.byLength (values.map Secret.expose)).foldl (fun t v => Redaction.maskValue v t) text

abbrev SecretStore := Bindings Secret

namespace SecretStore

def ofPairs (pairs : List (String × String)) : SecretStore :=
  Bindings.ofList (pairs.map fun (name, value) => (name, ⟨value⟩))

/-- A variable as a process finds it: its environment is a list of texts `name=value`, and it looks for
one that starts with the name and an equals sign. So a name that holds an equals sign may be found
within another variable. -/
def lookUp (env : Bindings String) (name : String) : Option String :=
  let head := name.toList ++ ['=']
  env.entries.findSome? fun (n, value) =>
    let text := n.toList ++ '=' :: value.toList
    if head.isPrefixOf text then some (String.ofList (text.drop head.length)) else none

/-- The named secrets that the environment holds. An empty variable holds none. -/
def ofEnv (names : List String) (env : Bindings String) : SecretStore :=
  ofPairs (names.filterMap fun name =>
    match lookUp env name with
    | some value => if value.isEmpty then none else some (name, value)
    | none => none)

def redact (s : SecretStore) (text : String) : String := redactAll s.values text

def inspect (s : SecretStore) : String :=
  "SecretStore \x7b secrets: \x7b" ++
    ", ".intercalate (s.names.map fun name => Text.quote name ++ ": " ++ mask) ++ "\x7d \x7d"

end SecretStore

end ReleaseJob
