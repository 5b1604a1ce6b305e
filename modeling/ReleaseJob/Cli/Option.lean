namespace ReleaseJob.Cli

inductive UsageFault
  | helpAsked | versionAsked
  | nothingGiven | noCommand | unknownCommand | unknownArgument | noValue | badValue
  | repeated | strayValue | missingOption
  deriving DecidableEq

inductive OptionKind
  | flag | single | many | help | version
  deriving DecidableEq

structure OptionSpec where
  name : String
  letter : Option Char
  kind : OptionKind
  accepts : String → Bool := fun _ => true

def OptionSpec.takesValue (o : OptionSpec) : Bool :=
  o.kind = .single || o.kind = .many

inductive Argument
  /-- Two dashes alone; no option follows them. -/
  | dashes
  | long (name : String) (value : Option String)
  | letters (cs : List Char)
  | word (text : String)

def Argument.ofText (text : String) : Argument :=
  match text.toList with
  | ['-', '-'] => dashes
  | '-' :: '-' :: cs =>
    long (String.ofList (cs.takeWhile (· ≠ '='))) <|
      match cs.dropWhile (· ≠ '=') with
      | [] => none
      | _ :: value => some (String.ofList value)
  | '-' :: c :: cs => letters (c :: cs)
  | _ => word text

structure Reading where
  /-- Options and their values, in the order they were given. -/
  given : List (String × String) := []
  /-- The option that awaits a value, or whose value was not yet looked at. -/
  pending : Option (OptionSpec × Option String) := none

namespace Reading

def has (r : Reading) (name : String) : Bool := r.given.any (·.1 = name)

def get? (r : Reading) (name : String) : Option String := r.given.lookup name

def getAll (r : Reading) (name : String) : List String :=
  (r.given.filter (·.1 = name)).map Prod.snd

def require (r : Reading) (name : String) : Except UsageFault String :=
  match r.get? name with
  | some value => .ok value
  | none => .error .missingOption

/-- Only options of the kind `many` are given more than once. -/
def add (r : Reading) (o : OptionSpec) (value : String) : Except UsageFault Reading :=
  match o.kind with
  | .help => .error .helpAsked
  | .version => .error .versionAsked
  | kind =>
    if kind ≠ .many && r.has o.name then .error .repeated
    else if o.accepts value then .ok { r with given := r.given ++ [(o.name, value)] }
    else .error .badValue

def settle (r : Reading) : Except UsageFault Reading :=
  match r.pending with
  | none => .ok r
  | some (_, none) => .error .noValue
  | some (o, some value) => { r with pending := none }.add o value

/-- An option that takes a value and has none attached gets the next argument. What it got is looked
at when the next option comes, or at the end. -/
def await (r : Reading) (o : OptionSpec) : Except UsageFault Reading :=
  r.settle.map fun r => { r with pending := some (o, none) }

def give (r : Reading) (o : OptionSpec) (value : String) : Except UsageFault Reading := do
  (← r.settle).add o value

def readLong (options : List OptionSpec) (r : Reading) (name : String) (value : Option String) :
    Except UsageFault Reading :=
  match options.find? (·.name = name) with
  | none => .error .unknownArgument
  | some o =>
    match o.takesValue, value with
    | true, some value => r.give o value
    | true, none => r.await o
    | false, some _ => .error .strayValue
    | false, none => r.give o ""

/-- Letters of flags may stand together; what follows the letter of another option is its value,
which an equals sign may introduce. -/
def readLetters (options : List OptionSpec) (r : Reading) : List Char → Except UsageFault Reading
  | [] => .ok r
  | c :: cs =>
    match options.find? (·.letter = some c) with
    | none => .error .unknownArgument
    | some o =>
      if o.takesValue then
        match cs with
        | [] => r.await o
        | '=' :: value => r.give o (String.ofList value)
        | value => r.give o (String.ofList value)
      else do readLetters options (← r.give o "") cs

end Reading

inductive Stop
  | atEnd
  | word (text : String) (rest : List String)
  | dashes (rest : List String)

def scan (options : List OptionSpec) (r : Reading) :
    List String → Except UsageFault (Reading × Stop)
  | [] => .ok (r, .atEnd)
  | text :: rest =>
    match Argument.ofText text, r.pending with
    | .dashes, _ => .ok (r, .dashes rest)
    | .long name value, _ => do scan options (← r.readLong options name value) rest
    | .letters cs, _ => do scan options (← r.readLetters options cs) rest
    | .word text, some (o, none) => scan options { r with pending := some (o, some text) } rest
    | .word text, _ => .ok (r, .word text rest)

def readOptions (options : List OptionSpec) (args : List String) : Except UsageFault Reading := do
  match ← scan options {} args with
  | (r, .atEnd) | (r, .dashes []) => r.settle
  | _ => throw .unknownArgument

end ReleaseJob.Cli
