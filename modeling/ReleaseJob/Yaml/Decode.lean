import ReleaseJob.Bindings
import ReleaseJob.Text.Quoted
import ReleaseJob.Text.Utf8
import ReleaseJob.Yaml.Node
import ReleaseJob.Yaml.Value

namespace ReleaseJob.Yaml

inductive Path
  | root
  | elem (parent : Path) (index : Nat)
  | field (parent : Path) (name : String)
  /-- Below a key that is not written as a scalar. -/
  | unnamed (parent : Path)

namespace Path

def text : Path → String
  | root => ""
  | elem parent index => s!"{parent.text}[{index}]"
  | field root name => name
  | field parent name => s!"{parent.text}.{name}"
  | unnamed root => "?"
  | unnamed parent => s!"{parent.text}.?"

end Path

inductive Misfit
  | wrongType (found expected : String)
  | wrongValue (found expected : String)
  | unknownVariant (name : String) (variants : List String)
  | missing (field : String)
  | duplicate (field : String)

def Misfit.message : Misfit → String
  | wrongType found expected => s!"invalid type: {found}, expected {expected}"
  | wrongValue found expected => s!"invalid value: {found}, expected {expected}"
  | unknownVariant name variants =>
    s!"unknown variant `{name}`, expected one of " ++ ", ".intercalate (variants.map fun v => s!"`{v}`")
  | missing field => s!"missing field `{field}`"
  | duplicate field => s!"duplicate field `{field}`"

structure Spot where
  path : Path
  start : Mark

def Flaw.message? : Flaw → Option String
  | malformed => none
  | unknownAnchor _ => some "unknown anchor"
  | severalDocuments =>
    some "deserializing from YAML containing more than one document is not supported"

inductive Fault
  | flaw (f : Flaw)
  /-- More aliases were followed than a text of this size may ask for. -/
  | tooManyAliases
  | misfit (spot : Option Spot) (cause : Misfit)

namespace Fault

/-- What is wrong in which part; nothing is said about a malformed text. -/
def message? : Fault → Option String
  | flaw f => f.message?
  | tooManyAliases => some "repetition limit exceeded"
  | misfit none cause => some cause.message
  | misfit (some spot) cause =>
    let path := spot.path.text
    if path.isEmpty then some cause.message else some s!"{path}: {cause.message}"

def place? : Fault → Option Mark
  | flaw (.unknownAnchor m) => some m
  | misfit (some spot) _ => some spot.start
  | _ => none

/-- The message with line and column, counted from 1; the start of the text goes without saying. -/
def report? (f : Fault) : Option String :=
  f.message?.map fun text =>
    match f.place? with
    | some m => if m = .origin then text else text ++ s!" at line {m.line + 1} column {m.column + 1}"
    | none => text

def locate (spot : Spot) : Fault → Fault
  | misfit none cause => misfit (some spot) cause
  | f => f

end Fault

def quoted (s : String) : String := "string " ++ Text.quote s

def Integer.text : Integer → String
  | small n => s!"integer `{n}`"
  | unsigned128 n => s!"integer `{n}` as u128"
  | signed128 n => s!"integer `{n}` as i128"

def Value.describe : Value → String
  | null => "unit value"
  | bool b => s!"boolean `{b}`"
  | integer n => n.text
  | real r => s!"floating point `{r.text}`"
  | text s => quoted s

/-- What a scalar is taken for where something else is expected. A tag of the core schema asks for
its own type first; other tags make it a text, a private one only if it is quoted. -/
def scalarMisfit (tag : Option Tag) (style : Style) (text expected : String) : Misfit :=
  let typed (value : Option Value) (wanted : String) : Misfit :=
    match value with
    | some v => .wrongType v.describe expected
    | none => .wrongValue (quoted text) wanted
  let plain := Misfit.wrongType (if style = .plain then (Value.ofPlain text).describe else quoted text) expected
  match tag with
  | none => plain
  | some t =>
    if t = Tag.core "bool" then typed ((bool? text).map .bool) "a boolean"
    else if t = Tag.core "int" then typed ((integer? text).map .integer) "an integer"
    else if t = Tag.core "float" then typed ((real? text).map .real) "a float"
    else if t = Tag.core "null" then typed (if isNull text then some .null else none) "null"
    else if t.head? = some 33 then plain
    else .wrongType (quoted text) expected

def Node.tag : Node → Option Tag
  | .scalar tag _ _ _ | .seq tag _ _ | .map tag _ _ => tag
  | .alias .. | .broken _ => none

def Node.wrongType (n : Node) (expected : String) : Fault :=
  match n with
  | .scalar tag style text _ => .misfit none (scalarMisfit tag style text expected)
  | .seq .. => .misfit none (.wrongType "sequence" expected)
  | .map .. => .misfit none (.wrongType "map" expected)
  | .alias .. | .broken _ => .misfit none (.wrongType (Value.describe .null) expected)

/-- A computation that counts down the aliases that may still be followed. -/
abbrev Reading (α : Type) := StateT Nat (Except Fault) α

abbrev Reader (α : Type) := Document → Path → Node → Reading α

namespace Reader

def follow (d : Document) : Node → Reading Node
  | .alias anchor _ => do
    match ← get with
    | 0 => throw .tooManyAliases
    | left + 1 =>
      set left
      return d.target anchor
  | .broken flaw => throw (.flaw flaw)
  | n => return n

def locate (path : Path) (n : Node) (r : Reading α) : Reading α :=
  fun left => (r left).mapError (.locate ⟨path, n.start⟩)

def refuse (cause : Misfit) : Reading α := throw (.misfit none cause)

/-- Any scalar is a text, whatever its tag. -/
def text : Reader String := fun d path n => do
  match ← follow d n with
  | .scalar _ _ s _ => return s
  | n => locate path n (throw (n.wrongType "a string"))

/-- A plain scalar, or a literal one whose tag names the type. -/
def typed (tagName expected : String) (read : String → Option α) : Reader α := fun d path n => do
  let n ← follow d n
  let value := match n with
    | .scalar _ .plain s _ => read s
    | .scalar (some t) .literal s _ => if t = Tag.core tagName then read s else none
    | _ => none
  match value with
  | some a => return a
  | none => locate path n (throw (n.wrongType expected))

def flag : Reader Bool := typed "bool" "a boolean" bool?

def count : Reader Nat := typed "int" "u64" (unsigned? (Nat.pow 2 64))

/-- A plain scalar without a tag that is empty or says null is no value; quoted ones always are. -/
def optional (r : Reader α) : Reader (Option α) := fun d path n => do
  let n ← follow d n
  let some? := some <$> r d path n
  match n with
  | .scalar tag .plain s _ =>
    if tag = some (Tag.core "null") then
      if isNull s then return none else refuse (.wrongValue (quoted s) "null")
    else if tag = none && (s.isEmpty || isNull s) then return none
    else some?
  | _ => some?

/-- An empty plain scalar counts as an empty collection. -/
def isEmptyPlain : Node → Bool
  | .scalar _ .plain s _ => s.isEmpty
  | _ => false

def listFrom (r : Reader α) (d : Document) (path : Path) (index : Nat) : List Node → Reading (List α)
  | [] => return []
  | n :: rest => do
    let a ← r d (.elem path index) n
    return a :: (← listFrom r d path (index + 1) rest)

def list (r : Reader α) : Reader (List α) := fun d path n => do
  let n ← follow d n
  locate path n <| match n with
    | .seq _ elems _ => listFrom r d path 0 elems
    | n => if isEmptyPlain n then return [] else throw (n.wrongType "a sequence")

def keyed (expected : String) (d : Document) (path : Path) (key : Node) : Reading (String × Path) := do
  match key, ← follow d key with
  | .scalar .., .scalar _ _ s _ => return (s, .field path s)
  | _, .scalar _ _ s _ => return (s, .unnamed path)
  | _, n => locate path n (throw (n.wrongType expected))

/-- The last of two equal names counts. -/
def bindings : Reader (Bindings String) := fun d path n => do
  let n ← follow d n
  locate path n <| match n with
    | .map _ entries _ =>
      entries.foldlM (fun b (k, v) => do
        let (name, place) ← keyed "a string" d path k
        return b.insert name (← text d place v)) .empty
    | n => if isEmptyPlain n then return .empty else throw (n.wrongType "a map")

abbrev Field (σ : Type) := Path → Node → σ → Reading σ

/-- The fields of a record in the order of the text. `put` knows some of them; the others are passed
over. -/
def fieldsFrom (put : String → Option (Field σ)) (d : Document) (path : Path)
    (seen : List String) (s : σ) : List (Node × Node) → Reading σ
  | [] => return s
  | (k, v) :: rest => do
    let (name, place) ← keyed "field identifier" d path k
    match put name with
    | some read =>
      if seen.contains name then refuse (.duplicate name)
      else fieldsFrom put d path (name :: seen) (← read place v s) rest
    | none => fieldsFrom put d path seen s rest

def record (typeName : String) (start : σ) (put : Document → String → Option (Field σ))
    (finish : σ → Reading α) : Reader α := fun d path n => do
  let n ← follow d n
  locate path n <| match n with
    | .map _ entries _ => do finish (← fieldsFrom (put d) d path [] start entries)
    | n => if isEmptyPlain n then finish start else throw (n.wrongType s!"struct {typeName}")

def present (name : String) : Option α → Reading α
  | some a => return a
  | none => refuse (.missing name)

def nothing (path : Path) (n : Node) : Reading Unit :=
  locate path n <| match n with
    | .scalar _ .plain s _ =>
      if s.isEmpty || isNull s then return () else refuse (.wrongValue (quoted s) "null")
    | .scalar _ _ s _ => refuse (.wrongValue (quoted s) "null")
    | n => throw (n.wrongType "unit")

/-- The name of a variant in a private tag; the tag `!` names itself. -/
def variantTag? (tag : Option Tag) : Option String :=
  let octets? := match tag with
    | some (33 :: []) => some [33]
    | some (33 :: rest) => some rest
    | _ => none
  octets?.bind fun octets => (Text.decodeUtf8 octets).toOption

/-- One of some names, as a scalar or as the tag of nothing. That a tag names none of them is not
said of the node, unless an alias led to it. -/
def variant (ofName? : String → Option α) (variants : List String) : Reader α := fun d path node => do
  let n ← follow d node
  let choose (name : String) : Reading α :=
    match ofName? name with
    | some a => return a
    | none => refuse (.unknownVariant name variants)
  match variantTag? n.tag, n with
  | some name, n =>
    let a ← match node with
      | .alias .. => locate path node (choose name)
      | _ => choose name
    nothing path n
    return a
  | none, .scalar _ _ s _ => locate path n (choose s)
  | none, n => locate path n (throw (n.wrongType "a YAML tag starting with '!'"))

/-- The value of a text that holds one document. A text may ask for a hundred aliases for each of its
events. -/
def run (r : Reader α) (text : String) : Except Fault α := do
  let d := Document.ofText text
  let (a, _) ← (r d .root d.root).run (100 * d.size)
  match d.flaw with
  | some f => throw (.flaw f)
  | none => return a

end Reader

end ReleaseJob.Yaml
