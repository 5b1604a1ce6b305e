import ReleaseJob.Yaml.Cursor
import ReleaseJob.Yaml.Token
import ReleaseJob.Yaml.Token.Flow

namespace ReleaseJob.Yaml

def taken (k : Cursor) (p : Char → Bool) : String :=
  String.ofList (k.rest.takeWhile p)

/-- A name must be followed by a blank, the end, or one of the characters that end it in a flow. -/
def anchorName (k : Cursor) : Option (String × Cursor) :=
  let name := taken k isWordChar
  let after := k.skipWhile isWordChar
  let ends := match after.rest with
    | [] => true
    | c :: _ => isBlank c || ['?', ':', ',', ']', '\x7d', '%', '@', '\x60'].contains c
  if name.isEmpty || !ends then none else some (name, after)

def isTagChar (verbatim : Bool) (c : Char) : Bool :=
  isWordChar c ||
    [';', '/', '?', ':', '@', '&', '=', '+', '$', '.', '%', '!', '~', '*', '\'', '(', ')'].contains c ||
    (verbatim && [',', '[', ']'].contains c)

def octetsAfter? (n : Nat) : Option Nat :=
  if n < 0x80 then some 0
  else if n < 0xC0 then none
  else if n < 0xE0 then some 1
  else if n < 0xF0 then some 2
  else if n < 0xF8 then some 3
  else none

/-- The octets of a tag. Percent signs write the octets of one character after another; `due` of
them have not come yet. The number of octets has to be right, not what they stand for. -/
def tagOctets (due : Nat) : List Char → Option Tag
  | [] => if due = 0 then some [] else none
  | '%' :: a :: b :: rest => do
    let n := 16 * (← hexValue? a) + (← hexValue? b)
    if due = 0 then return n.toUInt8 :: (← tagOctets (← octetsAfter? n) rest)
    else if 0x80 ≤ n && n < 0xC0 then return n.toUInt8 :: (← tagOctets (due - 1) rest)
    else failure
  | '%' :: _ => none
  | c :: rest => do
    if due ≠ 0 then failure
    return c.toNat.toUInt8 :: (← tagOctets 0 rest)

/-- What follows the handle of a tag, up to an octet that is zero; `nonempty` says that it may not be
missing. -/
def tagText (verbatim nonempty : Bool) (k : Cursor) : Option (Tag × Cursor) := do
  let raw := k.rest.takeWhile (isTagChar verbatim)
  if nonempty && raw.isEmpty then failure
  let octets ← tagOctets 0 raw
  return (octets.takeWhile (· ≠ 0), k.skip raw.length)

/-- A handle is `!`, or a name between two of them. What looks like a handle but has no second mark
is the start of a tag under `!`. -/
def tagHandle (k : Cursor) : Option (String × Bool × Cursor) :=
  match k.rest with
  | '!' :: _ =>
    let k := k.skip 1
    let name := taken k isWordChar
    let after := k.skipWhile isWordChar
    if after.rest.head? = some '!' then some ("!" ++ name ++ "!", true, after.skip 1)
    else some ("!" ++ name, false, after)
  | _ => none

def tagToken (inFlow : Bool) (k : Cursor) : Option (Token × Cursor) := do
  let (handle, suffix, k) ← (do
    match k.rest with
    | '!' :: '<' :: _ =>
      let (text, k) ← tagText true true (k.skip 2)
      if k.rest.head? = some '>' then return ("", text, k.skip 1) else failure
    | _ =>
      let (handle, closed, k) ← tagHandle k
      if closed then
        let (text, k) ← tagText false true k
        return (handle, text, k)
      else
        let head := (handle.toList.drop 1).map (·.toNat.toUInt8)
        let (text, k) ← tagText false false k
        let suffix := head ++ text
        if suffix.isEmpty then return ("", .unnamed, k) else return ("!", suffix, k) :
      Option (String × Tag × Cursor))
  if Cursor.endsWord k.rest || (inFlow && k.rest.head? = some ',') then
    return (.tag handle suffix, k)
  else failure

def number (k : Cursor) : Option (Nat × Cursor) :=
  let digits := taken k Char.isDigit
  if digits.isEmpty || 9 < digits.length then none
  else digits.toNat?.map (·, k.skip digits.length)

def versionDirective (k : Cursor) : Option (Token × Cursor) := do
  let (major, k) ← number (k.skipWhile isSpace)
  if k.rest.head? ≠ some '.' then failure
  let (minor, k) ← number (k.skip 1)
  return (.version major minor, k)

def tagDirective (k : Cursor) : Option (Token × Cursor) := do
  let (handle, closed, k) ← tagHandle (k.skipWhile isSpace)
  if !closed && handle ≠ "!" then failure
  if !(k.rest.head?.map isSpace).getD false then failure
  let (stem, k) ← tagText true true (k.skipWhile isSpace)
  if !Cursor.endsWord k.rest then failure
  return (.tagShorthand handle stem, k)

/-- A directive takes a line; only versions and tag shorthands are known. -/
def directive (k : Cursor) : Option (Token × Cursor) := do
  let k := k.skip 1
  let name := taken k isWordChar
  let k := k.skip name.length
  if name.isEmpty || !Cursor.endsWord k.rest then failure
  let (token, k) ← match name with
    | "YAML" => versionDirective k
    | "TAG" => tagDirective k
    | _ => none
  let k := k.skipWhile isSpace
  let k := if k.rest.head? = some '#' then k.skipWhile (fun c => !isBreak c) else k
  match k.rest with
  | [] => return (token, k)
  | c :: _ => if isBreak c then return (token, k.skipBreak) else failure

end ReleaseJob.Yaml
