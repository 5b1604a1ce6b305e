import ReleaseJob.Yaml.Cursor

namespace ReleaseJob.Yaml

/-- The text read so far, reversed, and the blanks and breaks since its last character. -/
structure Folding where
  text : List Char := []
  blanks : List Char := []
  first : Option Char := none
  others : List Char := []
  broken : Bool := false

namespace Folding

/-- A blank counts only before the first break. -/
def addBlank (f : Folding) (c : Char) : Folding :=
  if f.broken then f else { f with blanks := c :: f.blanks }

def addBreak (f : Folding) (c : Char) : Folding :=
  if f.broken then { f with others := breakText c :: f.others }
  else { f with blanks := [], first := some (breakText c), broken := true }

def addJoint (f : Folding) : Folding :=
  { f with blanks := [], first := none, broken := true }

/-- Blanks between two words stay as they are; a single line break becomes one blank, and of several
the first is dropped. -/
def gap (f : Folding) : List Char :=
  if f.broken then
    match f.first with
    | some '\n' => if f.others.isEmpty then [' '] else f.others
    | some c => f.others ++ [c]
    | none => f.others
  else f.blanks

def settle (f : Folding) : Folding := { text := f.gap ++ f.text }

def add (f : Folding) (c : Char) : Folding := { text := c :: (f.gap ++ f.text) }

def result (f : Folding) : String := String.ofList f.text.reverse

end Folding

def flowIndicators : List Char := [',', '[', ']', '\x7b', '\x7d']

/-- A plain scalar of a node at column `indent` or more; `fresh` says that blanks or
breaks were passed last. The flag of the answer tells whether a line break was the last thing passed. -/
def plainScalar (inFlow : Bool) (indent : Nat) (f : Folding) (fresh : Bool) (index line column : Nat) :
    List Char → Option (String × Bool × Cursor)
  | [] => some (f.result, f.broken, ⟨[], index, line, column⟩)
  | '\r' :: '\n' :: rest =>
    plainScalar inFlow indent (f.addBreak '\n') true (index + 2) (line + 1) 0 rest
  | c :: rest =>
    let here : Cursor := ⟨c :: rest, index, line, column⟩
    if isSpace c then
      if f.broken && column < indent && c = '\t' then none
      else plainScalar inFlow indent (f.addBlank c) true (index + 1) line (column + 1) rest
    else if isBreak c then
      plainScalar inFlow indent (f.addBreak c) true (index + c.utf8Size) (line + 1) 0 rest
    else if fresh && ((!inFlow && column < indent) || c = '#' ||
        Cursor.atDocumentMark column here.rest) then
      some (f.result, f.broken, here)
    else if inFlow && c = ':' && (rest.head?.map fun d => d = '?' || flowIndicators.contains d).getD false then
      none
    else if (c = ':' && Cursor.endsWord rest) || (inFlow && flowIndicators.contains c) then
      some (f.result, f.broken, here)
    else plainScalar inFlow indent (f.add c) false (index + c.utf8Size) line (column + 1) rest

def hexValue? (c : Char) : Option Nat :=
  if '0' ≤ c && c ≤ '9' then some (c.toNat - 48)
  else if 'a' ≤ c && c ≤ 'f' then some (c.toNat - 87)
  else if 'A' ≤ c && c ≤ 'F' then some (c.toNat - 55)
  else none

def escapeChar? : Char → Option Char
  | '0' => some '\x00'
  | 'a' => some '\x07'
  | 'b' => some '\x08'
  | 't' => some '\t'
  | '\t' => some '\t'
  | 'n' => some '\n'
  | 'v' => some '\x0b'
  | 'f' => some '\x0c'
  | 'r' => some '\r'
  | 'e' => some '\x1b'
  | ' ' => some ' '
  | '"' => some '"'
  | '/' => some '/'
  | '\\' => some '\\'
  | 'N' => some '\u0085'
  | '_' => some '\u00a0'
  | 'L' => some '\u2028'
  | 'P' => some '\u2029'
  | _ => none

def escapeWidth? : Char → Option Nat
  | 'x' => some 2
  | 'u' => some 4
  | 'U' => some 8
  | _ => none

/-- A number that is no character, because it is too large or half of a surrogate pair, is refused. -/
def charOfHex? (digits : List Char) : Option Char :=
  let n? := digits.foldl (fun n d => n.bind fun n => (hexValue? d).map (16 * n + ·)) (some 0)
  n?.bind fun n => if h : n.isValidChar then some (Char.ofNatAux n h) else none

def quotedScalar (double : Bool) (f : Folding) (fresh : Bool) (index line column : Nat) :
    List Char → Option (String × Cursor)
  | [] => none
  | c :: rest =>
    if fresh && Cursor.atDocumentMark column (c :: rest) then none
    else if isSpace c then
      quotedScalar double (f.addBlank c) true (index + 1) line (column + 1) rest
    else if isBreak c then
      match c, rest with
      | '\r', '\n' :: after => quotedScalar double (f.addBreak c) true (index + 2) (line + 1) 0 after
      | c, rest => quotedScalar double (f.addBreak c) true (index + c.utf8Size) (line + 1) 0 rest
    else if c = (if double then '"' else '\'') then
      match double, rest with
      | false, '\'' :: after =>
        quotedScalar double (f.add '\'') false (index + 2) line (column + 2) after
      | _, rest => some (f.settle.result, ⟨rest, index + 1, line, column + 1⟩)
    else if double && c = '\\' then
      match rest with
      | [] => none
      | '\r' :: '\n' :: after =>
        quotedScalar double f.settle.addJoint true (index + 3) (line + 1) 0 after
      | e :: after =>
        if isBreak e then
          quotedScalar double f.settle.addJoint true (index + 1 + e.utf8Size) (line + 1) 0 after
        else
          match escapeChar? e, escapeWidth? e with
          | some x, _ => quotedScalar double (f.add x) false (index + 2) line (column + 2) after
          | none, some width =>
            match charOfHex? (after.take width) with
            | some x =>
              if after.length < width then none
              else
                quotedScalar double (f.add x) false (index + 2 + width) line (column + 2 + width)
                  (after.drop width)
            | none => none
          | none, none => none
    else quotedScalar double (f.add c) false (index + c.utf8Size) line (column + 1) rest
  termination_by text => text.length
  decreasing_by
    all_goals simp only [List.length_drop, List.length_cons]
    all_goals omega

end ReleaseJob.Yaml
