import ReleaseJob.Yaml.Token

namespace ReleaseJob.Yaml

def isBreak (c : Char) : Bool :=
  c = '\n' || c = '\r' || c = '\u0085' || c = '\u2028' || c = '\u2029'

def isSpace (c : Char) : Bool := c = ' ' || c = '\t'

def isBlank (c : Char) : Bool := isSpace c || isBreak c

def isWordChar (c : Char) : Bool := c.isAlphanum || c = '-' || c = '_'

/-- The characters a text may hold: of the controls only tabs and line breaks. -/
def isAllowed (c : Char) : Bool :=
  let n := c.toNat
  c = '\t' || c = '\n' || c = '\r' || c = '\u0085' ||
    (0x20 ≤ n && n ≤ 0x7E) || (0xA0 ≤ n && n ≠ 0xFFFE && n ≠ 0xFFFF)

def byteOrderMark : Char := '\uFEFF'

def octets (text : List Char) : Nat := text.foldl (fun n c => n + c.utf8Size) 0

structure Cursor where
  rest : List Char
  index : Nat
  line : Nat
  column : Nat

namespace Cursor

def start (text : List Char) : Cursor := ⟨text, 0, 0, 0⟩

def mark (k : Cursor) : Mark := ⟨k.line, k.column⟩

def skip (k : Cursor) (n : Nat) : Cursor :=
  ⟨k.rest.drop n, k.index + octets (k.rest.take n), k.line, k.column + n⟩

def skipWhile (k : Cursor) (p : Char → Bool) : Cursor :=
  k.skip (k.rest.takeWhile p).length

/-- A carriage return and the line feed after it are one break. -/
def breakLength (rest : List Char) : Nat :=
  match rest with
  | '\r' :: '\n' :: _ => 2
  | _ => 1

def skipBreak (k : Cursor) : Cursor :=
  if (k.rest.head?.map isBreak).getD false then
    let n := breakLength k.rest
    ⟨k.rest.drop n, k.index + octets (k.rest.take n), k.line + 1, 0⟩
  else k

def endsWord : List Char → Bool
  | [] => true
  | c :: _ => isBlank c

def startsWith (stem rest : List Char) : Bool := stem.isPrefixOf rest

/-- Whether a line of three hyphens or three points, the marks between documents, starts here. -/
def atDocumentMark (column : Nat) (rest : List Char) : Bool :=
  column = 0 && (match rest with
    | '-' :: '-' :: '-' :: after => endsWord after
    | '.' :: '.' :: '.' :: after => endsWord after
    | _ => false)

end Cursor

/-- What a line break counts for in a scalar: a line feed, unless it is a line or paragraph
separator. -/
def breakText (c : Char) : Char :=
  if c = '\u2028' || c = '\u2029' then c else '\n'

end ReleaseJob.Yaml
