import ReleaseJob.Yaml.Cursor

namespace ReleaseJob.Yaml

inductive Chomping
  | strip | clip | keep
  deriving DecidableEq

structure BlockHeader where
  chomping : Chomping
  /-- How much deeper than their parent the lines stand. -/
  increment : Option Nat

def chomping? : Char → Option Chomping
  | '+' => some .keep
  | '-' => some .strip
  | _ => none

def isHeaderDigit (c : Char) : Bool := '1' ≤ c && c ≤ '9'

/-- The two marks of a header may come in either order; nothing else but blanks and a comment may
stand before the end of the line. -/
def blockHeader (k : Cursor) : Option (BlockHeader × Cursor) :=
  let (h, k) : BlockHeader × Cursor :=
    match k.rest with
    | a :: b :: _ =>
      match chomping? a, chomping? b with
      | some c, _ => if isHeaderDigit b then (⟨c, some (b.toNat - 48)⟩, k.skip 2) else (⟨c, none⟩, k.skip 1)
      | none, some c =>
        if isHeaderDigit a then (⟨c, some (a.toNat - 48)⟩, k.skip 2) else (⟨.clip, none⟩, k)
      | none, none =>
        if isHeaderDigit a then (⟨.clip, some (a.toNat - 48)⟩, k.skip 1) else (⟨.clip, none⟩, k)
    | [a] =>
      match chomping? a with
      | some c => (⟨c, none⟩, k.skip 1)
      | none => if isHeaderDigit a then (⟨.clip, some (a.toNat - 48)⟩, k.skip 1) else (⟨.clip, none⟩, k)
    | [] => (⟨.clip, none⟩, k)
  let k := k.skipWhile isSpace
  let k := if k.rest.head? = some '#' then k.skipWhile (fun c => !isBreak c) else k
  match k.rest with
  | [] => some (h, k)
  | c :: _ => if isBreak c then some (h, k.skipBreak) else none

/-- What is read of a block scalar: its text, the break that ended the last line and the empty lines
after it, all reversed, and whether the last line started with a blank. A literal keeps its breaks,
and a folded one joins lines that start with no blank. -/
structure Lines where
  text : List Char := []
  last : Option Char := none
  empty : List Char := []
  indented : Bool := false

namespace Lines

def openLine (l : Lines) (folded : Bool) (c : Char) : Lines :=
  let starts := isSpace c
  let joint :=
    match l.last with
    | some '\n' => if folded && !l.indented && !starts then (if l.empty.isEmpty then [' '] else []) else ['\n']
    | some b => [b]
    | none => []
  { text := l.empty ++ (joint ++ l.text), indented := starts }

def result (l : Lines) (chomping : Chomping) : String :=
  let ended := if chomping = .strip then l.text else l.last.toList ++ l.text
  let ended := if chomping = .keep then l.empty ++ ended else ended
  String.ofList ended.reverse

end Lines

/-- The lines of a block scalar below a node at column `parent`. `indent` is unknown until a line
that is not empty is reached; `widest` is the most blanks seen before that, and `inLine` says that
a line is being read. -/
def blockLines (folded : Bool) (parent : Int) (indent : Option Nat) (widest : Nat) (inLine : Bool)
    (l : Lines) (index line column : Nat) : List Char → Option (Lines × Cursor)
  | [] => some (l, ⟨[], index, line, column⟩)
  | c :: rest =>
    if isBreak c then
      if c = '\r' && rest.head? = some '\n' then
        blockLines folded parent indent widest inLine l (index + 1) line column rest
      else
        let l := if inLine then { l with last := some (breakText c), empty := [] }
          else { l with empty := breakText c :: l.empty }
        blockLines folded parent indent (if inLine then 0 else max widest column) false l
          (index + c.utf8Size) (line + 1) 0 rest
    else if inLine then
      blockLines folded parent indent widest true { l with text := c :: l.text }
        (index + c.utf8Size) line (column + 1) rest
    else
      let before : Bool := indent.elim true fun n => decide (column < n)
      if before && c = ' ' then
        blockLines folded parent indent widest false l (index + 1) line (column + 1) rest
      else if before && c = '\t' then none
      else
        let depth := indent.getD (max (max widest column) (max (parent + 1) 1).toNat)
        if column = depth then
          let opened := l.openLine folded c
          blockLines folded parent (some depth) 0 true { opened with text := c :: opened.text }
            (index + c.utf8Size) line (column + 1) rest
        else some (l, ⟨c :: rest, index, line, column⟩)

def blockScalar (folded : Bool) (parent : Int) (k : Cursor) : Option (String × Cursor) := do
  let (h, k) ← blockHeader k
  let indent := h.increment.map fun n => (max parent 0).toNat + n
  let (l, k) ← blockLines folded parent indent 0 false {} k.index k.line k.column k.rest
  return (l.result h.chomping, k)

end ReleaseJob.Yaml
