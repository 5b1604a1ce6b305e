namespace ReleaseJob.Tag

inductive SetOp
  | inter | diff | symmDiff

def SetOp.apply : SetOp → Bool → Bool → Bool
  | .inter, a, b => a && b
  | .diff, a, b => a && !b
  | .symmDiff, a, b => a != b

/-- A single character is the range from itself to itself. -/
structure CharRange where
  low : Char
  high : Char
  low_le_high : low ≤ high

def CharRange.single (c : Char) : CharRange := ⟨c, c, Char.le_refl c⟩

def CharRange.contains (r : CharRange) (c : Char) : Bool :=
  r.low ≤ c && c ≤ r.high

inductive CharSet
  | union (ranges : List CharRange)
  | op (kind : SetOp) (left right : CharSet)

namespace CharSet

def contains (c : Char) : CharSet → Bool
  | union ranges => ranges.any (·.contains c)
  | op kind left right => kind.apply (left.contains c) (right.contains c)

/-- A union of fewer than two ranges adds no level. -/
def depth : CharSet → Nat
  | union ranges => if ranges.length < 2 then 0 else 1
  | op _ left right => 1 + max left.depth right.depth

end CharSet

/-- The text between `[` and `]`: characters and ranges, or unions of them joined by the set
operators `&&`, `--` and `~~`, all of one rank and grouped to the left. A leading `^` takes the
complement. -/
structure CharClass where
  complement : Bool
  set : CharSet

namespace CharClass

def contains (k : CharClass) (c : Char) : Bool :=
  k.set.contains c != k.complement

def depth (k : CharClass) : Nat := 1 + k.set.depth

def close (pending : Option (CharSet × SetOp)) (ranges : List CharRange) : CharSet :=
  match pending with
  | none => .union ranges.reverse
  | some (left, kind) => .op kind left (.union ranges.reverse)

/-- A `-` joins two characters into a range unless it is last or starts `--`. The far end of a range
may be any character; a `[` elsewhere would open a class that nothing closes. -/
def parseSet (pending : Option (CharSet × SetOp)) (ranges : List CharRange) :
    List Char → Option CharSet
  | [] => some (close pending ranges)
  | '[' :: _ => none
  | '&' :: '&' :: rest => parseSet (some (close pending ranges, .inter)) [] rest
  | '-' :: '-' :: rest => parseSet (some (close pending ranges, .diff)) [] rest
  | '~' :: '~' :: rest => parseSet (some (close pending ranges, .symmDiff)) [] rest
  | low :: '-' :: high :: rest =>
    if high = '-' then parseSet pending (.single low :: ranges) ('-' :: high :: rest)
    else if h : low ≤ high then parseSet pending (⟨low, high, h⟩ :: ranges) rest
    else none
  | c :: rest => parseSet pending (.single c :: ranges) rest
  termination_by text => text.length

/-- Hyphens at the head stand for themselves. A class in which nothing is left after `^` has no
end, because the bracket that should close it is its first character. -/
def parse? (text : List Char) : Option CharClass :=
  let complement := text.head? = some '^'
  let body := if complement then text.tail else text
  if body.isEmpty then none
  else
    let hyphens := body.takeWhile (· = '-')
    (parseSet none (hyphens.map .single) (body.drop hyphens.length)).map (⟨complement, ·⟩)

end CharClass

end ReleaseJob.Tag
