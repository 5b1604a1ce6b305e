import ReleaseJob.Tag.CharClass

namespace ReleaseJob.Tag

inductive Atom
  | literal (c : Char)
  /-- Written `*`: any text without a slash. -/
  | segment
  /-- Written `**`: any text without a newline. -/
  | anything
  | oneOf (k : CharClass)

inductive Quantifier
  | optional | repeated

structure Item where
  atom : Atom
  quantifiers : List Quantifier

namespace Atom

def accepts : Atom → Char → Bool
  | literal a, c => a = c
  | segment, c => c ≠ '/'
  | anything, c => c ≠ '\n'
  | oneOf k, c => k.contains c

def starred : Atom → Bool
  | segment | anything => true
  | _ => false

/-- A segment is a class of its own: whatever is no slash. -/
def depth : Atom → Nat
  | oneOf k => k.depth
  | segment => 1
  | literal _ | anything => 0

end Atom

/-- How often an item may match a character, and how many quantifiers made it so. A `?` written right
after a quantifier only asks for the shorter match first, which changes no answer: `open` says
that the next `?` would be such a mark. -/
structure Extent where
  optional : Bool
  repeats : Bool
  opened : Bool
  levels : Nat

namespace Extent

def ofAtom (a : Atom) : Extent :=
  ⟨a.starred, a.starred, a.starred, if a.starred then 1 else 0⟩

def quantify (e : Extent) : Quantifier → Extent
  | .optional =>
    if e.opened then { e with opened := false }
    else ⟨true, e.repeats, true, e.levels + 1⟩
  | .repeated => ⟨e.optional, true, true, e.levels + 1⟩

end Extent

namespace Item

def extent (i : Item) : Extent :=
  i.quantifiers.foldl Extent.quantify (Extent.ofAtom i.atom)

def depth (i : Item) : Nat := i.extent.levels + i.atom.depth

end Item

structure Slot where
  accepts : Char → Bool
  optional : Bool
  repeats : Bool

def Item.slot (i : Item) : Slot :=
  ⟨i.atom.accepts, i.extent.optional, i.extent.repeats⟩

namespace Slot

/-- For each slot, whether the text read so far can end right after it, given whether it can end
right before the first. -/
def start : List Slot → Bool → List Bool
  | [], _ => []
  | s :: rest, before =>
    let here := before && s.optional
    here :: start rest here

/-- One more character: a slot takes it if the text could end before the slot, or after it when the
slot repeats; an optional slot passes on what stands before it. -/
def step (c : Char) : List Slot → List Bool → (wasBefore isBefore : Bool) → List Bool
  | s :: rest, was :: flags, wasBefore, isBefore =>
    let here := (s.accepts c && (wasBefore || was && s.repeats)) || (isBefore && s.optional)
    here :: step c rest flags was here
  | _, _, _, _ => []

def run (slots : List Slot) (first : Bool) (flags : List Bool) : List Char → Bool
  | [] => flags.getLastD first
  | c :: text => run slots false (step c slots flags first false) text

def matchAll (slots : List Slot) (text : List Char) : Bool :=
  run slots true (start slots true) text

end Slot

/-- Whether the whole text can be cut into one piece per item. -/
def matchItems (items : List Item) (text : List Char) : Bool :=
  Slot.matchAll (items.map Item.slot) text

inductive Token
  | atom (a : Atom)
  | quantifier (q : Quantifier)
  /-- The text of a class, not yet read. -/
  | bracket (text : List Char)

/-- Cuts a filter into atoms, quantifiers and class texts; `none` if a class has no end. A class
ends at the first `]`. -/
def Token.scan : List Char → Option (List Token)
  | [] => some []
  | '*' :: '*' :: rest => (scan rest).map (.atom .anything :: ·)
  | '*' :: rest => (scan rest).map (.atom .segment :: ·)
  | '?' :: rest => (scan rest).map (.quantifier .optional :: ·)
  | '+' :: rest => (scan rest).map (.quantifier .repeated :: ·)
  | '[' :: rest =>
    match _h : rest.dropWhile (· ≠ ']') with
    | [] => none
    | _ :: after => (scan after).map (.bracket (rest.takeWhile (· ≠ ']')) :: ·)
  | c :: rest => (scan rest).map (.atom (.literal c) :: ·)
  termination_by text => text.length
  decreasing_by
    all_goals simp only [List.length_cons]
    any_goals omega
    have := congrArg List.length _h
    have := (List.dropWhile_suffix (l := rest) (fun x => decide (x ≠ ']'))).length_le
    simp only [List.length_cons] at *
    omega

def Token.quantifiers : List Token → List Quantifier
  | .quantifier q :: rest => q :: quantifiers rest
  | _ => []

/-- Gives every atom the quantifiers that follow it; `none` if a class text is no class. -/
def Item.ofTokens? : List Token → Option (List Item)
  | [] => some []
  | .quantifier _ :: rest => ofTokens? rest
  | .atom a :: rest => (ofTokens? rest).map (⟨a, Token.quantifiers rest⟩ :: ·)
  | .bracket text :: rest => do
    let k ← CharClass.parse? text
    (ofTokens? rest).map (⟨.oneOf k, Token.quantifiers rest⟩ :: ·)

end ReleaseJob.Tag
