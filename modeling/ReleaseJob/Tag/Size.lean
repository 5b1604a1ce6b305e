import ReleaseJob.Tag.CharClass.Edges
import ReleaseJob.Tag.Glob
import ReleaseJob.Text.ByteSpan

namespace ReleaseJob.Tag

namespace Size

/-- What a state takes by itself, in bytes. -/
def state : Nat := 32

/-- What a way out of a state takes that a range of bytes leads along. -/
def step : Nat := 8

/-- What a way out of a state takes that needs no byte. -/
def jump : Nat := 4

def loop : Nat := state + 2 * jump

/-- A state to pass by at, and the one where both ways meet. -/
def bypass : Nat := 2 * state + 2 * jump

def ofSpellings (spellings : List Text.Spelling) : Nat :=
  2 * state + spellings.length * jump + Text.Spelling.treeSize [] spellings * state

/-- A class of one character is that character. The ranges of ASCII are ways out of one state; other
classes branch into a tree of the bytes that spell their characters. -/
def ofRanges (ranges : List (Nat × Nat)) : Nat :=
  match ranges with
  | [(low, high)] =>
    if low = high then (Char.ofNat low).utf8Size * state
    else if high < 0x80 then 2 * state + step
    else ofSpellings (Text.Spelling.ofRange low high)
  | ranges =>
    if ranges.all (·.2 < 0x80) then 2 * state + ranges.length * step
    else ofSpellings (ranges.flatMap fun (low, high) => Text.Spelling.ofRange low high)

def ofAllBut (c : Char) : Nat :=
  ofRanges (Edges.complement (Edges.ofRanges [.single c])).ranges

def ofSegment : Nat := ofAllBut '/' + loop

def ofAnything : Nat := ofAllBut '\n' + loop

def ofAtom : Atom → Nat
  | .literal c => c.utf8Size * state
  | .segment => ofSegment
  | .anything => ofAnything
  | .oneOf k => ofRanges (Edges.ofClass k).ranges

/-- A `?` that only asks for the shorter match takes nothing. -/
def ofQuantifiers (e : Extent) : List Quantifier → Nat
  | [] => 0
  | .repeated :: rest => loop + ofQuantifiers (e.quantify .repeated) rest
  | .optional :: rest => (if e.opened then 0 else bypass) + ofQuantifiers (e.quantify .optional) rest

def ofItem (i : Item) : Nat :=
  ofAtom i.atom + ofQuantifiers (Extent.ofAtom i.atom) i.quantifiers

def frame : Nat := 6 * state

end Size

/-- The automaton reads bytes: a character is a chain of states, a class of more than one character
a tree of them, and a quantifier adds the states at which a match may go round or pass by. -/
def size (items : List Item) : Nat := items.foldl (fun total i => total + Size.ofItem i) Size.frame

end ReleaseJob.Tag
