namespace ReleaseJob.Text

structure ByteSpan where
  low : Nat
  high : Nat
  deriving DecidableEq

abbrev Spelling := List ByteSpan

namespace Spelling

def anyTail : ByteSpan := ⟨0x80, 0xBF⟩

/-- The numbers from `low` to `high` as a first byte, counted from `base`, and `tails` digits to base
64. Numbers with the same first digit share it; whole blocks of 64 share their last digits. -/
def ofNumbers (base : Nat) : (tails : Nat) → (low high : Nat) → List Spelling
  | 0, low, high => [[⟨base + low, base + high⟩]]
  | tails + 1, low, high =>
    let block := Nat.pow 64 (tails + 1)
    let within (digit low high : Nat) : List Spelling :=
      (ofNumbers 0x80 tails low high).map (⟨base + digit, base + digit⟩ :: ·)
    let first := low / block
    let last := high / block
    if first = last then within first (low % block) (high % block)
    else
      let startsWhole := low % block = 0
      let endsWhole := high % block = block - 1
      let left := if startsWhole then first else first + 1
      let right := if endsWhole then last + 1 else last
      (if startsWhole then [] else within first (low % block) (block - 1)) ++
        (if left < right then
          [⟨base + left, base + (right - 1)⟩ :: List.replicate (tails + 1) anyTail]
        else []) ++
        (if endsWhole then [] else within last 0 (high % block))

/-- The stretches of code points that are spelled with equally many bytes, with the number of
those after the first, and what the first one counts from. No character lies between the third
and the fourth. -/
def stretches : List (Nat × Nat × Nat × Nat) := [
  (0, 0x7F, 0, 0), (0x80, 0x7FF, 1, 0xC0), (0x800, 0xD7FF, 2, 0xE0), (0xE000, 0xFFFF, 2, 0xE0),
  (0x10000, 0x10FFFF, 3, 0xF0)]

def ofRange (low high : Nat) : List Spelling :=
  stretches.flatMap fun (least, greatest, tails, base) =>
    if max low least ≤ min high greatest then
      ofNumbers base tails (max low least) (min high greatest)
    else []

def common : Spelling → Spelling → Nat
  | a :: s, b :: t => if a = b then common s t + 1 else 0
  | _, _ => 0

/-- How many byte ranges a tree of the spellings holds, in which those that start alike share what
they start with. -/
def treeSize (previous : Spelling) : List Spelling → Nat
  | [] => 0
  | s :: rest => s.length - common previous s + treeSize s rest

end Spelling

end ReleaseJob.Text
