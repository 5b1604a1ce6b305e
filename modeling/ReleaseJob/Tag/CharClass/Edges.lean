import ReleaseJob.Tag.CharClass

namespace ReleaseJob.Tag

/-- The code points, in increasing order, at which membership changes; nothing is a member before
the first. Code points between two edges need not be characters. -/
abbrev Edges := List Nat

namespace Edges

def top : Nat := 0x110000

/-- The edges of a union of ranges, given by where they start and where they have ended, in the
order of their starts; `open?` is the end of the range that is being joined. -/
def join : (start stop : Nat) → List (Nat × Nat) → Edges
  | start, stop, [] => if stop < top then [start, stop] else [start]
  | start, stop, (low, past) :: rest =>
    if low ≤ stop then join start (max stop past) rest
    else start :: stop :: join low past rest

def ofRanges (ranges : List CharRange) : Edges :=
  let spans := ranges.map fun r => (r.low.toNat, r.high.toNat + 1)
  match spans.mergeSort fun a b => a.1 ≤ b.1 with
  | [] => []
  | (low, past) :: rest => join low past rest

/-- Walks along two sets of edges and keeps those at which the combined membership changes. -/
def combine (f : Bool → Bool → Bool) : (a b : Bool) → Edges → Edges → Edges
  | _, _, [], [] => []
  | a, b, p :: ps, [] =>
    if f (!a) b = f a b then combine f (!a) b ps [] else p :: combine f (!a) b ps []
  | a, b, [], q :: qs =>
    if f a (!b) = f a b then combine f a (!b) [] qs else q :: combine f a (!b) [] qs
  | a, b, p :: ps, q :: qs =>
    if p < q then
      if f (!a) b = f a b then combine f (!a) b ps (q :: qs)
      else p :: combine f (!a) b ps (q :: qs)
    else if q < p then
      if f a (!b) = f a b then combine f a (!b) (p :: ps) qs
      else q :: combine f a (!b) (p :: ps) qs
    else if f (!a) (!b) = f a b then combine f (!a) (!b) ps qs
    else p :: combine f (!a) (!b) ps qs
  termination_by _ _ ps qs => ps.length + qs.length

def ofSet : CharSet → Edges
  | .union ranges => ofRanges ranges
  | .op kind left right => combine kind.apply false false (ofSet left) (ofSet right)

def complement : Edges → Edges
  | 0 :: rest => rest
  | edges => 0 :: edges

def ofClass (k : CharClass) : Edges :=
  if k.complement then complement (ofSet k.set) else ofSet k.set

def ranges : Edges → List (Nat × Nat)
  | low :: past :: rest => (low, past - 1) :: ranges rest
  | [low] => [(low, top - 1)]
  | [] => []

end Edges

end ReleaseJob.Tag
