import Mathlib.Data.List.Sort
import ReleaseJob.Ranked

namespace ReleaseJob.Ranked

variable {α β : Type} {ahead : α → α → Bool}

section Sorted

variable {r : α → α → Prop} [DecidableRel r] (h : ∀ a b, r a b ↔ ahead b a = false)
include h

theorem insert_eq (x : α) (l : List α) : insert ahead x l = l.orderedInsert r x := by
  induction l with
  | nil => rfl
  | cons y rest ih =>
    rw [insert, List.orderedInsert_cons, ih]
    by_cases hy : ahead y x = true
    · have hno : ¬r x y := by simp [h, hy]
      rw [if_pos hy, if_neg hno]
    · have hyes : r x y := (h x y).mpr (eq_false_of_ne_true hy)
      rw [if_neg hy, if_pos hyes]

/-- The order that allows whatever does not have to be the other way round. -/
theorem ofList_eq (l : List α) : ofList ahead l = l.insertionSort r := by
  induction l with
  | nil => rfl
  | cons x rest ih =>
    rw [List.insertionSort_cons, ← ih, ← insert_eq h]
    rfl

theorem ofList_ordered [Std.Total r] [IsTrans α r] (l : List α) : (ofList ahead l).Pairwise r := by
  rw [ofList_eq h]
  exact List.pairwise_insertionSort r l

end Sorted

/-- Nothing is lost or told twice. -/
theorem ofList_perm (l : List α) : (ofList ahead l).Perm l := by
  rw [ofList_eq (r := fun a b => ahead b a = false) fun _ _ => Iff.rfl]
  exact List.perm_insertionSort _ l

/-- Elements are put in the order of what stands for them, where that tells of any two of them which
is ahead. -/
theorem map_ofList {ahead' : β → β → Bool} {f : α → β} {l : List α}
    (h : ∀ a ∈ l, ∀ b ∈ l, ahead' (f a) (f b) = ahead a b) :
    ofList ahead' (l.map f) = (ofList ahead l).map f := by
  rw [ofList_eq (r := fun a b => ahead b a = false) fun _ _ => Iff.rfl,
    ofList_eq (r := fun a b => ahead' b a = false) fun _ _ => Iff.rfl]
  refine (List.map_insertionSort _ _ _ _ fun a ha b hb => ?_).symm
  rw [h b hb a ha]

end ReleaseJob.Ranked
