import Mathlib.Data.List.Nodup
import ReleaseJob.History.Memory
import ReleaseJob.Proofs.Ledger

namespace ReleaseJob.Proofs

open History

/-- The summary that was saved first under an id. -/
def first (saves : List Summary) (id : RunId) : Option Summary := saves.find? (·.id = id)

def memoryAfter (saves : List Summary) : Memory := saves.foldl Memory.save .empty

variable {saves : List Summary} {s : Summary}

theorem first_snoc (id : RunId) :
    first (saves ++ [s]) id = (first saves id).or (if s.id = id then some s else none) := by
  unfold first
  rw [List.find?_append]
  by_cases h : s.id = id <;> simp [h]

/-- An id that was saved once has a first summary and a last one. -/
theorem first_isSome {id : RunId} : (first saves id).isSome = (latest saves id).isSome := by
  rw [Bool.eq_iff_iff, first, latest, List.find?_isSome, List.find?_isSome]
  simp

theorem first_eq_none_iff {id : RunId} : first saves id = none ↔ latest saves id = none := by
  simp [first, latest]

theorem mem_of_first {id : RunId} (h : first saves id = some s) : s ∈ saves ∧ s.id = id :=
  ⟨List.mem_of_find?_eq_some h, by simpa using List.find?_some h⟩

theorem memoryAfter_snoc : memoryAfter (saves ++ [s]) = (memoryAfter saves).save s := by
  simp [memoryAfter]

/-- One summary for each id, the last one saved. -/
structure Kept (l : List Summary) (saves : List Summary) : Prop where
  ids : l.Pairwise (·.id ≠ ·.id)
  mem : ∀ s, s ∈ l ↔ latest saves s.id = some s

/-- A new id goes to the end. -/
theorem Kept.append (h : Kept l saves) (hnew : latest saves s.id = none) :
    Kept (l ++ [s]) (saves ++ [s]) where
  ids := by
    refine List.pairwise_append.mpr ⟨h.ids, List.pairwise_singleton _ _, ?_⟩
    intro a ha b hb hid
    rw [List.mem_singleton.mp hb] at hid
    have ha := (h.mem a).mp ha
    rw [hid, hnew] at ha
    cases ha
  mem t := by
    rw [List.mem_append, List.mem_singleton, latest_snoc, h.mem]
    by_cases hid : s.id = t.id
    · rw [if_pos hid, ← hid, hnew]
      simp [eq_comm]
    · have hne : t ≠ s := fun he => hid (he ▸ rfl)
      simp [hid, hne]

/-- A known id keeps its place. -/
theorem Kept.replace (h : Kept l saves) (hold : latest saves s.id ≠ none) :
    Kept (l.map fun r => if r.id = s.id then s else r) (saves ++ [s]) where
  ids := by
    have hid (r : Summary) : (if r.id = s.id then s else r).id = r.id := by
      split
      · next he => exact he.symm
      · rfl
    refine List.pairwise_map.mpr (h.ids.imp fun {a b} hab => ?_)
    rw [hid, hid]
    exact hab
  mem t := by
    obtain ⟨r, hr⟩ := Option.ne_none_iff_exists'.mp hold
    have hrid := id_of_latest hr
    have hmem : r ∈ l := (h.mem r).mpr (hrid ▸ hr)
    rw [List.mem_map, latest_snoc]
    by_cases hid : s.id = t.id
    · rw [if_pos hid, Option.some.injEq]
      constructor
      · rintro ⟨q, -, rfl⟩
        by_cases hq : q.id = s.id
        · rw [if_pos hq]
        · rw [if_neg hq] at hid
          exact absurd hid.symm hq
      · rintro rfl
        exact ⟨r, hmem, if_pos hrid⟩
    · rw [if_neg hid, ← h.mem]
      constructor
      · rintro ⟨q, hql, rfl⟩
        by_cases hq : q.id = s.id
        · rw [if_pos hq] at hid
          exact absurd rfl hid
        · rwa [if_neg hq]
      · intro ht
        exact ⟨t, ht, if_neg (Ne.symm hid)⟩

theorem Kept.load? {m : Memory} (h : Kept m.runs saves) (id : RunId) : m.load? id = latest saves id :=
  find?_eq_latest h.ids h.mem id

theorem memoryAfter_kept (saves : List Summary) : Kept (memoryAfter saves).runs saves := by
  induction saves using List.reverseRecOn with
  | nil => exact ⟨.nil, fun s => by simp [memoryAfter, Memory.empty, latest]⟩
  | append_singleton saves s ih =>
    rw [memoryAfter_snoc, Memory.save, ih.load?]
    split
    · next hold => exact ih.replace fun hnone => by simp [hnone] at hold
    · next hnew => exact ih.append (by simpa using hnew)

def indexOf (m : Memory) (pipeline : String) : List RunId := (m.index.get? pipeline).getD []

/-- The index lists each id once, under the pipeline of its first summary, and no pipeline without
ids. -/
structure Indexed (m : Memory) (saves : List Summary) : Prop where
  nodup : ∀ p, (indexOf m p).Nodup
  mem : ∀ p id, id ∈ indexOf m p ↔ ∃ s, first saves id = some s ∧ s.pipeline = p
  named : ∀ p, (m.index.get? p).isSome = true ↔ ∃ id, id ∈ indexOf m p

variable {m : Memory}

/-- A summary saved again leaves the index as it is. -/
theorem Indexed.replace (h : Indexed m saves) (hold : (first saves s.id).isSome = true)
    (runs : List Summary) : Indexed { m with runs } (saves ++ [s]) where
  nodup := h.nodup
  mem p id := by
    have hfirst : first (saves ++ [s]) id = first saves id := by
      rw [first_snoc]
      by_cases hid : s.id = id
      · obtain ⟨r, hr⟩ := Option.isSome_iff_exists.mp hold
        rw [← hid, hr]
        rfl
      · rw [if_neg hid, Option.or_none]
    rw [hfirst]
    exact h.mem p id
  named := h.named

/-- A new id is listed under the name of its summary, at the end of that list. -/
theorem Indexed.append (h : Indexed m saves) (hnew : first saves s.id = none) (runs : List Summary) :
    Indexed ⟨runs, m.index.insert s.pipeline (indexOf m s.pipeline ++ [s.id])⟩ (saves ++ [s]) := by
  have hindex (p : String) :
      indexOf ⟨runs, m.index.insert s.pipeline (indexOf m s.pipeline ++ [s.id])⟩ p =
        if p = s.pipeline then indexOf m p ++ [s.id] else indexOf m p := by
    unfold indexOf
    rw [Bindings.get?_insert]
    by_cases hp : p = s.pipeline <;> simp [hp]
  have hunlisted (p : String) : s.id ∉ indexOf m p := by
    rw [h.mem]
    rintro ⟨r, hr, -⟩
    rw [hnew] at hr
    cases hr
  refine ⟨fun p => ?_, fun p id => ?_, fun p => ?_⟩
  · rw [hindex]
    split
    · refine List.nodup_append.mpr ⟨h.nodup p, List.nodup_singleton _, ?_⟩
      intro a ha b hb hab
      rw [hab, List.mem_singleton.mp hb] at ha
      exact hunlisted p ha
    · exact h.nodup p
  · rw [hindex, first_snoc]
    by_cases hid : s.id = id
    · subst hid
      by_cases hp : p = s.pipeline
      · simp [hp, hnew]
      · simp [hp, hnew, hunlisted p, Ne.symm hp]
    · by_cases hp : p = s.pipeline
      · simp [hp, hid, Ne.symm hid, h.mem]
      · simp [hp, hid, h.mem]
  · rw [hindex, Bindings.get?_insert]
    by_cases hp : p = s.pipeline
    · simp [hp]
    · simp [hp, h.named]

theorem memoryAfter_indexed (saves : List Summary) : Indexed (memoryAfter saves) saves := by
  induction saves using List.reverseRecOn with
  | nil => exact ⟨fun _ => .nil, fun p id => by simp [indexOf, memoryAfter, Memory.empty, first],
      fun p => by simp [indexOf, memoryAfter, Memory.empty]⟩
  | append_singleton saves s ih =>
    rw [memoryAfter_snoc, Memory.save, (memoryAfter_kept saves).load?, ← first_isSome]
    split
    · next hold => exact ih.replace hold _
    · next hnew => exact ih.append (by simpa using hnew) _

end ReleaseJob.Proofs
