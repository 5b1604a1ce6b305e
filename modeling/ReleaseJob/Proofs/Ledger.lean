import Mathlib.Data.List.Induction
import ReleaseJob.Proofs.Newest

namespace ReleaseJob.Proofs

open History

/-- The summary that was saved last under an id. -/
def latest (saves : List Summary) (id : RunId) : Option Summary := saves.reverse.find? (·.id = id)

def enter (l : List Summary) (s : Summary) : List Summary := l.filter (·.id ≠ s.id) ++ [s]

def ledger (saves : List Summary) : List Summary := saves.foldl enter []

variable {saves : List Summary} {s : Summary}

/-- A save counts for its own id only. -/
theorem latest_snoc (id : RunId) :
    latest (saves ++ [s]) id = if s.id = id then some s else latest saves id := by
  unfold latest
  rw [List.reverse_append, List.reverse_singleton, List.singleton_append, List.find?_cons]
  by_cases h : s.id = id <;> simp [h]

theorem id_of_latest {id : RunId} (h : latest saves id = some s) : s.id = id := by
  simpa using List.find?_some h

theorem mem_of_latest {id : RunId} (h : latest saves id = some s) : s ∈ saves :=
  List.mem_reverse.mp (List.mem_of_find?_eq_some h)

theorem ledger_snoc : ledger (saves ++ [s]) = enter (ledger saves) s := by
  simp [ledger]

/-- The ledger holds the last summary of each id and no other. -/
theorem mem_ledger_iff : s ∈ ledger saves ↔ latest saves s.id = some s := by
  induction saves using List.reverseRecOn with
  | nil => simp [ledger, latest]
  | append_singleton saves r ih =>
    rw [ledger_snoc, latest_snoc, enter, List.mem_append, List.mem_filter, List.mem_singleton, ih]
    by_cases h : r.id = s.id
    · simp [h, eq_comm]
    · have hne : s ≠ r := fun he => h (he ▸ rfl)
      simp [h, Ne.symm h, hne]

theorem ledger_ids : (ledger saves).Pairwise (·.id ≠ ·.id) := by
  induction saves using List.reverseRecOn with
  | nil => exact .nil
  | append_singleton saves r ih =>
    rw [ledger_snoc, enter]
    refine List.pairwise_append.mpr ⟨ih.filter _, List.pairwise_singleton _ _, ?_⟩
    intro a ha b hb
    rw [List.mem_singleton.mp hb]
    simpa using (List.mem_filter.mp ha).2

theorem nodup_of_ids {l : List Summary} (h : l.Pairwise (·.id ≠ ·.id)) : l.Nodup :=
  h.imp fun hid he => hid (congrArg Summary.id he)

theorem find?_eq_some_iff {l : List Summary} (hids : l.Pairwise (·.id ≠ ·.id)) {id : RunId} :
    l.find? (·.id = id) = some s ↔ s ∈ l ∧ s.id = id := by
  constructor
  · exact fun h => ⟨List.mem_of_find?_eq_some h, by simpa using List.find?_some h⟩
  · rintro ⟨hs, rfl⟩
    induction l with
    | nil => cases hs
    | cons t rest ih =>
      obtain ⟨ht, hrest⟩ := List.pairwise_cons.mp hids
      rcases List.mem_cons.mp hs with rfl | hs
      · simp
      · rw [List.find?_cons_of_neg (by simpa using ht s hs), ih hrest hs]

/-- A list that holds the last summary of each id finds it. -/
theorem find?_eq_latest {l : List Summary} (hids : l.Pairwise (·.id ≠ ·.id))
    (hmem : ∀ s, s ∈ l ↔ latest saves s.id = some s) (id : RunId) :
    l.find? (·.id = id) = latest saves id := by
  apply Option.ext
  intro s
  rw [find?_eq_some_iff hids, hmem]
  constructor
  · rintro ⟨hs, rfl⟩
    exact hs
  · intro hs
    have hid := id_of_latest hs
    exact ⟨hid ▸ hs, hid⟩

theorem storable_ledger (h : ∀ s ∈ saves, Storable s) : ∀ s ∈ ledger saves, Storable s :=
  fun s hs => h s (mem_of_latest (mem_ledger_iff.mp hs))

section Table

/-- The table after a list of saves. -/
def tableAfter (saves : List Summary) : Table := saves.foldl Table.save .empty

/-- A row that is saved again moves to the end, as its summary does in the ledger. -/
theorem tableAfter_rows (saves : List Summary) :
    (tableAfter saves).rows = (ledger saves).map Row.ofSummary := by
  induction saves using List.reverseRecOn with
  | nil => rfl
  | append_singleton saves s ih =>
    have hsave : tableAfter (saves ++ [s]) = (tableAfter saves).save s := by simp [tableAfter]
    rw [hsave, ledger_snoc, enter, Table.save, ih, List.map_append, List.filter_map]
    have hids : ((fun r : Row => decide (r.id ≠ s.id.text)) ∘ Row.ofSummary) =
        fun r : Summary => decide (r.id ≠ s.id) := by
      funext r
      simp only [Function.comp_apply, ofSummary_id, ne_eq, text_inj]
    rw [hids]
    rfl

theorem tableAfter_rows_named (pipeline : String) :
    (tableAfter saves).rows.filter (·.pipeline = pipeline) =
      ((ledger saves).filter (·.pipeline = pipeline)).map Row.ofSummary := by
  rw [tableAfter_rows, List.filter_map]
  rfl

variable (h : ∀ s ∈ saves, Storable s)
include h

theorem filterMap_toSummary? {l : List Summary} (hl : ∀ s ∈ l, s ∈ ledger saves) :
    (l.map Row.ofSummary).filterMap Row.toSummary? = l := by
  rw [List.filterMap_map]
  calc l.filterMap (Row.toSummary? ∘ Row.ofSummary)
      = l.filterMap some := by
        refine List.filterMap_congr fun s hs => ?_
        exact toSummary?_ofSummary (storable_ledger h s (hl s hs))
    _ = l := List.filterMap_some

/-- What is loaded by its id is what was saved last under it. -/
theorem table_load? (id : RunId) : (tableAfter saves).load? id = latest saves id := by
  have hids : ((fun r : Row => decide (r.id = id.text)) ∘ Row.ofSummary) =
      fun s : Summary => decide (s.id = id) := by
    funext s
    simp only [Function.comp_apply, ofSummary_id, text_inj]
  rw [Table.load?, tableAfter_rows, List.find?_map, hids,
    find?_eq_latest ledger_ids fun _ => mem_ledger_iff]
  cases hs : latest saves id with
  | none => rfl
  | some s =>
    rw [Option.map_some, Option.bind_some]
    exact toSummary?_ofSummary (h s (mem_of_latest hs))

end Table

theorem mem_table_pipelines {p : String} :
    p ∈ (tableAfter saves).pipelines ↔ ∃ s ∈ ledger saves, s.pipeline = p := by
  rw [Table.pipelines, Names.mem_ofList, tableAfter_rows, List.map_map]
  simp

end ReleaseJob.Proofs
