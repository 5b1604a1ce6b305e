import ReleaseJob.Names

namespace ReleaseJob

/-- The names are strictly increasing, so that a set of bindings has one form. -/
structure Bindings (α : Type) where
  entries : List (String × α)
  sorted : (entries.map Prod.fst).Pairwise (· < ·)

namespace Bindings

abbrev Entries (α : Type) := List (String × α)

namespace Entries

def insert (name : String) (value : α) : Entries α → Entries α
  | [] => [(name, value)]
  | (n, v) :: rest =>
    if name = n then (name, value) :: rest
    else if name < n then (name, value) :: (n, v) :: rest
    else (n, v) :: insert name value rest

def get? (name : String) : Entries α → Option α
  | [] => none
  | (n, v) :: rest => if name = n then some v else get? name rest

theorem names_insert (name : String) (value : α) (l : Entries α) :
    (insert name value l).map Prod.fst = Names.insert name (l.map Prod.fst) := by
  induction l with
  | nil => rfl
  | cons e rest ih =>
    obtain ⟨n, v⟩ := e
    simp only [insert, Names.insert, List.map_cons]
    split
    · next h => simp [h]
    · split <;> simp [ih]

theorem get?_insert (name other : String) (value : α) (l : Entries α) :
    get? other (insert name value l) = if other = name then some value else get? other l := by
  induction l with
  | nil => simp [insert, get?]
  | cons e rest ih =>
    obtain ⟨n, v⟩ := e
    simp only [insert]
    split
    · next h => subst h; by_cases ho : other = name <;> simp [get?, ho]
    · next hne =>
      split
      · simp [get?]
      · simp only [get?, ih]
        by_cases hn : other = n
        · subst hn; simp [Ne.symm hne]
        · simp [hn]

theorem get?_filter (keep : String → Bool) (name : String) (l : Entries α) :
    get? name (l.filter fun e => keep e.1) = if keep name then get? name l else none := by
  induction l with
  | nil => simp [get?]
  | cons e rest ih =>
    obtain ⟨n, v⟩ := e
    by_cases hn : name = n
    · subst hn
      by_cases hk : keep name <;> simp_all [get?]
    · by_cases hk : keep n <;> simp_all [get?]

theorem get?_append (name : String) (a b : Entries α) :
    get? name (a ++ b) = (get? name a).or (get? name b) := by
  induction a with
  | nil => rfl
  | cons e rest ih =>
    obtain ⟨n, v⟩ := e
    by_cases hn : name = n <;> simp [get?, hn, ih]

theorem mem_of_get? {name : String} {value : α} {l : Entries α} (h : get? name l = some value) :
    (name, value) ∈ l := by
  induction l with
  | nil => cases h
  | cons e rest ih =>
    obtain ⟨n, v⟩ := e
    by_cases hn : name = n
    · simp only [get?, hn, ↓reduceIte, Option.some.injEq] at h
      simp [hn, h]
    · simp only [get?, hn, ↓reduceIte] at h
      exact List.mem_cons_of_mem _ (ih h)

theorem get?_eq_none_iff {name : String} {l : Entries α} :
    get? name l = none ↔ ∀ e ∈ l, e.1 ≠ name := by
  induction l with
  | nil => simp [get?]
  | cons e rest ih =>
    obtain ⟨n, v⟩ := e
    by_cases hn : name = n
    · simp [get?, hn]
    · simp [get?, hn, Ne.symm hn, ih]

/-- A name that is bound to one value only. -/
theorem get?_eq_some {name : String} {value : α} {l : Entries α} (hm : ∃ e ∈ l, e.1 = name)
    (hv : ∀ e ∈ l, e.1 = name → e.2 = value) : get? name l = some value := by
  cases h : get? name l with
  | none =>
    obtain ⟨e, he, hn⟩ := hm
    exact absurd hn (get?_eq_none_iff.mp h e he)
  | some other => rw [← hv _ (mem_of_get? h) rfl]

/-- Where names are distinct, the order of the entries does not matter. -/
theorem get?_reverse {l : Entries α} (h : (l.map Prod.fst).Nodup) (name : String) :
    get? name l.reverse = get? name l := by
  induction l with
  | nil => rfl
  | cons e rest ih =>
    obtain ⟨n, v⟩ := e
    obtain ⟨hn, hr⟩ := List.nodup_cons.mp h
    rw [List.reverse_cons, get?_append, ih hr]
    by_cases hname : name = n
    · subst hname
      have hnone : get? name rest = none :=
        get?_eq_none_iff.mpr fun e he heq => hn (List.mem_map.mpr ⟨e, he, heq⟩)
      simp [hnone, get?]
    · simp [get?, hname]

end Entries

variable {α : Type}

def empty : Bindings α := ⟨[], .nil⟩

instance : Inhabited (Bindings α) := ⟨empty⟩

def get? (b : Bindings α) (name : String) : Option α :=
  Entries.get? name b.entries

def contains (b : Bindings α) (name : String) : Bool := (b.get? name).isSome

def insert (b : Bindings α) (name : String) (value : α) : Bindings α :=
  ⟨Entries.insert name value b.entries, by
    rw [Entries.names_insert]; exact Names.pairwise_insert b.sorted⟩

/-- Later pairs win. -/
def insertAll (b : Bindings α) (pairs : List (String × α)) : Bindings α :=
  pairs.foldl (fun b e => b.insert e.1 e.2) b

def ofList (pairs : List (String × α)) : Bindings α := empty.insertAll pairs

/-- The bindings of `top` go over those of `b`. -/
def overlay (b top : Bindings α) : Bindings α := b.insertAll top.entries

def eraseAll (b : Bindings α) (names : List String) : Bindings α :=
  ⟨b.entries.filter (fun e => !names.contains e.1),
    b.sorted.sublist (List.Sublist.map _ List.filter_sublist)⟩

def names (b : Bindings α) : List String := b.entries.map Prod.fst

def values (b : Bindings α) : List α := b.entries.map Prod.snd

@[simp] theorem get?_empty (name : String) : (empty : Bindings α).get? name = none := rfl

theorem get?_insert (b : Bindings α) (name other : String) (value : α) :
    (b.insert name value).get? other = if other = name then some value else b.get? other :=
  Entries.get?_insert name other value b.entries

theorem mem_names {b : Bindings α} {name : String} : name ∈ b.names ↔ (b.get? name).isSome = true := by
  have hnone : b.get? name = none ↔ name ∉ b.names := by
    simp only [get?, Entries.get?_eq_none_iff, names, List.mem_map, not_exists, not_and]
  cases h : b.get? name with
  | none => exact iff_of_false (hnone.mp h) nofun
  | some value =>
    refine iff_of_true (Decidable.byContradiction fun hn => ?_) rfl
    rw [hnone.mpr hn] at h
    cases h

theorem get?_eraseAll (b : Bindings α) (names : List String) (name : String) :
    (b.eraseAll names).get? name = if name ∈ names then none else b.get? name := by
  have := Entries.get?_filter (fun n => !names.contains n) name b.entries
  by_cases h : name ∈ names <;> simpa [get?, eraseAll, h] using this

theorem get?_insertAll (b : Bindings α) (pairs : List (String × α)) (name : String) :
    (b.insertAll pairs).get? name = (Entries.get? name pairs.reverse).or (b.get? name) := by
  induction pairs generalizing b with
  | nil => rfl
  | cons e rest ih =>
    obtain ⟨n, v⟩ := e
    have h : (b.insertAll ((n, v) :: rest)).get? name = ((b.insert n v).insertAll rest).get? name :=
      rfl
    rw [h, ih, get?_insert, List.reverse_cons, Entries.get?_append, Option.or_assoc]
    by_cases hn : name = n <;> simp [Entries.get?, hn]

theorem nodup_names (b : Bindings α) : (b.entries.map Prod.fst).Nodup :=
  b.sorted.imp fun h => String.ne_of_lt h

theorem get?_overlay (b top : Bindings α) (name : String) :
    (b.overlay top).get? name = (top.get? name).or (b.get? name) := by
  rw [overlay, get?_insertAll, Entries.get?_reverse top.nodup_names]
  rfl

end Bindings

end ReleaseJob
