namespace ReleaseJob.Names

theorem lt_or_lt_of_ne {a b : String} (h : a ≠ b) : a < b ∨ b < a := by
  by_cases hab : a < b
  · exact .inl hab
  · by_cases hba : b < a
    · exact .inr hba
    · exact absurd (String.le_antisymm (String.not_lt.mp hba) (String.not_lt.mp hab)) h

def insert (name : String) : List String → List String
  | [] => [name]
  | n :: rest =>
    if name = n then n :: rest
    else if name < n then name :: n :: rest
    else n :: insert name rest

/-- The distinct names of a list, in increasing order. -/
def ofList (names : List String) : List String :=
  names.foldr insert []

theorem mem_insert {name x : String} {l : List String} :
    x ∈ insert name l ↔ x = name ∨ x ∈ l := by
  induction l with
  | nil => simp [insert]
  | cons n rest ih =>
    simp only [insert]
    split
    · next h => subst h; simp
    · split <;> simp [ih]; grind

theorem mem_ofList {x : String} {names : List String} : x ∈ ofList names ↔ x ∈ names := by
  induction names with
  | nil => simp [ofList]
  | cons n rest ih => simpa [ofList, mem_insert] using or_congr Iff.rfl ih

theorem pairwise_insert {name : String} {l : List String} (h : l.Pairwise (· < ·)) :
    (insert name l).Pairwise (· < ·) := by
  induction l with
  | nil => simp [insert]
  | cons n rest ih =>
    obtain ⟨hn, hr⟩ := List.pairwise_cons.mp h
    simp only [insert]
    split
    · exact h
    · next hne =>
      split
      · next hlt =>
        refine List.pairwise_cons.mpr ⟨fun x hx => ?_, h⟩
        rcases List.mem_cons.mp hx with rfl | hx
        · exact hlt
        · exact String.lt_trans hlt (hn x hx)
      · next hlt =>
        refine List.pairwise_cons.mpr ⟨fun x hx => ?_, ih hr⟩
        rcases mem_insert.mp hx with rfl | hx
        · exact (lt_or_lt_of_ne hne).resolve_left hlt
        · exact hn x hx

theorem pairwise_ofList (names : List String) : (ofList names).Pairwise (· < ·) := by
  induction names with
  | nil => exact .nil
  | cons n rest ih => exact pairwise_insert ih

end ReleaseJob.Names
