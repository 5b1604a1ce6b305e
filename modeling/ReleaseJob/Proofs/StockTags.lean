import ReleaseJob.Proofs.Filters
import ReleaseJob.Proofs.LastFilter

namespace ReleaseJob

/-- A name that starts with `v`, goes on without a slash and has two dots at least. -/
def Versioned (name : String) : Prop :=
  name.toList.head? = some 'v' ∧ '/' ∉ name.toList ∧ 2 ≤ name.toList.count '.'

instance (name : String) : Decidable (Versioned name) := inferInstanceAs (Decidable (_ ∧ _ ∧ _))

namespace Proofs

open Tag

section Dots

variable {w : List Char} {c : Char} {l : Language Char} {n : Nat}

/-- Starred parts with a dot between each two of them. -/
def dotted : Nat → List (Language Char)
  | 0 => [Mark.segment.language]
  | n + 1 => Mark.segment.language :: (Mark.literal '.').language :: dotted n

/-- A starred part is followed by the rest of the tag from any place before the next slash. -/
theorem mem_segment_mul : w ∈ Mark.segment.language * l ↔
    ∃ a b, '/' ∉ a ∧ b ∈ l ∧ a ++ b = w := by
  rw [Language.mem_mul]
  constructor
  · rintro ⟨a, ha, b, hb, rfl⟩
    exact ⟨a, b, ha, hb, rfl⟩
  · rintro ⟨a, b, ha, hb, rfl⟩
    exact ⟨a, ha, b, hb, rfl⟩

theorem mem_literal_mul : w ∈ (Mark.literal c).language * l ↔ ∃ b ∈ l, w = c :: b := by
  rw [Language.mem_mul]
  constructor
  · rintro ⟨a, rfl, b, hb, rfl⟩
    exact ⟨b, hb, rfl⟩
  · rintro ⟨b, hb, rfl⟩
    exact ⟨[c], rfl, b, hb, rfl⟩

/-- Each part can be cut off at the first dot, and further dots go into the last part. -/
theorem mem_dotted_iff : w ∈ (dotted n).prod ↔ '/' ∉ w ∧ n ≤ w.count '.' := by
  induction n generalizing w with
  | zero =>
    rw [dotted, List.prod_singleton]
    exact (and_iff_left (Nat.zero_le _)).symm
  | succ n ih =>
    rw [dotted, List.prod_cons, List.prod_cons, mem_segment_mul]
    constructor
    · rintro ⟨a, b, ha, hb, rfl⟩
      obtain ⟨rest, hrest, rfl⟩ := mem_literal_mul.mp hb
      obtain ⟨hslash, hcount⟩ := ih.mp hrest
      rw [List.count_append, List.count_cons_self]
      exact ⟨by simp [ha, hslash], by omega⟩
    · rintro ⟨hslash, hcount⟩
      have hdot : '.' ∈ w := List.count_pos_iff.mp (by omega)
      obtain ⟨a, rest, rfl, hfirst⟩ := List.eq_append_cons_of_mem hdot
      rw [List.count_append, List.count_cons_self, List.count_eq_zero.mpr hfirst] at hcount
      have hrest : '/' ∉ rest := fun h => hslash (by simp [h])
      refine ⟨a, '.' :: rest, fun h => hslash (by simp [h]), ?_, rfl⟩
      exact mem_literal_mul.mpr ⟨rest, ih.mpr ⟨hrest, by omega⟩, rfl⟩

end Dots

/-- The filter `v*.*.*`. -/
def stockMarks : List Mark :=
  [.literal 'v', .segment, .literal '.', .segment, .literal '.', .segment]

theorem reads_stock : Reads "v*.*.*".toList stockMarks :=
  .literal (by decide) (.segment (by decide) (.literal (by decide) (.segment (by decide)
    (.literal (by decide) (.segment (by decide) .nil)))))

/-- A tag can be cut in many ways, and there is one if and only if the dots suffice. -/
theorem accepts_stock_iff {g : TagPattern} {name : String}
    (hg : TagPattern.parse "v*.*.*" = .ok g) : g.accepts name = true ↔ Versioned name := by
  have hbody : bodyOf "v*.*.*" = "v*.*.*".toList := by decide
  obtain ⟨hq, tokens, hscan, hitems⟩ := parseBody_ok (parse_ok hg)
  rw [hbody] at hq hscan
  rw [scan_of_reads reads_stock] at hscan
  obtain rfl := Option.some.inj hscan
  have hlanguages : languages g.items = (Mark.literal 'v').language :: dotted 2 :=
    languages_eq reads_stock hq hitems
  rw [TagPattern.accepts, matchItems, matchAll_iff, List.map_map]
  change name.toList ∈ (languages g.items).prod ↔ _
  rw [hlanguages, List.prod_cons, mem_literal_mul, Versioned]
  constructor
  · rintro ⟨rest, hrest, hname⟩
    obtain ⟨hslash, hcount⟩ := mem_dotted_iff.mp hrest
    simp [hname, hslash, hcount]
  · rintro ⟨hhead, hslash, hcount⟩
    obtain ⟨rest, hname⟩ := List.head?_eq_some_iff.mp hhead
    rw [hname] at hslash hcount
    refine ⟨rest, mem_dotted_iff.mpr ⟨fun h => hslash (by simp [h]), ?_⟩, hname⟩
    rwa [List.count_cons_of_ne (by decide)] at hcount

theorem stock_trigger : ∃ t g, Config.stock.trigger = .ok t ∧ t.patterns = [g] ∧
    TagPattern.parse "v*.*.*" = .ok g ∧ g.negated = false := by
  obtain ⟨⟨t, ht⟩, -⟩ := validateAlong_ok.mp stock_validates
  obtain ⟨g, rest, hg, hrest, hpatterns⟩ := List.forall₂_cons_left_iff.mp (ofGlobs_ok.mp ht)
  obtain rfl := List.forall₂_nil_left_iff.mp hrest
  exact ⟨t, g, ht, hpatterns, hg, (parse_negate (by decide) hg).1⟩

theorem ofName_of_head {name : String} (h : name.toList.head? = some 'v') :
    ReleaseTag.ofName name = ⟨name, String.ofList name.toList.tail⟩ := by
  obtain ⟨rest, hname⟩ := List.head?_eq_some_iff.mp h
  simp [ReleaseTag.ofName, hname]

/-- No reference under `refs/` starts as such a name does. -/
theorem tagName?_of_versioned {reference : String} (h : Versioned (shortName reference)) :
    tagName? reference = some (shortName reference) := by
  refine tagName?_eq_some_iff.mpr ⟨rfl, fun hempty => ?_, fun ⟨rest, hrest⟩ => ?_⟩
  · rw [hempty] at h
    cases h.1
  · by_contra ht
    have hhead := h.1
    rw [shortName_bare ht, ← hrest] at hhead
    cases hhead

/-- One filter alone decides: what it does not match does not fire. -/
theorem stock_fires {t : Trigger} (ht : Config.stock.trigger = .ok t) (p : Push) :
    let name := shortName p.reference
    t.fire? p = if Versioned name then some ⟨name, String.ofList name.toList.tail⟩ else none := by
  obtain ⟨_, g, ht', hpatterns, hg, hn⟩ := stock_trigger
  rw [ht] at ht'
  obtain rfl := Except.ok.inj ht'
  have hadmits (name : String) : LastAdmits name t.patterns ↔ Versioned name := by
    rw [hpatterns, ← List.nil_append [g], lastAdmits_concat, ← accepts_stock_iff hg]
    simp [hn, LastAdmits]
  intro name
  split
  · next h =>
    exact fire?_eq_some_iff.mpr
      ⟨name, tagName?_of_versioned h, (hadmits name).mpr h, (ofName_of_head h.1).symm⟩
  · next h =>
    refine Option.eq_none_iff_forall_ne_some.mpr fun tag htag => ?_
    obtain ⟨name', hname, hlast, -⟩ := fire?_eq_some_iff.mp htag
    obtain ⟨rfl, -⟩ := tagName?_eq_some_iff.mp hname
    exact h ((hadmits _).mp hlast)

/-- Under the stock configuration a push makes a job if and only if its reference, without `refs/tags/`
before it, starts with `v` and has two dots and no slash. The job goes by that name, and its version is
what follows the `v`. -/
theorem stock_releases (p : Push) (id : RunId) :
    let name := shortName p.reference
    let job := Job.ofConfig .stock ⟨name, String.ofList name.toList.tail⟩ p id
    Job.forPush .stock p id = .ok (if Versioned name then some job else none) ∧
      job.tag.name = name ∧ job.tag.version = String.ofList name.toList.tail ∧
      (Versioned name → "v" ++ job.tag.version = name) := by
  obtain ⟨t, -, ht, -⟩ := stock_trigger
  intro name job
  refine ⟨?_, rfl, rfl, fun hv => ?_⟩
  · rw [Job.forPush, ht]
    change Except.ok ((t.fire? p).map fun tag => Job.ofConfig .stock tag p id) = _
    rw [stock_fires ht p]
    split <;> rfl
  · obtain ⟨rest, hname⟩ := List.head?_eq_some_iff.mp hv.1
    change "v" ++ String.ofList name.toList.tail = name
    rw [← String.toList_inj, String.toList_append, hname]
    simp

/-- Parts may be empty, and line breaks count for nothing. -/
example : Versioned "v..\n" ∧ ¬Versioned "v1.2" ∧ ¬Versioned "v1.2.3/x" := by decide

end Proofs

end ReleaseJob
