import Mathlib.Computability.Language
import ReleaseJob.Tag.Glob

namespace ReleaseJob

open Tag

/-- The texts that a slot takes. -/
def Tag.Slot.language (s : Slot) : Language Char :=
  {w | (∀ c ∈ w, s.accepts c = true) ∧ (w = [] → s.optional = true) ∧
    (1 < w.length → s.repeats = true)}

namespace Proofs

variable {s : Slot} {slots : List Slot} {flags : List Bool} {before : Language Char}
  {text w : List Char} {c : Char}

theorem mem_language : w ∈ s.language ↔ (∀ c ∈ w, s.accepts c = true) ∧
    (w = [] → s.optional = true) ∧ (1 < w.length → s.repeats = true) :=
  Iff.rfl

theorem nil_mem_language : [] ∈ s.language ↔ s.optional = true := by
  simp [mem_language]

theorem singleton_mem_language : [c] ∈ s.language ↔ s.accepts c = true := by
  simp [mem_language]

/-- A slot goes on with a character if it takes it and has read nothing, or may repeat. -/
theorem snoc_mem_language : w ++ [c] ∈ s.language ↔
    s.accepts c = true ∧ (w = [] ∨ w ∈ s.language ∧ s.repeats = true) := by
  rcases List.eq_nil_or_concat w with rfl | ⟨v, d, rfl⟩
  · simp [mem_language]
  · simp only [mem_language, List.concat_eq_append, List.forall_mem_append, List.forall_mem_singleton,
      List.length_append, List.length_singleton]
    constructor
    · rintro ⟨⟨hw, hc⟩, -, hr⟩
      exact ⟨hc, .inr ⟨⟨hw, by simp, fun _ => hr (by omega)⟩, hr (by omega)⟩⟩
    · rintro ⟨hc, h | ⟨⟨hw, -, -⟩, hr⟩⟩
      · simp at h
      · exact ⟨⟨hw, hc⟩, by simp, fun _ => hr⟩

theorem nil_mem_mul_language : [] ∈ before * s.language ↔ [] ∈ before ∧ s.optional = true := by
  rw [Language.mem_mul]
  constructor
  · rintro ⟨a, ha, b, hb, hab⟩
    obtain ⟨rfl, rfl⟩ := List.append_eq_nil_iff.mp hab
    exact ⟨ha, nil_mem_language.mp hb⟩
  · rintro ⟨hb, ho⟩
    exact ⟨[], hb, [], nil_mem_language.mpr ho, rfl⟩

/-- The last character of a text that ends after a slot was taken by the slot, or the slot passes on
a text that ended before it. -/
theorem snoc_mem_mul_language : text ++ [c] ∈ before * s.language ↔
    (s.accepts c = true ∧ (text ∈ before ∨ text ∈ before * s.language ∧ s.repeats = true)) ∨
      (text ++ [c] ∈ before ∧ s.optional = true) := by
  simp only [Language.mem_mul]
  constructor
  · rintro ⟨a, ha, w, hw, haw⟩
    rcases List.eq_nil_or_concat w with rfl | ⟨v, d, rfl⟩
    · rw [List.append_nil] at haw
      subst haw
      exact .inr ⟨ha, nil_mem_language.mp hw⟩
    · rw [List.concat_eq_append] at haw hw
      obtain ⟨rfl, hcd⟩ := List.append_inj' ((List.append_assoc ..).trans haw) rfl
      obtain rfl := List.singleton_inj.mp hcd
      obtain ⟨hc, rfl | ⟨hv, hr⟩⟩ := snoc_mem_language.mp hw
      · exact .inl ⟨hc, .inl (by simpa using ha)⟩
      · exact .inl ⟨hc, .inr ⟨⟨a, ha, v, hv, rfl⟩, hr⟩⟩
  · rintro (⟨hc, ht | ⟨⟨a, ha, v, hv, rfl⟩, hr⟩⟩ | ⟨ht, ho⟩)
    · exact ⟨text, ht, [c], snoc_mem_language.mpr ⟨hc, .inl rfl⟩, rfl⟩
    · exact ⟨a, ha, v ++ [c], snoc_mem_language.mpr ⟨hc, .inr ⟨hv, hr⟩⟩, by simp⟩
    · exact ⟨text ++ [c], ht, [], nil_mem_language.mpr ho, by simp⟩

/-- Each flag tells whether the text can end right after its slot, where `before` holds the texts
that can end right before the first. -/
inductive Flagged (text : List Char) : Language Char → List Slot → List Bool → Prop
  | nil {before : Language Char} : Flagged text before [] []
  | cons {before : Language Char} {s : Slot} {slots : List Slot} {flag : Bool} {flags : List Bool}
      (here : flag = true ↔ text ∈ before * s.language)
      (rest : Flagged text (before * s.language) slots flags) :
      Flagged text before (s :: slots) (flag :: flags)

theorem start_flagged {first : Bool} (hf : first = true ↔ [] ∈ before) :
    Flagged [] before slots (Slot.start slots first) := by
  induction slots generalizing before first with
  | nil => exact .nil
  | cons s rest ih =>
    have here : (first && s.optional) = true ↔ [] ∈ before * s.language := by
      rw [nil_mem_mul_language, Bool.and_eq_true, hf]
    exact .cons here (ih here)

/-- One character more moves every flag on, whatever the flags are. -/
theorem step_flagged {wasBefore isBefore : Bool} (h : Flagged text before slots flags)
    (hw : wasBefore = true ↔ text ∈ before) (hi : isBefore = true ↔ text ++ [c] ∈ before) :
    Flagged (text ++ [c]) before slots (Slot.step c slots flags wasBefore isBefore) := by
  induction h generalizing wasBefore isBefore with
  | nil => exact .nil
  | @cons before s slots was flags here _ ih =>
    have now : (s.accepts c && (wasBefore || was && s.repeats) || isBefore && s.optional) = true ↔
        text ++ [c] ∈ before * s.language := by
      rw [snoc_mem_mul_language, ← here, ← hw, ← hi]
      simp only [Bool.or_eq_true, Bool.and_eq_true]
    exact .cons now (ih here now)

/-- The text has matched when it can end behind the last slot. -/
theorem flagged_last {first : Bool} (h : Flagged text before slots flags)
    (hf : first = true ↔ text ∈ before) :
    flags.getLastD first = true ↔ text ∈ before * (slots.map Slot.language).prod := by
  induction h generalizing first with
  | nil => simpa using hf
  | cons here _ ih =>
    rw [List.getLastD_cons, ih here, List.map_cons, List.prod_cons, mul_assoc]

/-- The text that was read stands for the empty text before the first slot only at the start. -/
theorem run_iff {first : Bool} (h : Flagged text 1 slots flags) (hf : first = true ↔ text = []) :
    Slot.run slots first flags w = true ↔ text ++ w ∈ (slots.map Slot.language).prod := by
  induction w generalizing text first flags with
  | nil =>
    have hf : first = true ↔ text ∈ (1 : Language Char) := hf.trans (Language.mem_one text).symm
    rw [Slot.run, flagged_last h hf, one_mul, List.append_nil]
  | cons c w ih =>
    have hf : first = true ↔ text ∈ (1 : Language Char) := hf.trans (Language.mem_one text).symm
    have hi : false = true ↔ text ++ [c] ∈ (1 : Language Char) := by
      simp [Language.mem_one]
    rw [Slot.run, ih (step_flagged h hf hi) (by simp), List.append_assoc, List.singleton_append]

theorem matchAll_iff : Slot.matchAll slots text = true ↔
    text ∈ (slots.map Slot.language).prod := by
  have h : Flagged [] 1 slots (Slot.start slots true) :=
    start_flagged (by simp [Language.mem_one])
  rw [Slot.matchAll, run_iff h (by simp), List.nil_append]

/-- A text of a product of languages is cut into one piece per language. -/
theorem mem_prod_iff {languages : List (Language Char)} : text ∈ languages.prod ↔
    ∃ pieces : List (List Char), pieces.flatten = text ∧
      List.Forall₂ (· ∈ ·) pieces languages := by
  induction languages generalizing text with
  | nil =>
    rw [List.prod_nil, Language.mem_one]
    constructor
    · rintro rfl
      exact ⟨[], rfl, .nil⟩
    · rintro ⟨_, rfl, h⟩
      cases h
      rfl
  | cons l languages ih =>
    rw [List.prod_cons, Language.mem_mul]
    constructor
    · rintro ⟨piece, hp, rest, hr, rfl⟩
      obtain ⟨pieces, rfl, h⟩ := ih.mp hr
      exact ⟨piece :: pieces, rfl, .cons hp h⟩
    · rintro ⟨_, rfl, h⟩
      cases h with
      | @cons piece _ pieces _ hp hr => exact ⟨piece, hp, pieces.flatten, ih.mpr ⟨pieces, rfl, hr⟩, rfl⟩

end Proofs

end ReleaseJob
