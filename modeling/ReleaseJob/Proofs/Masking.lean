import Mathlib.Data.List.Infix
import ReleaseJob.Proofs.Ranked
import ReleaseJob.Step.Context

namespace ReleaseJob

/-- An empty value occurs nowhere. -/
def Secret.OccursIn (v : Secret) (text : String) : Prop :=
  v.expose ≠ "" ∧ v.expose.toList <:+: text.toList

namespace Proofs
open Redaction

/-- No value holds the character that masks are made of. -/
def Starless (values : List Secret) : Prop := ∀ v ∈ values, '*' ∉ v.expose.toList

def Hidden (values : List Secret) (text : String) : Prop := ∀ v ∈ values, ¬v.OccursIn text

section Pass

variable {n : Char} {ns w text : List Char}

/-- A word that cannot begin with the mask stands behind it. -/
theorem infix_behind_mask (hw : '*' ∉ w) (h : w <:+: mask.toList ++ text) : w <:+: text := by
  have hdrop {rest : List Char} (h : w <:+: '*' :: rest) : w <:+: rest := by
    rcases List.infix_cons_iff.mp h with hp | hi
    · rcases List.prefix_cons_iff.mp hp with rfl | ⟨tail, rfl, -⟩
      · exact List.nil_infix
      · exact absurd List.mem_cons_self hw
    · exact hi
  exact hdrop (hdrop (hdrop h))

/-- What stands at the head of a masked text without a star in it stood there before. -/
theorem prefix_of_maskAll (hw : '*' ∉ w) (h : w <+: maskAll n ns text) : w <+: text := by
  fun_induction maskAll n ns text generalizing w with
  | case1 => exact h
  | case2 c rest hmatch ih =>
    rcases List.prefix_cons_iff.mp h with rfl | ⟨tail, rfl, -⟩
    · exact List.nil_prefix
    · exact absurd List.mem_cons_self hw
  | case3 c rest hno ih =>
    rcases List.prefix_cons_iff.mp h with rfl | ⟨tail, rfl, ht⟩
    · exact List.nil_prefix
    · exact (List.prefix_cons_inj c).mpr (ih (List.not_mem_of_not_mem_cons hw) ht)

/-- A pass makes no new occurrence of a word without stars. -/
theorem infix_of_maskAll (hw : '*' ∉ w) (h : w <:+: maskAll n ns text) : w <:+: text := by
  fun_induction maskAll n ns text with
  | case1 => exact h
  | case2 c rest hmatch ih =>
    have hrest := ih (infix_behind_mask hw h)
    exact List.infix_cons (hrest.trans (List.drop_suffix ..).isInfix)
  | case3 c rest hno ih =>
    rcases List.infix_cons_iff.mp h with hp | hi
    · rcases List.prefix_cons_iff.mp hp with rfl | ⟨tail, rfl, ht⟩
      · exact List.nil_infix
      · have hfront := prefix_of_maskAll (List.not_mem_of_not_mem_cons hw) ht
        exact ((List.prefix_cons_inj c).mpr hfront).isInfix
    · exact List.infix_cons (ih hi)

/-- A pass leaves no occurrence of its own word. -/
theorem maskAll_clean (hv : '*' ∉ n :: ns) : ¬n :: ns <:+: maskAll n ns text := by
  fun_induction maskAll n ns text with
  | case1 => simp
  | case2 c rest hmatch ih => exact fun h => ih (infix_behind_mask hv h)
  | case3 c rest hno ih =>
    intro h
    rcases List.infix_cons_iff.mp h with hp | hi
    · obtain ⟨rfl, ht⟩ := List.cons_prefix_cons.mp hp
      -- what the pass left here is the text itself, which it would have masked
      have hfront := prefix_of_maskAll (List.not_mem_of_not_mem_cons hv) ht
      exact hno (List.isPrefixOf_iff_prefix.mpr ((List.prefix_cons_inj n).mpr hfront))
    · exact ih hi

theorem maskAll_untouched (h : ¬n :: ns <:+: text) : maskAll n ns text = text := by
  fun_induction maskAll n ns text with
  | case1 => rfl
  | case2 c rest hmatch ih => exact absurd (List.isPrefixOf_iff_prefix.mp hmatch).isInfix h
  | case3 c rest hno ih => rw [ih fun hi => h (List.infix_cons hi)]

end Pass

section Values

variable {v text : String} {w : List Char}

/-- Masking makes no occurrence of a word without stars. -/
theorem infix_of_maskValue (hw : '*' ∉ w) (h : w <:+: (maskValue v text).toList) :
    w <:+: text.toList := by
  unfold maskValue at h
  split at h
  · exact h
  · rw [String.toList_ofList] at h
    exact infix_of_maskAll hw h

theorem maskValue_clean (hne : v ≠ "") (hv : '*' ∉ v.toList) :
    ¬v.toList <:+: (maskValue v text).toList := by
  unfold maskValue
  split
  · next h => exact absurd (String.toList_eq_nil_iff.mp h) hne
  · next h =>
    rw [h] at hv ⊢
    rw [String.toList_ofList]
    exact maskAll_clean hv

theorem maskValue_untouched (h : ¬(v ≠ "" ∧ v.toList <:+: text.toList)) :
    maskValue v text = text := by
  unfold maskValue
  split
  · rfl
  · next n ns hv =>
    have hne : v ≠ "" := by
      rintro rfl
      cases hv
    rw [maskAll_untouched fun hi => h ⟨hne, hv ▸ hi⟩, String.ofList_toList]

theorem mem_byLength {l : List String} : v ∈ byLength l ↔ v ∈ l :=
  (Ranked.ofList_perm l).mem_iff

/-- Passes one after the other make no new occurrence either. -/
theorem infix_of_passes {l : List String} (hw : '*' ∉ w)
    (h : w <:+: (l.foldl (fun t v => maskValue v t) text).toList) : w <:+: text.toList := by
  induction l generalizing text with
  | nil => exact h
  | cons v rest ih => exact infix_of_maskValue hw (ih h)

/-- A pass takes its value out of the text, and no later pass can bring it back. -/
theorem passes_clean {l : List String} (hm : v ∈ l) (hne : v ≠ "") (hv : '*' ∉ v.toList) :
    ¬v.toList <:+: (l.foldl (fun t v => maskValue v t) text).toList := by
  induction l generalizing text with
  | nil => cases hm
  | cons u rest ih =>
    rcases List.mem_cons.mp hm with rfl | hm
    · exact fun h => maskValue_clean hne hv (infix_of_passes hv h)
    · exact ih hm

theorem passes_untouched {l : List String}
    (h : ∀ v ∈ l, ¬(v ≠ "" ∧ v.toList <:+: text.toList)) :
    l.foldl (fun t v => maskValue v t) text = text := by
  induction l with
  | nil => rfl
  | cons v rest ih =>
    rw [List.foldl_cons, maskValue_untouched (h v List.mem_cons_self)]
    exact ih fun u hu => h u (List.mem_cons_of_mem _ hu)

end Values

variable {values : List Secret} {text : String}

theorem redactAll_hidden (h : Starless values) (text : String) :
    Hidden values (redactAll values text) := by
  rintro v hv ⟨hne, hi⟩
  exact passes_clean (mem_byLength.mpr (List.mem_map_of_mem hv)) hne (h v hv) hi

/-- A text that shows no value is not touched. -/
theorem redactAll_of_hidden (h : Hidden values text) : redactAll values text = text := by
  refine passes_untouched fun v hv => ?_
  obtain ⟨s, hs, rfl⟩ := List.mem_map.mp (mem_byLength.mp hv)
  exact h s hs

theorem Hidden.subset {fewer : List Secret} (h : Hidden values text) (hs : fewer ⊆ values) :
    Hidden fewer text :=
  fun v hv => h v (hs hv)

/-- Of values without stars, whatever their number and however they overlap, a masked text shows
none. Masking once more changes nothing, and it changed nothing in the first place if and only if
none of the values occurred. -/
theorem redaction_thorough (text : String) :
    (∀ values, Starless values →
      Hidden values (redactAll values text) ∧
      (∀ again ⊆ values, redactAll again (redactAll values text) = redactAll values text) ∧
      (redactAll values text = text ↔ Hidden values text)) ∧
    (∀ store : SecretStore, Starless store.values →
      store.redact (store.redact text) = store.redact text) ∧
    ∀ c : StepContext, Starless (c.secrets.map Prod.snd) →
      c.redact (c.redact text) = c.redact text := by
  have hagain {values : List Secret} (h : Starless values) :
      ∀ again ⊆ values, redactAll again (redactAll values text) = redactAll values text :=
    fun again hs => redactAll_of_hidden ((redactAll_hidden h text).subset hs)
  refine ⟨fun values h => ⟨redactAll_hidden h text, hagain h, ?_, redactAll_of_hidden⟩, ?_, ?_⟩
  · intro he
    rw [← he]
    exact redactAll_hidden h text
  · exact fun store h => hagain h _ (List.Subset.refl _)
  · exact fun c h => hagain h _ (List.Subset.refl _)

/-- Values that hold one another or overlap, one of them twice and one empty. -/
def tangled : List Secret := ["token", "token-long", "", "en-l", "token"].map Secret.mk

theorem tangled_thorough :
    Starless tangled ∧ redactAll tangled "a token-long, a token-l." = "a ***, a ***-l." ∧
    Hidden tangled "a ***, a ***-l." := by
  have hstars : Starless tangled := by
    unfold Starless
    decide
  have htext : redactAll tangled "a token-long, a token-l." = "a ***, a ***-l." := by
    decide +kernel
  obtain ⟨hall, -, -⟩ := redaction_thorough "a token-long, a token-l."
  exact ⟨hstars, htext, htext ▸ (hall tangled hstars).1⟩

end Proofs

end ReleaseJob
