import Mathlib.Data.List.TakeDrop
import ReleaseJob.History.Table
import ReleaseJob.Proofs.Stamp

namespace ReleaseJob.Proofs

open History

theorem digitChar_ne (d : Fin 16) : RunId.digitChar d ∉ ['-', '\x7b', 'u'] := by
  revert d
  decide

theorem digit?_digitChar (d : Fin 16) : RunId.digit? (RunId.digitChar d) = some d := by
  revert d
  decide

theorem ofDigits?_digits (id : RunId) : RunId.ofDigits? (id.digits.map RunId.digitChar) = some id := by
  have hdigits : (id.digits.map RunId.digitChar).mapM RunId.digit? = some id.digits := by
    induction id.digits with
    | nil => rfl
    | cons d ds ih => simp [digit?_digitChar, ih]
  simp [RunId.ofDigits?, hdigits, id.length_eq]

/-- Digits in groups, with hyphens between them. -/
def grouped (cs : List Char) : List Char :=
  cs.take 8 ++ '-' :: ((cs.drop 8).take 4 ++ '-' :: ((cs.drop 12).take 4 ++ '-' ::
    ((cs.drop 16).take 4 ++ '-' :: (cs.drop 20).take 12)))

theorem text_toList (id : RunId) : id.text.toList = grouped (id.digits.map RunId.digitChar) := by
  simp [RunId.text, grouped]

/-- Without its hyphens a written id is its digits. -/
theorem filter_grouped {cs : List Char} (hlen : cs.length = 32) (h : '-' ∉ cs) :
    (grouped cs).filter (· ≠ '-') = cs := by
  have hkeep : ∀ c ∈ cs, decide (c ≠ '-') = true := by
    intro c hc
    rw [decide_eq_true_eq]
    exact fun he => h (he ▸ hc)
  have hgroup (start count : Nat) : ((cs.drop start).take count).filter (· ≠ '-') =
      (cs.drop start).take count :=
    List.filter_eq_self.mpr fun c hc => hkeep c (List.mem_of_mem_drop (List.mem_of_mem_take hc))
  have hfirst : (cs.take 8).filter (· ≠ '-') = cs.take 8 :=
    List.filter_eq_self.mpr fun c hc => hkeep c (List.mem_of_mem_take hc)
  have hlast : (cs.drop 20).take 12 = cs.drop 20 := List.take_of_length_le (by simp [hlen])
  calc (grouped cs).filter (· ≠ '-')
      = cs.take 8 ++ ((cs.drop 8).take 4 ++ ((cs.drop 12).take 4 ++ ((cs.drop 16).take 4 ++
          (cs.drop 20).take 12))) := by
        simp only [grouped, List.filter_append, List.filter_cons, hfirst, hgroup]
        simp
    _ = cs := by
        rw [hlast, List.drop_take_append_drop' cs 16 4, List.drop_take_append_drop' cs 12 4,
          List.drop_take_append_drop' cs 8 4, List.take_append_drop]

theorem ofGroups?_grouped (id : RunId) (h : '-' ∉ id.digits.map RunId.digitChar) :
    RunId.ofGroups? (grouped (id.digits.map RunId.digitChar)) = some id := by
  have hlen : (id.digits.map RunId.digitChar).length = 32 := by simp [id.length_eq]
  unfold RunId.ofGroups?
  rw [filter_grouped hlen h, ofDigits?_digits]
  simp [grouped, List.getElem?_append, id.length_eq]

/-- An id is read back from its text, which holds none of the marks of the other spellings. -/
theorem parse?_text (id : RunId) : RunId.parse? id.text = some id := by
  have hlen : (id.digits.map RunId.digitChar).length = 32 := by simp [id.length_eq]
  have hnot {c : Char} (hc : c ∈ ['-', '{', 'u']) : c ∉ id.digits.map RunId.digitChar := by
    intro hmem
    obtain ⟨d, -, rfl⟩ := List.mem_map.mp hmem
    exact digitChar_ne d hc
  have hfilter := filter_grouped hlen (hnot (by simp))
  have hgroups := ofGroups?_grouped id (hnot (by simp))
  have hhead {c : Char} {cs : List Char} (he : grouped (id.digits.map RunId.digitChar) = c :: cs)
      (hc : c ∈ ['\x7b', 'u']) : False := by
    have hdash : c ≠ '-' := by
      rintro rfl
      simp at hc
    refine hnot (List.mem_cons_of_mem _ hc) ?_
    rw [← hfilter, he, List.filter_cons_of_pos (by simpa using hdash)]
    exact List.mem_cons_self
  unfold RunId.parse?
  rw [text_toList]
  split
  · next he => exact (hhead he (by simp)).elim
  · next he => exact (hhead he (by simp)).elim
  · rw [if_neg (by simp [grouped, id.length_eq])]
    exact hgroups

theorem text_inj {a b : RunId} : a.text = b.text ↔ a = b := by
  refine ⟨fun h => ?_, congrArg RunId.text⟩
  have hparse := congrArg RunId.parse? h
  rw [parse?_text, parse?_text] at hparse
  exact Option.some.inj hparse

theorem ofName?_name (s : Status) : Status.ofName? s.name = some s := by
  cases s <;> rfl

/-- Counts of 64 bits are kept as signed numbers. -/
theorem count_signed {n : Nat} (h : n < Nat.pow 2 64) : Row.count (Row.signed n) = n := by
  simp only [Row.count, Row.signed]
  simp
  exact h

theorem time?_timeText {i : Instant} (h : Writable i) : Row.time? (Row.timeText i) = some i :=
  parse_stamp h

@[simp] theorem ofSummary_id (s : Summary) : (Row.ofSummary s).id = s.id.text := rfl

@[simp] theorem ofSummary_pipeline (s : Summary) : (Row.ofSummary s).pipeline = s.pipeline := rfl

/-- What the columns of a row can hold. -/
structure Storable (s : Summary) : Prop where
  started : Writable s.started
  ended : ∀ t ∈ s.ended, Writable t
  completedSteps : s.completedSteps < Nat.pow 2 64
  totalSteps : s.totalSteps < Nat.pow 2 64

instance (s : Summary) : Decidable (Storable s) :=
  decidable_of_iff (Writable s.started ∧ (∀ t ∈ s.ended, Writable t) ∧
      s.completedSteps < Nat.pow 2 64 ∧ s.totalSteps < Nat.pow 2 64)
    ⟨fun ⟨hstarted, hended, hcompleted, htotal⟩ => ⟨hstarted, hended, hcompleted, htotal⟩,
      fun h => ⟨h.started, h.ended, h.completedSteps, h.totalSteps⟩⟩

/-- What is kept of a run is read back from its row as it was. -/
theorem toSummary?_ofSummary {s : Summary} (h : Storable s) : (Row.ofSummary s).toSummary? = some s := by
  obtain ⟨hstarted, hended, hcompleted, htotal⟩ := h
  obtain ⟨id, pipeline, tag, version, status, failedStep, published, started, ended, completedSteps,
    totalSteps⟩ := s
  dsimp only at hstarted hended hcompleted htotal
  have hpublished : (if published then (1 : Int64) else 0) = 0 ↔ published = false := by
    cases published <;> decide
  cases ended with
  | none =>
    simp [Row.toSummary?, Row.ofSummary, parse?_text, time?_timeText hstarted, ofName?_name,
      count_signed hcompleted, count_signed htotal, hpublished]
  | some t =>
    simp [Row.toSummary?, Row.ofSummary, parse?_text, time?_timeText hstarted,
      time?_timeText (hended t rfl), ofName?_name, count_signed hcompleted, count_signed htotal,
      hpublished]

/-- The order of the texts in the column is the order of the times. -/
theorem started_lt_iff {a b : Summary} (ha : Storable a) (hb : Storable b) :
    (Row.ofSummary a).started < (Row.ofSummary b).started ↔ a.started.before b.started = true :=
  stamp_lt_iff ha.started hb.started " "

end ReleaseJob.Proofs
