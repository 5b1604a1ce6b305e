import ReleaseJob.Proofs.Calendar
import ReleaseJob.Proofs.Digits

namespace ReleaseJob.Proofs

open Instant

/-- Of the years 0 to 9999, and with no second added but to the last of a minute. -/
structure Writable (i : Instant) : Prop where
  year_nonneg : 0 ≤ i.date.year
  year_le : i.date.year ≤ 9999
  nanos : i.nanos < 1000000000 ∨ i.seconds % 60 = 59 ∧ i.nanos < 2000000000

instance (i : Instant) : Decidable (Writable i) :=
  decidable_of_iff (0 ≤ i.date.year ∧ i.date.year ≤ 9999 ∧
      (i.nanos < 1000000000 ∨ i.seconds % 60 = 59 ∧ i.nanos < 2000000000))
    ⟨fun ⟨hyear, hyear', hnanos⟩ => ⟨hyear, hyear', hnanos⟩, fun h => ⟨h.year_nonneg, h.year_le, h.nanos⟩⟩

def hourOf (i : Instant) : Nat := (i.secondOfDay / 3600).toNat

def minuteOf (i : Instant) : Nat := (i.secondOfDay / 60 % 60).toNat

/-- The second 60 is one added to its minute. -/
def secondOf (i : Instant) : Nat := (i.secondOfDay % 60 + (i.nanos / 1000000000 : Nat)).toNat

def fractionOf (i : Instant) : Nat := i.nanos % 1000000000

def clock (i : Instant) : List Char :=
  digits 2 (hourOf i) ++ ':' :: (digits 2 (minuteOf i) ++ ':' ::
    (digits 2 (secondOf i) ++ fraction (fractionOf i)))

theorem clock_bounds {i : Instant} (h : Writable i) :
    hourOf i < 24 ∧ minuteOf i < 60 ∧ secondOf i ≤ 60 ∧ fractionOf i < 1000000000 := by
  have := h.nanos
  unfold hourOf minuteOf secondOf fractionOf secondOfDay
  omega

theorem date_bounds {i : Instant} (h : Writable i) :
    i.date.year.toNat ≤ 9999 ∧ 1 ≤ i.date.month ∧ i.date.month ≤ 12 ∧ 1 ≤ i.date.day ∧
      i.date.day ≤ 31 := by
  obtain ⟨hmonth, hmonth', hday, hday'⟩ := dateOf_inMonth (i.seconds / 86400)
  have hyear := h.year_le
  exact ⟨by omega, hmonth, hmonth', hday, Int.le_trans hday' (daysInMonth_le _ _)⟩

/-- All parts but the fraction have a fixed number of digits. -/
theorem stamp_toList {i : Instant} (h : Writable i) (between : String) :
    (i.stamp between).toList =
      digits 4 i.date.year.toNat ++ '-' :: (digits 2 i.date.month.toNat ++ '-' ::
        (digits 2 i.date.day.toNat ++ (between.toList ++ clock i))) := by
  have hdate := date_bounds h
  have hnanos := h.nanos
  unfold clock hourOf minuteOf secondOf fractionOf secondOfDay
  rw [← yearText_toList h.year_nonneg h.year_le, ← pad2_toList (by omega) (by omega),
    ← pad2_toList (by omega) (by omega), ← pad2_toList (by omega) (by omega),
    ← pad2_toList (by omega) (by omega), ← pad2_toList (by omega) (by omega),
    ← fractionText_toList (by omega)]
  simp only [stamp, secondOfDay, String.toList_append, List.append_assoc]
  rfl

theorem before_iff {a b : Instant} :
    a.before b = true ↔ a.seconds < b.seconds ∨ a.seconds = b.seconds ∧ a.nanos < b.nanos := by
  simp [before]

/-- Within a day, the second of the day and then the nanoseconds decide. -/
theorem secondOfDay_before {a b : Instant} (hday : a.seconds / 86400 = b.seconds / 86400)
    (h : a.before b) :
    a.secondOfDay < b.secondOfDay ∨ a.secondOfDay = b.secondOfDay ∧ a.nanos < b.nanos := by
  have := before_iff.mp h
  unfold secondOfDay
  omega

theorem secondOfDay_bounds {i : Instant} (h : Writable i) : 0 ≤ i.secondOfDay ∧
    (i.nanos < 1000000000 ∨ i.secondOfDay % 60 = 59 ∧ i.nanos < 2000000000) := by
  have := h.nanos
  unfold secondOfDay
  omega

/-- Within a minute, an added second comes after all others. -/
theorem second_lt {a b : Instant} (ha : Writable a) (hb : Writable b)
    (hminute : a.secondOfDay / 60 = b.secondOfDay / 60)
    (h : a.secondOfDay < b.secondOfDay ∨ a.secondOfDay = b.secondOfDay ∧ a.nanos < b.nanos) :
    digits 2 (secondOf a) ++ fraction (fractionOf a) < digits 2 (secondOf b) ++ fraction (fractionOf b) := by
  have hbounds := clock_bounds hb
  have hleap := secondOfDay_bounds ha
  by_cases hsecond : secondOf a = secondOf b
  · rw [hsecond]
    apply List.Lex.append_left
    apply fraction_lt _ hbounds.2.2.2
    unfold secondOf at hsecond
    unfold fractionOf
    omega
  · refine append_lt_append (digits_lt ?_ (by omega)) (by simp) _ _
    unfold secondOf at hsecond ⊢
    omega

/-- A second that was added to a minute is written as number 60, behind the last one. -/
theorem clock_lt {a b : Instant} (ha : Writable a) (hb : Writable b)
    (hday : a.seconds / 86400 = b.seconds / 86400) (h : a.before b) : clock a < clock b := by
  have hbounds := clock_bounds hb
  have hpos := (secondOfDay_bounds ha).1
  have hbefore := secondOfDay_before hday h
  apply digits_append_lt _ (by omega)
  by_cases hhour : hourOf a = hourOf b
  · refine .inr ⟨hhour, digits_append_lt _ (by omega) ?_⟩
    unfold hourOf at hhour
    by_cases hminute : minuteOf a = minuteOf b
    · unfold minuteOf at hminute ⊢
      exact .inr ⟨hminute, second_lt ha hb (by omega) hbefore⟩
    · left
      unfold minuteOf at hminute ⊢
      omega
  · left
    unfold hourOf at hhour ⊢
    omega

theorem stamp_lt {a b : Instant} (ha : Writable a) (hb : Writable b) (h : a.before b)
    (between : String) : a.stamp between < b.stamp between := by
  have hbounds := date_bounds hb
  rw [String.lt_iff, stamp_toList ha, stamp_toList hb]
  by_cases hday : a.seconds / 86400 = b.seconds / 86400
  · have hdate : a.date = b.date := by
      unfold date
      rw [hday]
    rw [hdate]
    refine digits_append_lt _ (by omega) (.inr ⟨rfl, ?_⟩)
    refine digits_append_lt _ (by omega) (.inr ⟨rfl, ?_⟩)
    apply List.Lex.append_left
    apply List.Lex.append_left
    exact clock_lt ha hb hday h
  · have hearlier : Earlier a.date b.date := by
      apply dateOf_earlier
      have := before_iff.mp h
      omega
    have hyear := ha.year_nonneg
    have hmonth := date_bounds ha
    apply digits_append_lt _ (by omega)
    rcases hearlier with hy | ⟨hy, hm | ⟨hm, hd⟩⟩
    · left
      omega
    · rw [hy]
      refine .inr ⟨rfl, digits_append_lt _ (by omega) ?_⟩
      left
      omega
    · rw [hy, hm]
      refine .inr ⟨rfl, digits_append_lt _ (by omega) (.inr ⟨rfl, ?_⟩)⟩
      exact append_lt_append (digits_lt (by omega) (by omega)) (by simp) _ _

theorem before_total (a b : Instant) : a.before b = true ∨ a = b ∨ b.before a = true := by
  obtain ⟨sa, na⟩ := a
  obtain ⟨sb, nb⟩ := b
  rw [before_iff, before_iff, Instant.mk.injEq]
  dsimp only
  omega

/-- Rows can be put in order by the texts of their times. -/
theorem stamp_lt_iff {a b : Instant} (ha : Writable a) (hb : Writable b) (between : String) :
    a.stamp between < b.stamp between ↔ a.before b = true := by
  constructor
  · intro h
    rcases before_total a b with hab | rfl | hba
    · exact hab
    · exact absurd h (String.lt_irrefl _)
    · exact absurd (String.lt_trans h (stamp_lt hb ha hba between)) (String.lt_irrefl _)
  · exact fun h => stamp_lt ha hb h between

theorem year_known {i : Instant} (h : Writable i) : firstYear ≤ i.date.year ∧ i.date.year ≤ lastYear := by
  have hyear := h.year_nonneg
  have hyear' := h.year_le
  unfold firstYear lastYear
  omega

theorem isDate_date {i : Instant} (h : Writable i) :
    Timestamp.isDate i.date.year i.date.month i.date.day = true := by
  obtain ⟨hmonth, hmonth', hday, hday'⟩ := dateOf_inMonth (i.seconds / 86400)
  obtain ⟨hyear, hyear'⟩ := year_known h
  simp only [Timestamp.isDate, Bool.and_eq_true, decide_eq_true_eq]
  exact ⟨⟨⟨⟨⟨hyear, hyear'⟩, hmonth⟩, hmonth'⟩, hday⟩, hday'⟩

/-- A time is made up of its parts. -/
theorem instant_of_parts {i : Instant} (h : Writable i) :
    Timestamp.instant? i.date.year i.date.month i.date.day (hourOf i) (minuteOf i) (secondOf i)
      (fractionOf i) 0 = some i := by
  have hclock := clock_bounds h
  have hnanos := h.nanos
  have hday : dayNumber i.date.year i.date.month i.date.day = i.seconds / 86400 :=
    dayNumber_dateOf _
  have hleap : ((secondOf i : Int) = 60) = (1000000000 ≤ i.nanos) := by
    apply propext
    unfold secondOf secondOfDay
    omega
  have hseconds : i.seconds / 86400 * 86400 + (hourOf i : Int) * 3600 + (minuteOf i : Int) * 60 +
      (if 1000000000 ≤ i.nanos then 59 else (secondOf i : Int)) - 0 = i.seconds := by
    unfold hourOf minuteOf secondOf secondOfDay
    split <;> omega
  have hfraction : fractionOf i + (if 1000000000 ≤ i.nanos then 1000000000 else 0) = i.nanos := by
    unfold fractionOf
    split <;> omega
  have hparts : (hourOf i : Int) < 24 ∧ (minuteOf i : Int) < 60 ∧ (secondOf i : Int) ≤ 60 := by omega
  unfold Timestamp.instant?
  simp only [isDate_date h, hparts, hday, hleap, hseconds, hfraction, year_known h]
  rfl

/-- Reading a text gives the time back, an added second too. -/
theorem parse_stamp {i : Instant} (h : Writable i) : Timestamp.parse? (i.stamp " " ++ "Z") = some i := by
  have hdate := date_bounds h
  have hyear := h.year_nonneg
  have hclock := clock_bounds h
  have hdash : Text.isBlank '-' = false := by decide
  have hcolon : Text.isBlank ':' = false := by decide
  have hgap : " ".toList = [' '] := rfl
  have hend : "Z".toList = ['Z'] := rfl
  unfold Timestamp.parse?
  rw [String.toList_append, stamp_toList h]
  simp only [clock, hgap, hend, List.append_assoc, List.cons_append, List.nil_append,
    Option.bind_eq_bind, Option.bind_some, mark_cons hdash, mark_cons hcolon,
    year_digits (n := i.date.year.toNat) (by omega),
    part_digits (n := i.date.month.toNat) (by omega), part_digits (n := i.date.day.toNat) (by omega),
    part_digits (n := hourOf i) (by omega), part_digits (n := minuteOf i) (by omega),
    part_digits (n := secondOf i) (by omega), fraction_fraction hclock.2.2.2]
  rw [Int.toNat_of_nonneg hyear, Int.toNat_of_nonneg (by omega), Int.toNat_of_nonneg (by omega)]
  exact instant_of_parts h

end ReleaseJob.Proofs
