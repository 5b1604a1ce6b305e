import ReleaseJob.Time.Instant

namespace ReleaseJob.Proofs

open Instant

/-- Days from 1 March of year 0 to 1 March of a year. -/
def yearStart (y : Int) : Int := 365 * y + y / 4 - y / 100 + y / 400

/-- Years start in March, so that a leap day is the last day of its year. -/
theorem yearStart_succ (y : Int) :
    yearStart (y + 1) = yearStart y + if isLeapYear (y + 1) then 366 else 365 := by
  simp only [yearStart, isLeapYear, Bool.and_eq_true, Bool.or_eq_true, decide_eq_true_eq]
  split <;> omega

theorem yearStart_mono {a b : Int} (h : a ≤ b) : yearStart a ≤ yearStart b := by
  unfold yearStart
  omega

/-- The year, of the 400 of an era, that a day of the era lies in. -/
theorem yearOfEra_spec {day : Int} (h : 0 ≤ day) (hlt : day < 146097) :
    let y := (day - day / 1460 + day / 36524 - day / 146096) / 365
    0 ≤ y ∧ y < 400 ∧ yearStart y ≤ day ∧ day < yearStart (y + 1) := by
  intro year
  have hdays : 365 * year ≤ day - day / 1460 + day / 36524 - day / 146096 ∧
      day - day / 1460 + day / 36524 - day / 146096 < 365 * year + 365 := by omega
  generalize year = y at *
  have hera : 0 ≤ y ∧ y < 400 := by omega
  refine ⟨hera.1, hera.2, ?_⟩
  unfold yearStart
  by_cases hlast : day = 146096
  · omega
  · -- Apart from the last day of an era, the centuries of the day and of its year are the same.
    have hcentury : day / 36524 ≤ y / 100 := by omega
    have hleap : y / 4 ≤ day / 1460 := by omega
    have hcentury' : y / 100 ≤ day / 36524 := by omega
    have hleap' : day / 1460 ≤ (y + 1) / 4 := by omega
    constructor
    · omega
    · by_cases hnext : (y + 1) / 100 ≤ day / 36524
      · omega
      · have hend : y = 100 * (day / 36524) + 99 := by omega
        omega

/-- `y` is the year of a day and `m` its month, both counted from March. -/
structure InMarchYear (n y m : Int) (d : Date) : Prop where
  starts : yearStart y ≤ n + 719468
  ends : n + 719468 < yearStart (y + 1)
  month_eq : m = (5 * (n + 719468 - yearStart y) + 2) / 153
  day_eq : d.day = n + 719468 - yearStart y - dayOfMonth m + 1
  month_pos : 1 ≤ d.month
  month_le : d.month ≤ 12
  months : 12 * d.year + d.month = 12 * y + m + 3

namespace InMarchYear

variable {n y m : Int} {d : Date}

theorem dayOfYear_le (h : InMarchYear n y m d) : n + 719468 - yearStart y ≤ 365 := by
  have hends := h.ends
  rw [yearStart_succ] at hends
  split at hends <;> omega

theorem month_bounds (h : InMarchYear n y m d) : 0 ≤ m ∧ m < 12 := by
  have hstarts := h.starts
  have hday := h.dayOfYear_le
  have hm := h.month_eq
  omega

/-- January and February belong to the next year of the calendar. -/
theorem year_eq (h : InMarchYear n y m d) : d.year = if d.month ≤ 2 then y + 1 else y := by
  have hm := h.month_bounds
  have hmonths := h.months
  have hpos := h.month_pos
  have hle := h.month_le
  split <;> omega

/-- The day gives back the number it was found from. -/
theorem dayNumber_eq (h : InMarchYear n y m d) : dayNumber d.year d.month d.day = n := by
  have hy : (if d.month ≤ 2 then d.year - 1 else d.year) = y := by
    have := h.year_eq
    split <;> simp_all
  have hm : (d.month + 9) % 12 = m := by
    have := h.month_bounds
    have := h.months
    omega
  have hday := h.day_eq
  simp only [dayNumber, hy, hm]
  unfold yearStart at hday
  omega

theorem day_pos (h : InMarchYear n y m d) : 1 ≤ d.day := by
  have hday := h.day_eq
  have hm := h.month_eq
  unfold dayOfMonth at hday
  omega

theorem day_le (h : InMarchYear n y m d) : d.day ≤ daysInMonth d.year d.month := by
  have hday := h.day_eq
  have hm := h.month_eq
  have hends := h.ends
  have hyear := h.year_eq
  have hmonths := h.months
  have hpos := h.month_pos
  have hle := h.month_le
  rw [yearStart_succ] at hends
  unfold dayOfMonth at hday
  by_cases hfeb : d.month = 2
  · have hy : d.year = y + 1 := by simp [hyear, hfeb]
    rw [← hy] at hends
    simp only [daysInMonth, hfeb, ↓reduceIte]
    split at hends <;> simp_all <;> omega
  · simp only [daysInMonth, hfeb, ↓reduceIte, Bool.or_eq_true, decide_eq_true_eq]
    split at hends <;> split <;> omega

end InMarchYear

theorem yearStart_add_eras (y era : Int) : yearStart (y + era * 400) = yearStart y + era * 146097 := by
  unfold yearStart
  omega

/-- The date of a day is found through the year and the month that the day lies in. -/
theorem dateOf_inMarchYear (n : Int) : ∃ y m, InMarchYear n y m (dateOf n) := by
  have hera : 0 ≤ n + 719468 - (n + 719468) / 146097 * 146097 ∧
      n + 719468 - (n + 719468) / 146097 * 146097 < 146097 := by omega
  obtain ⟨hpos, hlt, hstarts, hends⟩ := yearOfEra_spec hera.1 hera.2
  unfold dateOf
  dsimp only at hpos hlt hstarts hends ⊢
  generalize (n + 719468) / 146097 = era at *
  generalize hday : n + 719468 - era * 146097 = day at *
  generalize (day - day / 1460 + day / 36524 - day / 146096) / 365 = y at *
  have hstart : yearStart (y + era * 400) = yearStart y + era * 146097 := yearStart_add_eras y era
  have hend : yearStart (y + era * 400 + 1) = yearStart (y + 1) + era * 146097 := by
    rw [show y + era * 400 + 1 = y + 1 + era * 400 by omega]
    exact yearStart_add_eras (y + 1) era
  have hyear : 365 * y + y / 4 - y / 100 = yearStart y := by
    unfold yearStart
    omega
  have hdays : n + 719468 - yearStart (y + era * 400) = day - yearStart y := by omega
  have hdoy : day - yearStart y ≤ 365 := by
    rw [yearStart_succ] at hends
    split at hends <;> omega
  rw [hyear]
  refine ⟨y + era * 400, (5 * (day - yearStart y) + 2) / 153, ?_⟩
  have hm : 0 ≤ (5 * (day - yearStart y) + 2) / 153 ∧ (5 * (day - yearStart y) + 2) / 153 < 12 := by
    omega
  exact
    { starts := by omega
      ends := by omega
      month_eq := by rw [hdays]
      day_eq := by rw [hdays]
      month_pos := by dsimp only; split <;> omega
      month_le := by dsimp only; split <;> omega
      months := by dsimp only; split <;> split <;> omega }

/-- The date of a day gives the day back. -/
theorem dayNumber_dateOf (n : Int) :
    dayNumber (dateOf n).year (dateOf n).month (dateOf n).day = n := by
  obtain ⟨y, m, h⟩ := dateOf_inMarchYear n
  exact h.dayNumber_eq

/-- The date of a day is one of the calendar. -/
theorem dateOf_inMonth (n : Int) :
    1 ≤ (dateOf n).month ∧ (dateOf n).month ≤ 12 ∧
    1 ≤ (dateOf n).day ∧ (dateOf n).day ≤ daysInMonth (dateOf n).year (dateOf n).month := by
  obtain ⟨y, m, h⟩ := dateOf_inMarchYear n
  exact ⟨h.month_pos, h.month_le, h.day_pos, h.day_le⟩

theorem daysInMonth_le (year month : Int) : daysInMonth year month ≤ 31 := by
  unfold daysInMonth
  split
  · split <;> omega
  · split <;> omega

/-- Earlier in year, month and day. -/
def Earlier (a b : Date) : Prop :=
  a.year < b.year ∨ a.year = b.year ∧ (a.month < b.month ∨ a.month = b.month ∧ a.day < b.day)

theorem InMarchYear.year_le {a b y y' m m' : Int} {d d' : Date} (ha : InMarchYear a y m d)
    (hb : InMarchYear b y' m' d') (h : a < b) : y ≤ y' := by
  have hlate (hy : y' + 1 ≤ y) : yearStart (y' + 1) ≤ yearStart y := yearStart_mono hy
  have := ha.starts
  have := hb.ends
  omega

/-- Later in the same year counted from March: in a later month, or on a later day. -/
theorem InMarchYear.in_year {a b y m m' : Int} {d d' : Date} (ha : InMarchYear a y m d)
    (hb : InMarchYear b y m' d') (h : a < b) : m < m' ∨ m = m' ∧ d.day < d'.day := by
  have hm : m ≤ m' := by
    rw [ha.month_eq, hb.month_eq]
    omega
  by_cases hmeq : m = m'
  · subst hmeq
    right
    refine ⟨rfl, ?_⟩
    rw [ha.day_eq, hb.day_eq]
    omega
  · omega

/-- Later days have later dates. -/
theorem dateOf_earlier {a b : Int} (h : a < b) : Earlier (dateOf a) (dateOf b) := by
  obtain ⟨y, m, ha⟩ := dateOf_inMarchYear a
  obtain ⟨y', m', hb⟩ := dateOf_inMarchYear b
  have hma := ha.month_bounds
  have hmb := hb.month_bounds
  have hmonths : 12 * (dateOf a).year + (dateOf a).month < 12 * (dateOf b).year + (dateOf b).month ∨
      12 * (dateOf a).year + (dateOf a).month = 12 * (dateOf b).year + (dateOf b).month ∧
        (dateOf a).day < (dateOf b).day := by
    have hyear := ha.year_le hb h
    rw [ha.months, hb.months]
    by_cases hy : y = y'
    · subst hy
      have hin := ha.in_year hb h
      omega
    · omega
  have := ha.month_pos
  have := ha.month_le
  have := hb.month_pos
  have := hb.month_le
  unfold Earlier
  omega

end ReleaseJob.Proofs
