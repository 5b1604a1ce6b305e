import Mathlib.Algebra.Group.Nat.Defs
import Mathlib.Data.List.Lex
import Mathlib.Data.List.TakeWhile
import ReleaseJob.Time.Timestamp

namespace ReleaseJob.Proofs

/-- The last `width` digits of `n`. -/
def digits : (width n : Nat) → List Char
  | 0, _ => []
  | width + 1, n => digits width (n / 10) ++ [Nat.digitChar (n % 10)]

@[simp] theorem digits_length (width n : Nat) : (digits width n).length = width := by
  induction width generalizing n with
  | zero => rfl
  | succ width ih => simp [digits, ih]

theorem isDigit_of_mem_digits {width n : Nat} {c : Char} (h : c ∈ digits width n) : c.isDigit := by
  induction width generalizing n with
  | zero => cases h
  | succ width ih =>
    rcases List.mem_append.mp h with hc | hc
    · exact ih hc
    · rw [List.mem_singleton.mp hc, Nat.isDigit_digitChar, decide_eq_true_eq]
      omega

theorem div_ten_lt {width n : Nat} (h : n < 10 ^ (width + 1)) : n / 10 < 10 ^ width := by
  rw [Nat.div_lt_iff_lt_mul (by decide), ← Nat.pow_succ]
  exact h

/-- A number padded with zeros. -/
theorem digits_eq_padded {width n : Nat} (h : n < 10 ^ (width + 1)) :
    List.replicate (width + 1 - (Nat.toDigits 10 n).length) '0' ++ Nat.toDigits 10 n =
      digits (width + 1) n := by
  induction width generalizing n with
  | zero =>
    have hone : n < 10 := by simpa using h
    simp [digits, Nat.toDigits_of_lt_base hone, Nat.mod_eq_of_lt hone]
  | succ width ih =>
    have hrest : n / 10 < 10 ^ (width + 1) := div_ten_lt h
    rw [digits, ← ih hrest]
    by_cases hn : n < 10
    · have hzero : n / 10 = 0 := by omega
      rw [hzero, Nat.toDigits_of_lt_base hn, Nat.toDigits_of_lt_base (by decide),
        Nat.mod_eq_of_lt hn]
      simp [List.replicate_succ']
    · rw [Nat.toDigits_eq_if (n := n) (by decide), if_neg hn]
      simp

theorem natOf_snoc (cs : List Char) (c : Char) :
    Timestamp.natOf (cs ++ [c]) = 10 * Timestamp.natOf cs + (c.toNat - 48) := by
  simp [Timestamp.natOf]

/-- Zeros at the head change nothing. -/
theorem natOf_digits {width n : Nat} (h : n < 10 ^ width) : Timestamp.natOf (digits width n) = n := by
  induction width generalizing n with
  | zero =>
    have hzero : n = 0 := by simpa using h
    rw [hzero]
    rfl
  | succ width ih =>
    have hrest : n / 10 < 10 ^ width := div_ten_lt h
    rw [digits, natOf_snoc, ih hrest, Nat.toNat_digitChar_of_lt_ten (by omega)]
    omega

/-- Texts of one length are compared before all that follows them. -/
theorem append_lt_append {a b : List Char} (h : a < b) (hl : a.length = b.length) (x y : List Char) :
    a ++ x < b ++ y := by
  induction a generalizing b with
  | nil =>
    cases b with
    | nil => exact absurd h (List.lt_irrefl [])
    | cons => cases hl
  | cons c cs ih =>
    cases b with
    | nil => cases hl
    | cons d ds =>
      rw [List.cons_append, List.cons_append, List.cons_lt_cons_iff]
      rcases List.cons_lt_cons_iff.mp h with hcd | ⟨hcd, hrest⟩
      · exact .inl hcd
      · exact .inr ⟨hcd, ih hrest (by simpa using hl)⟩

theorem digitChar_lt {a b : Nat} (h : a < b) (hb : b < 10) : Nat.digitChar a < Nat.digitChar b := by
  rw [Char.lt_def, UInt32.lt_iff_toNat_lt]
  change (Nat.digitChar a).toNat < (Nat.digitChar b).toNat
  rw [Nat.toNat_digitChar_of_lt_ten (by omega), Nat.toNat_digitChar_of_lt_ten hb]
  omega

/-- The order of texts is that of numbers, since both have the same number of digits. -/
theorem digits_lt {width a b : Nat} (h : a < b) (hb : b < 10 ^ width) : digits width a < digits width b := by
  induction width generalizing a b with
  | zero =>
    have hzero : b = 0 := by simpa using hb
    omega
  | succ width ih =>
    have hrest : b / 10 < 10 ^ width := div_ten_lt hb
    by_cases htens : a / 10 < b / 10
    · exact append_lt_append (ih htens hrest) (by simp) _ _
    · have hsame : a / 10 = b / 10 := by omega
      have hones : a % 10 < b % 10 := by omega
      rw [digits, digits, hsame]
      apply List.Lex.append_left
      exact List.cons_lt_cons_iff.mpr (.inl (digitChar_lt hones (by omega)))

/-- Texts are put in order by the first number in which they differ. -/
theorem digits_append_lt {width a b : Nat} {x y : List Char} (c : Char) (hb : b < 10 ^ width)
    (h : a < b ∨ a = b ∧ x < y) : digits width a ++ c :: x < digits width b ++ c :: y := by
  rcases h with hab | ⟨rfl, hxy⟩
  · exact append_lt_append (digits_lt hab hb) (by simp) _ _
  · apply List.Lex.append_left
    exact List.cons_lt_cons_iff.mpr (.inr ⟨rfl, hxy⟩)

theorem take_digits (width k n : Nat) : (digits (width + k) n).take width = digits width (n / 10 ^ k) := by
  induction k generalizing n with
  | zero => simp [List.take_of_length_le]
  | succ k ih =>
    rw [← Nat.add_assoc, digits, List.take_append_of_le_length (by simp), ih, Nat.div_div_eq_div_mul,
      Nat.pow_succ']

theorem drop_digits (width k n : Nat) : (digits (width + k) n).drop width = digits k n := by
  induction k generalizing n with
  | zero => simp [digits]
  | succ k ih =>
    rw [← Nat.add_assoc, digits, List.drop_append_of_le_length (by simp), ih]
    rfl

theorem eq_zero_of_mem_digits {width n : Nat} (h : n % 10 ^ width = 0) {c : Char}
    (hc : c ∈ digits width n) : c = '0' := by
  induction width generalizing n with
  | zero => cases hc
  | succ width ih =>
    have hdvd : 10 * 10 ^ width ∣ n := by
      rw [← Nat.pow_succ']
      exact Nat.dvd_of_mod_eq_zero h
    obtain ⟨k, rfl⟩ := hdvd
    rcases List.mem_append.mp hc with hc | hc
    · refine ih ?_ hc
      rw [Nat.mul_assoc, Nat.mul_div_cancel_left _ (by decide), Nat.mul_mod_right]
    · rw [List.mem_singleton.mp hc, Nat.mul_assoc, Nat.mul_mod_right]
      rfl

/-- Where the larger of two texts of equal length ends in zeros, it stays the larger one when they
are cut off, however much of the other is cut off. -/
theorem take_lt_take {x y : List Char} (h : x < y) (hl : x.length = y.length) (m n : Nat)
    (hx : ∀ c ∈ x, '0' ≤ c) (hy : ∀ c ∈ y.drop n, c = '0') : x.take m < y.take n := by
  induction x generalizing y m n with
  | nil =>
    cases y with
    | nil => exact absurd h (List.lt_irrefl [])
    | cons => cases hl
  | cons c cs ih =>
    cases y with
    | nil => cases hl
    | cons d ds =>
      have hrest : cs.length = ds.length := by simpa using hl
      have hcs : ∀ c ∈ cs, '0' ≤ c := fun c hc => hx c (List.mem_cons_of_mem _ hc)
      cases n with
      | zero =>
        rcases List.cons_lt_cons_iff.mp h with hcd | ⟨-, hlt⟩
        · have hd : d = '0' := hy d (by simp)
          rw [hd] at hcd
          exact absurd hcd (Char.not_lt.mpr (hx c (by simp)))
        · have hds : ∀ c ∈ ds, c = '0' := fun c hc => hy c (List.mem_cons_of_mem _ hc)
          exact absurd (ih hlt hrest 0 0 hcs hds) (List.lt_irrefl [])
      | succ n =>
        cases m with
        | zero => exact List.nil_lt_cons d _
        | succ m =>
          rw [List.take_succ_cons, List.take_succ_cons, List.cons_lt_cons_iff]
          rcases List.cons_lt_cons_iff.mp h with hcd | ⟨rfl, hlt⟩
          · exact .inl hcd
          · exact .inr ⟨rfl, ih hlt hrest m n hcs hy⟩

theorem zero_le_of_mem_digits {width n : Nat} {c : Char} (h : c ∈ digits width n) : '0' ≤ c := by
  have hdigit := isDigit_of_mem_digits h
  simp only [Char.isDigit, Bool.and_eq_true, decide_eq_true_eq] at hdigit
  exact hdigit.1

/-- How many of its nine places a fraction is written with. -/
def places (nanos : Nat) : Nat :=
  if nanos % 1000000 = 0 then 3 else if nanos % 1000 = 0 then 6 else 9

def fraction (nanos : Nat) : List Char :=
  if nanos = 0 then [] else '.' :: (digits 9 nanos).take (places nanos)

/-- Fractions have as few places as they need, and are still ordered as texts: a missing place
stands for a zero, and nothing is less than `0`. -/
theorem fraction_lt {a b : Nat} (h : a < b) (hb : b < 1000000000) : fraction a < fraction b := by
  have hb0 : b ≠ 0 := by omega
  have hzeros : ∀ c ∈ (digits 9 b).drop (places b), c = '0' := by
    intro c hc
    unfold places at hc
    split at hc
    · next h3 => exact eq_zero_of_mem_digits h3 (drop_digits 3 6 b ▸ hc)
    · split at hc
      · next h6 => exact eq_zero_of_mem_digits h6 (drop_digits 6 3 b ▸ hc)
      · rw [List.drop_of_length_le (by simp)] at hc
        cases hc
  unfold fraction
  rw [if_neg hb0]
  split
  · exact List.nil_lt_cons _ _
  · apply List.cons_lt_cons_iff.mpr
    refine .inr ⟨rfl, take_lt_take (digits_lt h hb) (by simp) _ _ ?_ hzeros⟩
    exact fun c hc => zero_le_of_mem_digits hc

theorem isBlank_of_isDigit {c : Char} (h : c.isDigit) : Text.isBlank c = false := by
  simp only [Char.isDigit, Bool.and_eq_true, decide_eq_true_eq, UInt32.le_iff_toNat_le] at h
  change 48 ≤ c.toNat ∧ c.toNat ≤ 57 at h
  simp only [Text.isBlank, Bool.or_eq_false_iff, Bool.and_eq_false_iff, decide_eq_false_iff_not]
  omega

theorem digits_head (width n : Nat) :
    ∃ c cs, digits (width + 1) n = c :: cs ∧ c.isDigit := by
  cases h : digits (width + 1) n with
  | nil =>
    have := digits_length (width + 1) n
    rw [h] at this
    cases this
  | cons c cs => exact ⟨c, cs, rfl, isDigit_of_mem_digits (h ▸ List.mem_cons_self)⟩

theorem skipBlanks_cons {c : Char} (h : Text.isBlank c = false) (rest : List Char) :
    Timestamp.skipBlanks (c :: rest) = c :: rest := by
  simp [Timestamp.skipBlanks, h]

theorem skipBlanks_digits (width n : Nat) (rest : List Char) :
    Timestamp.skipBlanks (digits (width + 1) n ++ rest) = digits (width + 1) n ++ rest := by
  obtain ⟨c, cs, hcs, hc⟩ := digits_head width n
  rw [hcs]
  exact skipBlanks_cons (isBlank_of_isDigit hc) _

theorem takeWhile_digits (width n : Nat) :
    (digits width n).takeWhile Char.isDigit = digits width n := by
  apply List.takeWhile_eq_self_iff.mpr
  exact fun c hc => isDigit_of_mem_digits hc

theorem number_digits (width : Nat) {n : Nat} (h : n < 10 ^ (width + 1)) (rest : List Char) :
    Timestamp.number (width + 1) (digits (width + 1) n ++ rest) = some ((n : Int), rest) := by
  obtain ⟨c, cs, hcs, hc⟩ := digits_head width n
  have htake : ((digits (width + 1) n ++ rest).take (width + 1)).takeWhile Char.isDigit =
      digits (width + 1) n := by
    rw [List.take_left' (digits_length _ _), takeWhile_digits]
  have hne : (digits (width + 1) n).isEmpty = false := by
    rw [hcs]
    rfl
  unfold Timestamp.number
  rw [htake]
  simp only [hne, Bool.false_eq_true, ↓reduceIte, natOf_digits h, digits_length]
  rw [List.drop_left' (digits_length _ _)]

theorem part_digits {n : Nat} (h : n < 100) (rest : List Char) :
    Timestamp.part (digits 2 n ++ rest) = some ((n : Int), rest) := by
  unfold Timestamp.part
  rw [skipBlanks_digits 1 n]
  exact number_digits 1 (by omega) rest

theorem year_digits {n : Nat} (h : n < 10000) (rest : List Char) :
    Timestamp.year (digits 4 n ++ rest) = some ((n : Int), rest) := by
  obtain ⟨c, cs, hcs, hc⟩ := digits_head 3 n
  unfold Timestamp.year
  rw [skipBlanks_digits 3 n, ← number_digits 3 (by omega) rest, hcs]
  split
  · next heq =>
    cases heq
    cases hc
  · next heq =>
    cases heq
    cases hc
  · rfl

theorem mark_cons {c : Char} (h : Text.isBlank c = false) (rest : List Char) :
    Timestamp.mark c (c :: rest) = some rest := by
  simp [Timestamp.mark, skipBlanks_cons h]

/-- The places that are left out are zeros. -/
theorem fraction_take {width k n : Nat} (hpos : 0 < width) (hk : width + k = 9)
    (hn : n < 10 ^ 9) (hzero : n % 10 ^ k = 0) {c : Char} (hc : c.isDigit = false) (rest : List Char) :
    Timestamp.fraction ('.' :: ((digits 9 n).take width ++ c :: rest)) = some (n, c :: rest) := by
  have hfront : (digits 9 n).take width = digits width (n / 10 ^ k) := by
    rw [← hk, take_digits]
  have hlt : n / 10 ^ k < 10 ^ width := by
    rw [Nat.div_lt_iff_lt_mul (Nat.pow_pos (by decide)), ← Nat.pow_add, hk]
    exact hn
  have hdigits : (digits width (n / 10 ^ k) ++ c :: rest).takeWhile Char.isDigit =
      digits width (n / 10 ^ k) := by
    rw [List.takeWhile_append_of_pos fun d hd => isDigit_of_mem_digits hd]
    simp [hc]
  have hne : (digits width (n / 10 ^ k)).isEmpty = false := by
    rw [List.isEmpty_eq_false_iff, ← List.length_pos_iff, digits_length]
    exact hpos
  have hvalue : n / 10 ^ k * Nat.pow 10 (9 - width) = n := by
    rw [show 9 - width = k by omega]
    exact Nat.div_mul_cancel (Nat.dvd_of_mod_eq_zero hzero)
  unfold Timestamp.fraction
  simp only [hfront, hdigits, hne, Bool.false_eq_true, ↓reduceIte]
  rw [List.take_of_length_le (by rw [digits_length]; omega), natOf_digits hlt, digits_length, hvalue,
    List.drop_left' (digits_length _ _)]

/-- No places are no nanoseconds, and then no point is written. -/
theorem fraction_fraction {n : Nat} (h : n < 1000000000) (rest : List Char) :
    Timestamp.fraction (fraction n ++ 'Z' :: rest) = some (n, 'Z' :: rest) := by
  unfold fraction places
  split
  · next hzero => rw [hzero]; rfl
  · rw [List.cons_append]
    split
    · next h3 => exact fraction_take (k := 6) (by decide) (by decide) h h3 (by decide) rest
    · split
      · next h6 => exact fraction_take (k := 3) (by decide) (by decide) h h6 (by decide) rest
      · exact fraction_take (k := 0) (by decide) (by decide) h (by omega) (by decide) rest

theorem padded_toList {width n : Nat} (h : n < 10 ^ (width + 1)) :
    (String.ofList (List.replicate (width + 1 - (toString n).length) '0') ++ toString n).toList =
      digits (width + 1) n := by
  rw [← digits_eq_padded h]
  simp [← String.length_toList, Nat.toList_repr]

theorem toString_toList (n : Nat) : (toString n).toList = Nat.toDigits 10 n := Nat.toList_repr

theorem pad2_toList {n : Int} (h : 0 ≤ n) (hn : n < 100) : (Instant.pad2 n).toList = digits 2 n.toNat := by
  obtain ⟨k, rfl⟩ := Int.eq_ofNat_of_zero_le h
  have hk : k < 10 ^ (1 + 1) := by omega
  have htext : toString (k : Int) = toString k := rfl
  rw [Int.toNat_natCast, ← digits_eq_padded hk]
  unfold Instant.pad2
  split
  · have hone : k < 10 := by omega
    rw [htext, String.toList_append, toString_toList,
      Nat.toDigits_of_lt_base hone]
    rfl
  · have hlong : ¬(Nat.toDigits 10 k).length ≤ 1 := by
      rw [Nat.length_toDigits_le_iff (by decide) (by decide)]
      omega
    have hpad : 1 + 1 - (Nat.toDigits 10 k).length = 0 := by omega
    rw [hpad, htext, toString_toList]
    rfl

theorem yearText_toList {y : Int} (h : 0 ≤ y) (hy : y ≤ 9999) : (Instant.yearText y).toList = digits 4 y.toNat := by
  obtain ⟨k, rfl⟩ := Int.eq_ofNat_of_zero_le h
  unfold Instant.yearText
  rw [if_neg (by omega), if_neg (by omega)]
  exact padded_toList (by omega)

theorem fractionText_toList {nanos : Nat} (h : nanos < 1000000000) :
    (Instant.fractionText nanos).toList = fraction nanos := by
  unfold Instant.fractionText fraction places
  dsimp only
  split
  · rfl
  · split
    · rw [take_digits 3 6, String.append_assoc, String.toList_append, padded_toList (by omega)]
      rfl
    · split
      · rw [take_digits 6 3, String.append_assoc, String.toList_append, padded_toList (by omega)]
        rfl
      · rw [take_digits 9 0, String.append_assoc, String.toList_append, padded_toList (by omega)]
        simp

end ReleaseJob.Proofs
