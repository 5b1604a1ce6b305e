import Mathlib.Algebra.Order.Field.Basic
import Mathlib.Algebra.Order.Field.Rat
import Mathlib.Tactic.NormNum
import ReleaseJob.Cli.Program
import ReleaseJob.Proofs.Report

namespace ReleaseJob

namespace Binary

def one : Binary := ⟨Nat.pow 2 52, -52⟩

def value (b : Binary) : ℚ := b.ratio.1 / b.ratio.2

/-- The exponent that a quotient gets before it is rounded. -/
def exponentOf (num den : Nat) : Int :=
  let guess : Int := max leastExponent ((num.log2 : Int) - den.log2 - 53)
  if Nat.pow 2 53 ≤ (scale num den guess).1 / (scale num den guess).2 then guess + 1 else guess

/-- The mantissa that it is rounded to, which can be one too many for 53 bits. -/
def mantissaOf (num den : Nat) : Nat :=
  roundDiv (scale num den (exponentOf num den)).1 (scale num den (exponentOf num den)).2

end Binary

/-- The share of the steps that are completed. -/
def JobState.completedShare (s : JobState) : ℚ := s.counts.completed / s.total

namespace Proofs

section Doubles
open Binary

variable {n num den : Nat} {e : Int}

/-- The exponent comes before the rounding and the mantissa after it. One that is rounded up to 54
bits gives way to the next power of two. -/
theorem ofRatio?_eq (hn : num ≠ 0) : ofRatio? num den =
    if mantissaOf num den = Nat.pow 2 53 then
      if 971 < exponentOf num den + 1 then none else some ⟨Nat.pow 2 52, exponentOf num den + 1⟩
    else if 971 < exponentOf num den then none else some ⟨mantissaOf num den, exponentOf num den⟩ := by
  rw [ofRatio?, if_neg hn]
  let rounded : Nat × Int := if mantissaOf num den = Nat.pow 2 53 then
    (Nat.pow 2 52, exponentOf num den + 1) else (mantissaOf num den, exponentOf num den)
  change (if 971 < rounded.2 then none else some (Binary.mk rounded.1 rounded.2)) = _
  by_cases hm : mantissaOf num den = Nat.pow 2 53
  · simp only [rounded, if_pos hm]
  · simp only [rounded, if_neg hm]

/-- A quotient without a rest needs no rounding. -/
theorem roundDiv_mul (hn : n ≠ 0) (k : Nat) : roundDiv (n * k) n = k := by
  have hpos : 0 < n := Nat.pos_of_ne_zero hn
  simp [roundDiv, Nat.mul_div_cancel_left k hpos, hpos]

theorem roundDiv_ne_zero (hd : den ≠ 0) (h : den ≤ num) : roundDiv num den ≠ 0 := by
  have hquot : 0 < num / den := Nat.div_pos h (Nat.pos_of_ne_zero hd)
  unfold roundDiv
  dsimp only
  split
  · omega
  · split
    · omega
    · omega

/-- A number divided by itself is one. -/
theorem ofRatio?_self (hn : n ≠ 0) : ofRatio? n n = some .one := by
  -- The guess is one too low for a quotient with nothing behind the point.
  have hexponent : exponentOf n n = -52 := by
    have hguess : max leastExponent ((n.log2 : Int) - n.log2 - 53) = -53 := by
      unfold leastExponent
      omega
    have hquot : n * Nat.pow 2 53 / n = Nat.pow 2 53 :=
      Nat.mul_div_cancel_left _ (Nat.pos_of_ne_zero hn)
    rw [exponentOf, hguess]
    change (if Nat.pow 2 53 ≤ n * Nat.pow 2 53 / n then (-53 : Int) + 1 else -53) = _
    rw [hquot]
    rfl
  have hmantissa : mantissaOf n n = Nat.pow 2 52 := by
    rw [mantissaOf, hexponent]
    exact roundDiv_mul hn _
  rw [ofRatio?_eq hn, hexponent, hmantissa]
  rfl

theorem scale_count (hn : n ≠ 0) (he : e ≤ n.log2) :
    (scale n 1 e).2 ≠ 0 ∧ (scale n 1 e).2 ≤ (scale n 1 e).1 := by
  unfold scale
  split
  · exact ⟨Nat.one_ne_zero, Nat.mul_pos (Nat.pos_of_ne_zero hn) (Nat.two_pow_pos _)⟩
  · have hle : e.natAbs ≤ n.log2 := by omega
    rw [Nat.one_mul]
    refine ⟨(Nat.two_pow_pos _).ne', ?_⟩
    exact (Nat.pow_le_pow_right (by decide) hle).trans (Nat.log2_self_le hn)

/-- A number of at most 64 bits becomes a binary one, and not zero. -/
theorem ofRatio?_count (hn : n ≠ 0) (h : n < Nat.pow 2 64) :
    ∃ b, ofRatio? n 1 = some b ∧ b.mantissa ≠ 0 := by
  have hlog : n.log2 < 64 := (Nat.log2_lt hn).mpr h
  have hexponent : exponentOf n 1 ≤ n.log2 - 52 := by
    have hone : Nat.log2 1 = 0 := by decide
    have hguess : max leastExponent ((n.log2 : Int) - Nat.log2 1 - 53) = n.log2 - 53 := by
      unfold leastExponent
      omega
    rw [exponentOf, hguess]
    split
    · omega
    · omega
  have hmantissa : mantissaOf n 1 ≠ 0 := by
    obtain ⟨hden, hnum⟩ := scale_count hn (e := exponentOf n 1) (by omega)
    exact roundDiv_ne_zero hden hnum
  rw [ofRatio?_eq hn]
  split
  · rw [if_neg (by omega)]
    exact ⟨_, rfl, (Nat.two_pow_pos _).ne'⟩
  · rw [if_neg (by omega)]
    exact ⟨_, rfl, hmantissa⟩

theorem ratio_ne_zero {b : Binary} (h : b.mantissa ≠ 0) : b.ratio.1 * b.ratio.2 ≠ 0 := by
  unfold ratio
  split
  · exact Nat.mul_ne_zero h (Nat.two_pow_pos _).ne'
  · exact Nat.mul_ne_zero (Nat.mul_ne_zero h (Nat.two_pow_pos _).ne') Nat.one_ne_zero

theorem value_one : Binary.one.value = 1 := by
  have hratio : Binary.one.ratio = (Nat.pow 2 52, Nat.pow 2 52) := rfl
  rw [value, hratio]
  exact div_self (by norm_num)

theorem percent_one : Cli.percent .one = 100 := by decide +kernel

end Doubles

/-- A job whose steps all came to a final state reports a share of one. -/
theorem progress?_of_sum {s : JobState} (h : s.counts.sum = s.total) (hn : s.total ≠ 0)
    (hb : s.total < Nat.pow 2 64) : s.progress? = some .one := by
  obtain ⟨b, hcount, hm⟩ := ofRatio?_count hn hb
  rw [JobState.progress?, if_neg hn, h, if_neg (Nat.not_le.mpr hb), hcount]
  change Binary.ofRatio? (b.ratio.1 * b.ratio.2) (b.ratio.2 * b.ratio.1) = _
  rw [Nat.mul_comm b.ratio.2]
  exact ofRatio?_self (ratio_ne_zero hm)

section Share

variable {s : JobState}

theorem completedShare_lt (h : s.counts.completed < s.total) : s.completedShare < 1 := by
  have hpos : (0 : ℚ) < s.total := Nat.cast_pos.mpr (Nat.zero_lt_of_lt h)
  exact (div_lt_one hpos).mpr (Nat.cast_lt.mpr h)

theorem completedShare_eq_one (hn : s.total ≠ 0) :
    s.completedShare = 1 ↔ s.counts.completed = s.total := by
  have hne : (s.total : ℚ) ≠ 0 := Nat.cast_ne_zero.mpr hn
  rw [JobState.completedShare, div_eq_one_iff_eq hne, Nat.cast_inj]

end Share

section Run

variable {setup : RunSetup} {limit : Option Span} {reason : String} {j : Job}

/-- Without a workspace all steps are skipped, which is final as well. -/
theorem runWithin_final (hf : Fresh j) :
    ∀ s ∈ (j.runWithin setup limit reason).job.steps, s.state.isFinal = true := by
  cases hw : setup.workspace with
  | error cause =>
    intro s hs
    simp [StepState.isFinal, (runWithin_skipped hf hw).1 s hs]
  | ok w => exact (runWithin_settled hf hw).final

theorem runWithin_length (setup : RunSetup) (limit : Option Span) (reason : String) (j : Job) :
    (j.runWithin setup limit reason).job.steps.length = j.steps.length := by
  have hsame := congrArg List.length (runWithin_closed setup limit reason j).same
  rw [List.length_map, List.length_map] at hsame
  exact hsame

/-- The counts of a fresh job that was run make up all of its steps. -/
theorem runWithin_sum (hf : Fresh j) :
    (j.runWithin setup limit reason).job.state.counts.sum =
      (j.runWithin setup limit reason).job.state.total := by
  have hclosed := runWithin_closed setup limit reason j
  rw [hclosed.counts, ofSteps_sum (runWithin_final hf), runWithin_length, hclosed.total]
  rfl

end Run

/-- However a run of a job from a valid configuration ends, the share that the job reports is one, for
steps that failed or were skipped count. Just the runs that succeed have completed that share of the
steps; one that failed has completed less, and its last line tells a hundred percent all the same. -/
theorem ended_run_reports_all {c : Config} {p : Push} {id : RunId} {j : Job}
    (hv : c.validate = .ok ()) (hj : Job.forPush c p id = .ok (some j)) (setup : RunSetup)
    (env : Env) (timeout : Span) (reason : String) (palette : Cli.Palette) :
    let r := { j with env, timeout }.run setup reason
    let s := r.job.state
    ∃ share, s.progress? = some share ∧ share.value = 1 ∧
      (share.value = s.completedShare ↔ r.ending = .completed) ∧
      ∀ e, r.ending = .failed e → s.completedShare < 1 ∧
        Cli.showEnding palette r =
          ("\n" ++ Cli.Mark.cross.line (Cli.Tone.bold.paint palette r.job.name ++ " " ++
            Cli.Tone.red.paint palette "failed" ++
            (" (" ++ Cli.Tone.dim.paint palette "100%" ++ " of steps completed)")), 1) := by
  intro r s
  have hfresh := forPush_fresh hj
  have hf : Fresh { j with env, timeout } := ⟨hfresh.pending, hfresh.counts⟩
  have hkinds : j.steps.map (·.kind) = StepKind.sequence :=
    forPush_kinds (admitted_of_validate hv) hj
  have hclosed : Closed (started setup { j with env, timeout }) r := runWithin_closed ..
  have hfour : j.steps.length = 4 := (List.length_map _).symm.trans (congrArg List.length hkinds)
  have htotal : r.job.state.total = 4 := hclosed.total.trans hfour
  have hshare : r.job.state.progress? = some .one :=
    progress?_of_sum (runWithin_sum hf) (htotal ▸ by decide) (htotal ▸ by decide)
  have htold : Told r.job r.ending := runWithin_told hf hkinds
  have hlength : r.job.steps.length = s.total := (runWithin_length ..).trans hclosed.total.symm
  have hcompleted : s.counts.completed = s.total ↔ r.ending = .completed := by
    rw [← htold.completed, hclosed.counts, hlength]
  refine ⟨_, hshare, value_one, ?_, fun e he => ⟨?_, ?_⟩⟩
  · rw [value_one, eq_comm, completedShare_eq_one (htotal ▸ by decide)]
    exact hcompleted
  · have hle : s.counts.completed ≤ s.total := by
      rw [hclosed.counts, ← hlength]
      exact List.countP_le_length
    have hne : s.counts.completed ≠ s.total := by
      rw [Ne, hcompleted, he]
      nofun
    exact completedShare_lt (Nat.lt_of_le_of_ne hle hne)
  · simp only [Cli.showEnding, he, hshare, Option.map_some, percent_one, Option.getD_some]
    rfl

/-- The status tells the ending. -/
theorem failed_of_status {setup : RunSetup} {limit : Option Span} {reason : String} {j : Job}
    (h : (j.runWithin setup limit reason).job.state.status = .failed) :
    ∃ e, (j.runWithin setup limit reason).ending = .failed e := by
  rw [(runWithin_closed ..).status] at h
  exact status_failed_iff.mp h

/-- Two of four steps were completed, and the last line tells a hundred percent. -/
theorem untested_reports_all :
    let r := stockJob.run untested
    ∃ e, r.ending = .failed e ∧ r.job.state.counts = ⟨2, 1, 1⟩ ∧ r.job.state.completedShare < 1 ∧
      (Cli.showEnding false r).1 = "\n✗  Release failed (100% of steps completed)" := by
  intro r
  obtain ⟨e, he⟩ : ∃ e, r.ending = .failed e := failed_of_status (by decide +kernel)
  obtain ⟨_, _, _, _, hfailed⟩ := ended_run_reports_all stock_validates forPush_stock untested
    stockJob.env stockJob.timeout "run cancelled" false
  obtain ⟨hshare, hlast⟩ := hfailed e he
  have hname : r.job.name = "Release" := by decide +kernel
  refine ⟨e, he, by decide +kernel, hshare, (congrArg Prod.fst hlast).trans ?_⟩
  rw [hname]
  decide +kernel

/-- The first command fails. -/
def uncloned : RunSetup := scripted (fun _ => some 128) .empty

/-- A job of which no step was completed and one of which two of four were report the same share, and
it is neither none nor half of the steps. -/
theorem failures_report_alike :
    let early := stockJob.run uncloned
    let late := stockJob.run untested
    (∃ e, early.ending = .failed e) ∧ (∃ e, late.ending = .failed e) ∧
    early.job.state.completedShare = 0 ∧ late.job.state.completedShare = 1 / 2 ∧
    early.job.state.progress? = some .one ∧ late.job.state.progress? = some .one ∧
    Binary.one.value ≠ 0 ∧ Binary.one.value ≠ 1 / 2 := by
  intro early late
  have hearly : early.job.state.counts = ⟨0, 1, 3⟩ ∧ early.job.state.total = 4 := by decide +kernel
  have hlate : late.job.state.counts = ⟨2, 1, 1⟩ ∧ late.job.state.total = 4 := by decide +kernel
  refine ⟨failed_of_status (by decide +kernel), failed_of_status (by decide +kernel), ?_, ?_,
    by decide +kernel, by decide +kernel, ?_, ?_⟩
  · rw [JobState.completedShare, hearly.1, hearly.2]
    norm_num
  · rw [JobState.completedShare, hlate.1, hlate.2]
    norm_num
  · rw [value_one]
    norm_num
  · rw [value_one]
    norm_num

end Proofs

end ReleaseJob
