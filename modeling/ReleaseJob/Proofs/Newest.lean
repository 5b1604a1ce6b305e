import ReleaseJob.Proofs.Ranked
import ReleaseJob.Proofs.Rows

namespace ReleaseJob.Proofs

open History

/-- Runs that may stand in this order, the newest first. -/
def NotOlder (a b : Summary) : Prop := a.started.before b.started = false

instance : DecidableRel NotOlder := fun a b =>
  inferInstanceAs (Decidable (a.started.before b.started = false))

/-- Seconds count before nanoseconds. -/
theorem notOlder_iff {a b : Summary} : NotOlder a b ↔
    b.started.seconds < a.started.seconds ∨
      b.started.seconds = a.started.seconds ∧ b.started.nanos ≤ a.started.nanos := by
  rw [NotOlder, Bool.eq_false_iff, ne_eq, before_iff]
  omega

instance : Std.Total NotOlder where
  total a b := by
    rw [notOlder_iff, notOlder_iff]
    omega

instance : IsTrans Summary NotOlder where
  trans a b c := by
    rw [notOlder_iff, notOlder_iff, notOlder_iff]
    omega

/-- Only runs that started together may stand in either order. -/
theorem started_eq_of_notOlder {a b : Summary} (hab : NotOlder a b) (hba : NotOlder b a) :
    a.started = b.started := by
  have htotal := before_total a.started b.started
  rw [hab, hba] at htotal
  simpa using htotal

theorem newestFirst_perm (l : List Summary) : (Summary.newestFirst l).Perm l :=
  Ranked.ofList_perm l

theorem newestFirst_ordered (l : List Summary) : (Summary.newestFirst l).Pairwise NotOlder :=
  Ranked.ofList_ordered (r := NotOlder) (fun _ _ => Iff.rfl) l

/-- Rows are put in the order that the runs are put in. -/
theorem latestFirst_map {l : List Summary} (hl : ∀ s ∈ l, Storable s) :
    Row.latestFirst (l.map Row.ofSummary) = (Summary.newestFirst l).map Row.ofSummary := by
  apply Ranked.map_ofList
  intro a ha b hb
  rw [Bool.eq_iff_iff, decide_eq_true_iff]
  exact started_lt_iff (hl b hb) (hl a ha)

end ReleaseJob.Proofs
