import ReleaseJob.Cli.Program
import ReleaseJob.Proofs.Filed

namespace ReleaseJob.Proofs

open History

/-- As many of the newest of some runs as a limit allows. -/
structure Newest (stored : List Summary) (limit : Nat) (shown : List Summary) : Prop where
  length : shown.length = min limit stored.length
  mem : ∀ s ∈ shown, s ∈ stored
  ids : shown.Pairwise (·.id ≠ ·.id)
  ordered : shown.Pairwise NotOlder
  newest : ∀ s ∈ shown, ∀ t ∈ stored, t ∉ shown → NotOlder s t

/-- What is cut off an ordered list is nowhere newer than what is left of it. -/
theorem newest_take {stored l : List Summary} (hids : stored.Pairwise (·.id ≠ ·.id))
    (hperm : l.Perm stored) (hordered : l.Pairwise NotOlder) (limit : Nat) :
    Newest stored limit (l.take limit) where
  length := by rw [List.length_take, hperm.length_eq]
  mem s hs := hperm.mem_iff.mp (List.mem_of_mem_take hs)
  ids := ((hperm.pairwise_iff Ne.symm).mpr hids).sublist (List.take_sublist limit l)
  ordered := hordered.sublist (List.take_sublist limit l)
  newest s hs t ht hcut := by
    have hparts := hordered
    rw [← List.take_append_drop limit l] at hparts
    have hbehind : t ∈ l.drop limit := by
      have hl := hperm.mem_iff.mpr ht
      rw [← List.take_append_drop limit l] at hl
      exact (List.mem_append.mp hl).resolve_left hcut
    exact (List.pairwise_append.mp hparts).2.2 s hs t hbehind

/-- What is stored, under one name or under all. -/
def storedUnder (saves : List Summary) : Option String → List Summary
  | none => ledger saves
  | some p => (ledger saves).filter (·.pipeline = p)

/-- The newest runs of lists by name, of one of them or of all together. -/
def newestOf (list : String → List Summary) (names : List String) (pipeline : Option String)
    (limit : Nat) : List Summary :=
  (match pipeline with
    | some p => list p
    | none => Summary.newestFirst (names.flatMap list)).take limit

variable {saves : List Summary}

/-- However runs are filed, the newest of them can be told from their lists. -/
theorem Filed.newest {list : String → List Summary} {names : List String}
    (h : Filed saves (lastName saves) list names) (pipeline : Option String) (limit : Nat) :
    Newest (storedUnder saves pipeline) limit (newestOf list names pipeline limit) := by
  cases pipeline with
  | some p => exact newest_take (ledger_ids.filter _) (h.list_perm p) (h.ordered p) limit
  | none =>
    have hperm := (newestFirst_perm (names.flatMap list)).trans h.flatMap_perm
    exact newest_take ledger_ids hperm (newestFirst_ordered _) limit

/-- How the history shows a list of runs. -/
def listing (p : Cli.Palette) (o : Cli.HistoryOptions) (runs : List Summary) : Cli.Shown :=
  if o.json then
    ⟨[(Json.obj [("executions", .arr (runs.map fun r => r.toJson.sorted))]).pretty 0], 0⟩
  else if runs.isEmpty then ⟨[Cli.Mark.info.line "No runs found"], 0⟩
  else
    ⟨Cli.Mark.info.line s!"Run history (showing latest {o.limit}):" ::
      runs.map fun r => "  " ++ Cli.formatSummary p r, 0⟩

theorem history_lists (scene : Cli.Scene) (t : Table) {o : Cli.HistoryOptions} (ho : o.id = none) :
    Cli.history scene t o = listing scene.palette o (t.newest o.pipeline o.limit) := by
  unfold Cli.history
  rw [ho]
  rfl

theorem newest_eq (t : Table) (pipeline : Option String) (limit : Nat) :
    t.newest pipeline limit = newestOf t.list t.pipelines pipeline limit := by
  cases pipeline <;> rfl

/-- The history shows the newest of the runs that are stored. They are the newest whichever way rows
of one start are ordered. -/
theorem history_shows_newest (h : ∀ s ∈ saves, Storable s) (scene : Cli.Scene)
    {o : Cli.HistoryOptions} (ho : o.id = none) :
    let shown := (tableAfter saves).newest o.pipeline o.limit
    Cli.history scene (tableAfter saves) o = listing scene.palette o shown ∧
    Newest (storedUnder saves o.pipeline) o.limit shown ∧
    ∀ select, Selects (tableAfter saves) select → Newest (storedUnder saves o.pipeline) o.limit
      (newestOf (readBack select) (tableAfter saves).pipelines o.pipeline o.limit) := by
  refine ⟨history_lists scene _ ho, ?_, ?_⟩
  · rw [newest_eq]
    exact (readBack_filed h (table_selects h)).newest o.pipeline o.limit
  · intro select hs
    exact (readBack_filed h hs).newest o.pipeline o.limit

/-- Runs of three names. The first one is saved again under another name, with an earlier start. -/
def crowd : List Summary :=
  let run (digit : Fin 16) (pipeline : String) (seconds : Int) :=
    { releaseRun digit .failed seconds 0 with pipeline }
  [run (RunId.digitOf 1) "Release" 300, run (RunId.digitOf 2) "Nightly" 200,
    run (RunId.digitOf 3) "Beta" 400, run (RunId.digitOf 4) "Release" 250,
    run (RunId.digitOf 1) "Nightly" 100]

/-- The run that was saved again counts with its later summary, and its earlier start leaves it out.
-/
theorem crowd_shown :
    let o : Cli.HistoryOptions := ⟨none, 2, false, false, none⟩
    let scene : Cli.Scene :=
      ⟨⟨[], []⟩, .empty, ⟨500, 0⟩, ⟨List.replicate 32 (RunId.digitOf 5), List.length_replicate⟩⟩
    (∀ s ∈ crowd, Storable s) ∧ o.id = none ∧
    ((tableAfter crowd).newest none 2).map (·.started.seconds) = [400, 250] ∧
    Newest (ledger crowd) 2 ((tableAfter crowd).newest none 2) ∧
    Cli.history scene (tableAfter crowd) o = listing false o ((tableAfter crowd).newest none 2) := by
  intro o scene
  have hstorable : ∀ s ∈ crowd, Storable s := by decide +kernel
  have hid : o.id = none := rfl
  obtain ⟨hshown, hnewest, -⟩ := history_shows_newest hstorable scene hid
  have hpalette : scene.palette = false := by decide
  rw [hpalette] at hshown
  exact ⟨hstorable, hid, by decide +kernel, hnewest, hshown⟩

end ReleaseJob.Proofs
