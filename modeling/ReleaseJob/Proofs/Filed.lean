import ReleaseJob.Proofs.Indexed

namespace ReleaseJob.Proofs

open History

def firstName (saves : List Summary) (id : RunId) : Option String :=
  (first saves id).map (·.pipeline)

def lastName (saves : List Summary) (id : RunId) : Option String :=
  (latest saves id).map (·.pipeline)

/-- Lists of runs by name, after some saves. A run stands once in the list of its name, as it was
saved last, and in no other list. -/
structure Filed (saves : List Summary) (nameOf : RunId → Option String)
    (list : String → List Summary) (names : List String) : Prop where
  mem : ∀ p s, s ∈ list p ↔ latest saves s.id = some s ∧ nameOf s.id = some p
  ids : ∀ p, (list p).Pairwise (·.id ≠ ·.id)
  ordered : ∀ p, (list p).Pairwise NotOlder
  /-- No name without a run. -/
  named : ∀ p, p ∈ names ↔ ∃ id, nameOf id = some p
  increasing : names.Pairwise (· < ·)

variable {saves : List Summary} {nameOf nameOf' : RunId → Option String}
  {list : String → List Summary} {names : List String}

theorem lastName_eq_iff {s : Summary} (hs : latest saves s.id = some s) (p : String) :
    lastName saves s.id = some p ↔ s.pipeline = p := by
  rw [lastName, hs, Option.map_some, Option.some.injEq]

/-- The lists tell the name of a run. -/
theorem Filed.name_iff (h : Filed saves nameOf list names) (h' : Filed saves nameOf' list names)
    {s : Summary} (hs : latest saves s.id = some s) (p : String) :
    nameOf s.id = some p ↔ nameOf' s.id = some p := by
  have hmem := h.mem p s
  rw [h'.mem p s] at hmem
  simpa [hs] using hmem.symm

theorem Filed.mem_iff (h : Filed saves (lastName saves) list names) {p : String} {s : Summary} :
    s ∈ list p ↔ s ∈ ledger saves ∧ s.pipeline = p := by
  rw [h.mem, mem_ledger_iff]
  apply and_congr_right
  intro hs
  exact lastName_eq_iff hs p

/-- The list of a name is settled up to the order of runs that started together. -/
theorem Filed.list_perm (h : Filed saves (lastName saves) list names) (p : String) :
    (list p).Perm ((ledger saves).filter (·.pipeline = p)) := by
  apply (List.perm_ext_iff_of_nodup (nodup_of_ids (h.ids p))
    ((nodup_of_ids ledger_ids).filter _)).mpr
  intro s
  rw [h.mem_iff, List.mem_filter, decide_eq_true_eq]

/-- Put together, the lists hold each stored run once: no run has two names, and every name is
told. -/
theorem Filed.flatMap_perm (h : Filed saves (lastName saves) list names) :
    (names.flatMap list).Perm (ledger saves) := by
  have hnodup : (names.flatMap list).Nodup := by
    apply List.nodup_flatMap.mpr
    refine ⟨fun p _ => nodup_of_ids (h.ids p), ?_⟩
    apply h.increasing.imp
    intro p q hpq s hp hq
    have hp := (h.mem_iff.mp hp).2
    have hq := (h.mem_iff.mp hq).2
    exact String.ne_of_lt hpq (hp.symm.trans hq)
  apply (List.perm_ext_iff_of_nodup hnodup (nodup_of_ids ledger_ids)).mpr
  intro s
  rw [List.mem_flatMap]
  constructor
  · intro ⟨p, _, hs⟩
    exact (h.mem_iff.mp hs).1
  · intro hs
    have hname := (lastName_eq_iff (mem_ledger_iff.mp hs) s.pipeline).mpr rfl
    exact ⟨s.pipeline, (h.named s.pipeline).mpr ⟨s.id, hname⟩, h.mem_iff.mpr ⟨hs, rfl⟩⟩

theorem Filed.names_eq {list' : String → List Summary} {names' : List String}
    (h : Filed saves nameOf list names) (h' : Filed saves nameOf list' names') : names = names' := by
  have hmem (p : String) : p ∈ names ↔ p ∈ names' := by rw [h.named, h'.named]
  exact h.increasing.eq_of_mem_iff h'.increasing hmem

section Memory

theorem mem_indexOf_iff {p : String} {id : RunId} :
    id ∈ indexOf (memoryAfter saves) p ↔ firstName saves id = some p := by
  rw [(memoryAfter_indexed saves).mem, firstName, Option.map_eq_some_iff]

theorem memory_list_perm (p : String) : ((memoryAfter saves).list p).Perm
    ((indexOf (memoryAfter saves) p).filterMap (latest saves)) := by
  have hload : (memoryAfter saves).load? = latest saves := funext (memoryAfter_kept saves).load?
  rw [← hload]
  exact newestFirst_perm _

/-- The index goes by the first save, and the runs in it are those of the last. -/
theorem memory_filed (saves : List Summary) :
    Filed saves (firstName saves) (memoryAfter saves).list (memoryAfter saves).pipelines where
  mem p s := by
    rw [(memory_list_perm p).mem_iff, List.mem_filterMap]
    constructor
    · intro ⟨id, hid, hs⟩
      rw [← id_of_latest hs] at hid hs
      exact ⟨hs, mem_indexOf_iff.mp hid⟩
    · intro ⟨hs, hname⟩
      exact ⟨s.id, mem_indexOf_iff.mpr hname, hs⟩
  ids p := by
    apply ((memory_list_perm p).pairwise_iff Ne.symm).mpr
    apply List.pairwise_filterMap.mpr
    apply ((memoryAfter_indexed saves).nodup p).imp
    intro a b hab s hs t ht hid
    rw [id_of_latest hs, id_of_latest ht] at hid
    exact hab hid
  ordered p := newestFirst_ordered _
  named p := by
    change p ∈ (memoryAfter saves).index.names ↔ _
    rw [Bindings.mem_names, (memoryAfter_indexed saves).named]
    exact exists_congr fun id => mem_indexOf_iff
  increasing := (memoryAfter saves).index.sorted

theorem memory_filed_last (h : ∀ id, firstName saves id = lastName saves id) :
    Filed saves (lastName saves) (memoryAfter saves).list (memoryAfter saves).pipelines := by
  rw [← funext h]
  exact memory_filed saves

/-- In memory a run stays under its first name, so runs are filed under their last names just when
no run was renamed. -/
theorem memory_files_by_first_name (saves : List Summary) :
    Filed saves (firstName saves) (memoryAfter saves).list (memoryAfter saves).pipelines ∧
    (Filed saves (lastName saves) (memoryAfter saves).list (memoryAfter saves).pipelines ↔
      ∀ id, firstName saves id = lastName saves id) := by
  refine ⟨memory_filed saves, ?_, memory_filed_last⟩
  intro hlast id
  cases hs : latest saves id with
  | none => rw [firstName, lastName, first_eq_none_iff.mpr hs, hs]
  | some s =>
    apply Option.ext
    intro p
    obtain rfl := id_of_latest hs
    exact (memory_filed saves).name_iff hlast hs p

/-- A run of one pipeline, as it stands at some time. -/
def releaseRun (digit : Fin 16) (status : Status) (seconds : Int) (nanos : Nat) : Summary where
  id := ⟨List.replicate 32 digit, List.length_replicate⟩
  pipeline := "Release"
  tag := "v1.2.3"
  version := "1.2.3"
  status
  failedStep := if status = .failed then some "test" else none
  published := status = .completed
  started := ⟨seconds, nanos⟩
  ended := if status = .running then none else some ⟨seconds + 90, nanos⟩
  completedSteps := 2
  totalSteps := 4

/-- A run that is saved again under another name. -/
def resaved : List Summary :=
  let run := releaseRun (RunId.digitOf 1) .completed 1700000000 0
  [run, { run with pipeline := "Nightly" }]

/-- Under its last name the run is not listed. -/
theorem resaved_misfiled :
    ¬Filed resaved (lastName resaved) (memoryAfter resaved).list (memoryAfter resaved).pipelines := by
  intro h
  have hnamed : "Nightly" ∈ (memoryAfter resaved).pipelines :=
    (h.named "Nightly").mpr ⟨⟨List.replicate 32 (RunId.digitOf 1), List.length_replicate⟩, by decide⟩
  have hpipelines : (memoryAfter resaved).pipelines = ["Release"] := by decide
  rw [hpipelines] at hnamed
  simp at hnamed

end Memory

section Table

/-- What asking for the rows of a name may give: all of them, the later starts first. Rows with one
start may come in any order. -/
structure Selects (t : Table) (select : String → List Row) : Prop where
  perm : ∀ p, (select p).Perm (t.rows.filter (·.pipeline = p))
  ordered : ∀ p, (select p).Pairwise fun a b => ¬a.started < b.started

def readBack (select : String → List Row) (p : String) : List Summary :=
  (select p).filterMap Row.toSummary?

variable {select : String → List Row} (h : ∀ s ∈ saves, Storable s)
include h

/-- The table itself answers in one of these orders. -/
theorem table_selects : Selects (tableAfter saves) fun p =>
    Row.latestFirst ((tableAfter saves).rows.filter (·.pipeline = p)) := by
  have hstorable (p : String) : ∀ s ∈ (ledger saves).filter (·.pipeline = p), Storable s := by
    intro s hs
    exact storable_ledger h s (List.mem_filter.mp hs).1
  refine ⟨?_, ?_⟩
  · intro p
    rw [tableAfter_rows_named, latestFirst_map (hstorable p)]
    exact (newestFirst_perm _).map Row.ofSummary
  · intro p
    rw [tableAfter_rows_named, latestFirst_map (hstorable p), List.pairwise_map]
    apply (newestFirst_ordered _).imp_of_mem
    intro a b ha hb hab hlt
    have ha := hstorable p a ((newestFirst_perm _).mem_iff.mp ha)
    have hb := hstorable p b ((newestFirst_perm _).mem_iff.mp hb)
    rw [NotOlder, (started_lt_iff ha hb).mp hlt] at hab
    cases hab

variable (hs : Selects (tableAfter saves) select)
include hs

theorem readBack_perm (p : String) :
    (readBack select p).Perm ((ledger saves).filter (·.pipeline = p)) := by
  have hperm := (hs.perm p).filterMap Row.toSummary?
  rw [tableAfter_rows_named] at hperm
  rwa [filterMap_toSummary? h fun s hs => (List.mem_filter.mp hs).1] at hperm

/-- A selected row was written for the run that is read from it. -/
theorem ofSummary_of_selected {p : String} {r : Row} {s : Summary} (hr : r ∈ select p)
    (hread : r.toSummary? = some s) : Storable s ∧ r = Row.ofSummary s := by
  have hrow := (hs.perm p).mem_iff.mp hr
  rw [tableAfter_rows_named] at hrow
  obtain ⟨t, ht, rfl⟩ := List.mem_map.mp hrow
  have hstorable := storable_ledger h t (List.mem_filter.mp ht).1
  rw [toSummary?_ofSummary hstorable, Option.some.injEq] at hread
  subst hread
  exact ⟨hstorable, rfl⟩

theorem readBack_ordered (p : String) : (readBack select p).Pairwise NotOlder := by
  apply List.pairwise_filterMap.mpr
  apply (hs.ordered p).imp_of_mem
  intro a b ha hb hab s hread t hread'
  obtain ⟨hs', rfl⟩ := ofSummary_of_selected h hs ha hread
  obtain ⟨ht', rfl⟩ := ofSummary_of_selected h hs hb hread'
  rw [started_lt_iff hs' ht'] at hab
  simpa [NotOlder] using hab

/-- The order that rows of one start come in changes nothing about what is filed where. -/
theorem readBack_filed :
    Filed saves (lastName saves) (readBack select) (tableAfter saves).pipelines where
  mem p s := by
    rw [(readBack_perm h hs p).mem_iff, List.mem_filter, mem_ledger_iff]
    apply and_congr_right
    intro hlatest
    rw [decide_eq_true_eq, lastName_eq_iff hlatest]
  ids p := by
    apply ((readBack_perm h hs p).pairwise_iff Ne.symm).mpr
    exact ledger_ids.filter _
  ordered p := readBack_ordered h hs p
  named p := by
    rw [mem_table_pipelines]
    constructor
    · intro ⟨s, hs, hp⟩
      exact ⟨s.id, (lastName_eq_iff (mem_ledger_iff.mp hs) p).mpr hp⟩
    · intro ⟨id, hid⟩
      obtain ⟨s, hs, hp⟩ := Option.map_eq_some_iff.mp hid
      exact ⟨s, mem_ledger_iff.mpr (id_of_latest hs ▸ hs), hp⟩
  increasing := Names.pairwise_ofList _

end Table

/-- The table loses nothing: each id gives all that was saved last under it, and runs are filed
under their last names, whichever way rows of one start are ordered. -/
theorem table_loses_nothing (h : ∀ s ∈ saves, Storable s) :
    (∀ id, (tableAfter saves).load? id = latest saves id) ∧
    Filed saves (lastName saves) (tableAfter saves).list (tableAfter saves).pipelines ∧
    ∀ select, Selects (tableAfter saves) select →
      Filed saves (lastName saves) (readBack select) (tableAfter saves).pipelines :=
  ⟨table_load? h, readBack_filed h (table_selects h), fun _ hs => readBack_filed h hs⟩

/-- Saves at the edges of the columns: a count of 64 bits, the first second of year 0, the last of
year 9999 and one added to a minute, and a run that is saved again under another name. -/
def extremes : List Summary :=
  let first := releaseRun (RunId.digitOf 1)
  let second := releaseRun (RunId.digitOf 2)
  [{ first .cancelled (-62167219200) 0 with completedSteps := 18446744073709551615 },
    second .running 1483228799 1000000000,
    { second .failed 1483228799 1999999999 with
      pipeline := "Nightly", ended := some ⟨253402300799, 999999999⟩ }]

theorem extremes_kept :
    (∀ s ∈ extremes, Storable s) ∧
    (∀ s ∈ extremes, s.status ≠ .running → (tableAfter extremes).load? s.id = some s) ∧
    Filed extremes (lastName extremes) (tableAfter extremes).list (tableAfter extremes).pipelines := by
  have hstorable : ∀ s ∈ extremes, Storable s := by decide +kernel
  obtain ⟨hload, hfiled, -⟩ := table_loses_nothing hstorable
  refine ⟨hstorable, ?_, hfiled⟩
  intro s hs hstatus
  rw [hload]
  revert s
  decide

end ReleaseJob.Proofs
