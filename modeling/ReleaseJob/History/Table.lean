import ReleaseJob.Summary

namespace ReleaseJob.History

/-- Times are texts, and counts are signed numbers of 64 bits. -/
structure Row where
  id : String
  pipeline : String
  tag : String
  version : String
  status : String
  failedStep : Option String
  published : Int64
  started : String
  ended : Option String
  completedSteps : Int64
  totalSteps : Int64

namespace Row

def timeText (i : Instant) : String := i.stamp " "

/-- The time of a cell is written without its offset, which is zero. -/
def time? (text : String) : Option Instant := Timestamp.parse? (text ++ "Z")

def signed (n : Nat) : Int64 := Int64.ofNat n

def count (n : Int64) : Nat := n.toUInt64.toNat

def ofSummary (s : Summary) : Row where
  id := s.id.text
  pipeline := s.pipeline
  tag := s.tag
  version := s.version
  status := s.status.name
  failedStep := s.failedStep
  published := if s.published then 1 else 0
  started := timeText s.started
  ended := s.ended.map timeText
  completedSteps := signed s.completedSteps
  totalSteps := signed s.totalSteps

/-- An unknown status counts as pending. Rows that no `save` wrote may hold an id or a time that
cannot be read; the fault that reading them is for a store is left out, and they are passed over. -/
def toSummary? (r : Row) : Option Summary := do
  let id ← RunId.parse? r.id
  let started ← time? r.started
  let ended ← match r.ended with
    | none => some none
    | some t => (time? t).map some
  return { id, pipeline := r.pipeline, tag := r.tag, version := r.version,
           status := (Status.ofName? r.status).getD .pending, failedStep := r.failedStep,
           published := r.published ≠ 0, started, ended,
           completedSteps := count r.completedSteps, totalSteps := count r.totalSteps }

/-- Rows go by the texts of their times; those with equal ones keep their order. -/
def latestFirst (l : List Row) : List Row := Ranked.ofList (fun r s => s.started < r.started) l

end Row

structure Table where
  rows : List Row

namespace Table

def empty : Table := ⟨[]⟩

def save (t : Table) (s : Summary) : Table :=
  ⟨t.rows.filter (·.id ≠ s.id.text) ++ [.ofSummary s]⟩

def load? (t : Table) (id : RunId) : Option Summary :=
  (t.rows.find? (·.id = id.text)).bind Row.toSummary?

def list (t : Table) (pipeline : String) : List Summary :=
  (Row.latestFirst (t.rows.filter (·.pipeline = pipeline))).filterMap Row.toSummary?

def pipelines (t : Table) : List String := Names.ofList (t.rows.map (·.pipeline))

def newest (t : Table) (pipeline : Option String) (limit : Nat) : List Summary :=
  let found := match pipeline with
    | some p => t.list p
    | none => Summary.newestFirst (t.pipelines.flatMap t.list)
  found.take limit

end Table

end ReleaseJob.History
