import ReleaseJob.History.Table

namespace ReleaseJob.History

namespace Cell

def mark (c : Char) : List Char :=
  if c = '\\' then ['\\', '\\'] else if c = '\t' then ['\\', 't'] else if c = '\n' then ['\\', 'n'] else [c]

def encode (cs : List Char) : List Char := cs.flatMap mark

def decode : List Char → Option (List Char)
  | [] => some []
  | '\\' :: '\\' :: cs => (decode cs).map ('\\' :: ·)
  | '\\' :: 't' :: cs => (decode cs).map ('\t' :: ·)
  | '\\' :: 'n' :: cs => (decode cs).map ('\n' :: ·)
  | c :: cs => if c = '\\' then none else (decode cs).map (c :: ·)

def text (s : String) : String := String.ofList (encode s.toList)

def text? (s : String) : Option String := (decode s.toList).map String.ofList

def nothing : String := "\\"

def optional (s : Option String) : String := s.elim nothing text

def optional? (s : String) : Option (Option String) :=
  if s = nothing then some none else (text? s).map some

def number? (s : String) : Option Int64 := s.toInt?.map Int64.ofInt

end Cell

/-- Cells stand between tabs. Tabs, line feeds and backslashes of a cell are written with a
backslash, and a cell that holds nothing as a lone one. -/
def Row.toLine (r : Row) : String :=
  "\t".intercalate [Cell.text r.id, Cell.text r.pipeline, Cell.text r.tag, Cell.text r.version,
    Cell.text r.status, Cell.optional r.failedStep, toString r.published, Cell.text r.started,
    Cell.optional r.ended, toString r.completedSteps, toString r.totalSteps]

def Row.ofLine? (line : String) : Option Row := do
  let [id, pipeline, tag, version, status, failedStep, published, started, ended, completedSteps,
    totalSteps] := line.splitOn "\t" | none
  return {
    id := ← Cell.text? id, pipeline := ← Cell.text? pipeline, tag := ← Cell.text? tag
    version := ← Cell.text? version, status := ← Cell.text? status
    failedStep := ← Cell.optional? failedStep, published := ← Cell.number? published
    started := ← Cell.text? started, ended := ← Cell.optional? ended
    completedSteps := ← Cell.number? completedSteps, totalSteps := ← Cell.number? totalSteps }

def Table.toLines (t : Table) : List String := t.rows.map Row.toLine

/-- Lines that are no rows are passed over. -/
def Table.ofLines (lines : List String) : Table := ⟨lines.filterMap Row.ofLine?⟩

end ReleaseJob.History
