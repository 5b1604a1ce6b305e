import ReleaseJob.Summary

namespace ReleaseJob.History

structure Memory where
  runs : List Summary
  index : Bindings (List RunId)

namespace Memory

def empty : Memory := ⟨[], .empty⟩

def load? (m : Memory) (id : RunId) : Option Summary := m.runs.find? (·.id = id)

/-- A run is indexed when it is first saved, under the name it has then. -/
def save (m : Memory) (s : Summary) : Memory :=
  if (m.load? s.id).isSome then
    { m with runs := m.runs.map fun r => if r.id = s.id then s else r }
  else
    ⟨m.runs ++ [s], m.index.insert s.pipeline ((m.index.get? s.pipeline).getD [] ++ [s.id])⟩

def list (m : Memory) (pipeline : String) : List Summary :=
  Summary.newestFirst (((m.index.get? pipeline).getD []).filterMap m.load?)

def pipelines (m : Memory) : List String := m.index.names

end Memory

end ReleaseJob.History
