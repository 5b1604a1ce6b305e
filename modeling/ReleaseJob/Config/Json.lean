import ReleaseJob.Config
import ReleaseJob.Json.Record

namespace ReleaseJob

def StepKind.ofJson? : Json → Option StepKind
  | .str s => ofName? s
  | .obj [(s, .null)] => ofName? s
  | _ => none

namespace StepConfig

def ofJson? (j : Json) : Option StepConfig := do
  let r ← j.record? 8
  let kind ← r.required 0 "kind" StepKind.ofJson?
  let id ← r.withDefault 1 "id" (Json.option? Json.text?) none
  let name ← r.withDefault 2 "name" (Json.option? Json.text?) none
  let run ← r.withDefault 3 "run" (Json.option? Json.text?) none
  let channel ← r.withDefault 4 "channel" (Json.option? Json.text?) none
  let setOverride ← r.withDefault 5 "override" Json.flag? false
  let env ← r.withDefault 6 "env" Json.bindings? .empty
  let secrets ← r.withDefault 7 "secrets" Json.texts? []
  return { kind, id, name, run, channel, setOverride, env, secrets }

end StepConfig

def Bindings.toJson (b : Bindings String) : Json :=
  .obj (b.entries.map fun (name, value) => (name, .str value))

def StepConfig.toJson (s : StepConfig) : Json :=
  .obj [("kind", .str s.kind.name), ("id", .ofOption .str s.id), ("name", .ofOption .str s.name),
    ("run", .ofOption .str s.run), ("channel", .ofOption .str s.channel),
    ("override", .bool s.setOverride), ("env", s.env.toJson), ("secrets", .strs s.secrets)]

namespace Config

def tagsOfJson? (j : Json) : Option (List String) := do
  (← j.record? 1).required 0 "tags" Json.texts?

def ofJson? (j : Json) : Option Config := do
  let r ← j.record? 5
  let name ← r.required 0 "name" Json.text?
  let tags ← r.withDefault 1 "trigger" tagsOfJson? defaultTags
  let timeout ← r.withDefault 2 "timeout_minutes" (Json.option? Json.count?) none
  let env ← r.withDefault 3 "env" Json.bindings? .empty
  let steps ← r.required 4 "steps" fun j => j.elems?.bind (·.mapM StepConfig.ofJson?)
  return { name, tags, timeout, env, steps }

def toJson (c : Config) : Json :=
  .obj [("name", .str c.name), ("trigger", .obj [("tags", .strs c.tags)]),
    ("timeout_minutes", .ofOption .nat c.timeout), ("env", c.env.toJson),
    ("steps", .arr (c.steps.map StepConfig.toJson))]

end Config

end ReleaseJob
