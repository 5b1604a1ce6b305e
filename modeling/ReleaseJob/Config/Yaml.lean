import ReleaseJob.Config
import ReleaseJob.Yaml.Decode

namespace ReleaseJob

open Yaml

structure StepDraft where
  kind : Option StepKind := none
  id : Option String := none
  name : Option String := none
  run : Option String := none
  channel : Option String := none
  setOverride : Bool := false
  env : Env := .empty
  secrets : List String := []

namespace StepDraft

def put (d : Document) (field : String) : Option (Reader.Field StepDraft) :=
  match field with
  | "kind" => some fun p n s => do
    return { s with kind := some (← Reader.variant StepKind.ofName? (StepKind.sequence.map (·.name)) d p n) }
  | "id" => some fun p n s => return { s with id := ← Reader.optional Reader.text d p n }
  | "name" => some fun p n s => return { s with name := ← Reader.optional Reader.text d p n }
  | "run" => some fun p n s => return { s with run := ← Reader.optional Reader.text d p n }
  | "channel" => some fun p n s => return { s with channel := ← Reader.optional Reader.text d p n }
  | "override" => some fun p n s => return { s with setOverride := ← Reader.flag d p n }
  | "env" => some fun p n s => return { s with env := ← Reader.bindings d p n }
  | "secrets" => some fun p n s => return { s with secrets := ← Reader.list Reader.text d p n }
  | _ => none

def finish (s : StepDraft) : Reading StepConfig := do
  let kind ← Reader.present "kind" s.kind
  return { kind, id := s.id, name := s.name, run := s.run, channel := s.channel,
           setOverride := s.setOverride, env := s.env, secrets := s.secrets }

end StepDraft

structure ConfigDraft where
  name : Option String := none
  tags : List String := defaultTags
  timeout : Option Nat := none
  env : Env := .empty
  steps : Option (List StepConfig) := none

namespace ConfigDraft

def tags? : Reader (List String) :=
  Reader.record "TriggerConfig" (none : Option (List String))
    (fun d field =>
      if field = "tags" then some fun p n _ => do return some (← Reader.list Reader.text d p n)
      else none)
    (Reader.present "tags")

def put (d : Document) (field : String) : Option (Reader.Field ConfigDraft) :=
  match field with
  | "name" => some fun p n c => return { c with name := some (← Reader.text d p n) }
  | "trigger" => some fun p n c => return { c with tags := ← tags? d p n }
  | "timeout_minutes" => some fun p n c =>
    return { c with timeout := ← Reader.optional Reader.count d p n }
  | "env" => some fun p n c => return { c with env := ← Reader.bindings d p n }
  | "steps" => some fun p n c => do
    let step := Reader.record "StepConfig" ({} : StepDraft) StepDraft.put StepDraft.finish
    return { c with steps := some (← Reader.list step d p n) }
  | _ => none

def finish (c : ConfigDraft) : Reading Config := do
  let name ← Reader.present "name" c.name
  let steps ← Reader.present "steps" c.steps
  return { name, tags := c.tags, timeout := c.timeout, env := c.env, steps }

end ConfigDraft

/-- The configuration that a YAML text holds; it need not be valid. -/
def Config.ofYaml (text : String) : Except Fault Config :=
  (Reader.record "PipelineConfig" ({} : ConfigDraft) ConfigDraft.put ConfigDraft.finish).run text

end ReleaseJob
