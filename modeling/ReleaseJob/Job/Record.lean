import ReleaseJob.Job.State
import ReleaseJob.Json.Record
import ReleaseJob.Time.Timestamp

namespace ReleaseJob

def Instant.toJson (i : Instant) : Json := .str i.zuluText

def Instant.ofJson? (j : Json) : Option Instant := j.text?.bind Timestamp.parse?

def RunId.toJson (r : RunId) : Json := .str r.text

def RunId.ofJson? (j : Json) : Option RunId := j.text?.bind RunId.parse?

/-- A state is written under its name. A bare name stands for one that says nothing more. -/
def Json.bareName? : Json → Option String
  | .str name => some name
  | .obj [(name, .null)] => some name
  | _ => none

def Status.toJson (s : Status) : Json := .str s.name

def Status.ofJson? (j : Json) : Option Status := j.bareName?.bind ofName?

namespace StepState

def toJson : StepState → Json
  | pending => .str "Pending"
  | running started => .obj [("Running", .obj [("started_at", started.toJson)])]
  | completed output started ended => .obj [("Completed", .obj [("output", .str output),
      ("started_at", started.toJson), ("completed_at", ended.toJson)])]
  | failed error started ended => .obj [("Failed", .obj [("error", .str error),
      ("started_at", started.toJson), ("failed_at", ended.toJson)])]
  | skipped reason => .obj [("Skipped", .obj [("reason", .str reason)])]

def ofJson? (j : Json) : Option StepState :=
  match j with
  | .obj [(name, .obj fields)] =>
    let text (key : String) := (Json.obj fields).field? key |>.bind Json.text?
    let time (key : String) := (Json.obj fields).field? key |>.bind Instant.ofJson?
    match name with
    | "Running" => do return running (← time "started_at")
    | "Completed" => do
      return completed (← text "output") (← time "started_at") (← time "completed_at")
    | "Failed" => do return failed (← text "error") (← time "started_at") (← time "failed_at")
    | "Skipped" => do return skipped (← text "reason")
    | _ => none
  | j => if j.bareName? = some "Pending" then some pending else none

end StepState

namespace JobState

def toJson (s : JobState) : Json :=
  .obj [("execution_id", s.id.toJson), ("status", s.status.toJson),
    ("started_at", .ofOption Instant.toJson s.started),
    ("completed_at", .ofOption Instant.toJson s.ended), ("total_steps", .nat s.total),
    ("completed_steps", .nat s.counts.completed), ("failed_steps", .nat s.counts.failed),
    ("skipped_steps", .nat s.counts.skipped)]

def ofJson? (j : Json) : Option JobState := do
  let r ← j.record? 8
  let id ← r.required 0 "execution_id" RunId.ofJson?
  let status ← r.required 1 "status" Status.ofJson?
  let started ← r.nullable 2 "started_at" Instant.ofJson?
  let ended ← r.nullable 3 "completed_at" Instant.ofJson?
  let total ← r.required 4 "total_steps" Json.count?
  let completed ← r.required 5 "completed_steps" Json.count?
  let failed ← r.required 6 "failed_steps" Json.count?
  let skipped ← r.required 7 "skipped_steps" Json.count?
  return { id, status, started, ended, total, counts := ⟨completed, failed, skipped⟩ }

end JobState

end ReleaseJob
