import ReleaseJob.Job
import ReleaseJob.Job.Record
import ReleaseJob.Ranked

namespace ReleaseJob

structure Summary where
  id : RunId
  pipeline : String
  tag : String
  version : String
  status : Status
  failedStep : Option String
  published : Bool
  started : Instant
  ended : Option Instant
  completedSteps : Nat
  totalSteps : Nat
  deriving DecidableEq

namespace Summary

/-- A job that never started counts as started now. -/
def ofJob (j : Job) (now : Instant) : Summary where
  id := j.state.id
  pipeline := j.name
  tag := j.tag.name
  version := j.tag.version
  status := j.state.status
  failedStep := j.failedStep?
  published := j.published
  started := j.state.started.getD now
  ended := j.state.ended
  completedSteps := j.state.counts.completed
  totalSteps := j.state.total

def toJson (s : Summary) : Json :=
  .obj [("execution_id", s.id.toJson), ("pipeline_name", .str s.pipeline), ("tag", .str s.tag),
    ("version", .str s.version), ("status", s.status.toJson),
    ("failed_step", .ofOption .str s.failedStep), ("published", .bool s.published),
    ("started_at", s.started.toJson), ("completed_at", .ofOption Instant.toJson s.ended),
    ("completed_steps", .nat s.completedSteps), ("total_steps", .nat s.totalSteps)]

def ofJson? (j : Json) : Option Summary := do
  let r ← j.record? 11
  let id ← r.required 0 "execution_id" RunId.ofJson?
  let pipeline ← r.required 1 "pipeline_name" Json.text?
  let tag ← r.required 2 "tag" Json.text?
  let version ← r.required 3 "version" Json.text?
  let status ← r.required 4 "status" Status.ofJson?
  let failedStep ← r.nullable 5 "failed_step" Json.text?
  let published ← r.required 6 "published" Json.flag?
  let started ← r.required 7 "started_at" Instant.ofJson?
  let ended ← r.nullable 8 "completed_at" Instant.ofJson?
  let completedSteps ← r.required 9 "completed_steps" Json.count?
  let totalSteps ← r.required 10 "total_steps" Json.count?
  return { id, pipeline, tag, version, status, failedStep, published, started, ended,
           completedSteps, totalSteps }

/-- Runs that started together keep their order. -/
def newestFirst (l : List Summary) : List Summary :=
  Ranked.ofList (fun s t => t.started.before s.started) l

end Summary

end ReleaseJob
