import ReleaseJob.Command
import ReleaseJob.Job.State

namespace ReleaseJob

inductive JobEvent
  | started (id : RunId) (pipeline tag : String)
  | stepStarted (step name : String) (position total : Nat)
  | stepOutput (step : String) (stream : OutputStream) (line : String)
  | stepCompleted (step : String)
  | stepFailed (step error : String)
  | stepSkipped (step reason : String)
  | tornDown (id : RunId)
  | ended (id : RunId) (status : Status)

end ReleaseJob
