import ReleaseJob.Cli.Style
import ReleaseJob.Job.Event
import ReleaseJob.Summary

namespace ReleaseJob.Cli

def statusTone : Status → Tone
  | .pending => .dim
  | .running => .yellow
  | .completed => .green
  | .failed => .red
  | .cancelled => .yellow

def formatStatus (p : Palette) (s : Status) : String :=
  (statusTone s).paint p (s.name.map Char.toUpper)

def statusMark : Status → Mark
  | .completed => .check
  | .failed => .cross
  | .running => .spinner
  | _ => .info

def outcomeText (s : Summary) : String :=
  if s.published then s!"published {s.version}"
  else match s.failedStep with
    | some step => s!"failed at {step}"
    | none => "not published"

def formatSummary (p : Palette) (s : Summary) : String :=
  (statusMark s.status).line <|
    Tone.dim.paint p s.id.short ++ " - " ++ Tone.bold.paint p s.pipeline ++ " " ++
    Tone.cyan.paint p s.tag ++ " - " ++ formatStatus p s.status ++
    s!" ({s.completedSteps}/{s.totalSteps}) - " ++ Tone.dim.paint p (outcomeText s)

/-- Output lines are no news of their own. -/
def formatEvent? (p : Palette) : JobEvent → Option String
  | .started id pipeline tag => some <| Mark.rocket.line <|
    "Starting " ++ Tone.bold.paint p pipeline ++ " for " ++ Tone.cyan.paint p tag ++
      " (" ++ Tone.dim.paint p id.short ++ ")"
  | .stepStarted _ name position total => some <| Mark.spinner.line <|
    s!"[{position}/{total}] " ++ Tone.cyan.paint p name
  | .stepOutput .. => none
  | .stepCompleted step => some <| Mark.check.line (Tone.green.paint p step)
  | .stepFailed step error => some <| Mark.cross.line <|
    Tone.red.paint p step ++ ": " ++ Tone.dim.paint p error
  | .stepSkipped step reason => some <| Mark.skip.line <|
    Tone.dim.paint p step ++ s!" ({reason})"
  | .tornDown _ => some <| Mark.info.line "Workspace removed"
  | .ended id status => some <| Mark.info.line <|
    "Pipeline (" ++ Tone.dim.paint p id.short ++ ") " ++ formatStatus p status

def formatLine (p : Palette) (step : String) (stream : OutputStream) (line : String) : String :=
  let shown := match stream with
    | .stdout => line
    | .stderr => Tone.yellow.paint p line
  "  " ++ Tone.dim.paint p (step ++ "|") ++ " " ++ shown

end ReleaseJob.Cli
