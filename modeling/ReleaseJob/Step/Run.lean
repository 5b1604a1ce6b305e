import ReleaseJob.Command
import ReleaseJob.Log
import ReleaseJob.Step

namespace ReleaseJob

inductive StepResult
  | success (output : String)
  | failed (error output : String)

inductive StepSign
  | log (line : LogLine)
  | invoked (i : Invocation)
  | line (stream : OutputStream) (text : String)

/-- `past` holds every command the runner was asked to run, and `elapsed` the time in nanoseconds;
there is no result if the step was broken off at a limit. -/
structure StepRun where
  signs : List StepSign
  past : List Invocation
  elapsed : Nat
  result : Option StepResult

namespace StepRun

def after (signs : List StepSign) (r : StepRun) : StepRun := { r with signs := signs ++ r.signs }

def failure (signs : List StepSign) (past : List Invocation) (elapsed : Nat) (error output : String) :
    StepRun :=
  ⟨signs, past, elapsed, some (.failed error output)⟩

end StepRun

def exitFault (commandLine : String) : Option Int → String
  | some code => s!"`{commandLine}` exited with code {code}"
  | none => s!"`{commandLine}` was terminated by a signal"

namespace Step

/-- The commands run in order, and the first that fails ends the step; `transcript` holds the
outputs of those that already ran. What comes back is masked. The lines are not, because whoever
shows them masks them. -/
def runCommands (runner : Runner) (limit : Option Span) (id : String) (c : StepContext)
    (transcript : List String) (past : List Invocation) (elapsed : Nat) :
    List (List String) → StepRun
  | [] => ⟨[.log ⟨.info, s!"Step {id} completed successfully"⟩], past, elapsed,
      some (.success (c.redact ("\n".intercalate transcript)))⟩
  | argv :: rest =>
    match Invocation.ofArgv? argv c.workdir with
    | none =>
      .failure [] past elapsed RunnerError.emptyCommand.message
        (c.redact ("\n".intercalate transcript))
    | some bare =>
      let i := { bare with env := c.processEnv, envRemove := c.envRemove }
      let commandLine := c.redact i.commandLine
      let past := past ++ [i]
      let reply := runner past
      let (lines, time?) := playActs limit elapsed reply.acts
      let signs := .log ⟨.debug, s!"Step {id} running `{commandLine}`"⟩ :: .invoked i ::
        lines.map fun l => .line l.1 l.2
      match time? with
      | none => ⟨signs, past, elapsed, none⟩
      | some elapsed =>
        let fault (error : String) (transcript : List String) : StepRun :=
          .failure (signs ++ [.log ⟨.error, s!"Step {id} failed: {error}"⟩]) past elapsed error
            (c.redact ("\n".intercalate transcript))
        match reply.outcome with
        | .error e => fault (c.redact e.message) transcript
        | .ok o =>
          let transcript := transcript ++ [o.output]
          if o.success then
            .after signs (runCommands runner limit id c transcript past elapsed rest)
          else fault (exitFault commandLine o.exit) transcript

/-- A step whose secrets are not all at hand runs no command. -/
def run (runner : Runner) (limit : Option Span) (s : Step) (c : StepContext)
    (past : List Invocation) (elapsed : Nat) : StepRun :=
  let opening : StepSign := .log ⟨.info, s!"Executing step: {s.id}"⟩
  if c.missing.isEmpty then
    .after [opening] (runCommands runner limit s.id c [] past elapsed (s.commands c))
  else
    let error := "Secret(s) not available: " ++ ", ".intercalate c.missing
    .failure [opening, .log ⟨.error, s!"Step {s.id}: {error}"⟩] past elapsed error ""

end Step

end ReleaseJob
