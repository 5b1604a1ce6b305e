import ReleaseJob.Cli.Args
import ReleaseJob.Cli.Format
import ReleaseJob.Config.Json
import ReleaseJob.Config.Load
import ReleaseJob.History.Table
import ReleaseJob.Host.Runner
import ReleaseJob.Job.Run

namespace ReleaseJob.Cli

structure Scene where
  machine : Host.Machine
  env : Env
  now : Instant
  /-- The id of the run, should one start. -/
  id : RunId

namespace Scene

def read (s : Scene) : String → Except OsError (List UInt8) := s.machine.read

/-- Colours are only used when they are forced. -/
def palette (s : Scene) : Palette := (s.env.get? "CLICOLOR_FORCE").getD "0" ≠ "0"

/-- The directory that holds the history: a relative one is passed over. -/
def dataPlace (s : Scene) : String :=
  match s.env.get? "XDG_DATA_HOME" with
  | some dir => if Host.Machine.isAbsolute dir then dir else home
  | none => home
where
  home : String :=
    let dir := (s.env.get? "HOME").getD ""
    (if dir.isEmpty then "/root" else dir) ++ "/.local/share"

def canKeep (s : Scene) : Bool :=
  match s.machine.canHold (s.dataPlace ++ "/tagrelease") with
  | .ok _ => true
  | .error _ => false

def workspace (s : Scene) : Except OsError String :=
  let root := (s.env.get? "TMPDIR").getD "/tmp"
  if root.isEmpty then .ok "job" else (s.machine.canHold root).map fun _ => root ++ "/job"

def runner (s : Scene) : Runner :=
  match s.workspace with
  | .ok dir => (s.machine.addDirectory dir).runner s.env
  | .error _ => s.machine.runner s.env

end Scene

structure Shown where
  /-- Each ends with a line feed of its own. -/
  lines : List String
  code : Nat

def Shown.text (s : Shown) : String := String.join (s.lines.map (· ++ "\n"))

def refused : Shown := ⟨[], 1⟩

def cancelledCode : Nat := 130

/-- A share in whole percent, a half to the even one. -/
def percent (share : Binary) : Nat :=
  let (n, d) := share.ratio
  match Binary.ofRatio? (100 * n) d with
  | some b => Binary.roundDiv b.ratio.1 b.ratio.2
  | none => 0

def showSign (p : Palette) (stream : Bool) (sign : JobSign) : Option String :=
  match sign with
  | .event (.stepOutput step output line) => if stream then some (formatLine p step output line) else none
  | .event e => formatEvent? p e
  | _ => none

def showLoaded (p : Palette) (j : Job) : String :=
  Mark.info.line <| "Loaded pipeline: " ++ Tone.bold.paint p j.name ++ " (" ++
    Tone.cyan.paint p j.tag.name ++ " -> " ++ Tone.dim.paint p j.tag.version ++ ")"

def showSaved (p : Palette) (id : RunId) : String :=
  "\n" ++ Mark.info.line ("Run saved to history (ID: " ++ Tone.dim.paint p id.short ++ ")")

def showEnding (p : Palette) (r : Job.JobRun) : String × Nat :=
  let name := Tone.bold.paint p r.job.name
  match r.ending with
  | .completed =>
    ("\n" ++ Mark.check.line (name ++ " published " ++ Tone.green.paint p r.job.tag.version), 0)
  | .cancelled => ("\n" ++ Mark.warn.line (name ++ " " ++ Tone.yellow.paint p "cancelled"), cancelledCode)
  | .failed _ =>
    let share := Tone.dim.paint p s!"{(r.job.state.progress?.map percent).getD 0}%"
    ("\n" ++ Mark.cross.line (name ++ " " ++ Tone.red.paint p "failed" ++ s!" ({share} of steps completed)"), 1)

/-- A run that cannot be kept ends all the same. -/
def release (s : Scene) (history : Option History.Table) (stream : Bool) (o : RunOptions) :
    Shown × Option History.Table :=
  let p := s.palette
  match Config.load s.read o.file with
  | .error _ => (refused, history)
  | .ok c =>
    match Job.forPush c ⟨o.reference, o.repository, o.commit⟩ s.id with
    | .error _ => (refused, history)
    | .ok none =>
      (⟨[Mark.info.line (Tone.cyan.paint p o.reference ++
        " does not match the release trigger, no job created")], 0⟩, history)
    | .ok (some job) =>
      match job.override c.secretNames o.env with
      | .error _ => (⟨[showLoaded p job], 1⟩, history)
      | .ok job =>
        let r := job.run {
          runner := s.runner, secrets := SecretStore.ofEnv c.secretNames s.env,
          workspace := s.workspace, start := s.now }
        let (last, code) := showEnding p r
        let shown := showLoaded p job :: "" :: r.signs.filterMap (showSign p stream)
        match o.keepNoHistory, history with
        | false, some table =>
          (⟨shown ++ [showSaved p r.job.state.id, last], code⟩,
            some (table.save (Summary.ofJob r.job s.now)))
        | _, history => (⟨shown ++ [last], code⟩, history)

def check (s : Scene) (reference : String) (file : Option String) (json : Bool) : Shown :=
  let p := s.palette
  match Config.load s.read file with
  | .error _ => refused
  | .ok c =>
    match c.trigger with
    | .error _ => refused
    | .ok t =>
      let tag := t.fire? ⟨reference, "", none⟩
      let tagJson (tag : ReleaseTag) : Json :=
        .obj [("name", .str tag.name), ("version", .str tag.version)]
      let shown := if json then
          (Json.obj [("reference", .str reference), ("tag", .ofOption tagJson tag),
            ("triggers", .bool tag.isSome)]).pretty 0
        else match tag with
          | some tag => Mark.check.line <| Tone.cyan.paint p reference ++
              " triggers a release of " ++ Tone.bold.paint p tag.version
          | none =>
            let globs := ", ".intercalate (t.patterns.map (·.glob))
            Mark.skip.line <| Tone.cyan.paint p reference ++
              " does not trigger a release (tags: " ++ Tone.dim.paint p globs ++ ")"
      ⟨[shown], 0⟩

def validate (s : Scene) (file : Option String) (json : Bool) : Shown :=
  let p := s.palette
  let opening := Mark.info.line "Validating pipeline..."
  match Config.load s.read file with
  | .error e =>
    ⟨[opening, Mark.cross.line "Validation failed:", "  " ++ Tone.red.paint p e.message], 1⟩
  | .ok c =>
    let cyan (text : String) := Tone.cyan.paint p text
    ⟨[opening, Mark.check.line "Pipeline configuration is valid!",
      "  Name: " ++ Tone.bold.paint p c.name,
      "  Tags: " ++ cyan (", ".intercalate c.tags),
      "  Steps: " ++ cyan (toString c.steps.length),
      "  Secrets: " ++ cyan (", ".intercalate c.secretNames),
      "  Timeout: " ++ cyan (toString c.timeoutMinutes) ++ "m"] ++
      if json then ["\n" ++ c.toJson.pretty 0] else [], 0⟩

def showRun (p : Palette) (r : Summary) (details : Bool) : List String :=
  let dim (text : String) := Tone.dim.paint p text
  [Mark.info.line "Run Details",
    "  ID: " ++ Tone.cyan.paint p r.id.text,
    "  Pipeline: " ++ Tone.bold.paint p r.pipeline,
    "  Tag: " ++ Tone.cyan.paint p r.tag ++ s!" ({r.version})",
    "  Status: " ++ formatStatus p r.status,
    s!"  Published: {r.published}"] ++
  (r.failedStep.map fun step => "  Failed step: " ++ Tone.red.paint p step).toList ++
  ["  Started: " ++ dim r.started.offsetText] ++
  (match r.ended with
    | none => []
    | some ended => ("  Completed: " ++ dim ended.offsetText) ::
        ((r.started.spanTo? ended).map fun span => "  Duration: " ++ dim span.clockText).toList) ++
  [s!"  Steps: {r.completedSteps}/{r.totalSteps}"] ++
  if details then
    ("\n  " ++ Tone.bold.paint p "Full details:") ::
      ((r.toJson.pretty 0).splitOn "\n").map ("    " ++ ·)
  else []

def history (s : Scene) (table : History.Table) (o : HistoryOptions) : Shown :=
  let p := s.palette
  match o.id with
  | some text =>
    match RunId.parse? text with
    | none => refused
    | some id =>
      match table.load? id with
      | some r => ⟨showRun p r o.details, 0⟩
      | none => ⟨[Mark.warn.line "Run not found"], 0⟩
  | none =>
    let runs := table.newest o.pipeline o.limit
    if o.json then
      ⟨[(Json.obj [("executions", .arr (runs.map fun r => r.toJson.sorted))]).pretty 0], 0⟩
    else if runs.isEmpty then ⟨[Mark.info.line "No runs found"], 0⟩
    else
      ⟨Mark.info.line s!"Run history (showing latest {o.limit}):" ::
        runs.map fun r => "  " ++ formatSummary p r, 0⟩

def version : String := "tagrelease 0.1.0"

def usage : String :=
  "Usage: tagrelease [-v] [-s] run|match|validate|history [OPTIONS]"

/-- Help and version are no faults of the command line. -/
def refuse (f : UsageFault) : Shown :=
  match f with
  | .helpAsked => ⟨[usage], 0⟩
  | .versionAsked => ⟨[version], 0⟩
  | _ => ⟨[], 2⟩

/-- Without a place to keep it, there is no history. -/
def carryOut (s : Scene) (kept : Option History.Table) (args : List String) :
    Shown × Option History.Table :=
  match Args.ofList args with
  | .error f => (refuse f, kept)
  | .ok a =>
    match a.task with
    | .run o => release s kept a.stream o
    | .check reference file json => (check s reference file json, kept)
    | .validate file json => (validate s file json, kept)
    | .history o =>
      match kept with
      | some table => (history s table o, kept)
      | none => (refused, none)

end ReleaseJob.Cli
