import ReleaseJob.Host.Shell.Builtin
import ReleaseJob.Host.Shell.Script
import ReleaseJob.Host.Tool

/-!
Running scripts in the shell of the machine; no result rests on it. A run takes fuel, because a loop
of a script may have no end: every step down takes one away, and a run without fuel ends with an
error.
-/

namespace ReleaseJob.Host.Shell

/-- The text that stands for a command in braces or quotes: all of its output but the last line
feeds. -/
def capture (output : Output) : String :=
  let bytes := ((written .stdout output).reverse.dropWhile (· = 10)).reverse
  match Text.decodeUtf8 bytes with
  | .ok text => text
  | .error _ => ""

inductive Route
  | stream (stream : OutputStream)
  | file (path : String)
  | nowhere

structure Routes where
  out : Route := .stream .stdout
  err : Route := .stream .stderr

def Routes.redirect (r : Routes) (descriptor : Nat) (operator target : String) : Routes :=
  let route : Route :=
    if operator = ">&" then
      if target = "1" then r.out else if target = "2" then r.err else .nowhere
    else if target = "/dev/stdout" then r.out
    else if target = "/dev/stderr" then r.err
    else .file target
  if descriptor = 1 then { r with out := route }
  else if descriptor = 2 then { r with err := route }
  else r

def Routes.of (r : Routes) : OutputStream → Route
  | .stdout => r.out
  | .stderr => r.err

def Routes.seen (r : Routes) (output : Output) : Output :=
  output.filterMap fun (stream, bytes) =>
    match r.of stream with
    | .stream other => some (other, bytes)
    | .file _ | .nowhere => none

def Routes.kept (r : Routes) (output : Output) (m : Machine) : Machine :=
  output.foldl (fun m (stream, bytes) =>
    match r.of stream with
    | .file path => ((m.write path (((m.read path).toOption.getD []) ++ bytes)).toOption).getD m
    | .stream _ | .nowhere => m) m

def Routes.apply (r : Routes) (o : Outcome) : Outcome :=
  { o with
    shell := { o.shell with machine := r.kept o.output o.shell.machine }
    output := r.seen o.output }

def operandWord : (fuel : Nat) → Rest → Word
  | 0, _ => []
  | fuel + 1, cs =>
    match word? false (cs.length + 1) cs with
    | some (w, []) => w
    | some (w, c :: cs) => w ++ .text [c] true :: operandWord fuel cs
    | none => [.text cs true]

structure Expansion where
  segments : List Segment
  shell : Shell
  output : Output := []

def Expansion.text (e : Expansion) : String := String.join (e.segments.map Segment.text)

/-- A failing command ends a strict shell. -/
def Outcome.judged (o : Outcome) : Outcome :=
  if o.flow = .next && o.shell.strict && o.shell.status ≠ 0 then { o with flow := .exit } else o

/-- A command that a shell runs for what it answers: that it fails is no reason to end the shell. -/
def Outcome.asked (o : Outcome) (s : Shell) : Outcome :=
  { o with shell := { o.shell with strict := s.strict } }

/-- What a subshell does to the shell that started it: it shares the files and the input, and what it
leaves in the background goes on. -/
def Outcome.apart (o : Outcome) (s : Shell) : Outcome :=
  { o with
    shell := { s with
      machine := { o.shell.machine with workdir := s.machine.workdir }
      status := match o.flow with
        | .killed n => 128 + n
        | _ => o.shell.status
      input := o.shell.input
      background := s.background ++ o.shell.background }
    flow := .next }

def isCommand : Piece → Bool
  | .command .. => true
  | _ => false

mutual

def expandPiece : (fuel : Nat) → Shell → Piece → Expansion
  | 0, s, _ => ⟨[], s, []⟩
  | fuel + 1, s, piece =>
    let as (quoted : Bool) (text : String) : List Segment :=
      [if quoted then .solid text else .loose text]
    match piece with
    | .text cs _ => ⟨[.solid (String.ofList cs)], s, []⟩
    | .command script quoted =>
      match Script.parse? script with
      | none => ⟨[], { s with status := 2, halted := true }, s.complaint (Script.fault script)⟩
      | some script =>
        let o := run fuel script { s with background := [] }
        let output := o.output ++ o.shell.background
        ⟨as quoted (capture output),
          { (o.apart s).shell with background := s.background }, output.filter (·.1 = .stderr)⟩
    | .sum expression quoted =>
      let number (name : String) : Int := (Printf.integer ((s.parameter? name).getD "")).1
      match Sum.value? number expression with
      | some n => ⟨as quoted (toString n), s, []⟩
      | none =>
        ⟨[], { s with status := 2, halted := true }, s.complaint "arithmetic expression: bad"⟩
    | .parameter name use quoted =>
      let value := s.parameter? name
      let operand (word : List Char) : Expansion :=
        let e := expandWord fuel s (operandWord (word.length + 1) word)
        { e with segments := as quoted e.text }
      let missing (colon : Bool) : Bool := value.elim true fun v => colon && v.isEmpty
      match use with
      | .length => ⟨as quoted (toString (value.getD "").length), s, []⟩
      | .value =>
        if name = "@" && quoted then ⟨[.many s.args], s, []⟩
        else ⟨as quoted (value.getD ""), s, []⟩
      | .orElse colon assign word =>
        if missing colon then
          let e := operand word
          if assign then { e with shell := e.shell.set name e.text } else e
        else ⟨as quoted (value.getD ""), s, []⟩
      | .ifSet colon word => if missing colon then ⟨as quoted "", s, []⟩ else operand word
      | .orFail colon word =>
        if missing colon then
          let said := (operand word).text
          let text := if said.isEmpty then
              (if colon then "parameter not set or null" else "parameter not set")
            else said
          ⟨[], { s with status := 2, halted := true }, s.complaint s!"{name}: {text}"⟩
        else ⟨as quoted (value.getD ""), s, []⟩

def expandWord : (fuel : Nat) → Shell → Word → Expansion
  | 0, s, _ => ⟨[], s, []⟩
  | _ + 1, s, [] => ⟨[], s, []⟩
  | fuel + 1, s, piece :: w =>
    let first := expandPiece fuel s piece
    let rest := expandWord fuel first.shell w
    ⟨first.segments ++ rest.segments, rest.shell, first.output ++ rest.output⟩

def expandWords : (fuel : Nat) → Shell → List Word → List String × Shell × Output
  | 0, s, _ => ([], s, [])
  | _ + 1, s, [] => ([], s, [])
  | fuel + 1, s, w :: ws =>
    let first := expandWord fuel s w
    let (rest, s, output) := expandWords fuel first.shell ws
    (fields first.segments ++ rest, s, first.output ++ output)

/-- Sets variables one after the other; each sees those before it. -/
def applySettings :
    (fuel : Nat) → Shell → List (String × Word) → List (String × String) × Shell × Output
  | 0, s, _ => ([], s, [])
  | _ + 1, s, [] => ([], s, [])
  | fuel + 1, s, (name, w) :: rest =>
    let e := expandWord fuel s w
    let (more, s, output) := applySettings fuel (e.shell.set name e.text) rest
    ((name, e.text) :: more, s, e.output ++ output)

def redirect : (fuel : Nat) → Shell → List Redirection → Routes → Except Output (Routes × Shell)
  | 0, s, _, routes => .ok (routes, s)
  | _ + 1, s, [], routes => .ok (routes, s)
  | fuel + 1, s, r :: rest, routes =>
    let target := (expandWord fuel s r.target).text
    if r.operator = "<" then
      match s.machine.read target with
      | .ok bytes => redirect fuel { s with input := bytes } rest routes
      | .error e => .error (s.complaint (s!"cannot open {target}: " ++ refusal e "No such file"))
    else
      let routes := routes.redirect r.descriptor r.operator target
      match routes.of (if r.descriptor = 2 then .stderr else .stdout) with
      | .file path =>
        let before := if r.operator = ">>" then (s.machine.read path).toOption.getD [] else []
        match s.machine.write path before with
        | .ok machine => redirect fuel { s with machine } rest routes
        | .error e =>
          .error (s.complaint (s!"cannot create {path}: " ++ refusal e "Directory nonexistent"))
      | .stream _ | .nowhere => redirect fuel s rest routes
where
  refusal (e : OsError) (missing : String) : String :=
    if e = .notFound || e = .notDirectory then missing else e.cause

def runWords : (fuel : Nat) → Shell → List String → Outcome
  | 0, s, _ => s.ended 2
  | _ + 1, s, [] => s.ended s.status
  | fuel + 1, s, command :: args =>
    match s.builtin? args command with
    | some o => o
    | none =>
      let started (t : Trace) (machine : Machine) : Outcome :=
        let s := { s with machine := { machine with workdir := s.machine.workdir } }
        match t.ending with
        | .code n => s.ended n t.output
        | .signal n => s.ended (128 + n) (t.output ++ [(.stderr, utf8 (signalText n))])
      match command with
      | "eval" =>
        let text := (" ".intercalate args).toList
        match Script.parse? text with
        | some script => run fuel script s
        | none => { s.ended 2 (s.complaint (Script.fault text)) with flow := .exit }
      | "exec" =>
        let o := runWords fuel s args
        if args.isEmpty || o.flow ≠ .next then o else { o with flow := .exit }
      | "printf" => own s (Printf.printf .inner) args
      | "test" => own s Tool.test args
      | "[" => own s Tool.bracket args
      | "pwd" => own s Tool.pwd args
      | "true" => s.ended 0
      | "false" => s.ended 1
      | command =>
        match s.machine.command command (s.env.get? "PATH") with
        | .ok program =>
          let (t, machine) := launch fuel s.machine program (command :: args) s.env s.input
          started t machine
        | .error .denied | .error .isDirectory =>
          s.ended 126 (s.complaint s!"{command}: Permission denied")
        | .error _ => s.ended 127 (s.complaint s!"{command}: not found")

where
  /-- A tool that the shell has in itself speaks in the name of the shell. -/
  own (s : Shell) (tool : Tool) (args : List String) : Outcome :=
    let t := tool ⟨args, s.env, s.input, s.machine⟩
    let lead := utf8 s!"{s.name}: 1: "
    s.ended (t.ending.code?.getD 0) (t.output.map fun (stream, bytes) =>
      (stream, if stream = .stderr && !bytes.isEmpty then lead ++ bytes else bytes))

def run : (fuel : Nat) → Script → Shell → Outcome
  | 0, _, s => s.ended 2
  | fuel + 1, script, s =>
    let andThen (o : Outcome) (next : Shell → Outcome) : Outcome :=
      match o.flow with
      | .next => (next o.shell).after o.output
      | _ => o
    let ask (script : Script) : Outcome := (run fuel script { s with strict := false }).asked s
    match script with
    | .skip => { shell := s }
    | .seq a b => andThen (run fuel a s) fun s => run fuel b s
    | .both a b => andThen (ask a) fun s =>
        if s.status = 0 then run fuel b s else { shell := s }
    | .either a b => andThen (ask a) fun s =>
        if s.status = 0 then { shell := s } else run fuel b s
    | .negation a => andThen (ask a) fun s => s.ended (if s.status = 0 then 1 else 0)
    | .subshell a => ((run fuel a { s with background := [] }).apart s).judged
    | .background a =>
      let o := run fuel a { s with background := [], input := [] }
      let b := (o.apart s).shell
      { shell := { b with
          status := 0, input := s.input, backgroundStatus := b.status
          background := s.background ++ o.output ++ o.shell.background } }
    | .pipe a b =>
      let left := run fuel a { s with background := [] }
      let output := left.output ++ left.shell.background
      let s := { (left.apart s).shell with background := s.background }
      let right := run fuel b { s with background := [], input := written .stdout output }
      let o := right.apart s
      (Outcome.after (output.filter (·.1 = .stderr))
        { o with shell := { o.shell with input := s.input } }).judged
    | .choice test yes no => andThen (ask test) fun s =>
        if s.status = 0 then run fuel yes s
        else match no with
          | .skip => s.ended 0
          | no => run fuel no s
    | .loop test outcome body => andThen (ask test) fun t =>
        if (t.status = 0) = outcome then
          andThen (run fuel body t) fun s => run fuel (.loop test outcome body) s
        else t.ended 0
    | .each name words body =>
      let (values, s, output) := expandWords fuel s words
      if s.halted then { shell := s, output, flow := .exit }
      else (runEach fuel name values body s).after output
    | .redirected a redirections =>
      match redirect fuel s redirections {} with
      | .error output => (s.ended 2 output).judged
      | .ok (routes, inner) =>
        let o := routes.apply (run fuel a inner)
        if redirections.any (·.operator = "<") then
          { o with shell := { o.shell with input := s.input } }
        else o
    | .simple settings words redirections =>
      let (argv, expanded, output) := expandWords fuel s words
      let (values, after, more) := applySettings fuel expanded settings
      if after.halted then { shell := after, output := output ++ more, flow := .exit }
      else
        match redirect fuel after redirections {} with
        | .error fault => (s.ended 2 (output ++ more ++ fault)).judged
        | .ok (routes, inner) =>
          let o :=
            if argv.isEmpty then
              let asked := (words ++ settings.map Prod.snd).any (·.any isCommand)
              { after with machine := inner.machine }.ended (if asked then after.status else 0)
            else
              let s := { expanded with
                machine := inner.machine, input := inner.input
                env := expanded.env.insertAll values }
              let o := routes.apply (runWords fuel s argv)
              let env := if values.isEmpty then o.shell.env else expanded.env
              let led := redirections.any (·.operator = "<")
              { o with shell := { o.shell with
                  env, input := if led then expanded.input else o.shell.input } }
          (o.after (output ++ more)).judged

def runEach : (fuel : Nat) → String → List String → Script → Shell → Outcome
  | 0, _, _, _, s => s.ended 2
  | _ + 1, _, [], _, s => s.ended s.status
  | fuel + 1, name, value :: rest, body, s =>
    let o := run fuel body (s.set name value)
    match o.flow with
    | .next => (runEach fuel name rest body o.shell).after o.output
    | _ => o

/-- Starts a program, under the name and with the arguments in `argv`. What it leaves in the
background is waited for, because it holds on to the output. -/
def launch : (fuel : Nat) → Machine → String → List String → Env → Bytes → Trace × Machine
  | 0, m, _, _, _, _ => (.silent 2, m)
  | fuel + 1, m, program, argv, env, input =>
    let name := argv.headD program
    match program, argv.drop 1 with
    | "sh", "-c" :: script :: args =>
      let s : Shell := { machine := m, name := args.headD name, args := args.drop 1, env, input }
      match Script.parse? script.toList with
      | none => (⟨s.complaint (Script.fault script.toList), .code 2⟩, m)
      | some script =>
        let o := run fuel script s
        let ending := match o.flow with
          | .killed n => .signal n
          | _ => .code o.shell.status
        (⟨o.output ++ o.shell.background, ending⟩, o.shell.machine)
    | "sh", [] => (.silent 0, m)
    | "sh", file :: _ => (.complains s!"{name}: 0: cannot open {file}: No such file\n" 2, m)
    | "env", args =>
      let (env, args) := match args with
        | "-i" :: args => (Bindings.empty, args)
        | "-u" :: name :: args => (env.eraseAll [name], args)
        | args => (env, args)
      let settings := args.takeWhile fun a => a.toList.contains '='
      let env := settings.foldl (fun env text =>
        (({ machine := m, name, env } : Shell).exportOne text).env) env
      match args.drop settings.length with
      | [] => (Tool.printenv ⟨[], env, input, m⟩, m)
      | command :: args =>
        match m.command command (env.get? "PATH") with
        | .ok program => launch fuel m program (command :: args) env input
        | .error _ => (.complains s!"env: '{command}': No such file or directory\n" 127, m)
    | program, args =>
      match Tool.all.lookup program with
      | some tool => tool ⟨args, env, input, m⟩
      | none => (.silent 0, m)

end

end ReleaseJob.Host.Shell
