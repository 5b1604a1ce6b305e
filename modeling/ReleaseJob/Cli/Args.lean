import ReleaseJob.Cli.Option

namespace ReleaseJob.Cli

structure RunOptions where
  reference : String
  repository : String
  commit : Option String
  file : Option String
  env : List (String × String)
  keepNoHistory : Bool

structure HistoryOptions where
  pipeline : Option String
  limit : Nat
  details : Bool
  json : Bool
  id : Option String

inductive Task
  | run (o : RunOptions)
  | check (reference : String) (file : Option String) (json : Bool)
  | validate (file : Option String) (json : Bool)
  | history (o : HistoryOptions)

structure Args where
  verbose : Bool
  /-- Whether the output of the steps is shown as it comes. -/
  stream : Bool
  task : Task

/-- A name and a value with an equals sign between them; only the value may hold another one, or be
empty. -/
def setting? (text : String) : Option (String × String) :=
  let name := text.toList.takeWhile (· ≠ '=')
  match name, text.toList.dropWhile (· ≠ '=') with
  | [], _ | _, [] => none
  | _, _ :: value => some (String.ofList name, String.ofList value)

def settingFault (text : String) : String := s!"Invalid key=value pair: {text}"

/-- Decimal digits, with a plus sign or not, for a number of 64 bits. -/
def limit? (text : String) : Option Nat :=
  let digits := match text.toList with
    | '+' :: cs => cs
    | cs => cs
  if digits.isEmpty || !digits.all Char.isDigit then none
  else
    let n := digits.foldl (fun n c => 10 * n + (c.toNat - 48)) 0
    if n < Nat.pow 2 64 then some n else none

def defaultLimit : Nat := 10

def common : List OptionSpec := [
  { name := "verbose", letter := some 'v', kind := .flag },
  { name := "stream", letter := some 's', kind := .flag },
  { name := "help", letter := some 'h', kind := .help }]

def fileOption : OptionSpec := { name := "file", letter := some 'f', kind := .single }

def jsonOption : OptionSpec := { name := "json", letter := none, kind := .flag }

def refOption : OptionSpec := { name := "ref", letter := none, kind := .single }

inductive TaskName
  | run | check | validate | history
  deriving DecidableEq

namespace TaskName

def word : TaskName → String
  | run => "run"
  | check => "match"
  | validate => "validate"
  | history => "history"

def all : List TaskName := [run, check, validate, history]

def ofWord? (word : String) : Option TaskName := all.find? (·.word = word)

def options : TaskName → List OptionSpec
  | run => common ++ [refOption, fileOption,
    { name := "repository", letter := none, kind := .single },
    { name := "sha", letter := none, kind := .single },
    { name := "env", letter := none, kind := .many, accepts := fun v => (setting? v).isSome },
    { name := "no-history", letter := none, kind := .flag }]
  | check => common ++ [refOption, fileOption, jsonOption]
  | validate => common ++ [fileOption, jsonOption]
  | history => common ++ [jsonOption,
    { name := "pipeline", letter := some 'p', kind := .single },
    { name := "limit", letter := some 'l', kind := .single, accepts := fun v => (limit? v).isSome },
    { name := "details", letter := none, kind := .flag },
    { name := "execution-id", letter := none, kind := .single }]

def task (r : Reading) : TaskName → Except UsageFault Task
  | run => do return .run {
      reference := ← r.require "ref", repository := ← r.require "repository",
      commit := r.get? "sha", file := r.get? "file",
      env := (r.getAll "env").filterMap setting?, keepNoHistory := r.has "no-history" }
  | check => do return .check (← r.require "ref") (r.get? "file") (r.has "json")
  | validate => .ok (.validate (r.get? "file") (r.has "json"))
  | history => .ok (.history {
      pipeline := r.get? "pipeline", limit := ((r.get? "limit").bind limit?).getD defaultLimit,
      details := r.has "details", json := r.has "json", id := r.get? "execution-id" })

end TaskName

def isCommand (word : String) : Bool := word = "help" || (TaskName.ofWord? word).isSome

def helpFault : List String → UsageFault
  | [] => .helpAsked
  | [word] => if isCommand word then .helpAsked else .unknownCommand
  | _ => .unknownCommand

/-- The common options may stand before the task, among its own options, or in both places. -/
def Args.ofList (args : List String) : Except UsageFault Args := do
  let options := common ++ [{ name := "version", letter := some 'V', kind := .version }]
  match ← scan options {} args with
  | (before, .word word rest) =>
    if word = "help" then throw (helpFault rest)
    match TaskName.ofWord? word with
    | none => throw .unknownCommand
    | some name =>
      let r ← readOptions name.options rest
      let task ← name.task r
      return { verbose := before.has "verbose" || r.has "verbose",
               stream := before.has "stream" || r.has "stream", task }
  | (_, .dashes (word :: _)) =>
    throw (if isCommand word then .unknownArgument else .unknownCommand)
  | (before, .atEnd) | (before, .dashes []) =>
    throw (if before.given.isEmpty then .nothingGiven else .noCommand)

end ReleaseJob.Cli
