import ReleaseJob.Host.Shell.Sum
import ReleaseJob.Host.Shell.Word
import ReleaseJob.Host.Trace

/-!
The shell of the machine, which stands for the one of the system; no result rests on it. This is its
state, what running a command makes of it, and the values of parameters.
-/

namespace ReleaseJob.Host

structure Shell where
  machine : Machine
  name : String
  args : List String := []
  /-- The variables that programs inherit. -/
  env : Env
  locals : Env := .empty
  status : Nat := 0
  /-- What is left of the input. -/
  input : Bytes := []
  /-- Whether a failing command ends the shell. -/
  strict : Bool := false
  /-- Whether an expansion has failed, which ends the shell too. -/
  halted : Bool := false
  /-- What commands in the background have written. It is seen when they are waited for, or when the
  shell has ended. -/
  background : Output := []
  /-- The exit code of the last command in the background. -/
  backgroundStatus : Nat := 0

namespace Shell

inductive Flow
  | next | exit
  | killed (signal : Nat)
  deriving DecidableEq

structure Outcome where
  shell : Shell
  output : Output := []
  flow : Flow := .next

def Outcome.after (output : Output) (o : Outcome) : Outcome := { o with output := output ++ o.output }

def ended (s : Shell) (status : Nat) (output : Output := []) : Outcome :=
  { shell := { s with status }, output }

def processId : String := "4242"

def backgroundId : String := "4243"

def get? (s : Shell) (name : String) : Option String :=
  (s.locals.get? name).orElse fun _ => s.env.get? name

def set (s : Shell) (name value : String) : Shell :=
  if s.env.contains name then { s with env := s.env.insert name value }
  else { s with locals := s.locals.insert name value }

def parameter? (s : Shell) (name : String) : Option String :=
  match name with
  | "#" => some (toString s.args.length)
  | "?" => some (toString s.status)
  | "$" => some processId
  | "!" => some backgroundId
  | "-" => none
  | "@" | "*" => some (" ".intercalate s.args)
  | "0" => some s.name
  | name =>
    match name.toNat? with
    | some n => s.args[n - 1]?
    | none => s.get? name

def complaint (s : Shell) (text : String) : Output := [(.stderr, utf8 s!"{s.name}: 1: {text}\n")]

/-- A part of an expanded word. Only loose parts are split at blanks. -/
inductive Segment
  | solid (s : String)
  | loose (s : String)
  | many (l : List String)

def Segment.text : Segment → String
  | solid s | loose s => s
  | many l => " ".intercalate l

/-- The fields of an expanded word; `field` is the one that is being made, in reverse. -/
def fieldsFrom (field : Option (List Char)) : List Segment → List String
  | [] => (field.map fun cs => String.ofList cs.reverse).toList
  | .solid s :: rest => fieldsFrom (some (s.toList.reverse ++ field.getD [])) rest
  | .loose s :: rest =>
    let (done, field) := s.toList.foldl (fun ((done, field) : List String × Option (List Char)) c =>
      if Sum.blank c then (done ++ (field.map fun cs => String.ofList cs.reverse).toList, none)
      else (done, some (c :: field.getD []))) ([], field)
    done ++ fieldsFrom field rest
  | .many [] :: rest => fieldsFrom field rest
  | .many (a :: l) :: rest =>
    match l.reverse with
    | [] => fieldsFrom (some (a.toList.reverse ++ field.getD [])) rest
    | last :: middle =>
      String.ofList ((field.getD []).reverse ++ a.toList) :: middle.reverse ++
        fieldsFrom (some last.toList.reverse) rest

def fields (l : List Segment) : List String := fieldsFrom none l

end Shell

end ReleaseJob.Host
