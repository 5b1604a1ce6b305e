import ReleaseJob.Host.Shell.State
import ReleaseJob.Host.Tool.Escape
import ReleaseJob.Text.Utf8

/-!
Commands that the shell of the machine carries out itself, because they change it. No result rests
on them.
-/

namespace ReleaseJob.Host.Shell

def signalNames : List (String × Nat) := [
  ("HUP", 1), ("INT", 2), ("QUIT", 3), ("ABRT", 6), ("KILL", 9), ("USR1", 10), ("SEGV", 11),
  ("USR2", 12), ("PIPE", 13), ("ALRM", 14), ("TERM", 15), ("CHLD", 17), ("CONT", 18), ("URG", 23),
  ("WINCH", 28)]

def signalNumber? (name : String) : Option Nat :=
  (signalNames.lookup name).orElse fun _ =>
    (signalNames.lookup (String.ofList (name.toList.drop 3))).orElse fun _ => name.toNat?

def signalText (number : Nat) : String :=
  match number with
  | 1 => "Hangup\n"
  | 2 | 13 => ""
  | 3 => "Quit\n"
  | 6 => "Aborted\n"
  | 9 => "Killed\n"
  | 10 => "User defined signal 1\n"
  | 11 => "Segmentation fault\n"
  | 12 => "User defined signal 2\n"
  | 14 => "Alarm clock\n"
  | 15 => "Terminated\n"
  | n => s!"Signal {n}\n"

def signal (s : Shell) (name : String) : Outcome :=
  match signalNumber? name with
  | none => s.ended 1 (s.complaint s!"kill: invalid signal number or name: {name}")
  | some n => if n ∈ [0, 17, 18, 23, 28] then s.ended 0 else { shell := s, flow := .killed n }

def kill (s : Shell) (args : List String) : Outcome :=
  let strike (name process : String) : Outcome :=
    if process = processId || process = "0" then s.signal name
    else s.ended 1 (s.complaint "kill: No such process")
  match args with
  | ["-s", name, process] => strike name process
  | [option, process] => strike (String.ofList (option.toList.drop 1)) process
  | [process] => strike "TERM" process
  | _ => s.ended 2 (s.complaint "kill: bad arguments")

def exit (s : Shell) (args : List String) : Outcome :=
  match args with
  | [] => { shell := s, flow := .exit }
  | code :: _ =>
    match code.toNat? with
    | some n => { shell := { s with status := n % 256 }, flow := .exit }
    | none =>
      { shell := { s with status := 2 }, flow := .exit
        output := s.complaint s!"exit: Illegal number: {code}" }

/-- Here every text has its escapes decoded, and the one option leaves the line feed out. -/
def echo (s : Shell) (args : List String) : Outcome :=
  let (newline, words) := match args with
    | "-n" :: words => (false, words)
    | words => (true, words)
  let (bytes, stop) := Escape.decode ⟨true, false⟩ .plain (" ".intercalate words).toList
  s.ended 0 [(.stdout, bytes ++ if newline && !stop then [10] else [])]

def exportOne (s : Shell) (text : String) : Shell :=
  let name := String.ofList (text.toList.takeWhile (· ≠ '='))
  match text.toList.dropWhile (· ≠ '=') with
  | _ :: value =>
    { s with env := s.env.insert name (String.ofList value), locals := s.locals.eraseAll [name] }
  | [] =>
    match s.locals.get? name with
    | some value => { s with env := s.env.insert name value, locals := s.locals.eraseAll [name] }
    | none => s

/-- Gives the names the blank-separated fields of a line; the last name gets the rest of it. -/
def assignFields (s : Shell) : List String → List Char → Shell
  | [], _ => s
  | [name], cs =>
    let trimmed := ((cs.dropWhile Sum.blank).reverse.dropWhile Sum.blank).reverse
    s.set name (String.ofList trimmed)
  | name :: names, cs =>
    let cs := cs.dropWhile Sum.blank
    assignFields (s.set name (String.ofList (cs.takeWhile fun c => !Sum.blank c))) names
      (cs.dropWhile fun c => !Sum.blank c)

/-- Takes a line off the input. A line that does not end is read too, but counts as a failure. -/
def readLine (s : Shell) (args : List String) : Outcome :=
  let names := if args.head? = some "-r" then args.drop 1 else args
  let line := s.input.takeWhile (· ≠ 10)
  let rest := s.input.drop line.length
  let text := ((Text.decodeUtf8 line).toOption.getD "").toList
  (assignFields { s with input := rest.drop 1 } names text).ended (if rest.isEmpty then 1 else 0)

def change (s : Shell) : List String → Shell
  | "-e" :: rest => change { s with strict := true } rest
  | "+e" :: rest => change { s with strict := false } rest
  | "--" :: rest => { s with args := rest }
  | [] => s
  | a :: rest =>
    if a.startsWith "-" || a.startsWith "+" then change s rest else { s with args := a :: rest }

/-- Waits for the commands in the background, whose output is seen now. -/
def wait (s : Shell) (args : List String) : Outcome :=
  { s with background := [] }.ended (if args.isEmpty then 0 else s.backgroundStatus) s.background

def changeDirectory (s : Shell) (args : List String) : Outcome :=
  let path := (args.head?.orElse fun _ => s.get? "HOME").getD ""
  if path.isEmpty then s.ended 0
  else
    match s.machine.enter path with
    | .ok machine => { s with machine }.ended 0
    | .error _ => s.ended 2 (s.complaint s!"cd: can't cd to {path}")

def builtin? (s : Shell) (args : List String) : String → Option Outcome
  | ":" | "umask" => some (s.ended 0)
  | "cd" => some (s.changeDirectory args)
  | "set" => some ((s.change args).ended 0)
  | "wait" => some (s.wait args)
  | "read" => some (s.readLine args)
  | "echo" => some (s.echo args)
  | "exit" => some (s.exit args)
  | "kill" => some (s.kill args)
  | "export" => some ((args.foldl exportOne s).ended 0)
  | "unset" =>
    some ({ s with env := s.env.eraseAll args, locals := s.locals.eraseAll args }.ended 0)
  | "shift" => some ({ s with args := s.args.drop 1 }.ended 0)
  | _ => none

end ReleaseJob.Host.Shell
