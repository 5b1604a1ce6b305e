import ReleaseJob.Host.Tool.Files
import ReleaseJob.Host.Tool.Test

/-!
The small tools of the machine, which stand for those that a job may call. No result rests on them.
-/

namespace ReleaseJob.Host.Tool

/-- A leading argument of a dash and known letters is an option. -/
def echoOptions (newline escapes : Bool) : List String → Bool × Bool × List String
  | [] => (newline, escapes, [])
  | a :: rest =>
    match a.toList with
    | '-' :: c :: cs =>
      if (c :: cs).all fun c => "neE".toList.contains c then
        echoOptions (newline && !(c :: cs).contains 'n')
          ((c :: cs).foldl (fun e c => if c = 'e' then true else if c = 'E' then false else e) escapes)
          rest
      else (newline, escapes, a :: rest)
    | _ => (newline, escapes, a :: rest)

def echo : Tool := fun call =>
  let (newline, escapes, words) := echoOptions true false call.args
  let text := " ".intercalate words
  let (bytes, stop) := if escapes then Escape.decode ⟨true, true⟩ .plain text.toList else (utf8 text, false)
  ⟨[(.stdout, bytes ++ if newline && !stop then [10] else [])], .code 0⟩

def printenv : Tool := fun call =>
  match call.args with
  | [] => .prints (lines (call.env.entries.map fun (name, value) => name ++ "=" ++ value))
  | names =>
    let found := names.filterMap call.env.get?
    .prints (lines found) (if found.length = names.length then 0 else 1)

def pwd : Tool := fun call => .prints ("/" ++ "/".intercalate call.machine.workdir ++ "\n")

def test : Tool := fun call => .silent (Test.condition call.machine.find call.args)

def bracket : Tool := fun call =>
  if call.args.getLast? = some "]" then
    .silent (Test.condition call.machine.find call.args.dropLast)
  else .complains "[: missing ]\n" 2

/-- Tools that leave the files alone. Asking for a pause takes no time. -/
def readers : List (String × Tool) := [
  ("true", fun _ => .silent 0), ("false", fun _ => .silent 1), ("sleep", fun _ => .silent 0),
  ("echo", echo), ("printf", Printf.printf .outer), ("printenv", printenv), ("pwd", pwd), ("test", test),
  ("[", bracket), ("cat", cat), ("seq", seq), ("head", head), ("tail", tail), ("sort", sort),
  ("wc", wc), ("tr", tr), ("ls", ls)]

def writers : List (String × Change) := [
  ("touch", touch), ("mkdir", mkdir), ("rm", rm), ("cp", cp), ("mv", mv)]

def all : List (String × Change) :=
  writers ++ readers.map fun (name, tool) => (name, fun call => (tool call, call.machine))

end ReleaseJob.Host.Tool
