import ReleaseJob.Host.Shell.Word

/-!
Scripts for the shell of the machine: commands made of words, and commands made of commands. No
result rests on them.
-/

namespace ReleaseJob.Host.Shell

structure Redirection where
  descriptor : Nat
  operator : String
  target : Word

inductive Script
  | skip
  | simple (settings : List (String × Word)) (words : List Word) (redirections : List Redirection)
  | redirected (s : Script) (redirections : List Redirection)
  | subshell (s : Script)
  /-- Runs beside what follows it. -/
  | background (s : Script)
  | seq (a b : Script)
  | both (a b : Script)
  | either (a b : Script)
  | negation (s : Script)
  | pipe (a b : Script)
  | choice (test yes no : Script)
  /-- Runs the body as long as the test has that outcome. -/
  | loop (test : Script) (outcome : Bool) (body : Script)
  | each (name : String) (words : List Word) (body : Script)

abbrev Tokens := List Token

/-- A word that is written without quotes and holds no expansion. -/
def Piece.bare? : Piece → Option (List Char)
  | .text cs false => some cs
  | _ => none

def bareWord? (w : Word) : Option String :=
  (w.mapM Piece.bare?).map fun parts => String.ofList parts.flatten

def reserved? : Token → Option String
  | .word w => bareWord? w
  | .operator s => some s
  | .redirection .. => none

def closers : List String := ["then", "elif", "else", "fi", "do", "done", "\x7d", ")"]

def expect (s : String) : Tokens → Option Tokens
  | t :: rest => if reserved? t = some s then some rest else none
  | [] => none

def skipBreaks (ts : Tokens) : Tokens :=
  ts.dropWhile fun
    | .operator "\n" => true
    | _ => false

def setting? (w : Word) : Option (String × Word) :=
  let lead := (w.map Piece.bare?).takeWhile fun p => p.any (· ≠ ['='])
  let name := (lead.filterMap id).flatten
  match name, w.drop lead.length with
  | c :: _, .text ['='] false :: value =>
    if isNameStart c && name.all isNameChar then some (String.ofList name, value) else none
  | _, _ => none

def readRedirections : Tokens → List Redirection × Tokens
  | .redirection descriptor operator :: .word target :: rest =>
    let (more, rest) := readRedirections rest
    (⟨descriptor, operator, target⟩ :: more, rest)
  | ts => ([], ts)

def readSimple : Tokens → List Word × List Redirection × Tokens
  | .redirection descriptor operator :: .word target :: rest =>
    let (words, more, rest) := readSimple rest
    (words, ⟨descriptor, operator, target⟩ :: more, rest)
  | .word w :: rest =>
    let (words, more, rest) := readSimple rest
    (w :: words, more, rest)
  | ts => ([], [], ts)

def simpleOf (words : List Word) (redirections : List Redirection) : Script :=
  let settings := (words.map setting?).takeWhile Option.isSome
  .simple (settings.filterMap id) (words.drop settings.length) redirections

def readWords : Tokens → List Word × Tokens
  | .word w :: rest =>
    let (words, rest) := readWords rest
    (w :: words, rest)
  | ts => ([], ts)

mutual

def readList : (fuel : Nat) → Tokens → Option (Script × Tokens)
  | 0, _ => none
  | fuel + 1, ts => do
    let ts := skipBreaks ts
    match ts with
    | [] => return (.skip, [])
    | t :: _ =>
      if (reserved? t).any closers.contains then return (.skip, ts)
      let (first, ts) ← readChain fuel ts
      match ts with
      | .operator "&" :: ts =>
        let (rest, ts) ← readList fuel ts
        return (.seq (.background first) rest, ts)
      | .operator ";" :: ts | .operator "\n" :: ts =>
        let (rest, ts) ← readList fuel ts
        return (.seq first rest, ts)
      | ts => return (first, ts)

def readChain : (fuel : Nat) → Tokens → Option (Script × Tokens)
  | 0, _ => none
  | fuel + 1, ts => do
    let (first, ts) ← readPipe fuel ts
    readChainFrom fuel first ts

/-- Both connectives bind alike, from left to right. -/
def readChainFrom : (fuel : Nat) → Script → Tokens → Option (Script × Tokens)
  | 0, _, _ => none
  | fuel + 1, first, ts =>
    match ts with
    | .operator "&&" :: ts => do
      let (next, ts) ← readPipe fuel (skipBreaks ts)
      readChainFrom fuel (.both first next) ts
    | .operator "||" :: ts => do
      let (next, ts) ← readPipe fuel (skipBreaks ts)
      readChainFrom fuel (.either first next) ts
    | ts => some (first, ts)

def readPipe : (fuel : Nat) → Tokens → Option (Script × Tokens)
  | 0, _ => none
  | fuel + 1, ts => do
    match expect "!" ts with
    | some ts =>
      let (s, ts) ← readPipe fuel ts
      return (.negation s, ts)
    | none =>
      let (first, ts) ← readCommand fuel ts
      match ts with
      | .operator "|" :: ts =>
        let (next, ts) ← readPipe fuel (skipBreaks ts)
        return (.pipe first next, ts)
      | ts => return (first, ts)

def readCommand : (fuel : Nat) → Tokens → Option (Script × Tokens)
  | 0, _ => none
  | fuel + 1, ts => do
    let closing (s : Script) (closer : String) (ts : Tokens) : Option (Script × Tokens) := do
      let (redirections, ts) := readRedirections (← expect closer ts)
      return (if redirections.isEmpty then s else .redirected s redirections, ts)
    match ts with
    | [] => none
    | t :: rest =>
      match reserved? t with
      | some "\x7b" =>
        let (s, ts) ← readList fuel rest
        closing s "\x7d" ts
      | some "(" =>
        let (s, ts) ← readList fuel rest
        closing (.subshell s) ")" ts
      | some "if" =>
        let (s, ts) ← readIf fuel rest
        closing s "fi" ts
      | some "while" | some "until" =>
        let (test, ts) ← readList fuel rest
        let (body, ts) ← readList fuel (← expect "do" ts)
        closing (.loop test (reserved? t = some "while") body) "done" ts
      | some "for" =>
        let (words, ts) := readWords rest
        match words with
        | name :: keyword :: words =>
          if bareWord? keyword ≠ some "in" then none
          let ts := skipBreaks (ts.drop 1)
          let (body, ts) ← readList fuel (← expect "do" ts)
          closing (.each (← bareWord? name) words body) "done" ts
        | _ => none
      | _ =>
        let (words, redirections, ts) := readSimple ts
        if words.isEmpty && redirections.isEmpty then none
        return (simpleOf words redirections, ts)

def readIf : (fuel : Nat) → Tokens → Option (Script × Tokens)
  | 0, _ => none
  | fuel + 1, ts => do
    let (test, ts) ← readList fuel ts
    let (yes, ts) ← readList fuel (← expect "then" ts)
    match expect "elif" ts, expect "else" ts with
    | some ts, _ =>
      let (no, ts) ← readIf fuel ts
      return (.choice test yes no, ts)
    | none, some ts =>
      let (no, ts) ← readList fuel ts
      return (.choice test yes no, ts)
    | none, none => return (.choice test yes .skip, ts)

end

/-- A whole text as a script; every step down reads a token or opens a command, of which there are
six kinds. -/
def Script.parse? (text : List Char) : Option Script := do
  let ts ← tokens? (text.length + 1) text
  match ← readList (6 * ts.length + 6) ts with
  | (s, []) => some s
  | _ => none

def Script.fault (text : List Char) : String :=
  match tokens? (text.length + 1) text with
  | none => "Syntax error: Unterminated quoted string"
  | some ts =>
    match readList (6 * ts.length + 6) ts with
    | some (_, t :: _) =>
      let name := ((reserved? t).map fun s => "\"" ++ s ++ "\"").getD "word"
      s!"Syntax error: {name} unexpected"
    | _ => "Syntax error: end of file unexpected"

end ReleaseJob.Host.Shell
