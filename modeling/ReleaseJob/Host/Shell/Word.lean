/-!
Words and operators of the command language of the machine; no result rests on them. Quotes and
backslashes are taken off while a word is read, and what is to be expanded later is kept as a piece
of its own.
-/

namespace ReleaseJob.Host.Shell

inductive Use
  | value
  | length
  /-- A text for a parameter that is not set, or is empty if `colon`. -/
  | orElse (colon assign : Bool) (word : List Char)
  /-- A text for a parameter that is set, and not empty if `colon`. -/
  | ifSet (colon : Bool) (word : List Char)
  /-- A complaint that ends the shell for a parameter that is not set, or is empty if `colon`. -/
  | orFail (colon : Bool) (word : List Char)

inductive Piece
  | text (cs : List Char) (quoted : Bool)
  | parameter (name : String) (use : Use) (quoted : Bool)
  | command (script : List Char) (quoted : Bool)
  | sum (expression : List Char) (quoted : Bool)

abbrev Word := List Piece

inductive Token
  | word (w : Word)
  | operator (s : String)
  /-- A redirection of a file descriptor: its operator; the target is the next word. -/
  | redirection (descriptor : Nat) (operator : String)

abbrev Rest := List Char

def isNameStart (c : Char) : Bool := c.isAlpha || c = '_'

def isNameChar (c : Char) : Bool := c.isAlphanum || c = '_'

def enclosed (opens closes : Char) (depth : Nat) (seen : List Char) : Rest → Option (List Char × Rest)
  | [] => none
  | c :: cs =>
    if c = closes then
      match depth with
      | 0 => some (seen.reverse, cs)
      | depth + 1 => enclosed opens closes depth (c :: seen) cs
    else if c = opens then enclosed opens closes (depth + 1) (c :: seen) cs
    else enclosed opens closes depth (c :: seen) cs

/-- The name of a parameter: a name, one digit or one special character. -/
def parameterName? (cs : Rest) : Option (String × Rest) :=
  match cs with
  | c :: rest =>
    if isNameStart c then
      some (String.ofList (cs.takeWhile isNameChar), cs.dropWhile isNameChar)
    else if c.isDigit || "@*#?$!-".toList.contains c then some (c.toString, rest)
    else none
  | [] => none

def braced? (cs : List Char) : Option (String × Use) :=
  let use (cs : List Char) : Option Use :=
    match cs with
    | [] => some .value
    | ':' :: '-' :: word => some (.orElse true false word)
    | ':' :: '=' :: word => some (.orElse true true word)
    | ':' :: '+' :: word => some (.ifSet true word)
    | ':' :: '?' :: word => some (.orFail true word)
    | '-' :: word => some (.orElse false false word)
    | '=' :: word => some (.orElse false true word)
    | '+' :: word => some (.ifSet false word)
    | '?' :: word => some (.orFail false word)
    | _ => none
  match cs with
  | '#' :: c :: cs => do
    let (name, rest) ← parameterName? (c :: cs)
    if rest.isEmpty then some (name, .length) else none
  | cs => do
    let (name, rest) ← parameterName? cs
    return (name, ← use rest)

/-- A piece after a dollar sign; a lone sign stands for itself. -/
def dollar (quoted : Bool) (cs : Rest) : Option (Piece × Rest) :=
  match cs with
  | '(' :: '(' :: cs =>
    match enclosed '(' ')' 0 [] cs with
    | some (expression, ')' :: rest) => some (.sum expression quoted, rest)
    | _ => none
  | '(' :: cs => (enclosed '(' ')' 0 [] cs).map fun (script, rest) => (.command script quoted, rest)
  | '\x7b' :: cs => do
    let (inside, rest) ← enclosed '\x7b' '\x7d' 0 [] cs
    let (name, use) ← braced? inside
    return (.parameter name use quoted, rest)
  | cs =>
    match parameterName? cs with
    | some (name, rest) => some (.parameter name .value quoted, rest)
    | none => some (.text ['$'] quoted, cs)

def endsWord (c : Char) : Bool := " \t\n;&|<>()".toList.contains c

/-- Reads a word. `fuel` bounds the characters that are left. -/
def word? (quoted : Bool) : (fuel : Nat) → Rest → Option (Word × Rest)
  | 0, cs => some ([], cs)
  | fuel + 1, cs =>
    let followed (piece : Piece) (rest : Rest) : Option (Word × Rest) := do
      let (w, rest) ← word? quoted fuel rest
      return (piece :: w, rest)
    match cs with
    | [] => if quoted then none else some ([], [])
    | '$' :: cs => do
      let (piece, rest) ← dollar quoted cs
      followed piece rest
    | c :: cs =>
      if c = '\x60' then do
        let (script, rest) ← enclosed '\x60' '\x60' 0 [] cs
        followed (.command script quoted) rest
      else if quoted then
        match c, cs with
        | '"', cs => some ([], cs)
        | '\\', d :: cs =>
          if d = '\n' then word? quoted fuel cs
          else if "$\"\\\x60".toList.contains d then followed (.text [d] true) cs
          else followed (.text ['\\', d] true) cs
        | c, cs => followed (.text [c] true) cs
      else
        match c, cs with
        | '\'', cs =>
          let inside := cs.takeWhile (· ≠ '\'')
          match cs.drop inside.length with
          | _ :: rest => followed (.text inside true) rest
          | [] => none
        | '"', cs => do
          let (inside, rest) ← word? true fuel cs
          let (w, rest) ← word? false fuel rest
          return (.text [] true :: inside ++ w, rest)
        | '\\', '\n' :: cs => word? quoted fuel cs
        | '\\', d :: cs => followed (.text [d] true) cs
        | c, cs => if endsWord c then some ([], c :: cs) else followed (.text [c] false) cs

def operators : List String := ["&&", "||", ";", "&", "|", "(", ")", "\n"]

def redirections : List String := [">>", ">&", "<&", ">", "<"]

def stripText (s : String) (cs : List Char) : Option (List Char) :=
  if s.toList.isPrefixOf cs then some (cs.drop s.length) else none

/-- A redirection, with the descriptor it is for written before it or implied. -/
def redirection? (cs : Rest) : Option (Token × Rest) :=
  let digits := cs.takeWhile Char.isDigit
  redirections.findSome? fun o => do
    let rest ← stripText o (cs.drop digits.length)
    let implied := if o.startsWith "<" then 0 else 1
    let descriptor := match digits with
      | [] => implied
      | d :: _ => d.toNat - 48
    return (.redirection descriptor o, rest)

def operator? (cs : Rest) : Option (Token × Rest) :=
  operators.findSome? fun o => (stripText o cs).map (.operator o, ·)

def tokens? : (fuel : Nat) → Rest → Option (List Token)
  | 0, _ => some []
  | fuel + 1, cs =>
    match cs with
    | [] => some []
    | ' ' :: cs | '\t' :: cs => tokens? fuel cs
    | '\\' :: '\n' :: cs => tokens? fuel cs
    | '#' :: cs => tokens? fuel (cs.dropWhile (· ≠ '\n'))
    | cs =>
      match (redirection? cs).orElse fun _ => operator? cs with
      | some (token, rest) => (tokens? fuel rest).map (token :: ·)
      | none => do
        let (w, rest) ← word? false (cs.length + 1) cs
        return .word w :: (← tokens? fuel rest)

end ReleaseJob.Host.Shell
