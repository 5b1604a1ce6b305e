namespace ReleaseJob

/-- A number is `mantissa / 10 ^ places`; it is an integer when written without places. -/
inductive Json
  | null
  | bool (b : Bool)
  | num (mantissa : Int) (places : Nat)
  | str (s : String)
  | arr (elems : List Json)
  | obj (fields : List (String × Json))

namespace Json

instance : Inhabited Json := ⟨null⟩

def nat (n : Nat) : Json := num n 0

def ofOption (f : α → Json) : Option α → Json
  | none => null
  | some a => f a

def strs (l : List String) : Json := arr (l.map str)

def insertField (field : String × Json) : List (String × Json) → List (String × Json)
  | [] => [field]
  | f :: rest => if field.1 < f.1 then field :: f :: rest else f :: insertField field rest

def sorted : Json → Json
  | obj fields => obj (fields.foldr insertField [])
  | j => j

def hexDigit (n : Nat) : Char :=
  if n < 10 then Char.ofNat (48 + n) else Char.ofNat (87 + n)

/-- Only the quote, the backslash and the control characters below U+0020 are escaped, the common
ones by a letter. -/
def escape : List Char → List Char
  | [] => []
  | c :: rest =>
    (match c with
      | '"' => ['\\', '"']
      | '\\' => ['\\', '\\']
      | '\n' => ['\\', 'n']
      | '\r' => ['\\', 'r']
      | '\t' => ['\\', 't']
      | '\x08' => ['\\', 'b']
      | '\x0c' => ['\\', 'f']
      | c =>
        if c.toNat < 32 then
          ['\\', 'u', '0', '0', hexDigit (c.toNat / 16), hexDigit (c.toNat % 16)]
        else [c]) ++ escape rest

def quote (s : String) : String :=
  "\"" ++ String.ofList (escape s.toList) ++ "\""

/-- At least one digit stands before the point. -/
def numberText (mantissa : Int) (places : Nat) : String :=
  let sign := if mantissa < 0 then "-" else ""
  let digits := toString mantissa.natAbs
  if places = 0 then sign ++ digits
  else
    let padded := String.ofList (List.replicate (places + 1 - digits.length) '0') ++ digits
    let whole := padded.length - places
    sign ++ String.ofList (padded.toList.take whole) ++ "." ++ String.ofList (padded.toList.drop whole)

mutual

def compact : Json → String
  | null => "null"
  | bool b => if b then "true" else "false"
  | num m p => numberText m p
  | str s => quote s
  | arr elems => "[" ++ compactElems "" elems ++ "]"
  | obj fields => "\x7b" ++ compactFields "" fields ++ "\x7d"

def compactElems (sep : String) : List Json → String
  | [] => ""
  | e :: rest => sep ++ compact e ++ compactElems "," rest

def compactFields (sep : String) : List (String × Json) → String
  | [] => ""
  | (k, v) :: rest => sep ++ quote k ++ ":" ++ compact v ++ compactFields "," rest

end

def indent (level : Nat) : String := String.ofList (List.replicate (2 * level) ' ')

mutual

/-- One element or field a line, two blanks a level; what is empty stays on its line. -/
def pretty (level : Nat) : Json → String
  | null => "null"
  | bool b => if b then "true" else "false"
  | num m p => numberText m p
  | str s => quote s
  | arr [] => "[]"
  | arr elems => "[" ++ prettyElems (level + 1) "\n" elems ++ "\n" ++ indent level ++ "]"
  | obj [] => "\x7b\x7d"
  | obj fields => "\x7b" ++ prettyFields (level + 1) "\n" fields ++ "\n" ++ indent level ++ "\x7d"

def prettyElems (level : Nat) (sep : String) : List Json → String
  | [] => ""
  | e :: rest => sep ++ indent level ++ pretty level e ++ prettyElems level ",\n" rest

def prettyFields (level : Nat) (sep : String) : List (String × Json) → String
  | [] => ""
  | (k, v) :: rest =>
    sep ++ indent level ++ quote k ++ ": " ++ pretty level v ++ prettyFields level ",\n" rest

end

end Json

end ReleaseJob
