import ReleaseJob.Decimal.Shortest

namespace ReleaseJob.Yaml

def isNull (s : String) : Bool := ["null", "Null", "NULL", "~"].contains s

def bool? (s : String) : Option Bool :=
  if ["true", "True", "TRUE"].contains s then some true
  else if ["false", "False", "FALSE"].contains s then some false
  else none

def digitValue? (radix : Nat) (c : Char) : Option Nat :=
  let v :=
    if c.isDigit then some (c.toNat - 48)
    else if 'a' ≤ c && c ≤ 'z' then some (c.toNat - 87)
    else if 'A' ≤ c && c ≤ 'Z' then some (c.toNat - 55)
    else none
  v.bind fun n => if n < radix then some n else none

def natOfDigits? (radix : Nat) (ds : List Char) : Option Nat :=
  if ds.isEmpty then none
  else ds.foldl (fun n d => n.bind fun n => (digitValue? radix d).map (radix * n + ·)) (some 0)

/-- Digits after a zero are no decimal number. -/
def hasLeadingZero (ds : List Char) : Bool :=
  match ds with
  | '0' :: rest => !rest.isEmpty && rest.all Char.isDigit
  | _ => false

def dropSigns : List Char → List Char
  | '+' :: rest | '-' :: rest => rest
  | ds => ds

/-- A number without its sign, in radix 16, 8 or 2 after `0x`, `0o` or `0b`, that stays below
`bound`. -/
def magnitude? (bound : Nat) (ds : List Char) : Option Nat :=
  let radixed := match ds with
    | '0' :: 'x' :: rest => natOfDigits? 16 rest
    | '0' :: 'o' :: rest => natOfDigits? 8 rest
    | '0' :: 'b' :: rest => natOfDigits? 2 rest
    | _ => none
  let n? := match radixed with
    | some n => some n
    | none => if hasLeadingZero ds then none else natOfDigits? 10 ds
  n?.bind fun n => if n < bound then some n else none

def unsigned? (bound : Nat) (s : String) : Option Nat :=
  magnitude? bound (match s.toList with
    | '+' :: rest => rest
    | ds => ds)

def negative? (bound : Nat) (s : String) : Option Int :=
  match s.toList with
  | '-' :: ds => (magnitude? (bound + 1) ds).map fun n => -(n : Int)
  | _ => none

inductive Integer
  /-- Fits 64 bits. -/
  | small (n : Int)
  | unsigned128 (n : Nat)
  | signed128 (n : Int)

def integer? (s : String) : Option Integer :=
  match unsigned? (Nat.pow 2 64) s, negative? (Nat.pow 2 63) s with
  | some n, _ => some (.small n)
  | none, some n => some (.small n)
  | none, none =>
    match unsigned? (Nat.pow 2 128) s, negative? (Nat.pow 2 127) s with
    | some n, _ => some (.unsigned128 n)
    | none, some n => some (.signed128 n)
    | none, none => none

inductive Real
  | finite (negative : Bool) (value : Binary)
  | infinite (negative : Bool)
  | notANumber

/-- The binary number nearest to `digits * 10 ^ exponent`. Exponents that no binary number has are
not computed. -/
def nearest? (digits : Nat) (exponent : Int) : Option Binary :=
  let reach := ((toString digits).length : Int) + exponent
  if digits = 0 || reach < -400 then some .zero
  else if 400 < reach then none
  else if exponent < 0 then Binary.ofRatio? digits (Nat.pow 10 exponent.natAbs)
  else Binary.ofRatio? (digits * Nat.pow 10 exponent.natAbs) 1

def exponent? : List Char → Option Int
  | [] => some 0
  | e :: rest =>
    if e = 'e' || e = 'E' then
      match rest with
      | '-' :: ds => (natOfDigits? 10 ds).map fun n => -(n : Int)
      | '+' :: ds | ds => (natOfDigits? 10 ds).map fun n => (n : Int)
    else none

/-- Digits with at most one point among them, at least one digit, and an exponent. -/
def unsignedReal? (ds : List Char) : Option Binary := do
  let whole := ds.takeWhile Char.isDigit
  let (fraction, rest) := match ds.drop whole.length with
    | '.' :: rest => (rest.takeWhile Char.isDigit, rest.dropWhile Char.isDigit)
    | rest => ([], rest)
  let digits ← natOfDigits? 10 (whole ++ fraction)
  let exponent ← exponent? rest
  nearest? digits (exponent - fraction.length)

def real? (s : String) : Option Real :=
  if [".inf", ".Inf", ".INF", "+.inf", "+.Inf", "+.INF"].contains s then some (.infinite false)
  else if ["-.inf", "-.Inf", "-.INF"].contains s then some (.infinite true)
  else if [".nan", ".NaN", ".NAN"].contains s then some .notANumber
  else
    match s.toList with
    | '-' :: ds => (unsignedReal? ds).map (.finite true)
    | '+' :: ds | ds => (unsignedReal? ds).map (.finite false)

def Real.text : Real → String
  | finite negative value => (if negative then "-" else "") ++ (Decimal.ofBinary value).text
  | infinite negative => if negative then "-inf" else "inf"
  | notANumber => "NaN"

inductive Value
  | null
  | bool (b : Bool)
  | integer (n : Integer)
  | real (r : Real)
  | text (s : String)

def Value.ofPlain (s : String) : Value :=
  if s.isEmpty || isNull s then .null
  else
    match bool? s, integer? s with
    | some b, _ => .bool b
    | none, some n => .integer n
    | none, none =>
      match if hasLeadingZero (dropSigns s.toList) then none else real? s with
      | some r => .real r
      | none => .text s

end ReleaseJob.Yaml
