import ReleaseJob.Host.Trace

/-!
Escapes behind a backslash, for the tools of the machine: letters for control characters, digits for
a byte. The tools agree on most of them and differ in the rest. No result rests on them.
-/

namespace ReleaseJob.Host.Escape

structure Style where
  /-- A zero introduces octal digits, which may then be three. -/
  zeroFirst : Bool
  /-- There are hexadecimal digits after `x`, and `e` is the escape character. -/
  extended : Bool

def letter? (extended : Bool) (c : Char) : Option UInt8 :=
  match c with
  | 'a' => some 7
  | 'b' => some 8
  | 't' => some 9
  | 'n' => some 10
  | 'v' => some 11
  | 'f' => some 12
  | 'r' => some 13
  | '\\' => some 92
  | 'e' => if extended then some 27 else none
  | _ => none

def digit? (base : Nat) (c : Char) : Option Nat :=
  let value :=
    if c.isDigit then c.toNat - 48
    else if 'a' ≤ c && c ≤ 'f' then c.toNat - 87
    else if 'A' ≤ c && c ≤ 'F' then c.toNat - 55
    else base
  if value < base then some value else none

inductive State
  | plain
  | backslash
  /-- A byte of which up to `left` digits are to come. -/
  | byte (base value left : Nat)
  /-- After `x`, where a digit must come. -/
  | hexadecimal

/-- The bytes, and whether `\c` cut the output off. -/
def decode (style : Style) : State → List Char → Bytes × Bool
  | .plain, [] => ([], false)
  | .backslash, [] => ([92], false)
  | .byte _ value _, [] => ([UInt8.ofNat value], false)
  | .hexadecimal, [] => (utf8 "\\x", false)
  | .plain, c :: cs =>
    if c = '\\' then decode style .backslash cs
    else
      let (bytes, stop) := decode style .plain cs
      (utf8 c.toString ++ bytes, stop)
  | .backslash, c :: cs =>
    if c = 'c' then ([], true)
    else if c = 'x' && style.extended then decode style .hexadecimal cs
    else
      match letter? style.extended c, digit? 8 c with
      | some b, _ =>
        let (bytes, stop) := decode style .plain cs
        (b :: bytes, stop)
      | none, some digit =>
        if style.zeroFirst && digit ≠ 0 then
          let (bytes, stop) := decode style .plain cs
          (utf8 (String.ofList ['\\', c]) ++ bytes, stop)
        else decode style (.byte 8 digit (if style.zeroFirst then 3 else 2)) cs
      | none, none =>
        let (bytes, stop) := decode style .plain cs
        (utf8 (String.ofList ['\\', c]) ++ bytes, stop)
  | .hexadecimal, c :: cs =>
    match digit? 16 c with
    | some digit => decode style (.byte 16 digit 1) cs
    | none =>
      let (bytes, stop) :=
        if c = '\\' then decode style .backslash cs
        else
          let (bytes, stop) := decode style .plain cs
          (utf8 c.toString ++ bytes, stop)
      (utf8 "\\x" ++ bytes, stop)
  | .byte base value left, c :: cs =>
    match digit? base c, left with
    | some digit, left + 1 => decode style (.byte base (base * value + digit) left) cs
    | _, _ =>
      let (bytes, stop) :=
        if c = '\\' then decode style .backslash cs
        else
          let (bytes, stop) := decode style .plain cs
          (utf8 c.toString ++ bytes, stop)
      (UInt8.ofNat value :: bytes, stop)

end ReleaseJob.Host.Escape
