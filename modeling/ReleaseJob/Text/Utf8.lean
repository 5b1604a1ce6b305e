namespace ReleaseJob.Text

/-- `length` is unknown when the bytes end before the sequence does. -/
structure Utf8Fault where
  index : Nat
  length : Option Nat

def Utf8Fault.message (f : Utf8Fault) : String :=
  match f.length with
  | some n => s!"invalid utf-8 sequence of {n} bytes from index {f.index}"
  | none => s!"incomplete utf-8 byte sequence from index {f.index}"

def tails? (b : UInt8) : Option (Nat × UInt8 × UInt8) :=
  if b < 0x80 then some (0, 0, 0)
  else if b < 0xC2 then none
  else if b < 0xE0 then some (1, 0x80, 0xBF)
  else if b = 0xE0 then some (2, 0xA0, 0xBF)
  else if b = 0xED then some (2, 0x80, 0x9F)
  else if b < 0xF0 then some (2, 0x80, 0xBF)
  else if b = 0xF0 then some (3, 0x90, 0xBF)
  else if b < 0xF4 then some (3, 0x80, 0xBF)
  else if b = 0xF4 then some (3, 0x80, 0x8F)
  else none

/-- The rest of a sequence: `good` bytes of it are read, `count` are still due, the next of them in
the range from `low` to `high`. Gives the length of the sequence or that of the fault. -/
def checkTail (good count : Nat) (low high : UInt8) : List UInt8 → Except (Option Nat) Nat
  | [] => if count = 0 then .ok good else .error none
  | b :: rest =>
    if count = 0 then .ok good
    else if low ≤ b && b ≤ high then checkTail (good + 1) (count - 1) 0x80 0xBF rest
    else .error (some good)

def codePoint (bytes : List UInt8) : Nat :=
  match bytes with
  | [a] => a.toNat
  | [a, b] => (a.toNat % 32) * 64 + b.toNat % 64
  | [a, b, c] => (a.toNat % 16) * 4096 + (b.toNat % 64) * 64 + c.toNat % 64
  | [a, b, c, d] =>
    (a.toNat % 8) * 262144 + (b.toNat % 64) * 4096 + (c.toNat % 64) * 64 + d.toNat % 64
  | _ => 0

/-- `skip` bytes belong to the character that was read last. -/
def decodeFrom (index skip : Nat) : List UInt8 → Except Utf8Fault (List Char)
  | [] => .ok []
  | b :: rest =>
    if 0 < skip then decodeFrom (index + 1) (skip - 1) rest
    else
      match tails? b with
      | none => .error ⟨index, some 1⟩
      | some (count, low, high) =>
        match checkTail 1 count low high rest with
        | .error length => .error ⟨index, length⟩
        | .ok n =>
          (decodeFrom (index + 1) (n - 1) rest).map
            (Char.ofNat (codePoint ((b :: rest).take n)) :: ·)

def decodeUtf8 (bytes : List UInt8) : Except Utf8Fault String :=
  (decodeFrom 0 0 bytes).map String.ofList

end ReleaseJob.Text
