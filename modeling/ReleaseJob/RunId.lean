import ReleaseJob.Json
namespace ReleaseJob

structure RunId where
  digits : List (Fin 16)
  length_eq : digits.length = 32
  deriving DecidableEq

namespace RunId

def digitChar (d : Fin 16) : Char := Json.hexDigit d.val

def digitOf (n : Nat) : Fin 16 := Fin.ofNat 16 n

def digit? (c : Char) : Option (Fin 16) :=
  if '0' ≤ c && c ≤ '9' then some (digitOf (c.toNat - 48))
  else if 'a' ≤ c && c ≤ 'f' then some (digitOf (c.toNat - 87))
  else if 'A' ≤ c && c ≤ 'F' then some (digitOf (c.toNat - 55))
  else none

/-- In groups of 8, 4, 4, 4 and 12 with hyphens between them. -/
def text (r : RunId) : String :=
  let cs := r.digits.map digitChar
  let group (start count : Nat) := String.ofList ((cs.drop start).take count)
  "-".intercalate [group 0 8, group 8 4, group 12 4, group 16 4, group 20 12]

def short (r : RunId) : String := String.ofList ((r.digits.take 8).map digitChar)

def ofDigits? (cs : List Char) : Option RunId := do
  let digits ← cs.mapM digit?
  if h : digits.length = 32 then some ⟨digits, h⟩ else none

def ofGroups? (cs : List Char) : Option RunId :=
  let hyphens := [8, 13, 18, 23].all fun i => cs[i]? = some '-'
  if cs.length = 36 && hyphens then ofDigits? (cs.filter (· ≠ '-')) else none

/-- Bare digits, the groups, or the groups in braces or as a name of the `uuid` space. -/
def parse? (text : String) : Option RunId :=
  match text.toList with
  | '\x7b' :: cs => if cs.getLast? = some '\x7d' then ofGroups? cs.dropLast else none
  | 'u' :: 'r' :: 'n' :: ':' :: 'u' :: 'u' :: 'i' :: 'd' :: ':' :: cs => ofGroups? cs
  | cs => if cs.length = 32 then ofDigits? cs else ofGroups? cs

end RunId

end ReleaseJob
