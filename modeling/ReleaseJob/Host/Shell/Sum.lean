import ReleaseJob.Host.Shell.Word
import ReleaseJob.Host.Tool.Printf

/-!
Whole-number expressions of the shell of the machine: a name stands for the number in the variable
of that name, and truth is 1. No result rests on them.
-/

namespace ReleaseJob.Host.Shell.Sum

def truth (b : Bool) : Int := if b then 1 else 0

/-- The operators from the loosest to the tightest; of two that start alike the longer comes first. -/
def levels : List (List (String × (Int → Int → Option Int))) := [
  [("||", fun a b => some (truth (a ≠ 0 || b ≠ 0)))],
  [("&&", fun a b => some (truth (a ≠ 0 && b ≠ 0)))],
  [("==", fun a b => some (truth (a = b))), ("!=", fun a b => some (truth (a ≠ b)))],
  [("<=", fun a b => some (truth (a ≤ b))), (">=", fun a b => some (truth (b ≤ a))),
    ("<", fun a b => some (truth (a < b))), (">", fun a b => some (truth (b < a)))],
  [("+", fun a b => some (a + b)), ("-", fun a b => some (a - b))],
  [("*", fun a b => some (a * b)),
    ("/", fun a b => if b = 0 then none else some (Int.tdiv a b)),
    ("%", fun a b => if b = 0 then none else some (Int.tmod a b))]]

def blank (c : Char) : Bool := c = ' ' || c = '\t' || c = '\n'

mutual

def level (lookup : String → Int) (ls : List (List (String × (Int → Int → Option Int)))) :
    (fuel : Nat) → Rest → Option (Int × Rest)
  | 0, _ => none
  | fuel + 1, cs =>
    match ls with
    | [] => operand lookup fuel cs
    | operators :: tighter => do
      let (a, cs) ← level lookup tighter fuel cs
      chain lookup operators tighter fuel a cs

def chain (lookup : String → Int) (operators : List (String × (Int → Int → Option Int)))
    (tighter : List (List (String × (Int → Int → Option Int)))) :
    (fuel : Nat) → Int → Rest → Option (Int × Rest)
  | 0, _, _ => none
  | fuel + 1, a, cs =>
    let cs := cs.dropWhile blank
    match operators.findSome? fun (o, apply) => (stripText o cs).map (apply, ·) with
    | none => some (a, cs)
    | some (apply, cs) => do
      let (b, cs) ← level lookup tighter fuel cs
      chain lookup operators tighter fuel (← apply a b) cs

def operand (lookup : String → Int) : (fuel : Nat) → Rest → Option (Int × Rest)
  | 0, _ => none
  | fuel + 1, cs =>
    match cs.dropWhile blank with
    | '(' :: cs => do
      let (a, cs) ← level lookup levels fuel cs
      match cs.dropWhile blank with
      | ')' :: cs => some (a, cs)
      | _ => none
    | '-' :: cs => (operand lookup fuel cs).map fun (a, cs) => (-a, cs)
    | '+' :: cs => operand lookup fuel cs
    | '!' :: cs => (operand lookup fuel cs).map fun (a, cs) => (truth (a = 0), cs)
    | '$' :: cs => operand lookup fuel cs
    | c :: cs =>
      if c.isDigit then
        let digits := (c :: cs).takeWhile Char.isDigit
        some ((Printf.number digits : Nat), (c :: cs).drop digits.length)
      else if isNameStart c then
        some (lookup (String.ofList ((c :: cs).takeWhile isNameChar)), (c :: cs).dropWhile isNameChar)
      else none
    | [] => none

end

def value? (lookup : String → Int) (cs : List Char) : Option Int :=
  match level lookup levels (10 * cs.length + 10) cs with
  | some (a, rest) => if (rest.dropWhile blank).isEmpty then some a else none
  | none => none

end ReleaseJob.Host.Shell.Sum
