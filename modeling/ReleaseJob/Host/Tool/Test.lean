import ReleaseJob.Host.Machine
import ReleaseJob.Host.Tool.Printf

/-!
The conditions of `test` on the machine: on texts, on whole numbers and on files. The answer is an
exit code: 0 for true, 1 for false and 2 for a condition that cannot be read. No result rests on it.
-/

namespace ReleaseJob.Host.Test

def codeOf (b : Bool) : Nat := if b then 0 else 1

def numbers (a b : String) (holds : Int → Int → Bool) : Nat :=
  match Printf.integer a, Printf.integer b with
  | (x, true), (y, true) => if a.isEmpty || b.isEmpty then 2 else codeOf (holds x y)
  | _, _ => 2

def unary (find : String → Except OsError Node) (operator operand : String) : Nat :=
  match operator, find operand with
  | "-n", _ => codeOf !operand.isEmpty
  | "-z", _ => codeOf operand.isEmpty
  | "-e", found => codeOf (match found with | .ok _ => true | _ => false)
  | "-f", found => codeOf (match found with | .ok (.file _) | .ok (.program _) => true | _ => false)
  | "-d", found => codeOf (match found with | .ok .directory => true | _ => false)
  | "-x", found =>
    codeOf (match found with | .ok .directory | .ok (.program _) => true | _ => false)
  | "-r", found | "-w", found => codeOf (match found with | .ok _ => true | _ => false)
  | "-s", found =>
    codeOf (match found with | .ok (.file content) => !content.isEmpty | .ok _ => true | _ => false)
  | "-h", _ | "-L", _ | "-p", _ | "-t", _ => 1
  | _, _ => 2

def binary (a operator b : String) : Nat :=
  match operator with
  | "=" | "==" => codeOf (a = b)
  | "!=" => codeOf (a ≠ b)
  | "-eq" => numbers a b fun x y => x = y
  | "-ne" => numbers a b fun x y => x ≠ y
  | "-lt" => numbers a b fun x y => x < y
  | "-le" => numbers a b fun x y => x ≤ y
  | "-gt" => numbers a b fun x y => y < x
  | "-ge" => numbers a b fun x y => y ≤ x
  | _ => 2

def opposite (code : Nat) : Nat := if code = 0 then 1 else if code = 1 then 0 else code

def condition (find : String → Except OsError Node) : List String → Nat
  | [] => 1
  | [a] => codeOf !a.isEmpty
  | ["!", a] => opposite (codeOf !a.isEmpty)
  | [operator, a] => unary find operator a
  | ["!", operator, a] => opposite (unary find operator a)
  | [a, operator, b] => binary a operator b
  | ["!", a, operator, b] => opposite (binary a operator b)
  | _ => 2

end ReleaseJob.Host.Test
