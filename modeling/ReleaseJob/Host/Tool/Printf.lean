import ReleaseJob.Host.Tool.Escape

/-!
Formatted printing on the machine: a text with directives, used again until no argument is left. No
result rests on it.
-/

namespace ReleaseJob.Host.Printf

structure Directive where
  flags : List Char
  width : Nat
  places : Option Nat
  conversion : Char

inductive Item
  | literal (cs : List Char)
  | directive (d : Directive)

def number (cs : List Char) : Nat := cs.foldl (fun n c => 10 * n + (c.toNat - 48)) 0

def directive? (cs : List Char) : Option (Directive × List Char) :=
  let flags := cs.takeWhile fun c => "-+ 0#".toList.contains c
  let cs := cs.drop flags.length
  let width := cs.takeWhile Char.isDigit
  let cs := cs.drop width.length
  let (places, cs) := match cs with
    | '.' :: cs =>
      let digits := cs.takeWhile Char.isDigit
      (some (number digits), cs.drop digits.length)
    | cs => (none, cs)
  match cs with
  | c :: cs => some (⟨flags, number width, places, c⟩, cs)
  | [] => none

/-- Every round reads at least a character, so `fuel` is their number. -/
def items : (fuel : Nat) → List Char → List Item
  | 0, _ => []
  | fuel + 1, cs =>
    match cs with
    | [] => []
    | '%' :: '%' :: cs => .literal ['%'] :: items fuel cs
    | '%' :: cs =>
      match directive? cs with
      | some (d, cs) => .directive d :: items fuel cs
      | none => [.literal ['%']]
    | c :: cs =>
      let rest := cs.takeWhile (· ≠ '%')
      .literal (c :: rest) :: items fuel (cs.drop rest.length)

def padded (d : Directive) (bytes : Bytes) : Bytes :=
  let gap := d.width - bytes.length
  if d.flags.contains '-' then bytes ++ List.replicate gap 32
  else if d.flags.contains '0' && d.conversion ≠ 's' then List.replicate gap 48 ++ bytes
  else List.replicate gap 32 ++ bytes

/-- A whole number; a text that is none counts as what it starts with, and as a fault. -/
def integer (text : String) : Int × Bool :=
  let (sign, cs) : Int × List Char := match text.toList with
    | '-' :: cs => (-1, cs)
    | '+' :: cs => (1, cs)
    | cs => (1, cs)
  let digits := cs.takeWhile Char.isDigit
  (sign * number digits, digits.length = cs.length)

structure Output where
  bytes : Bytes := []
  faults : List String := []
  stop : Bool := false

inductive Kind
  | inner | outer

def Kind.extended : Kind → Bool
  | inner => false
  | outer => true

def Kind.noNumber (kind : Kind) (arg : String) : String :=
  match kind with
  | inner => s!"printf: {arg}: expected numeric value"
  | outer => s!"printf: '{arg}': expected a numeric value"

def render (kind : Kind) (d : Directive) (arg : String) : Output :=
  let whole (text : Int → String) : Output :=
    let (n, good) := integer arg
    { bytes := padded d (utf8 (text n)), faults := if good then [] else [kind.noNumber arg] }
  let base (b : Nat) (n : Int) : String := String.ofList (Nat.toDigits b (n % Int.ofNat (Nat.pow 2 64)).toNat)
  match d.conversion with
  | 's' =>
    let text := match d.places with
      | some n => String.ofList (arg.toList.take n)
      | none => arg
    { bytes := padded d (utf8 text) }
  | 'b' =>
    let (bytes, stop) := Escape.decode ⟨true, kind.extended⟩ .plain arg.toList
    { bytes := padded d bytes, stop }
  | 'c' => { bytes := padded d (utf8 (String.ofList (arg.toList.take 1))) }
  | 'd' | 'i' => whole fun n => if d.flags.contains '+' && 0 ≤ n then s!"+{n}" else toString n
  | 'u' => whole (base 10)
  | 'o' => whole (base 8)
  | 'x' => whole (base 16)
  | 'X' => whole fun n => (base 16 n).map Char.toUpper
  | c => { faults := [s!"printf: %{c}: invalid directive"], stop := true }

def pass (kind : Kind) : List Item → List String → Output × List String
  | [], args => ({}, args)
  | .literal cs :: items, args =>
    let (bytes, stop) := Escape.decode ⟨false, kind.extended⟩ .plain cs
    if stop then ({ bytes, stop }, [])
    else
      let (o, args) := pass kind items args
      ({ o with bytes := bytes ++ o.bytes }, args)
  | .directive d :: items, args =>
    let arg := args.headD (if d.conversion ∈ ['s', 'b', 'c'] then "" else "0")
    let first := render kind d arg
    if first.stop then (first, [])
    else
      let (o, args) := pass kind items args.tail
      ({ o with bytes := first.bytes ++ o.bytes, faults := first.faults ++ o.faults }, args)

/-- A use that takes no argument is the last one. -/
def passes (kind : Kind) : (fuel : Nat) → List Item → List String → Output
  | 0, _, _ => {}
  | fuel + 1, items, args =>
    let (o, rest) := pass kind items args
    if rest.isEmpty || rest.length = args.length then o
    else
      let next := passes kind fuel items rest
      { next with bytes := o.bytes ++ next.bytes, faults := o.faults ++ next.faults }

def printf (kind : Kind) : Tool := fun call =>
  match kind, call.args with
  | .inner, [] => .complains "printf: usage: printf format [arg ...]\n" 2
  | .outer, [] =>
    .complains "printf: missing operand\nTry 'printf --help' for more information.\n" 1
  | kind, format :: args =>
    let cs := format.toList
    let o := passes kind (args.length + 1) (items cs.length cs) args
    ⟨[(.stdout, o.bytes), (.stderr, utf8 (String.join (o.faults.map (· ++ "\n"))))],
      .code (if o.faults.isEmpty then 0 else 1)⟩

end ReleaseJob.Host.Printf
