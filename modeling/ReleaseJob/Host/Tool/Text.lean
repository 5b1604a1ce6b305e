import ReleaseJob.Host.Tool.Printf

/-!
The tools of the machine on texts: they read files, or the input where no file is named, and write
what they make of it. No result rests on them.
-/

namespace ReleaseJob.Host.Tool

def lines (l : List String) : String := String.join (l.map (· ++ "\n"))

def complaint (tool file : String) (e : OsError) : Output :=
  [(.stderr, utf8 s!"{tool}: {file}: {e.cause}\n")]

/-- What is in a file; a dash stands for the input. -/
def Call.content (call : Call) (file : String) : Except OsError Bytes :=
  if file = "-" then .ok call.input else call.machine.read file

def contents (tool : String) (call : Call) (files : List String) : List (Except Output Bytes) :=
  (if files.isEmpty then ["-"] else files).map fun file =>
    (Call.content call file).mapError (complaint tool file)

def showEach (contents : List (Except Output Bytes)) (f : Bytes → Bytes) : Trace :=
  let pieces : Output := contents.flatMap fun
    | .ok bytes => [(.stdout, f bytes)]
    | .error said => said
  ⟨pieces, .code (if pieces.any fun (stream, _) => stream = .stderr then 1 else 0)⟩

def cat : Tool := fun call => showEach (contents "cat" call call.args) id

def progression (a step : Int) (count : Nat) : List String :=
  (List.range count).map fun i : Nat => toString (a + step * (i : Int))

def seq : Tool := fun call =>
  let span (a step b : String) : Trace :=
    match Printf.integer a, Printf.integer step, Printf.integer b with
    | (a, true), (step, true), (b, true) =>
      let count := if step = 0 then 0 else ((b - a) / step + 1).toNat
      .prints (lines (progression a step count))
    | _, _, _ => .complains "seq: invalid floating point argument\n" 1
  match call.args with
  | [b] => span "1" "1" b
  | [a, b] => span a "1" b
  | [a, step, b] => span a step b
  | _ => .complains "seq: missing operand\n" 1

/-- The lines, each with its line feed; the last may have none. -/
def linesOf (bytes : Bytes) : List Bytes := bytes.splitBy fun a _ => a ≠ 10

inductive Share
  | lines (n : Nat)
  | bytes (n : Nat)

def shareOf : List String → Share × List String
  | "-n" :: n :: files => (.lines (count n), files)
  | "-c" :: n :: files => (.bytes (count n), files)
  | option :: files =>
    match option.toList with
    | '-' :: 'n' :: n => (.lines (count (String.ofList n)), files)
    | '-' :: 'c' :: n => (.bytes (count (String.ofList n)), files)
    | '-' :: d :: n =>
      if d.isDigit then (.lines (count (String.ofList (d :: n))), files) else (.lines 10, files)
    | _ => (.lines 10, option :: files)
  | [] => (.lines 10, [])
where
  count (text : String) : Nat := (Printf.integer text).1.toNat

def head : Tool := fun call =>
  let (share, files) := shareOf call.args
  showEach (contents "head" call files) fun bytes =>
    match share with
    | .bytes n => bytes.take n
    | .lines n => ((linesOf bytes).take n).flatten

def tail : Tool := fun call =>
  let (share, files) := shareOf call.args
  showEach (contents "tail" call files) fun bytes =>
    match share with
    | .bytes n => bytes.drop (bytes.length - n)
    | .lines n =>
      let all := linesOf bytes
      (all.drop (all.length - n)).flatten

/-- Lines in the order of their bytes; the last one gets its line feed. -/
def sort : Tool := fun call =>
  let options := call.args.filter (·.startsWith "-")
  let files := call.args.filter fun a => !a.startsWith "-"
  let whole := showEach (contents "sort" call files) id
  let all := (linesOf (written .stdout whole.output)).map fun l => l.filter (· ≠ 10)
  let ordered := all.mergeSort fun a b => !decide (b < a)
  let ordered := if options.contains "-r" then ordered.reverse else ordered
  let ordered := if options.contains "-u" then ordered.eraseDups else ordered
  ⟨(.stdout, ordered.flatMap (· ++ [10])) :: whole.output.filter (·.1 = .stderr), whole.ending⟩

/-- How many words there are; `inside` says whether the last byte read belongs to one. -/
def countWords (inside : Bool) : Bytes → Nat
  | [] => 0
  | b :: rest =>
    let blank := b = 32 || (9 ≤ b && b ≤ 13)
    (if !blank && !inside then 1 else 0) + countWords (!blank) rest

/-- Counts line feeds, words and bytes. Several counts of the input are set in columns. -/
def wc : Tool := fun call =>
  let options := (call.args.filter (·.startsWith "-")).flatMap (·.toList.drop 1)
  let files := call.args.filter fun a => !a.startsWith "-"
  let wanted (c : Char) : Bool := options.isEmpty || options.contains c
  let count (bytes : Bytes) : List String :=
    (if wanted 'l' then [toString (bytes.count 10)] else []) ++
    (if wanted 'w' then [toString (countWords false bytes)] else []) ++
    (if wanted 'c' then [toString bytes.length] else [])
  let column (text : String) : String :=
    String.ofList (List.replicate (7 - text.length) ' ') ++ text
  let shown (bytes : Bytes) : String :=
    match files, count bytes with
    | _, [one] => one
    | [], several => " ".intercalate (several.map column)
    | _, several => " ".intercalate several
  let label := match files with
    | [file] => " " ++ file
    | _ => ""
  showEach (contents "wc" call files) fun bytes => utf8 (shown bytes ++ label ++ "\n")

def byteSet (text : String) : Bytes :=
  spread (Escape.decode ⟨false, false⟩ .plain text.toList).1
where
  spread : Bytes → Bytes
    | a :: 45 :: b :: rest =>
      (List.range (b.toNat + 1 - a.toNat)).map (fun i => UInt8.ofNat (a.toNat + i)) ++ spread rest
    | a :: rest => a :: spread rest
    | [] => []

/-- Deletes bytes, or puts others in their places; the last one serves for all that follow. -/
def tr : Tool := fun call =>
  match call.args with
  | ["-d", set] => ⟨[(.stdout, call.input.filter fun b => !(byteSet set).contains b)], .code 0⟩
  | [set, other] =>
    let other := byteSet other
    let change (b : UInt8) : UInt8 :=
      match (byteSet set).idxOf? b with
      | some i => (other[i]?).getD (other.getLast?.getD b)
      | none => b
    ⟨[(.stdout, call.input.map change)], .code 0⟩
  | _ => .complains "tr: missing operand\n" 1

end ReleaseJob.Host.Tool
