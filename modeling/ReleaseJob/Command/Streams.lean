import ReleaseJob.Command
import ReleaseJob.Text.Utf8

namespace ReleaseJob

/-- Why a stream gives no further line. -/
inductive ReadFault
  | notText (fault : Text.Utf8Fault)
  /-- The system cannot read on, in its own words. -/
  | system (cause : String)

def ReadFault.message : ReadFault → String
  | notText fault => fault.message
  | system cause => cause

/-- The lines of a stream up to its end, or up to a fault. -/
structure LineStream where
  lines : List String
  fault : Option ReadFault

namespace LineStream

/-- The lines of a text with their line feeds; the last one may do without. -/
def cut (line : List UInt8) : List UInt8 → List (List UInt8)
  | [] => if line.isEmpty then [] else [line.reverse]
  | b :: rest => if b = 10 then (b :: line).reverse :: cut [] rest else cut (b :: line) rest

/-- A line without its line feed and the carriage return before it. -/
def bare (line : String) : String :=
  match line.toList.reverse with
  | '\n' :: '\r' :: cs => String.ofList cs.reverse
  | '\n' :: cs => String.ofList cs.reverse
  | _ => line

def read (line : List UInt8) : Except ReadFault String :=
  ((Text.decodeUtf8 line).mapError .notText).map bare

/-- What a stream gives, one call after another; after a fault nothing is asked of it. -/
def ofReads : List (Except ReadFault String) → LineStream
  | [] => ⟨[], none⟩
  | .error fault :: _ => ⟨[], some fault⟩
  | .ok line :: rest =>
    let s := ofReads rest
    { s with lines := line :: s.lines }

def ofBytes (bytes : List UInt8) : LineStream := ofReads ((cut [] bytes).map read)

end LineStream

/-- Which stream gives the next line is not ours to say: it goes by a list of turns. A turn of a
stream that has come to its end is passed over, and when all turns are taken, what is left of
standard output goes first. -/
def readLines : List OutputStream → List String → List String → List (OutputStream × String)
  | [], out, err => out.map (.stdout, ·) ++ err.map (.stderr, ·)
  | .stdout :: turns, line :: out, err => (.stdout, line) :: readLines turns out err
  | .stderr :: turns, out, line :: err => (.stderr, line) :: readLines turns out err
  | .stdout :: turns, [], err => readLines turns [] err
  | .stderr :: turns, out, [] => readLines turns out []

/-- A command that has ended: what is left to read of it, and its exit code. -/
structure Ended where
  out : LineStream
  err : LineStream
  /-- Its exit code, where the system tells it. -/
  exit : Except String (Option Int)

/-- Every line is passed on, also the lines before a fault; the output is made of the same lines. Of
two faults the one on standard output is reported, and how the command ended is asked last. -/
def Ended.collect (e : Ended) (program : String) (turns : List OutputStream) : Reply :=
  let lines := readLines turns e.out.lines e.err.lines
  { acts := lines.map fun (stream, line) => .line stream line
    outcome := match e.out.fault, e.err.fault with
      | some fault, _ | none, some fault => .error (.io program fault.message)
      | none, none => do
        let code ← e.exit.mapError (.io program)
        return ⟨code, "\n".intercalate (lines.map Prod.snd)⟩ }

end ReleaseJob
