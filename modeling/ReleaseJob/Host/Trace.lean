import ReleaseJob.Command
import ReleaseJob.Host.Machine

/-!
What a program of the machine leaves behind: pieces of output, and its end. No result rests on it.
-/

namespace ReleaseJob.Host

abbrev Bytes := List UInt8

def utf8 (s : String) : Bytes := s.toUTF8.toList

abbrev Output := List (OutputStream × Bytes)

/-- A program ends with an exit code, or by a signal. -/
inductive Ending
  | code (n : Nat)
  | signal (number : Nat)

def Ending.code? : Ending → Option Nat
  | code n => some n
  | signal _ => none

structure Trace where
  output : Output
  ending : Ending

namespace Trace

def silent (code : Nat) : Trace := ⟨[], .code code⟩

def prints (text : String) (code : Nat := 0) : Trace := ⟨[(.stdout, utf8 text)], .code code⟩

def complains (text : String) (code : Nat) : Trace := ⟨[(.stderr, utf8 text)], .code code⟩

end Trace

def written (stream : OutputStream) (output : Output) : Bytes :=
  (output.filter (·.1 = stream)).flatMap Prod.snd

structure Call where
  args : List String
  env : Env
  input : Bytes
  machine : Machine

abbrev Tool := Call → Trace

abbrev Change := Call → Trace × Machine

end ReleaseJob.Host
