namespace ReleaseJob

structure Span where
  nanos : Nat
  deriving DecidableEq

namespace Span

def ofSeconds (n : Nat) : Span := ⟨n * 1000000000⟩

def ofMillis (n : Nat) : Span := ⟨n * 1000000⟩

def seconds (s : Span) : Nat := s.nanos / 1000000000

/-- The digits of `part`, a number below `10 ^ width`, as places after a point, without the zeros at
the end. -/
def places (part width : Nat) : String :=
  let digits := toString part
  let padded := List.replicate (width - digits.length) '0' ++ digits.toList
  match (padded.reverse.dropWhile (· = '0')).reverse with
  | [] => ""
  | ds => "." ++ String.ofList ds

def inUnit (nanos unit width : Nat) : String :=
  toString (nanos / unit) ++ places (nanos % unit) width

/-- In the largest unit of seconds, milliseconds, microseconds and nanoseconds that the span fills
once, with as many places as it needs. -/
def exactText (s : Span) : String :=
  if 1000000000 ≤ s.nanos then inUnit s.nanos 1000000000 9 ++ "s"
  else if 1000000 ≤ s.nanos then inUnit s.nanos 1000000 6 ++ "ms"
  else if 1000 ≤ s.nanos then inUnit s.nanos 1000 3 ++ "µs"
  else s!"{s.nanos}ns"

/-- Whole seconds, with minutes and hours once they are reached. -/
def clockText (s : Span) : String :=
  let n := s.seconds
  if n < 60 then s!"{n}s"
  else if n < 3600 then s!"{n / 60}m {n % 60}s"
  else s!"{n / 3600}h {n % 3600 / 60}m {n % 60}s"

end Span

end ReleaseJob
