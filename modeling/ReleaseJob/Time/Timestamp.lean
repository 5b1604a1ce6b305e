import ReleaseJob.Text.Blank
import ReleaseJob.Time.Instant

namespace ReleaseJob.Timestamp

abbrev Rest := List Char

def skipBlanks (s : Rest) : Rest := s.dropWhile Text.isBlank

def natOf (ds : List Char) : Nat := ds.foldl (fun n c => 10 * n + (c.toNat - 48)) 0

def number (width : Nat) (s : Rest) : Option (Int × Rest) :=
  let ds := (s.take width).takeWhile Char.isDigit
  if ds.isEmpty then none else some (natOf ds, s.drop ds.length)

def part (s : Rest) : Option (Int × Rest) := number 2 (skipBlanks s)

def year (s : Rest) : Option (Int × Rest) :=
  match skipBlanks s with
  | '-' :: s => (number s.length s).map fun (n, s) => (-n, s)
  | '+' :: s => number s.length s
  | s => number 4 s

def mark (c : Char) (s : Rest) : Option Rest :=
  match skipBlanks s with
  | d :: s => if d = c then some s else none
  | [] => none

/-- Nanoseconds after a point; digits after the ninth are passed over. -/
def fraction (s : Rest) : Option (Nat × Rest) :=
  match s with
  | '.' :: s =>
    let ds := s.takeWhile Char.isDigit
    if ds.isEmpty then none
    else
      let kept := ds.take 9
      some (natOf kept * Nat.pow 10 (9 - kept.length), s.drop ds.length)
  | s => some (0, s)

def twoDigits (s : Rest) : Option (Int × Rest) :=
  match s with
  | a :: b :: s => if a.isDigit && b.isDigit then some (natOf [a, b], s) else none
  | _ => none

/-- Seconds east of universal time: `Z`, `UTC`, or a sign, hours and minutes. -/
def offset (s : Rest) : Option (Int × Rest) :=
  let signed (sign : Int) (s : Rest) : Option (Int × Rest) := do
    let (hours, s) ← twoDigits s
    let (minutes, s) ← twoDigits (s.dropWhile fun c => c = ':' || Text.isBlank c)
    if minutes < 60 then return (sign * (hours * 3600 + minutes * 60), s) else none
  match skipBlanks s with
  | 'Z' :: s | 'z' :: s => some (0, s)
  | '+' :: s => signed 1 s
  | '-' :: s | '\u2212' :: s => signed (-1) s
  | a :: b :: c :: s =>
    if [a, b, c].map Char.toUpper = ['U', 'T', 'C'] then some (0, s) else none
  | _ => none

def isDate (year month day : Int) : Bool :=
  Instant.firstYear ≤ year && year ≤ Instant.lastYear && 1 ≤ month && month ≤ 12 &&
    1 ≤ day && day ≤ Instant.daysInMonth year month

/-- The second 60 is taken as one added to its minute. -/
def instant? (year month day hour minute second : Int) (nanos : Nat) (offset : Int) :
    Option Instant :=
  if isDate year month day && hour < 24 && minute < 60 && second ≤ 60 && offset.natAbs < 86400 then
    let leap := second = 60
    let seconds := Instant.dayNumber year month day * 86400 + hour * 3600 + minute * 60
      + (if leap then 59 else second) - offset
    let i : Instant := ⟨seconds, nanos + (if leap then 1000000000 else 0)⟩
    if Instant.firstYear ≤ i.date.year && i.date.year ≤ Instant.lastYear then some i else none
  else none

/-- A date, a `T` or a blank, a time and an offset. Blanks may stand around the parts, leading zeros
may be missing, and a year of more than four digits carries a sign. -/
def parse? (text : String) : Option Instant := do
  let (y, s) ← year text.toList
  let (mo, s) ← part (← mark '-' s)
  let (d, s) ← part (← mark '-' s)
  let s ← match s with
    | 't' :: s | 'T' :: s | ' ' :: s => some s
    | _ => none
  let (h, s) ← part s
  let (mi, s) ← part (← mark ':' s)
  let (sec, s) ← part (← mark ':' s)
  let (nanos, s) ← fraction s
  let (east, s) ← offset s
  if (skipBlanks s).isEmpty then instant? y mo d h mi sec nanos east else none

end ReleaseJob.Timestamp
