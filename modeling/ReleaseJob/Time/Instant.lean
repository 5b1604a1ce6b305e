import ReleaseJob.Time.Span

namespace ReleaseJob

/-- A point in universal time. A second added to a minute is kept as the last second of the minute,
with a billion nanoseconds or more. -/
structure Instant where
  /-- Since the start of 1970. -/
  seconds : Int
  nanos : Nat
  deriving DecidableEq

namespace Instant

/-- The day after day 0, 1 March of year 0, that starts month `m` of a year counted from March. -/
def dayOfMonth (m : Int) : Int := (153 * m + 2) / 5

def dayNumber (year month day : Int) : Int :=
  let y := if month ≤ 2 then year - 1 else year
  let era := y / 400
  let yearOfEra := y - era * 400
  let dayOfYear := dayOfMonth ((month + 9) % 12) + day - 1
  let dayOfEra := yearOfEra * 365 + yearOfEra / 4 - yearOfEra / 100 + dayOfYear
  era * 146097 + dayOfEra - 719468

structure Date where
  year : Int
  month : Int
  day : Int
  deriving DecidableEq

def dateOf (days : Int) : Date :=
  let z := days + 719468
  let era := z / 146097
  let doe := z - era * 146097
  let yoe := (doe - doe / 1460 + doe / 36524 - doe / 146096) / 365
  let doy := doe - (365 * yoe + yoe / 4 - yoe / 100)
  let mp := (5 * doy + 2) / 153
  let day := doy - dayOfMonth mp + 1
  let month := if mp < 10 then mp + 3 else mp - 9
  ⟨yoe + era * 400 + (if month ≤ 2 then 1 else 0), month, day⟩

def isLeapYear (year : Int) : Bool :=
  year % 4 = 0 && (year % 100 ≠ 0 || year % 400 = 0)

def daysInMonth (year month : Int) : Int :=
  if month = 2 then (if isLeapYear year then 29 else 28)
  else if month = 4 || month = 6 || month = 9 || month = 11 then 30
  else 31

def firstYear : Int := -262143
def lastYear : Int := 262142

def date (i : Instant) : Date := dateOf (i.seconds / 86400)

def secondOfDay (i : Instant) : Int := i.seconds % 86400

def before (a b : Instant) : Bool :=
  a.seconds < b.seconds || (a.seconds = b.seconds && a.nanos < b.nanos)

def add (i : Instant) (s : Span) : Instant :=
  let total := i.nanos + s.nanos
  ⟨i.seconds + (total / 1000000000 : Nat), total % 1000000000⟩

/-- The time from `a` to `b`, if `b` is not before it. A second added to a minute counts when it lies
between two times of day. -/
def spanTo? (a b : Instant) : Option Span :=
  let leap : Int :=
    if a.secondOfDay < b.secondOfDay then (if 1000000000 ≤ a.nanos then 1 else 0)
    else if b.secondOfDay < a.secondOfDay then (if 1000000000 ≤ b.nanos then -1 else 0)
    else 0
  let nanos := (b.seconds - a.seconds + leap) * 1000000000 + ((b.nanos : Int) - a.nanos)
  if nanos < 0 then none else some ⟨nanos.toNat⟩

def pad2 (n : Int) : String :=
  if n < 10 then s!"0{n}" else toString n

/-- Four digits; more, and all with a sign, outside the years 0 to 9999. -/
def yearText (year : Int) : String :=
  let digits := toString year.natAbs
  let padded := String.ofList (List.replicate (4 - digits.length) '0') ++ digits
  if year < 0 then "-" ++ padded else if 9999 < year then "+" ++ padded else padded

/-- As many of three, six and nine places as are needed, or none. -/
def fractionText (nanos : Nat) : String :=
  let digits (n width : Nat) :=
    let ds := toString n
    "." ++ String.ofList (List.replicate (width - ds.length) '0') ++ ds
  if nanos = 0 then ""
  else if nanos % 1000000 = 0 then digits (nanos / 1000000) 3
  else if nanos % 1000 = 0 then digits (nanos / 1000) 6
  else digits nanos 9

def stamp (i : Instant) (between : String) : String :=
  let d := i.date
  let s := i.secondOfDay
  let leap := i.nanos / 1000000000
  s!"{yearText d.year}-{pad2 d.month}-{pad2 d.day}{between}{pad2 (s / 3600)}:{pad2 (s / 60 % 60)}:{pad2 (s % 60 + leap)}"
    ++ fractionText (i.nanos % 1000000000)

def zuluText (i : Instant) : String := i.stamp "T" ++ "Z"

def offsetText (i : Instant) : String := i.stamp "T" ++ "+00:00"

end Instant

end ReleaseJob
