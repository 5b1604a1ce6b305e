namespace ReleaseJob

/-- What the operating system answers when it cannot do what it is asked to. -/
inductive OsError
  | notFound | denied | alreadyThere | notDirectory | isDirectory | nameTooLong
  /-- The content of a file is no text. -/
  | notText
  /-- A path that holds a zero byte never reaches the system. -/
  | zeroInPath
  /-- Nor does a command one of whose texts holds a zero byte. -/
  | zeroInCommand
  deriving DecidableEq

namespace OsError

def cause : OsError → String
  | notFound => "No such file or directory"
  | denied => "Permission denied"
  | alreadyThere => "File exists"
  | notDirectory => "Not a directory"
  | isDirectory => "Is a directory"
  | nameTooLong => "File name too long"
  | notText => "stream did not contain valid UTF-8"
  | zeroInPath => "file name contained an unexpected NUL byte"
  | zeroInCommand => "nul byte found in provided data"

/-- The number of a cause that the system itself gave. -/
def number? : OsError → Option Nat
  | notFound => some 2
  | denied => some 13
  | alreadyThere => some 17
  | notDirectory => some 20
  | isDirectory => some 21
  | nameTooLong => some 36
  | notText | zeroInPath | zeroInCommand => none

def message (e : OsError) : String :=
  match e.number? with
  | some n => s!"{e.cause} (os error {n})"
  | none => e.cause

end OsError

end ReleaseJob
