namespace ReleaseJob.Yaml

inductive Style
  | plain | single | double | literal | folded
  deriving DecidableEq

/-- The octets of a tag. Percent signs may write any, so they need not make a text. -/
abbrev Tag := List UInt8

/-- The tag `!`, which names no type. -/
def Tag.unnamed : Tag := [33]

def Tag.core (name : String) : Tag := ("tag:yaml.org,2002:" ++ name).toUTF8.toList

inductive Token
  | version (major minor : Nat)
  | tagShorthand (handle : String) (stem : Tag)
  | documentStart
  | documentEnd
  | blockSeq
  | blockMap
  | blockEnd
  | flowSeq
  | flowSeqEnd
  | flowMap
  | flowMapEnd
  | entry
  | flowEntry
  | key
  | value
  | alias (name : String)
  | anchor (name : String)
  | tag (handle : String) (suffix : Tag)
  | scalar (style : Style) (text : String)
  | streamEnd
  deriving DecidableEq

/-- A line and a column, both counted from 0. -/
structure Mark where
  line : Nat
  column : Nat
  deriving DecidableEq

def Mark.origin : Mark := ⟨0, 0⟩

structure Placed where
  token : Token
  start : Mark
  stop : Mark

end ReleaseJob.Yaml
