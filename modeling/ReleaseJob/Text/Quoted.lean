import ReleaseJob.Text.Glyph

namespace ReleaseJob.Text

def hex (n : Nat) : String := String.ofList (Nat.toDigits 16 n)

def escape (c : Char) : String :=
  match c with
  | '"' => "\\\""
  | '\\' => "\\\\"
  | '\n' => "\\n"
  | '\r' => "\\r"
  | '\t' => "\\t"
  | '\x00' => "\\0"
  | c => if hasGlyph c then c.toString else "\\u\x7b" ++ hex c.toNat ++ "\x7d"

/-- A character without a glyph of its own is written by its number. -/
def quote (s : String) : String :=
  "\"" ++ String.join (s.toList.map escape) ++ "\""

end ReleaseJob.Text
