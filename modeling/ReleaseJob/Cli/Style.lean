namespace ReleaseJob.Cli

inductive Tone
  | dim | bold | red | green | yellow | cyan

def Tone.code : Tone → Nat
  | dim => 2
  | bold => 1
  | red => 31
  | green => 32
  | yellow => 33
  | cyan => 36

/-- Whether the output is coloured. -/
abbrev Palette := Bool

def Tone.paint (t : Tone) (p : Palette) (s : String) : String :=
  if p then s!"\x1b[{t.code}m" ++ s ++ "\x1b[0m" else s

inductive Mark
  | check | cross | spinner | info | warn | rocket | skip

/-- A blank is part of every mark. -/
def Mark.text : Mark → String
  | check => "✓ "
  | cross => "✗ "
  | spinner => "~ "
  | info => "i "
  | warn => "! "
  | rocket => "> "
  | skip => "- "

def Mark.line (m : Mark) (s : String) : String := m.text ++ " " ++ s

end ReleaseJob.Cli
