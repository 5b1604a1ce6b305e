import ReleaseJob.Bindings
import ReleaseJob.Step.Kind
import ReleaseJob.Text.Blank
import ReleaseJob.Time.Span

namespace ReleaseJob

abbrev Env := Bindings String

structure StepConfig where
  kind : StepKind
  id : Option String := none
  name : Option String := none
  run : Option String := none
  channel : Option String := none
  setOverride : Bool := false
  env : Env := .empty
  secrets : List String := []

namespace StepConfig

/-- A step without an id of its own goes by its kind. -/
def stepId (s : StepConfig) : String := s.id.getD s.kind.name

def argv (s : StepConfig) : Option (List String) := s.run.map Text.words

end StepConfig

def defaultTags : List String := ["v*.*.*"]

structure Config where
  name : String
  tags : List String
  timeout : Option Nat
  env : Env
  steps : List StepConfig

namespace Config

def defaultTimeoutMinutes : Nat := 360

/-- Nightly toolchain, verbose tests, and a publish step that holds the registry token. -/
def stock : Config where
  name := "Release"
  tags := defaultTags
  timeout := none
  env := .empty
  steps := [
    { kind := .checkout },
    { kind := .toolchain, channel := some "nightly", setOverride := true },
    { kind := .test, run := some "cargo test --verbose" },
    { kind := .publish, run := some "cargo publish", secrets := ["CARGO_REGISTRY_TOKEN"] }]

def timeoutMinutes (c : Config) : Nat := c.timeout.getD defaultTimeoutMinutes

/-- Seconds are counted in 64 bits; a longer timeout stops at their limit. -/
def timeoutSpan (c : Config) : Span :=
  .ofSeconds (min (c.timeoutMinutes * 60) (Nat.pow 2 64 - 1))

def secretNames (c : Config) : List String :=
  Names.ofList (c.steps.flatMap (·.secrets))

end Config

end ReleaseJob
