import ReleaseJob.Config
import ReleaseJob.Trigger

namespace ReleaseJob

inductive ConfigFault
  | trigger (cause : TriggerError)
  | order (found : List StepKind)
  | noTimeout
  | longTimeout (minutes : Nat)
  | sameId (id : String)
  | strayedSecrets (id : String)
  | emptyRun (id : String)
  | noChannel (id : String)
  | noToken
  | blankSecret
  | shadowedSecret (name : String)

def ConfigFault.message : ConfigFault → String
  | trigger cause => cause.message
  | order found =>
    "Steps must be exactly checkout, toolchain, test, publish in that order (found: "
      ++ ", ".intercalate (found.map StepKind.name) ++ ")"
  | noTimeout => "timeout_minutes must be greater than zero"
  | longTimeout minutes => s!"timeout_minutes {minutes} is too large"
  | sameId id => s!"Duplicate step ID: {id}"
  | strayedSecrets id =>
    s!"Step '{id}' declares secrets; only the publish step may receive secrets"
  | emptyRun id => s!"Step '{id}' has an empty run command"
  | noChannel id => s!"Step '{id}' needs a toolchain channel"
  | noToken => "The publish step must declare its registry token secret"
  | blankSecret => "Secret names must not be empty"
  | shadowedSecret name => s!"Secret '{name}' is also set as a plain environment variable"

namespace StepConfig

def check (s : StepConfig) : Except ConfigFault Unit := do
  if s.kind ≠ .publish ∧ s.secrets ≠ [] then throw (.strayedSecrets s.stepId)
  if s.argv = some [] then throw (.emptyRun s.stepId)
  if s.kind = .toolchain ∧ s.run = none ∧ Text.trim (s.channel.getD "") = "" then
    throw (.noChannel s.stepId)

/-- Each step is checked once its id is known to be new. -/
def checkAll (seen : List String) : List StepConfig → Except ConfigFault Unit
  | [] => pure ()
  | s :: rest => do
    if s.stepId ∈ seen then throw (.sameId s.stepId)
    s.check
    checkAll (s.stepId :: seen) rest

end StepConfig

namespace Config

def trigger (c : Config) : Except TriggerError Trigger := Trigger.ofGlobs c.tags

def isPlain (c : Config) (name : String) : Bool :=
  c.env.contains name || c.steps.any (·.env.contains name)

def checkSecret (c : Config) (name : String) : Except ConfigFault Unit := do
  if Text.trim name = "" then throw .blankSecret
  if c.isPlain name then throw (.shadowedSecret name)

def checkTimeout (c : Config) : Except ConfigFault Unit := do
  if c.timeoutMinutes = 0 then throw .noTimeout
  if Nat.pow 2 64 ≤ c.timeoutMinutes * 60 then throw (.longTimeout c.timeoutMinutes)

/-- The conditions are checked in one order, and the first that fails is reported; the secrets are
looked at in the order of `walk`. -/
def validateAlong (c : Config) (walk : List String) : Except ConfigFault Unit := do
  discard (c.trigger.mapError .trigger)
  if c.steps.map (·.kind) ≠ StepKind.sequence then throw (.order (c.steps.map (·.kind)))
  c.checkTimeout
  StepConfig.checkAll [] c.steps
  if c.steps.all fun s => s.kind ≠ .publish || s.secrets.isEmpty then throw .noToken
  walk.forM c.checkSecret

/-- Secrets are looked at in the order of their names. -/
def validate (c : Config) : Except ConfigFault Unit := c.validateAlong c.secretNames

end Config

end ReleaseJob
