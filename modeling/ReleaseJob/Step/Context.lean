import ReleaseJob.Config
import ReleaseJob.Push
import ReleaseJob.Secret

namespace ReleaseJob

/-- The environment holds plain variables only. The secrets bound to the step are kept apart, so
that they can be masked in all that the step prints. -/
structure StepContext where
  stepId : String
  tag : ReleaseTag
  repository : String
  commit : Option String
  workdir : String
  env : Env
  secrets : List (String × Secret)
  /-- Variables that the commands do not inherit. -/
  envRemove : List String
  /-- Secrets that the step declares and the store does not hold. -/
  missing : List String

namespace StepContext

/-- The variables set for the commands of the step, secrets over plain ones. -/
def processEnv (c : StepContext) : Env :=
  c.env.insertAll (c.secrets.map fun (name, secret) => (name, secret.expose))

def redact (c : StepContext) (text : String) : String :=
  redactAll (c.secrets.map Prod.snd) text

def inspectSecrets (c : StepContext) : String :=
  "[" ++ ", ".intercalate (c.secrets.map fun (name, _) => s!"({Text.quote name}, {mask})") ++ "]"

end StepContext

end ReleaseJob
