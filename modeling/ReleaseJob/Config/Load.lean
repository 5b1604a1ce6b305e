import ReleaseJob.Config.Valid
import ReleaseJob.Config.Yaml
import ReleaseJob.Host.OsError
import ReleaseJob.Text.Utf8

namespace ReleaseJob

inductive LoadError
  | unreadable (path : String) (cause : OsError)
  | text (fault : Yaml.Fault)
  | invalid (fault : ConfigFault)

def LoadError.message : LoadError → String
  | unreadable path cause => s!"Failed to read {path}: {cause.message}"
  | text fault => fault.report?.getD ""
  | invalid fault => fault.message

namespace Config

def ofText (text : String) : Except LoadError Config := do
  let c ← (ofYaml text).mapError .text
  c.validate.mapError .invalid
  return c

def ofFile (path : String) (content : Except OsError (List UInt8)) : Except LoadError Config := do
  let bytes ← content.mapError (.unreadable path)
  match Text.decodeUtf8 bytes with
  | .ok text => ofText text
  | .error _ => throw (.unreadable path .notText)

/-- Without a file, the stock configuration. -/
def load (read : String → Except OsError (List UInt8)) : Option String → Except LoadError Config
  | some path => ofFile path (read path)
  | none => .ok stock

end Config

end ReleaseJob
