import ReleaseJob.Push
import ReleaseJob.Tag.Pattern

namespace ReleaseJob

inductive TriggerError
  | badPattern (glob : String) (cause : PatternError)
  | noPatterns

def TriggerError.message : TriggerError → String
  | badPattern glob cause => s!"Invalid tag pattern '{glob}': {cause.message}"
  | noPatterns => "Trigger has no tag patterns"

structure Trigger where
  patterns : List TagPattern
  patterns_ne_nil : patterns ≠ []

namespace Trigger

/-- The first filter that does not parse is reported, even where there is no other. -/
def ofGlobs (globs : List String) : Except TriggerError Trigger := do
  let patterns ← globs.mapM fun glob => (TagPattern.parse glob).mapError (.badPattern glob)
  if h : patterns = [] then .error .noPatterns else .ok ⟨patterns, h⟩

/-- Whether the last of the filters that match lets the tag in; `included` is the verdict of the
filters already read. -/
def decides (tag : String) (included : Bool) : List TagPattern → Bool
  | [] => included
  | p :: rest => decides tag (if p.accepts tag then !p.negated else included) rest

def fire? (t : Trigger) (p : Push) : Option ReleaseTag := do
  let tag ← p.tagName?
  if decides tag false t.patterns then some (.ofName tag) else none

end Trigger

end ReleaseJob
