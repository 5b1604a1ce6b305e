import Mathlib.Data.List.Nodup
import ReleaseJob.Config.Load
import ReleaseJob.Proofs.Acceptance
import ReleaseJob.Proofs.Commands

namespace ReleaseJob.Proofs

section Loading

variable {c : Config} {p : Push} {id : RunId} {j : Job} {read : String → Except OsError (List UInt8)}
  {path : Option String} {text : String}

end Loading

/-- A configuration as it may be written. -/
def written : String :=
  "name: Nightly\ntrigger:\n  tags: [v*]\ntimeout_minutes: 30\nsteps:\n- kind: checkout\n" ++
  "- kind: toolchain\n  channel: nightly\n- kind: test\n  run: cargo test --all\n" ++
  "- kind: publish\n  secrets: [TOKEN]\n"

end ReleaseJob.Proofs
