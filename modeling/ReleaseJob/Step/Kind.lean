namespace ReleaseJob

inductive StepKind
  | checkout | toolchain | test | publish
  deriving DecidableEq

namespace StepKind

def sequence : List StepKind := [checkout, toolchain, test, publish]

def name : StepKind → String
  | checkout => "checkout"
  | toolchain => "toolchain"
  | test => "test"
  | publish => "publish"

def title : StepKind → String
  | checkout => "Checkout"
  | toolchain => "Install toolchain"
  | test => "Run tests"
  | publish => "Publish"

def ofName? (name : String) : Option StepKind :=
  sequence.find? (·.name = name)

end StepKind

end ReleaseJob
