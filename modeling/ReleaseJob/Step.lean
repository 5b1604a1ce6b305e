import ReleaseJob.Step.Context
import ReleaseJob.Step.State

namespace ReleaseJob

inductive StepAction
  /-- A shallow clone of the tag. -/
  | checkout
  /-- An installed toolchain, made the one of the directory if asked for. -/
  | toolchain (channel : String) (setOverride : Bool)
  | run (argv : List String)

def StepAction.ofConfig (c : StepConfig) : StepAction :=
  match c.argv, c.kind with
  | some argv, _ => run argv
  | none, .checkout => checkout
  | none, .toolchain => toolchain (Text.trim (c.channel.getD "")) c.setOverride
  | none, .test => run ["cargo", "test", "--verbose"]
  | none, .publish => run ["cargo", "publish"]

structure Step where
  id : String
  name : String
  kind : StepKind
  action : StepAction
  env : Env
  secrets : List String
  state : StepState

namespace Step

def ofConfig (c : StepConfig) : Step where
  id := c.stepId
  name := c.name.getD c.kind.title
  kind := c.kind
  action := .ofConfig c
  env := c.env
  secrets := c.secrets
  state := .pending

def commands (s : Step) (c : StepContext) : List (List String) :=
  match s.action with
  | .checkout =>
    ["git", "clone", "--depth", "1", "--branch", c.tag.name, c.repository, "."] ::
      (c.commit.map fun commit =>
        ["git", "-c", "advice.detachedHead=false", "checkout", "--detach", commit]).toList
  | .toolchain channel setOverride =>
    ["rustup", "toolchain", "install", channel, "--profile", "minimal"] ::
      (if setOverride then [["rustup", "override", "set", channel]] else [])
  | .run argv => [argv]

def isPending (s : Step) : Bool := s.state.isPending

end Step

end ReleaseJob
