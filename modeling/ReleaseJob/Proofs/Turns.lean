import ReleaseJob.Proofs.Commands

namespace ReleaseJob

/-- How long acts take, in nanoseconds. -/
def RunnerAct.delay : List RunnerAct → Nat
  | [] => 0
  | .line .. :: rest => delay rest
  | .wait span :: rest => span.nanos + delay rest

def RunnerAct.lines : List RunnerAct → List (OutputStream × String)
  | [] => []
  | .line stream text :: rest => (stream, text) :: lines rest
  | .wait _ :: rest => lines rest

def Reply.delay (r : Reply) : Nat := RunnerAct.delay r.acts

def Reply.lines (r : Reply) : List (OutputStream × String) := RunnerAct.lines r.acts

/-- What a command line asks of the runner. -/
def StepContext.ask (c : StepContext) (program : String) (args : List String) : Invocation :=
  { program, args, workdir := c.workdir, env := c.processEnv, envRemove := c.envRemove }

namespace Proofs
open RunnerAct

theorem inTime_some {l : Span} : inTime (some l) a = true ↔ a ≤ l.nanos := decide_eq_true_iff

theorem inTime_some_false {l : Span} : inTime (some l) a = false ↔ l.nanos < a := by
  rw [← Bool.not_eq_true, inTime_some, Nat.not_le]

/-- A limit of nothing at all is not over at the start. -/
theorem inTime_zero (limit : Option Span) : inTime limit 0 = true := by
  cases limit with
  | none => rfl
  | some l => exact inTime_some.mpr (Nat.zero_le _)

theorem inTime_mono (h : a ≤ b) (hb : inTime limit b = true) : inTime limit a = true := by
  cases limit with
  | none => rfl
  | some l => exact inTime_some.mpr (Nat.le_trans h (inTime_some.mp hb))

/-- Acts are played on from where the ones before them end. -/
theorem playActs_append {limit : Option Span} {elapsed : Nat} {a : List RunnerAct}
    (h : inTime limit (elapsed + delay a) = true) (b : List RunnerAct) :
    playActs limit elapsed (a ++ b) =
      (lines a ++ (playActs limit (elapsed + delay a) b).1,
        (playActs limit (elapsed + delay a) b).2) := by
  induction a generalizing elapsed with
  | nil => rfl
  | cons act rest ih =>
    cases act with
    | line stream text =>
      rw [List.cons_append, playActs, ih h]
      rfl
    | wait span =>
      simp only [delay, ← Nat.add_assoc] at h ⊢
      rw [List.cons_append, playActs, if_pos (inTime_mono (Nat.le_add_right _ _) h), ih h]
      rfl

/-- Acts that keep the limit are not held up. -/
theorem playActs_whole {limit : Option Span} {elapsed : Nat} {acts : List RunnerAct}
    (h : inTime limit (elapsed + delay acts) = true) :
    playActs limit elapsed acts = (lines acts, some (elapsed + delay acts)) := by
  have := playActs_append h []
  simpa [playActs] using this

/-- Acts that do not keep the limit are held up in one wait. -/
theorem acts_cut {limit : Option Span} {elapsed : Nat} {acts : List RunnerAct}
    (hin : inTime limit elapsed = true) (hout : inTime limit (elapsed + delay acts) = false) :
    ∃ before span after, acts = before ++ .wait span :: after ∧
      inTime limit (elapsed + delay before) = true ∧
      inTime limit (elapsed + delay before + span.nanos) = false := by
  induction acts generalizing elapsed with
  | nil =>
    rw [delay, Nat.add_zero, hin] at hout
    contradiction
  | cons act rest ih =>
    cases act with
    | line stream text =>
      obtain ⟨before, span, after, rfl, hb, ha⟩ := ih hin hout
      exact ⟨.line stream text :: before, span, after, rfl, hb, ha⟩
    | wait span =>
      simp only [delay, ← Nat.add_assoc] at hout
      cases hw : inTime limit (elapsed + span.nanos) with
      | false => exact ⟨[], span, rest, rfl, hin, hw⟩
      | true =>
        obtain ⟨before, last, after, rfl, hb, ha⟩ := ih hw hout
        refine ⟨.wait span :: before, last, after, rfl, ?_, ?_⟩
        · rw [delay, ← Nat.add_assoc]
          exact hb
        · rw [delay, ← Nat.add_assoc]
          exact ha

/-- What is seen of a command that shows these lines. -/
def commandSigns (id : String) (c : StepContext) (i : Invocation)
    (lines : List (OutputStream × String)) : List StepSign :=
  .log ⟨.debug, s!"Step {id} running `{c.redact i.commandLine}`"⟩ :: .invoked i ::
    lines.map fun l => .line l.1 l.2

theorem commandSigns_append (id : String) (c : StepContext) (i : Invocation)
    (a b : List (OutputStream × String)) :
    commandSigns id c i (a ++ b) = commandSigns id c i a ++ b.map fun l => .line l.1 l.2 := by
  simp [commandSigns]

section Turn

variable {runner : Runner} {limit : Option Span} {id : String} {c : StepContext}
  {transcript : List String} {past : List Invocation} {elapsed : Nat} {program : String}
  {args : List String} {rest : List (List String)} {i : Invocation}

/-- A command shows its lines, whatever comes of it. -/
theorem runCommands_shows (runner : Runner) (limit : Option Span) (id : String)
    (transcript : List String) (past : List Invocation) (elapsed : Nat) (rest : List (List String))
    (hi : i = c.ask program args) :
    commandSigns id c i (playActs limit elapsed (runner (past ++ [i])).acts).1 <+:
      (Step.runCommands runner limit id c transcript past elapsed
        ((program :: args) :: rest)).signs := by
  subst hi
  simp only [Step.runCommands, Invocation.ofArgv?]
  split
  · exact List.prefix_rfl
  · split
    · exact ⟨_, rfl⟩
    · split <;> exact ⟨_, rfl⟩

/-- A wait that goes beyond the limit leaves the command without an answer. -/
theorem runCommands_held {before after : List RunnerAct} {span : Span}
    (hi : i = c.ask program args)
    (ha : (runner (past ++ [i])).acts = before ++ .wait span :: after)
    (hin : inTime limit (elapsed + delay before) = true)
    (hout : inTime limit (elapsed + delay before + span.nanos) = false) :
    Step.runCommands runner limit id c transcript past elapsed ((program :: args) :: rest) =
      ⟨commandSigns id c i (lines before), past ++ [i], elapsed, none⟩ := by
  have hp : playActs limit elapsed (runner (past ++ [i])).acts = (lines before, none) := by
    rw [ha, playActs_append hin]
    simp [playActs, hout]
  subst hi
  unfold StepContext.ask at hp
  simp only [Step.runCommands, Invocation.ofArgv?, hp]
  rfl

theorem runCommands_next {o : CommandOutput} (hi : i = c.ask program args)
    (ho : (runner (past ++ [i])).outcome = .ok o) (hs : o.success = true)
    (hin : inTime limit (elapsed + (runner (past ++ [i])).delay) = true) :
    Step.runCommands runner limit id c transcript past elapsed ((program :: args) :: rest) =
      .after (commandSigns id c i (runner (past ++ [i])).lines)
        (Step.runCommands runner limit id c (transcript ++ [o.output]) (past ++ [i])
          (elapsed + (runner (past ++ [i])).delay) rest) := by
  have hp := playActs_whole hin
  subst hi
  unfold StepContext.ask at hp ho
  simp only [Step.runCommands, Invocation.ofArgv?, hp, ho, hs]
  rfl

/-- How a command fails its step does not depend on the time that it takes. -/
theorem runCommands_stopped (id : String) (transcript : List String) (hi : i = c.ask program args)
    (hf : (runner (past ++ [i])).succeeded = false) :
    ∃ error output, ∀ (limit : Option Span) (elapsed : Nat) (rest : List (List String)),
      inTime limit (elapsed + (runner (past ++ [i])).delay) = true →
      Step.runCommands runner limit id c transcript past elapsed ((program :: args) :: rest) =
        .failure (commandSigns id c i (runner (past ++ [i])).lines ++
            [.log ⟨.error, s!"Step {id} failed: {error}"⟩])
          (past ++ [i]) (elapsed + (runner (past ++ [i])).delay) error output := by
  subst hi
  unfold Reply.succeeded StepContext.ask at hf
  unfold StepContext.ask
  split at hf
  · rename_i o ho
    refine ⟨exitFault (c.redact (c.ask program args).commandLine) o.exit,
      c.redact ("\n".intercalate (transcript ++ [o.output])), fun limit elapsed rest hin => ?_⟩
    have hp := playActs_whole hin
    simp only [Step.runCommands, Invocation.ofArgv?, hp, ho, hf]
    rfl
  · rename_i e he
    refine ⟨c.redact e.message, c.redact ("\n".intercalate transcript),
      fun limit elapsed rest hin => ?_⟩
    have hp := playActs_whole hin
    simp only [Step.runCommands, Invocation.ofArgv?, hp, he]
    rfl

end Turn

end Proofs

end ReleaseJob
