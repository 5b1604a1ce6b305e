import ReleaseJob.Step.Run

namespace ReleaseJob

def Reply.succeeded (r : Reply) : Bool :=
  match r.outcome with
  | .ok o => o.success
  | .error _ => false

def StepSign.invocation? : StepSign → Option Invocation
  | invoked i => some i
  | _ => none

def StepRun.succeeded (r : StepRun) : Bool :=
  match r.result with
  | some (.success _) => true
  | _ => false

def StepResult.output : StepResult → String
  | success output => output
  | failed _ output => output

namespace Proofs

/-- Invocations up to the first that does not succeed, that one included. -/
def attempted (runner : Runner) (past : List Invocation) : List Invocation → List Invocation
  | [] => []
  | i :: rest =>
    i :: if (runner (past ++ [i])).succeeded then attempted runner (past ++ [i]) rest else []

/-- Whether all of them succeed. -/
def passes (runner : Runner) (past : List Invocation) : List Invocation → Bool
  | [] => true
  | i :: rest => (runner (past ++ [i])).succeeded && passes runner (past ++ [i]) rest

/-- What is invoked is a front of what is asked for; where it is cut is up to the runner alone. -/
theorem attempted_prefix (runner : Runner) (past plan : List Invocation) :
    attempted runner past plan <+: plan := by
  induction plan generalizing past with
  | nil => exact List.prefix_refl _
  | cons i rest ih =>
    simp only [attempted]
    split
    · exact (List.prefix_cons_inj i).mpr (ih _)
    · exact ⟨rest, rfl⟩

theorem attempted_of_passes (h : passes runner past plan = true) :
    attempted runner past plan = plan := by
  induction plan generalizing past with
  | nil => rfl
  | cons i rest ih =>
    simp only [passes, Bool.and_eq_true] at h
    simp [attempted, h.1, ih h.2]

/-- Commands that follow are reached only if all before them succeed. -/
theorem attempted_append (runner : Runner) (past a b : List Invocation) :
    attempted runner past (a ++ b) =
      if passes runner past a then a ++ attempted runner (past ++ a) b
      else attempted runner past a := by
  induction a generalizing past with
  | nil => simp [passes]
  | cons i rest ih =>
    cases hi : (runner (past ++ [i])).succeeded with
    | false => simp [attempted, passes, hi]
    | true =>
      simp only [List.cons_append, attempted, passes, hi, ih, ↓reduceIte, Bool.true_and,
        List.append_assoc, List.nil_append]
      split <;> rfl

theorem passes_append (runner : Runner) (past a b : List Invocation) :
    passes runner past (a ++ b) = (passes runner past a && passes runner (past ++ a) b) := by
  induction a generalizing past with
  | nil => simp [passes]
  | cons i rest ih => simp [passes, ih, Bool.and_assoc]

/-- Each command of a list that passes exited with code zero. -/
theorem exit_of_passes (h : passes runner past plan = true) (hp : before ++ [i] <+: plan) :
    ∃ o, (runner (past ++ before ++ [i])).outcome = .ok o ∧ o.exit = some 0 := by
  obtain ⟨after, rfl⟩ := hp
  simp only [List.append_assoc, passes_append, Bool.and_eq_true] at h
  obtain ⟨_, hi, _⟩ := h
  simp only [passes, Bool.and_true, List.append_assoc] at hi
  unfold Reply.succeeded at hi
  rw [List.append_assoc]
  split at hi
  · rename_i o ho
    exact ⟨o, ho, by simpa [CommandOutput.success] using hi⟩
  · contradiction

/-- What command lines ask of the runner, up to one that is empty. -/
def asked (c : StepContext) : List (List String) → List Invocation
  | (program :: args) :: rest =>
    { program, args, workdir := c.workdir, env := c.processEnv, envRemove := c.envRemove } ::
      asked c rest
  | _ => []

/-- Nothing is left out where every command line names a program. -/
theorem asked_commands (h : commands.all (!·.isEmpty) = true) :
    (asked c commands).map (fun i => i.program :: i.args) = commands := by
  induction commands with
  | nil => rfl
  | cons argv rest ih =>
    cases argv with
    | nil => cases h
    | cons program args =>
      rw [List.all_cons, Bool.and_eq_true] at h
      rw [asked, List.map_cons, ih h.2]

theorem ofArgv?_eq_none_iff : Invocation.ofArgv? argv w = none ↔ argv = [] := by
  cases argv <;> simp [Invocation.ofArgv?]

/-- The invocation is the one that its command line asks for first. -/
theorem asked_cons (h : Invocation.ofArgv? argv c.workdir = some bare) (rest : List (List String)) :
    asked c (argv :: rest) =
      { bare with env := c.processEnv, envRemove := c.envRemove } :: asked c rest := by
  cases argv with
  | nil => cases h
  | cons program args =>
    cases h
    rfl

/-- A command shows one invocation, whatever it prints. -/
theorem command_signs (l : LogLine) (i : Invocation) (lines : List (OutputStream × String)) :
    (StepSign.log l :: .invoked i :: lines.map fun p => .line p.1 p.2).filterMap
      StepSign.invocation? = [i] := by
  have hl : (lines.map fun p => StepSign.line p.1 p.2).filterMap StepSign.invocation? = [] := by
    rw [List.filterMap_map]
    exact List.filterMap_eq_nil_iff.mpr fun _ _ => rfl
  simp only [List.filterMap_cons, StepSign.invocation?, hl]

theorem snoc_log_signs (signs : List StepSign) (l : LogLine) :
    (signs ++ [StepSign.log l]).filterMap StepSign.invocation? =
      signs.filterMap StepSign.invocation? := by
  simp [StepSign.invocation?]

/-- A command that does not succeed ends the step with what was attempted so far. -/
theorem failure_invocations (hs : signs.filterMap StepSign.invocation? = [i])
    (hf : (runner (past ++ [i])).succeeded = false) (l : LogLine) (elapsed : Nat)
    (error output : String) (plan : List Invocation) (b : Bool) :
    (StepRun.failure (signs ++ [.log l]) (past ++ [i]) elapsed error output).signs.filterMap
      StepSign.invocation? = attempted runner past (i :: plan) ∧
    past ++ [i] = past ++ attempted runner past (i :: plan) ∧
    false = (passes runner past (i :: plan) && b) := by
  simp [StepRun.failure, attempted, passes, hs, hf, StepSign.invocation?]

/-- Commands that were not broken off ran up to the first that did not succeed. -/
theorem runCommands_invocations {runner : Runner} {limit : Option Span} {id : String}
    {c : StepContext} {transcript : List String} {past : List Invocation} {elapsed : Nat}
    {commands : List (List String)} {r : StepRun}
    (he : Step.runCommands runner limit id c transcript past elapsed commands = r)
    (hr : r.result ≠ none) :
    r.signs.filterMap StepSign.invocation? = attempted runner past (asked c commands) ∧
    r.past = past ++ attempted runner past (asked c commands) ∧
    r.succeeded = (passes runner past (asked c commands) && commands.all (!·.isEmpty)) := by
  subst he
  fun_induction Step.runCommands runner limit id c transcript past elapsed commands with
  | case1 => simp [asked, attempted, passes, StepRun.succeeded, StepSign.invocation?]
  | case2 _ _ _ argv _ hn =>
    rw [ofArgv?_eq_none_iff.mp hn]
    simp [asked, attempted, passes, StepRun.failure, StepRun.succeeded]
  | case3 => exact absurd rfl hr
  | case4 _ past _ argv rest _ hb i _ seen reply lines signs _ fault e ho =>
    have hf : reply.succeeded = false := by simp [Reply.succeeded, ho]
    rw [asked_cons hb]
    exact failure_invocations (command_signs _ i lines) hf ..
  | case5 _ past _ argv rest _ hb i _ seen reply lines signs _ o ho _ hok _ ih =>
    have hs : signs.filterMap StepSign.invocation? = [i] := command_signs _ i lines
    have ht : (runner (past ++ [i])).succeeded = true := by
      change reply.succeeded = true
      simpa [Reply.succeeded, ho] using hok
    have ha : asked c (argv :: rest) = i :: asked c rest := asked_cons hb rest
    have hne : argv.isEmpty = false := by
      cases argv with
      | nil => cases hb
      | cons => rfl
    obtain ⟨hi, hp, hw⟩ := ih hr
    refine ⟨?_, ?_, ?_⟩
    · simp only [StepRun.after, List.filterMap_append, hs, hi, ha, attempted, ht, ↓reduceIte]
      rfl
    · simp only [StepRun.after, hp, ha, attempted, ht, ↓reduceIte]
      simp [seen]
    · rw [ha, passes, ht, List.all_cons, hne]
      exact hw
  | case6 _ past _ argv rest _ hb i _ seen reply lines signs _ fault o ho _ hno =>
    have hf : reply.succeeded = false := by simpa [Reply.succeeded, ho] using hno
    rw [asked_cons hb]
    exact failure_invocations (command_signs _ i lines) hf ..

/-- How commands come to a result: which of them were invoked, and how the last one failed. The
texts are masked, except for what is said about a command line that is empty. -/
inductive Finish (runner : Runner) (past : List Invocation) (c : StepContext)
    (commands : List (List String)) : List Invocation → StepResult → Prop
  | success {invoked : List Invocation} {text : String} (hp : passes runner past invoked = true) :
      Finish runner past c commands invoked (.success (c.redact text))
  | empty {invoked : List Invocation} {text : String} (hm : [] ∈ commands)
      (hp : passes runner past invoked = true) :
      Finish runner past c commands invoked
        (.failed RunnerError.emptyCommand.message (c.redact text))
  | refused {before : List Invocation} {i : Invocation} {e : RunnerError} {text : String}
      (he : (runner (past ++ before ++ [i])).outcome = .error e) :
      Finish runner past c commands (before ++ [i]) (.failed (c.redact e.message) (c.redact text))
  | exited {before : List Invocation} {i : Invocation} {o : CommandOutput} {text : String}
      (ho : (runner (past ++ before ++ [i])).outcome = .ok o) (hf : o.success = false) :
      Finish runner past c commands (before ++ [i])
        (.failed (exitFault (c.redact i.commandLine) o.exit) (c.redact text))

/-- A command that succeeds goes in front. -/
theorem Finish.after {argv : List String} {rest : List (List String)} {result : StepResult}
    (hs : (runner (past ++ [i])).succeeded = true)
    (h : Finish runner (past ++ [i]) c rest invoked result) :
    Finish runner past c (argv :: rest) (i :: invoked) result := by
  have hpast (before : List Invocation) (last : Invocation) :
      past ++ [i] ++ before ++ [last] = past ++ (i :: before) ++ [last] := by simp
  cases h with
  | success hp => exact .success (by rw [passes, hs, hp]; rfl)
  | empty hm hp => exact .empty (List.mem_cons_of_mem _ hm) (by rw [passes, hs, hp]; rfl)
  | refused he =>
    rw [hpast] at he
    rw [← List.cons_append]
    exact .refused he
  | exited ho hf =>
    rw [hpast] at ho
    rw [← List.cons_append]
    exact .exited ho hf

/-- The last command that was invoked decides the result; those before it succeeded. -/
theorem runCommands_finish {runner : Runner} {limit : Option Span} {id : String}
    {c : StepContext} {transcript : List String} {past : List Invocation} {elapsed : Nat}
    {commands : List (List String)} {r : StepRun} {result : StepResult}
    (he : Step.runCommands runner limit id c transcript past elapsed commands = r)
    (hr : r.result = some result) :
    Finish runner past c commands (r.signs.filterMap StepSign.invocation?) result := by
  subst he
  fun_induction Step.runCommands runner limit id c transcript past elapsed commands with
  | case1 =>
    cases hr
    exact .success rfl
  | case2 _ _ _ argv _ hn =>
    cases hr
    exact .empty (ofArgv?_eq_none_iff.mp hn ▸ List.mem_cons_self) rfl
  | case3 => cases hr
  | case4 _ past _ argv rest _ hb i _ seen reply lines signs _ fault e ho =>
    cases hr
    change Finish _ _ _ _ ((signs ++ [_]).filterMap StepSign.invocation?) _
    rw [snoc_log_signs, command_signs _ i lines, ← List.nil_append [i]]
    exact .refused (by rw [List.append_nil]; exact ho)
  | case5 _ past _ argv rest _ hb i _ seen reply lines signs _ o ho _ hok _ ih =>
    have hs : signs.filterMap StepSign.invocation? = [i] := command_signs _ i lines
    have ht : (runner (past ++ [i])).succeeded = true := by
      change reply.succeeded = true
      simpa [Reply.succeeded, ho] using hok
    rw [StepRun.after, List.filterMap_append, hs]
    exact (ih hr).after ht
  | case6 _ past _ argv rest _ hb i _ seen reply lines signs _ fault o ho _ hno =>
    cases hr
    change Finish _ _ _ _ ((signs ++ [_]).filterMap StepSign.invocation?) _
    rw [snoc_log_signs, command_signs _ i lines, ← List.nil_append [i]]
    exact .exited (by rw [List.append_nil]; exact ho) (Bool.eq_false_iff.mpr hno)

/-- A step comes to its result by its commands, unless it is short of a secret. -/
theorem run_finish {runner : Runner} {limit : Option Span} {s : Step} {c : StepContext}
    {past : List Invocation} {elapsed : Nat} {r : StepRun} {result : StepResult}
    (he : s.run runner limit c past elapsed = r) (hr : r.result = some result) :
    (c.missing ≠ [] ∧ r.signs.filterMap StepSign.invocation? = [] ∧ result.output = "") ∨
      Finish runner past c (s.commands c) (r.signs.filterMap StepSign.invocation?) result := by
  subst he
  cases hm : c.missing with
  | nil =>
    simp only [Step.run, hm, List.isEmpty_nil, ↓reduceIte, StepRun.after] at hr ⊢
    exact .inr (runCommands_finish rfl hr)
  | cons =>
    simp only [Step.run, hm, List.isEmpty_cons, Bool.false_eq_true, ↓reduceIte, StepRun.failure]
      at hr ⊢
    cases hr
    exact .inl ⟨List.cons_ne_nil _ _, rfl, rfl⟩

end Proofs

end ReleaseJob
