import ReleaseJob.Job.Run

namespace ReleaseJob.Proofs

/-- A chain of checks succeeds through the value of its first part; the next lemmas open the forms
that such a chain takes. -/
theorem bind_ok {x : Except ε α} {f : α → Except ε β} :
    x >>= f = .ok b ↔ ∃ a, x = .ok a ∧ f a = .ok b := by
  cases x <;> simp [bind, Except.bind]

/-- One check after another. -/
theorem then_ok {x : Except ε Unit} {g : Except ε β} :
    (x >>= fun _ => g) = .ok b ↔ x = .ok () ∧ g = .ok b := by
  cases x <;> simp [bind, Except.bind]

/-- A check that raises a fault lets through what does not meet its condition. -/
theorem guard_ok {p : Prop} [Decidable p] {e : ε} {f : Unit → Except ε β} {g : Except ε β} :
    (if p then (throw e : Except ε Unit) >>= f else g) = .ok b ↔ ¬p ∧ g = .ok b := by
  split
  · simp_all [throw, throwThe, MonadExceptOf.throw, bind, Except.bind]
  · simp_all

/-- A check that comes last. -/
theorem throw_ok {p : Prop} [Decidable p] {e : ε} :
    (if p then (throw e : Except ε Unit) else pure ()) = .ok () ↔ ¬p := by
  split
  · simp_all [throw, throwThe, MonadExceptOf.throw]
  · simp_all [pure, Except.pure]

theorem forM_ok {f : α → Except ε Unit} {l : List α} :
    l.forM f = .ok () ↔ ∀ x ∈ l, f x = .ok () := by
  induction l with
  | nil => simp [pure, Except.pure]
  | cons x rest ih =>
    change (f x >>= fun _ => rest.forM f) = .ok () ↔ _
    rw [then_ok, List.forall_mem_cons, ← ih]

theorem mapError_ok {x : Except ε α} {f : ε → ε'} {a : α} : x.mapError f = .ok a ↔ x = .ok a := by
  cases x with
  | error e =>
    constructor
    · intro h
      cases h
    · intro h
      cases h
  | ok y =>
    constructor
    · intro h
      cases h
      rfl
    · intro h
      cases h
      rfl

theorem discard_ok {x : Except ε α} : discard x = .ok () ↔ ∃ a, x = .ok a := by
  cases x with
  | error e =>
    constructor
    · intro h
      cases h
    · intro ⟨a, h⟩
      cases h
  | ok a => exact iff_of_true rfl ⟨a, rfl⟩

/-- Every step is checked, and its id is new. -/
theorem checkAll_ok {seen : List String} {l : List StepConfig} :
    StepConfig.checkAll seen l = .ok () ↔
      (l.map (·.stepId)).Nodup ∧ (∀ s ∈ l, s.stepId ∉ seen) ∧ ∀ s ∈ l, s.check = .ok () := by
  induction l generalizing seen with
  | nil => simp [StepConfig.checkAll, pure, Except.pure]
  | cons s rest ih =>
    rw [StepConfig.checkAll, guard_ok, then_ok, List.forall_mem_cons, List.forall_mem_cons,
      List.map_cons, List.nodup_cons]
    simp only [ih, List.mem_cons, not_or, List.mem_map, not_exists, not_and]
    constructor
    · rintro ⟨hs, hc, hd, hr, hall⟩
      exact ⟨⟨fun t ht he => (hr t ht).1 he, hd⟩, ⟨hs, fun t ht => (hr t ht).2⟩, hc, hall⟩
    · rintro ⟨⟨he, hd⟩, ⟨hs, hr⟩, hc, hall⟩
      exact ⟨hs, hc, hd, fun t ht => ⟨he t ht, hr t ht⟩, hall⟩

/-- All that validation looks at, in its order. -/
theorem validateAlong_ok {c : Config} {walk : List String} : c.validateAlong walk = .ok () ↔
    (∃ trigger, c.trigger = .ok trigger) ∧ c.steps.map (·.kind) = StepKind.sequence ∧
    c.checkTimeout = .ok () ∧ StepConfig.checkAll [] c.steps = .ok () ∧
    (∃ s ∈ c.steps, s.kind = .publish ∧ s.secrets ≠ []) ∧
    ∀ n ∈ walk, c.checkSecret n = .ok () := by
  have htrigger : discard (c.trigger.mapError ConfigFault.trigger) = .ok () ↔
      ∃ trigger, c.trigger = .ok trigger := by
    simp only [discard_ok, mapError_ok]
  have htoken : ¬(c.steps.all fun s => s.kind ≠ .publish || s.secrets.isEmpty) = true ↔
      ∃ s ∈ c.steps, s.kind = .publish ∧ s.secrets ≠ [] := by
    simp
  rw [Config.validateAlong, then_ok, htrigger, guard_ok, Decidable.not_not, then_ok, then_ok,
    guard_ok, htoken, forM_ok]

theorem check_secrets {s : StepConfig} (h : s.check = .ok ()) (hk : s.kind ≠ .publish) :
    s.secrets = [] := by
  rw [StepConfig.check, guard_ok] at h
  exact Classical.byContradiction fun hs => h.1 ⟨hk, hs⟩

/-- The kinds stand in their sequence, and only the publish step has secrets. -/
structure Admitted (c : Config) : Prop where
  kinds : c.steps.map (·.kind) = StepKind.sequence
  plain : ∀ s ∈ c.steps, s.kind ≠ .publish → s.secrets = []

/-- Of all that validation checks, this is what the course of a run depends on. -/
theorem admitted_of_validate {c : Config} (h : c.validate = .ok ()) : Admitted c := by
  obtain ⟨_, hk, _, hs, _, _⟩ := validateAlong_ok.mp h
  exact ⟨hk, fun s hm => check_secrets ((checkAll_ok.mp hs).2.2 s hm)⟩

/-- The publish step comes last, and is the only one of its kind. -/
theorem sequence_split {c : Config} (h : c.steps.map (·.kind) = StepKind.sequence) :
    ∃ first last, c.steps = first ++ [last] ∧ first.map (·.kind) = [.checkout, .toolchain, .test] ∧
      last.kind = .publish ∧ ∀ s ∈ first, s.kind ≠ .publish := by
  rcases List.eq_nil_or_concat c.steps with hc | ⟨first, last, hc⟩
  · rw [hc] at h
    cases h
  · rw [List.concat_eq_append] at hc
    have hk : first.map (·.kind) ++ [last.kind] = [.checkout, .toolchain, .test] ++ [.publish] := by
      rw [hc, List.map_append] at h
      exact h
    obtain ⟨hfirst, hlast⟩ := List.append_inj' hk rfl
    refine ⟨first, last, hc, hfirst, List.singleton_inj.mp hlast, ?_⟩
    intro s hs he
    have hm : StepKind.publish ∈ first.map (·.kind) := he ▸ List.mem_map_of_mem hs
    rw [hfirst] at hm
    revert hm
    decide

theorem Admitted.split {c : Config} (h : Admitted c) : ∃ first last, c.steps = first ++ [last] ∧
    first.map (·.kind) = [.checkout, .toolchain, .test] ∧ last.kind = .publish ∧
    ∀ s ∈ first, s.secrets = [] := by
  obtain ⟨first, last, hc, hfirst, hlast, hne⟩ := sequence_split h.kinds
  refine ⟨first, last, hc, hfirst, hlast, ?_⟩
  intro s hs
  exact h.plain s (hc ▸ List.mem_append_left _ hs) (hne s hs)

/-- A job of which no step has run. -/
structure Fresh (j : Job) : Prop where
  pending : ∀ s ∈ j.steps, s.state = .pending
  counts : j.state.counts = .zero

theorem Fresh.within {j : Job} (h : Fresh j) (timeout : Span) : Fresh { j with timeout } :=
  ⟨h.pending, h.counts⟩

/-- A job is made of the tag that fires, and of nothing else that the trigger knows. -/
theorem forPush_ok {id : RunId} : Job.forPush c p id = .ok (some j) ↔
    ∃ trigger tag, c.trigger = .ok trigger ∧ trigger.fire? p = some tag ∧
      Job.ofConfig c tag p id = j := by
  rw [Job.forPush, bind_ok]
  simp [pure, Except.pure]

section Made

variable {c : Config} {p : Push} {id : RunId} {j : Job}

theorem forPush_steps (hj : Job.forPush c p id = .ok (some j)) :
    j.steps = c.steps.map Step.ofConfig := by
  obtain ⟨_, _, _, _, rfl⟩ := forPush_ok.mp hj
  rfl

theorem forPush_fresh (hj : Job.forPush c p id = .ok (some j)) : Fresh j := by
  refine ⟨?_, ?_⟩
  · intro s hs
    rw [forPush_steps hj] at hs
    obtain ⟨t, _, rfl⟩ := List.mem_map.mp hs
    rfl
  · obtain ⟨_, _, _, _, rfl⟩ := forPush_ok.mp hj
    rfl

theorem forPush_kinds (h : Admitted c) (hj : Job.forPush c p id = .ok (some j)) :
    j.steps.map (·.kind) = StepKind.sequence := by
  rw [forPush_steps hj, ← h.kinds]
  exact List.map_map

/-- The publish step is the last one, and no step before it has a secret. -/
theorem forPush_split (h : Admitted c) (hj : Job.forPush c p id = .ok (some j)) :
    ∃ first last, j.steps = first ++ [last] ∧ first.length = 3 ∧ last.kind = .publish ∧
      ∀ s ∈ first, s.secrets = [] := by
  obtain ⟨first, last, hc, hfirst, hlast, hplain⟩ := h.split
  refine ⟨first.map Step.ofConfig, .ofConfig last, ?_, ?_, hlast, ?_⟩
  · rw [forPush_steps hj, hc, List.map_append]
    rfl
  · rw [List.length_map, ← List.length_map (·.kind), hfirst]
    rfl
  · intro s hs
    obtain ⟨t, ht, rfl⟩ := List.mem_map.mp hs
    exact hplain t ht

end Made

def stockPush : Push := ⟨"refs/tags/v1.2.3", "https://example.com/relay.git", some "abc123"⟩

def stockId : RunId := ⟨List.replicate 32 ⟨7, by decide⟩, rfl⟩

/-- The job of the stock configuration for a version tag. -/
def stockJob : Job := .ofConfig .stock ⟨"v1.2.3", "1.2.3"⟩ stockPush stockId

/-- The stock job with twelve nanoseconds. -/
def hurried : Job := { stockJob with timeout := ⟨12⟩ }

/-- Commands that take five nanoseconds each and exit as told, by their number. -/
def scripted (exit : Nat → Option Int) (secrets : SecretStore) : RunSetup where
  runner past := ⟨[.wait ⟨5⟩], .ok ⟨exit past.length, ""⟩⟩
  secrets
  workspace := .ok "/work"
  start := ⟨0, 0⟩

theorem ok_of_isOk {x : Except ε Unit} (h : x.isOk = true) : x = .ok () := by
  cases x with
  | ok => rfl
  | error => cases h

theorem stock_validates : Config.stock.validate = .ok () := ok_of_isOk (by decide +kernel)

theorem forPush_stock : Job.forPush .stock stockPush stockId = .ok (some stockJob) := by
  have ht : (Config.stock.trigger.toOption.bind (·.fire? stockPush)) =
      some ⟨"v1.2.3", "1.2.3"⟩ := by decide +kernel
  rw [forPush_ok]
  cases hc : Config.stock.trigger with
  | error e =>
    rw [hc] at ht
    cases ht
  | ok trigger =>
    rw [hc] at ht
    exact ⟨trigger, _, rfl, ht, rfl⟩

theorem hurried_fresh : Fresh hurried := (forPush_fresh forPush_stock).within ⟨12⟩

end ReleaseJob.Proofs
