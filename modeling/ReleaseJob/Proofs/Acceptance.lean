import Mathlib.Data.List.Forall2
import Mathlib.Data.List.TakeWhile
import ReleaseJob.Proofs.Admitted

namespace ReleaseJob.Proofs

/-- Not all of a text is blank. -/
def HasWord (text : String) : Prop := ∃ c ∈ text.toList, Text.isBlank c = false

theorem words_ne_nil_iff {text : String} : Text.words text ≠ [] ↔ HasWord text := by
  rw [Ne, Text.words_eq_nil_iff]
  simp [HasWord]

/-- Validation asks for what trimming leaves, and a run for the words; there is something in both
for the same texts. -/
theorem trim_ne_empty_iff {text : String} : Text.trim text ≠ "" ↔ HasWord text := by
  have hbody : (text.toList.dropWhile Text.isBlank).reverse.dropWhile Text.isBlank = [] ↔
      text.toList.dropWhile Text.isBlank = [] := by
    constructor
    · intro h
      -- the first character of what is left is not blank, so nothing can be left
      by_contra hne
      have hhead := List.head_dropWhile_not Text.isBlank hne
      have hall := List.dropWhile_eq_nil_iff.mp h _ (List.mem_reverse.mpr (List.head_mem hne))
      rw [hall] at hhead
      cases hhead
    · intro h
      rw [h]
      rfl
  rw [Ne, Text.trim, String.ofList_eq_empty_iff, List.reverse_eq_nil_iff, hbody,
    List.dropWhile_eq_nil_iff]
  simp [HasWord]

/-- The conditions that a configuration has to satisfy. -/
structure Specified (c : Config) : Prop where
  tagged : c.tags ≠ []
  compiled : ∀ tag ∈ c.tags, ∃ p, TagPattern.parse tag = .ok p
  ordered : c.steps.map (·.kind) = [.checkout, .toolchain, .test, .publish]
  limited : ∀ minutes, c.timeout = some minutes → minutes ≠ 0 ∧ 60 * minutes ≤ Nat.pow 2 64 - 1
  distinct : (c.steps.map (·.stepId)).Nodup
  confined : ∀ s ∈ c.steps, s.secrets ≠ [] ↔ s.kind = .publish
  worded : ∀ s ∈ c.steps, ∀ run, s.run = some run → HasWord run
  provisioned : ∀ s ∈ c.steps, s.kind = .toolchain →
    s.run ≠ none ∨ ∃ channel, s.channel = some channel ∧ HasWord channel
  unshadowed : ∀ s ∈ c.steps, ∀ name ∈ s.secrets, HasWord name ∧ c.env.get? name = none ∧
    ∀ t ∈ c.steps, t.env.get? name = none

section Conditions

variable {c : Config} {s : StepConfig}

theorem mapM_ok {f : α → Except ε β} {l : List α} {r : List β} :
    l.mapM f = .ok r ↔ List.Forall₂ (fun x y => f x = .ok y) l r := by
  induction l generalizing r with
  | nil => cases r <;> simp [pure, Except.pure]
  | cons x rest ih =>
    rw [List.mapM_cons]
    simp only [bind_ok, pure, Except.pure, Except.ok.injEq, ih]
    constructor
    · rintro ⟨y, hx, ys, hr, rfl⟩
      exact .cons hx hr
    · rintro (_ | ⟨hx, hr⟩)
      exact ⟨_, hx, _, hr, rfl⟩

theorem exists_forall₂_iff {R : α → β → Prop} {l : List α} :
    (∃ r, List.Forall₂ R l r) ↔ ∀ x ∈ l, ∃ y, R x y := by
  induction l with
  | nil => simp
  | cons x rest ih =>
    rw [List.forall_mem_cons, ← ih]
    simp only [List.forall₂_cons_left_iff]
    constructor
    · rintro ⟨_, y, r, hx, hr, rfl⟩
      exact ⟨⟨y, hx⟩, r, hr⟩
    · rintro ⟨⟨y, hx⟩, r, hr⟩
      exact ⟨_, y, r, hx, hr, rfl⟩

/-- Every filter has to parse by itself: none is refused for what stands beside it. -/
theorem trigger_ok : (∃ trigger, c.trigger = .ok trigger) ↔
    c.tags ≠ [] ∧ ∀ tag ∈ c.tags, ∃ p, TagPattern.parse tag = .ok p := by
  rw [← exists_forall₂_iff]
  unfold Config.trigger Trigger.ofGlobs
  simp only [bind_ok, mapM_ok, mapError_ok]
  constructor
  · rintro ⟨trigger, patterns, hp, ht⟩
    refine ⟨?_, patterns, hp⟩
    intro htags
    rw [htags, List.forall₂_nil_left_iff] at hp
    rw [dif_pos hp] at ht
    cases ht
  · rintro ⟨htags, patterns, hp⟩
    have hne : patterns ≠ [] := by
      rintro rfl
      exact htags (List.forall₂_nil_right_iff.mp hp)
    exact ⟨⟨patterns, hne⟩, patterns, hp, dif_neg hne⟩

theorem checkTimeout_ok : c.checkTimeout = .ok () ↔
    ∀ minutes, c.timeout = some minutes → minutes ≠ 0 ∧ 60 * minutes ≤ Nat.pow 2 64 - 1 := by
  rw [Config.checkTimeout, guard_ok, throw_ok, Config.timeoutMinutes]
  cases c.timeout with
  | none => simp [Config.defaultTimeoutMinutes]
  | some minutes => simp; omega

/-- A step on its own. -/
theorem check_ok : s.check = .ok () ↔ (s.kind ≠ .publish → s.secrets = []) ∧
    (∀ run, s.run = some run → HasWord run) ∧
    (s.kind = .toolchain → s.run ≠ none ∨ ∃ channel, s.channel = some channel ∧ HasWord channel) := by
  have hrun : ¬s.argv = some [] ↔ ∀ run, s.run = some run → HasWord run := by
    rw [StepConfig.argv]
    cases s.run with
    | none => simp
    | some run => simpa using words_ne_nil_iff
  have hchannel : Text.trim (s.channel.getD "") ≠ "" ↔
      ∃ channel, s.channel = some channel ∧ HasWord channel := by
    cases s.channel with
    | none => simp [trim_ne_empty_iff, HasWord]
    | some channel => simpa using trim_ne_empty_iff
  rw [StepConfig.check, guard_ok, guard_ok, throw_ok, hrun, ← hchannel]
  refine and_congr ?_ (and_congr_right fun _ => ?_)
  · rw [not_and, not_not]
  · rw [not_and, not_and_or]

/-- The variables of every step count, not only those of the step that declares the secret. -/
theorem checkSecret_ok {name : String} : c.checkSecret name = .ok () ↔
    HasWord name ∧ c.env.get? name = none ∧ ∀ t ∈ c.steps, t.env.get? name = none := by
  rw [Config.checkSecret, guard_ok, throw_ok, ← Ne, trim_ne_empty_iff, Config.isPlain]
  simp [Bindings.contains]

/-- Where the kinds stand in their sequence, the publish step is the only one of its kind. -/
theorem confined_iff (hk : c.steps.map (·.kind) = StepKind.sequence) :
    ((∀ s ∈ c.steps, s.kind ≠ .publish → s.secrets = []) ∧
      ∃ s ∈ c.steps, s.kind = .publish ∧ s.secrets ≠ []) ↔
    ∀ s ∈ c.steps, s.secrets ≠ [] ↔ s.kind = .publish := by
  constructor
  · rintro ⟨hplain, t, ht, htk, hsome⟩
    obtain ⟨first, last, hc, -, hlast, hne⟩ := sequence_split hk
    have hthis {s : StepConfig} (hs : s ∈ c.steps) (hkind : s.kind = .publish) : s = last := by
      rw [hc, List.mem_append, List.mem_singleton] at hs
      rcases hs with hs | hs
      · exact absurd hkind (hne s hs)
      · exact hs
    intro s hs
    constructor
    · intro hsecrets
      exact not_not.mp fun hn => hsecrets (hplain s hs hn)
    · intro hkind
      rwa [hthis hs hkind, ← hthis ht htk]
  · intro h
    have hm : StepKind.publish ∈ c.steps.map (·.kind) := by
      rw [hk]
      decide
    obtain ⟨s, hs, hkind⟩ := List.mem_map.mp hm
    exact ⟨fun s hs hn => not_not.mp fun hne => hn ((h s hs).mp hne), s, hs, hkind,
      (h s hs).mpr hkind⟩

end Conditions

/-- Validation accepts a configuration if and only if it satisfies the conditions of the
specification, whatever the order in which the declared secrets are looked at. -/
theorem validateAlong_ok_iff {c : Config} {walk : List String} (hw : walk.Perm c.secretNames) :
    c.validateAlong walk = .ok () ↔ Specified c := by
  have hsecrets : (∀ n ∈ walk, c.checkSecret n = .ok ()) ↔ ∀ s ∈ c.steps, ∀ name ∈ s.secrets,
      HasWord name ∧ c.env.get? name = none ∧ ∀ t ∈ c.steps, t.env.get? name = none := by
    simp only [checkSecret_ok, hw.mem_iff, Config.secretNames, Names.mem_ofList, List.mem_flatMap]
    exact ⟨fun h s hs n hn => h n ⟨s, hs, hn⟩, fun h n ⟨s, hs, hn⟩ => h s hs n hn⟩
  rw [validateAlong_ok, trigger_ok, checkTimeout_ok, checkAll_ok, hsecrets]
  simp only [check_ok]
  constructor
  · rintro ⟨⟨htags, hcompiled⟩, hk, ht, ⟨hd, -, hc⟩, hpub, hs⟩
    exact {
      tagged := htags
      compiled := hcompiled
      ordered := hk
      limited := ht
      distinct := hd
      confined := (confined_iff hk).mp ⟨fun s hs => (hc s hs).1, hpub⟩
      worded := fun s hs => (hc s hs).2.1
      provisioned := fun s hs => (hc s hs).2.2
      unshadowed := hs }
  · intro h
    obtain ⟨hplain, hpub⟩ := (confined_iff h.ordered).mpr h.confined
    exact ⟨⟨h.tagged, h.compiled⟩, h.ordered, h.limited,
      ⟨h.distinct, by simp, fun s hs => ⟨hplain s hs, h.worded s hs, h.provisioned s hs⟩⟩, hpub,
      h.unshadowed⟩

/-- The stock configuration with a second token, declared before the first in the order of names. -/
def twoTokens : Config :=
  { Config.stock with steps := Config.stock.steps.map fun s =>
      if s.kind = .publish then { s with secrets := ["REGISTRY_TOKEN", "INDEX_TOKEN", "REGISTRY_TOKEN"] }
      else s }

/-- The secrets may be looked at in another order than that of their names. -/
theorem twoTokens_specified : ["REGISTRY_TOKEN", "INDEX_TOKEN"].Perm twoTokens.secretNames ∧
    Specified twoTokens := by
  have hwalk : ["REGISTRY_TOKEN", "INDEX_TOKEN"].Perm twoTokens.secretNames := by decide +kernel
  exact ⟨hwalk, (validateAlong_ok_iff hwalk).mp (ok_of_isOk (by decide +kernel))⟩

end ReleaseJob.Proofs
