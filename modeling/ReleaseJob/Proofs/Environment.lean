import Mathlib.Data.List.Nodup
import ReleaseJob.Proofs.Course

namespace ReleaseJob

/-- What every step is told about the release, by the name of the variable. -/
def Job.releaseValue? (j : Job) : String → Option String
  | "RELEASE_TAG" => some j.tag.name
  | "RELEASE_VERSION" => some j.tag.version
  | "RELEASE_REPOSITORY" => some j.repository
  | "RELEASE_COMMIT" => j.commit
  | _ => none

/-- What a store has for a step under a name that the step declares. -/
def Step.secretValue? (s : Step) (store : SecretStore) (n : String) : Option String :=
  if n ∈ s.secrets then (store.get? n).map Secret.expose else none

namespace Proofs
open Bindings

/-- No declared secret goes by the name of a plain variable. -/
theorem unshadowed_of_validate {c : Config} (h : c.validate = .ok ()) :
    ∀ n ∈ c.secretNames, c.isPlain n = false := by
  obtain ⟨_, _, _, _, _, hsecrets⟩ := validateAlong_ok.mp h
  intro n hn
  have hc := hsecrets n hn
  rw [Config.checkSecret, guard_ok, throw_ok] at hc
  exact Bool.eq_false_iff.mpr hc.2

/-- Variables that are added to a job leave the names of its secrets alone. -/
theorem override_ok {secrets : List String} {pairs : List (String × String)} {j₀ j : Job}
    (h : j₀.override secrets pairs = .ok j) :
    ∃ env, j = { j₀ with env } ∧ ∀ n ∈ secrets, env.get? n = j₀.env.get? n := by
  induction pairs generalizing j₀ with
  | nil =>
    cases h
    exact ⟨_, rfl, fun _ _ => rfl⟩
  | cons pair rest ih =>
    obtain ⟨name, value⟩ := pair
    rw [Job.override] at h
    split at h
    · cases h
    · next hname =>
      obtain ⟨env, rfl, henv⟩ := ih h
      refine ⟨env, rfl, fun n hn => ?_⟩
      have hne : n ≠ name := fun he => hname (he ▸ hn)
      rw [henv n hn, get?_insert, if_neg hne]

section Lookup

variable {setup : RunSetup} {j : Job} {w : String} {s : Step} {n : String} {i : Invocation}

/-- A name that is set twice counts as set last, so the list is looked up from its end. -/
theorem get?_releaseEnv (j : Job) (n : String) :
    Entries.get? n j.releaseEnv.reverse = j.releaseValue? n := by
  have hnodup : (j.releaseEnv.map Prod.fst).Nodup := by
    cases hc : j.commit <;> simp [Job.releaseEnv, hc]
  rw [Entries.get?_reverse hnodup]
  unfold Job.releaseValue?
  split <;> cases hc : j.commit <;> simp_all [Job.releaseEnv, Entries.get?]

/-- A plain variable of a step is told about the release or else is set by the step or the job. -/
theorem get?_contextEnv (setup : RunSetup) (j : Job) (w : String) (s : Step) (n : String) :
    (contextOf setup j w s).env.get? n =
      (j.releaseValue? n).or ((s.env.get? n).or (j.env.get? n)) := by
  rw [contextOf, Job.contextFor, get?_insertAll, get?_overlay, get?_releaseEnv]

/-- Under the name of a declared secret nothing is inherited. -/
theorem get?_childEnv (hi : i ∈ demand setup j w s) (hn : n ∈ j.secretNames) (host : Env) :
    (i.childEnv host).get? n = (contextOf setup j w s).processEnv.get? n := by
  obtain ⟨_, henv, hremove, _⟩ := mem_asked hi
  have hr : n ∈ i.envRemove := hremove ▸ hn
  rw [Invocation.childEnv, get?_overlay, get?_eraseAll, if_pos hr, Option.or_none, henv]

/-- A step without secrets sees plain variables only. -/
theorem processEnv_plain (hs : s.secrets = []) :
    (contextOf setup j w s).processEnv = (contextOf setup j w s).env := by
  simp [contextOf, Job.contextFor, StepContext.processEnv, hs, insertAll]

/-- What a step sees under a name is its secret of that name, or else its plain variable. -/
theorem get?_processEnv (setup : RunSetup) (j : Job) (w : String) (s : Step) (n : String) :
    (contextOf setup j w s).processEnv.get? n =
      (s.secretValue? setup.secrets n).or ((contextOf setup j w s).env.get? n) := by
  have henv : (contextOf setup j w s).processEnv = (contextOf setup j w s).env.insertAll
      ((contextOf setup j w s).secrets.map fun b => (b.1, b.2.expose)) := rfl
  have hmem {e : String × String} :
      e ∈ ((contextOf setup j w s).secrets.map fun b => (b.1, b.2.expose)).reverse ↔
        ∃ v, e.1 ∈ s.secrets ∧ setup.secrets.get? e.1 = some v ∧ e.2 = v.expose := by
    simp only [contextOf, Job.contextFor, List.mem_reverse, List.mem_map, List.mem_filterMap,
      Option.map_eq_some_iff]
    constructor
    · rintro ⟨_, ⟨name, hname, v, hv, rfl⟩, rfl⟩
      exact ⟨v, hname, hv, rfl⟩
    · rintro ⟨v, hname, hv, he⟩
      exact ⟨_, ⟨e.1, hname, v, hv, rfl⟩, Prod.ext rfl he.symm⟩
  rw [henv, get?_insertAll]
  congr 1
  cases hvalue : s.secretValue? setup.secrets n with
  | none =>
    rw [Entries.get?_eq_none_iff]
    rintro e he rfl
    obtain ⟨v, hname, hv, -⟩ := hmem.mp he
    simp [Step.secretValue?, hname, hv] at hvalue
  | some value =>
    obtain ⟨hname, v, hv, rfl⟩ : n ∈ s.secrets ∧ ∃ v, setup.secrets.get? n = some v ∧
        v.expose = value := by simpa [Step.secretValue?] using hvalue
    -- a name that is declared twice is bound twice, both times to this value
    refine Entries.get?_eq_some ⟨(n, v.expose), hmem.mpr ⟨v, hname, hv, rfl⟩, rfl⟩ ?_
    rintro e he rfl
    obtain ⟨u, -, hu, heq⟩ := hmem.mp he
    rw [heq, Option.some.inj (hu.symm.trans hv)]

/-- A step that is ready sees each of its secrets as the store has it. -/
theorem processEnv_secret (hr : ready setup j w s = true) (hn : n ∈ s.secrets) :
    ∃ v, setup.secrets.get? n = some v ∧
      (contextOf setup j w s).processEnv.get? n = some v.expose := by
  rw [ready, Bool.and_eq_true] at hr
  obtain ⟨v, hv⟩ := Option.isSome_iff_exists.mp (List.all_eq_true.mp hr.1 n hn)
  have hvalue : s.secretValue? setup.secrets n = some v.expose := by
    simp [Step.secretValue?, hn, hv]
  exact ⟨v, hv, by rw [get?_processEnv, hvalue]; rfl⟩

end Lookup

section Made

variable {c : Config} {p : Push} {id : RunId} {j₀ j : Job} {pairs : List (String × String)}
  {s : Step} {n : String}

theorem made_steps (hj : Job.forPush c p id = .ok (some j₀))
    (ho : j₀.override c.secretNames pairs = .ok j) : j.steps = c.steps.map Step.ofConfig := by
  obtain ⟨_, rfl, _⟩ := override_ok ho
  have hsteps := forPush_steps hj
  exact hsteps

theorem made_fresh (hj : Job.forPush c p id = .ok (some j₀))
    (ho : j₀.override c.secretNames pairs = .ok j) : Fresh j := by
  obtain ⟨_, rfl, _⟩ := override_ok ho
  exact ⟨(forPush_fresh hj).pending, (forPush_fresh hj).counts⟩

/-- Added variables declare no secret. -/
theorem made_secretNames (hj : Job.forPush c p id = .ok (some j₀))
    (ho : j₀.override c.secretNames pairs = .ok j) : j.secretNames = c.secretNames := by
  rw [Job.secretNames, made_steps hj ho, List.flatMap_map]
  rfl

/-- Neither the job nor a step sets a variable that goes by the name of a declared secret. -/
theorem made_unshadowed (hv : c.validate = .ok ()) (hj : Job.forPush c p id = .ok (some j₀))
    (ho : j₀.override c.secretNames pairs = .ok j) (hn : n ∈ c.secretNames) (hs : s ∈ j.steps) :
    j.env.get? n = none ∧ s.env.get? n = none := by
  have hplain := unshadowed_of_validate hv n hn
  simp only [Config.isPlain, Bool.or_eq_false_iff, List.any_eq_false, contains,
    Bool.not_eq_true, Option.isSome_eq_false_iff, Option.isNone_iff_eq_none]
    at hplain
  obtain ⟨henv, hsteps⟩ := hplain
  rw [made_steps hj ho] at hs
  obtain ⟨t, ht, rfl⟩ := List.mem_map.mp hs
  refine ⟨?_, hsteps t ht⟩
  obtain ⟨env, rfl, hsame⟩ := override_ok ho
  obtain ⟨_, _, _, _, rfl⟩ := forPush_ok.mp hj
  exact (hsame n hn).trans henv

/-- All declared secrets are those of the publish step. -/
theorem made_publish (hv : c.validate = .ok ()) (hj : Job.forPush c p id = .ok (some j₀))
    (ho : j₀.override c.secretNames pairs = .ok j) (hs : s ∈ j.steps) (hk : s.kind = .publish)
    (hn : n ∈ c.secretNames) : n ∈ s.secrets := by
  have ha := admitted_of_validate hv
  rw [made_steps hj ho] at hs
  obtain ⟨t, ht, rfl⟩ := List.mem_map.mp hs
  obtain ⟨u, hu, hnu⟩ := List.mem_flatMap.mp (Names.mem_ofList.mp hn)
  have hku : u.kind = .publish := by
    refine Classical.byContradiction fun hk => ?_
    rw [ha.plain u hu hk] at hnu
    cases hnu
  have hnodup : (c.steps.map (·.kind)).Nodup := by
    rw [ha.kinds]
    decide
  have heq : t = u := List.inj_on_of_nodup_map hnodup ht hu (hk.trans hku.symm)
  exact heq ▸ hnu

theorem made_plain (hv : c.validate = .ok ()) (hj : Job.forPush c p id = .ok (some j₀))
    (ho : j₀.override c.secretNames pairs = .ok j) (hs : s ∈ j.steps) (hk : s.kind ≠ .publish) :
    s.secrets = [] := by
  rw [made_steps hj ho] at hs
  obtain ⟨t, ht, rfl⟩ := List.mem_map.mp hs
  exact (admitted_of_validate hv).plain t ht hk

end Made

/-- For a configuration that passes validation, and whatever the host holds: under the name of a
declared secret a command of a step before the publish step finds nothing, unless that name stands
for something about the release, and an invoked command of the publish step finds what the store
has. The names that are removed are the ones that are looked up. -/
theorem secrets_confined {c : Config} {p : Push} {id : RunId} {j₀ j : Job}
    {pairs : List (String × String)} (hv : c.validate = .ok ())
    (hj : Job.forPush c p id = .ok (some j₀)) (ho : j₀.override c.secretNames pairs = .ok j)
    (setup : RunSetup) (limit : Option Span) (reason : String) (host : Env) :
    j.secretNames = c.secretNames ∧ c.secretNames.Pairwise (· < ·) ∧
    (∀ n, n ∈ c.secretNames ↔ ∃ s ∈ c.steps, n ∈ s.secrets) ∧
    (∀ w s, ∀ i ∈ demand setup j w s, i.envRemove = c.secretNames) ∧
    (∀ s ∈ j.steps, s.kind ≠ .publish → ∀ w, ∀ i ∈ demand setup j w s, ∀ n ∈ c.secretNames,
      (i.childEnv host).get? n = j.releaseValue? n) ∧
    ∀ e ∈ placed 0 (j.runWithin setup limit reason).signs,
      ∃ w k s, setup.workspace = .ok w ∧ e.1 = k + 1 ∧ j.steps[k]? = some s ∧
        e.2 ∈ demand setup j w s ∧
        (s.kind = .publish → ∀ n ∈ c.secretNames, ∃ v, setup.secrets.get? n = some v ∧
          (e.2.childEnv host).get? n = some v.expose) := by
  have hnames := made_secretNames hj ho
  refine ⟨hnames, Names.pairwise_ofList _, fun n => Names.mem_ofList.trans List.mem_flatMap,
    ?_, ?_, ?_⟩
  · intro w s i hi
    obtain ⟨_, _, hremove, _⟩ := mem_asked hi
    exact hremove.trans hnames
  · intro s hs hk w i hi n hn
    obtain ⟨hjob, hstep⟩ := made_unshadowed hv hj ho hn hs
    rw [get?_childEnv hi (hnames ▸ hn), processEnv_plain (made_plain hv hj ho hs hk),
      get?_contextEnv, hjob, hstep, Option.or_none, Option.or_none]
  · intro e he
    obtain ⟨w, hw, k, s, hplace, hs, hready, hd⟩ :=
      runWithin_placed (made_fresh hj ho) setup limit reason e he
    refine ⟨w, k, s, hw, by omega, hs, hd, fun hk n hn => ?_⟩
    have hmine := made_publish hv hj ho (List.mem_of_getElem? hs) hk hn
    rw [get?_childEnv hd (hnames ▸ hn)]
    exact processEnv_secret hready hmine

/-- The stock job with one more variable. -/
def coloured : Job := { stockJob with env := stockJob.env.insert "CARGO_TERM_COLOR" "always" }

/-- A host whose own token differs from the one in the store. -/
def hostEnv : Env := .ofList [("CARGO_REGISTRY_TOKEN", "cio-1"), ("PATH", "/usr/bin")]

def publisher : RunSetup :=
  scripted (fun _ => some 0) (.ofPairs [("CARGO_REGISTRY_TOKEN", "cio-7")])

/-- The token of the host reaches no step, and publishing sees the one in the store. -/
theorem token_confined :
    (∀ s ∈ coloured.steps, s.kind ≠ .publish → ∀ i ∈ demand publisher coloured "/work" s,
      (i.childEnv hostEnv).get? "CARGO_REGISTRY_TOKEN" = none) ∧
    ∃ e ∈ placed 0 (coloured.run publisher).signs, e.1 = 4 ∧
      (e.2.childEnv hostEnv).get? "CARGO_REGISTRY_TOKEN" = some "cio-7" := by
  have ho : stockJob.override Config.stock.secretNames [("CARGO_TERM_COLOR", "always")] =
      .ok coloured := rfl
  have hn : "CARGO_REGISTRY_TOKEN" ∈ Config.stock.secretNames := by decide +kernel
  obtain ⟨_, _, _, _, hplain, hplaced⟩ := secrets_confined stock_validates forPush_stock ho publisher
    (some (Job.clockLimit coloured.timeout)) "run cancelled" hostEnv
  refine ⟨fun s hs hk i hi => hplain s hs hk "/work" i hi _ hn, ?_⟩
  have hfound : (placed 0 (coloured.run publisher).signs).any (·.1 = 4) = true := by
    decide +kernel
  have hkind : ∀ s, coloured.steps[3]? = some s → s.kind = .publish := by
    rintro s ⟨⟩
    rfl
  obtain ⟨e, he, hplace⟩ := List.any_eq_true.mp hfound
  have hfourth : e.1 = 4 := of_decide_eq_true hplace
  obtain ⟨w, k, s, _, hk, hs, _, hpublish⟩ := hplaced e he
  obtain rfl : k = 3 := by omega
  obtain ⟨v, hv, hchild⟩ := hpublish (hkind s hs) _ hn
  cases hv
  exact ⟨e, he, hfourth, hchild⟩

end Proofs

end ReleaseJob
