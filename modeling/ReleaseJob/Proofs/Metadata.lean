import ReleaseJob.Proofs.Environment

namespace ReleaseJob.Proofs
open Bindings

section Told

variable {setup : RunSetup} {j : Job} {w : String} {s : Step} {n v : String} {i : Invocation}

/-- Whatever else is set, only a secret of the step can stand where the release is told about. -/
theorem get?_metadata (hi : i ∈ demand setup j w s) (hv : j.releaseValue? n = some v) (host : Env) :
    (i.childEnv host).get? n = some ((s.secretValue? setup.secrets n).getD v) := by
  obtain ⟨-, henv, -, -⟩ := mem_asked hi
  rw [Invocation.childEnv, get?_overlay, henv, get?_processEnv, get?_contextEnv, hv]
  cases s.secretValue? setup.secrets n <;> rfl

theorem secretValue?_undeclared (h : n ∉ s.secrets) (store : SecretStore) :
    s.secretValue? store n = none :=
  if_neg h

end Told

section Made

variable {c : Config} {p : Push} {id : RunId} {j₀ j : Job} {pairs : List (String × String)}
  {s : Step} {n : String}

/-- The job tells about the push that it was made for. -/
theorem made_metadata (hj : Job.forPush c p id = .ok (some j₀))
    (ho : j₀.override c.secretNames pairs = .ok j) :
    (∃ name, p.tagName? = some name ∧ j.tag = .ofName name) ∧ j.repository = p.repository ∧
      j.commit = p.commit := by
  obtain ⟨_, rfl, _⟩ := override_ok ho
  obtain ⟨trigger, tag, -, hfire, rfl⟩ := forPush_ok.mp hj
  refine ⟨?_, rfl, rfl⟩
  rw [Trigger.fire?, Option.bind_eq_bind, Option.bind_eq_some_iff] at hfire
  obtain ⟨name, hname, hfire⟩ := hfire
  split at hfire
  · cases hfire
    exact ⟨name, hname, rfl⟩
  · cases hfire

/-- Where no secret goes by a name of the metadata, nothing can stand in its place. -/
theorem made_undeclared (hv : c.validate = .ok ()) (hj : Job.forPush c p id = .ok (some j₀))
    (ho : j₀.override c.secretNames pairs = .ok j) (hs : s ∈ j.steps)
    (h : s.kind ≠ .publish ∨ n ∉ c.secretNames) : n ∉ s.secrets := by
  intro hn
  rcases h with hk | hn'
  · rw [made_plain hv hj ho hs hk] at hn
    cases hn
  · rw [← made_secretNames hj ho] at hn'
    exact hn' (Names.mem_ofList.mpr (List.mem_flatMap.mpr ⟨s, hs, hn⟩))

end Made

/-- The job of a configuration that passes validation tells each of its commands the tag, the version,
the repository and the commit of the push, whatever plain variables are set. Only a secret that the
publish step declares under one of these names is found in the place of what is told. -/
theorem metadata_told {c : Config} {p : Push} {id : RunId} {j₀ j : Job}
    {pairs : List (String × String)} (hv : c.validate = .ok ())
    (hj : Job.forPush c p id = .ok (some j₀)) (ho : j₀.override c.secretNames pairs = .ok j)
    (setup : RunSetup) (limit : Option Span) (reason : String) (host : Env) :
    ((∃ name, p.tagName? = some name ∧ j.tag = .ofName name) ∧ j.repository = p.repository ∧
      j.commit = p.commit) ∧
    (∀ s ∈ j.steps, ∀ w, ∀ i ∈ demand setup j w s, ∀ n v, j.releaseValue? n = some v →
      (i.childEnv host).get? n = some ((s.secretValue? setup.secrets n).getD v) ∧
      (s.kind ≠ .publish ∨ n ∉ c.secretNames → (i.childEnv host).get? n = some v)) ∧
    ∀ e ∈ placed 0 (j.runWithin setup limit reason).signs,
      ∃ w k s, setup.workspace = .ok w ∧ e.1 = k + 1 ∧ j.steps[k]? = some s ∧
        e.2 ∈ demand setup j w s := by
  refine ⟨made_metadata hj ho, fun s hs w i hi n v hvalue => ?_, fun e he => ?_⟩
  · have hfound := get?_metadata hi hvalue host
    refine ⟨hfound, fun h => ?_⟩
    rw [hfound, secretValue?_undeclared (made_undeclared hv hj ho hs h)]
    rfl
  · obtain ⟨w, hw, k, s, hplace, hs, -, hd⟩ :=
      runWithin_placed (made_fresh hj ho) setup limit reason e he
    exact ⟨w, k, s, hw, by omega, hs, hd⟩

/-- The stock job with a variable of its own where the tag is told. -/
def renamed : Job := { stockJob with env := stockJob.env.insert "RELEASE_TAG" "v0.0.0" }

/-- A plain variable of that name does not reach the command. -/
theorem renamed_told :
    renamed.env.get? "RELEASE_TAG" = some "v0.0.0" ∧
    ∀ s ∈ renamed.steps, ∀ i ∈ demand publisher renamed "/work" s,
      (i.childEnv hostEnv).get? "RELEASE_TAG" = some "v1.2.3" := by
  have ho : stockJob.override Config.stock.secretNames [("RELEASE_TAG", "v0.0.0")] = .ok renamed :=
    rfl
  have hn : "RELEASE_TAG" ∉ Config.stock.secretNames := by decide +kernel
  obtain ⟨-, htold, -⟩ := metadata_told stock_validates forPush_stock ho publisher none
    "run cancelled" hostEnv
  exact ⟨rfl, fun s hs i hi => (htold s hs "/work" i hi _ _ rfl).2 (.inr hn)⟩

/-- The stock configuration with a second secret, declared under the name of the tag. -/
def greedy : Config :=
  { Config.stock with steps := Config.stock.steps.map fun s =>
      if s.kind = .publish then { s with secrets := ["CARGO_REGISTRY_TOKEN", "RELEASE_TAG"] } else s }

def greedyJob : Job := .ofConfig greedy ⟨"v1.2.3", "1.2.3"⟩ stockPush stockId

/-- All commands succeed, and the store holds a tag of its own. -/
def mistagged : RunSetup :=
  scripted (fun _ => some 0) (.ofPairs [("CARGO_REGISTRY_TOKEN", "cio-7"), ("RELEASE_TAG", "v9.9.9")])

theorem forPush_greedy : Job.forPush greedy stockPush stockId = .ok (some greedyJob) := by
  obtain ⟨trigger, tag, htrigger, hfire, hjob⟩ := forPush_ok.mp forPush_stock
  have htag : tag = ⟨"v1.2.3", "1.2.3"⟩ := congrArg Job.tag hjob
  exact forPush_ok.mpr ⟨trigger, tag, htrigger, hfire, by rw [htag]; rfl⟩

/-- The publish step of a valid configuration is told another tag than the one that was pushed. -/
theorem greedy_mistold :
    greedy.validate = .ok () ∧ Job.forPush greedy stockPush stockId = .ok (some greedyJob) ∧
    greedyJob.override greedy.secretNames [] = .ok greedyJob ∧
    stockPush.tagName? = some "v1.2.3" ∧
    ∃ e ∈ placed 0 (greedyJob.run mistagged).signs, e.1 = 4 ∧
      (e.2.childEnv .empty).get? "RELEASE_TAG" = some "v9.9.9" := by
  refine ⟨ok_of_isOk (by decide +kernel), forPush_greedy, rfl, by decide +kernel, ?_⟩
  have hfound : (placed 0 (greedyJob.run mistagged).signs).any (fun e => e.1 = 4 &&
      (e.2.childEnv .empty).get? "RELEASE_TAG" = some "v9.9.9") = true := by decide +kernel
  obtain ⟨e, he, h⟩ := List.any_eq_true.mp hfound
  rw [Bool.and_eq_true, decide_eq_true_eq, decide_eq_true_eq] at h
  exact ⟨e, he, h⟩

end ReleaseJob.Proofs
