import ReleaseJob.Proofs.Admitted
import ReleaseJob.Proofs.Closing

namespace ReleaseJob.Proofs

def withSecrets (setup : RunSetup) (store : SecretStore) : RunSetup :=
  { setup with secrets := store }

/-- The stores say the same about each of the names. -/
def Agree (a b : SecretStore) (names : List String) : Prop :=
  ∀ name ∈ names, a.get? name = b.get? name

/-- The signs of a run without the log, its result and what it leaves of the job. -/
def observed (r : Job.JobRun) : List JobSign × Ending × Job := (visible r.signs, r.ending, r.job)

/-- No step after the first `n` was started. -/
def StartsBy (n : Nat) (signs : List JobSign) : Prop :=
  ∀ x ∈ signs, ∀ k, x.place? = some k → k ≤ n

theorem StartsBy.append (ha : StartsBy n a) (hb : StartsBy n b) : StartsBy n (a ++ b) := by
  intro x hx
  rcases List.mem_append.mp hx with hx | hx
  · exact ha x hx
  · exact hb x hx

theorem StartsBy.cons {x : JobSign} (hx : x.place? = none) (h : StartsBy n signs) :
    StartsBy n (x :: signs) := by
  intro y hy k hk
  rcases List.mem_cons.mp hy with rfl | hy
  · rw [hx] at hk
    cases hk
  · exact h y hy k hk

theorem StartsBy.nil : StartsBy n [] := by
  simp [StartsBy]

theorem StartsBy.closing (h : ∀ x ∈ signs, x.isClosing = true) : StartsBy n signs := by
  intro x hx k hk
  rw [closing_place (h x hx)] at hk
  cases hk

theorem Closes.startsBy (h : Closes signs all) (hs : StartsBy n signs) : StartsBy n all := by
  obtain ⟨last, rfl, hl⟩ := h
  exact hs.append (.closing hl)

theorem stepSigns_startsBy (hp : place ≤ n) (setup : RunSetup) (j : Job) (w : String) (s : Step)
    (r : StepRun) : StartsBy n (stepSigns setup j w place s r) := by
  intro x hx k hk
  rcases List.mem_cons.mp hx with rfl | hx
  · cases hk
    exact hp
  · obtain ⟨y, _, rfl⟩ := List.mem_map.mp hx
    cases y <;> cases hk

/-- A step behind the first `n` has no sign of its start. -/
theorem StartsBy.not_starting (h : StartsBy n signs) (hp : n < place) (j : Job) (s : Step) :
    starting j place s ∉ signs := by
  intro hm
  have := h _ hm place rfl
  omega

section Stores

variable {setup : RunSetup} {limit : Option Span} {j : Job} {w : String} {s : Step}
  {a b : SecretStore}

theorem bound_congr (h : Agree a b names) :
    names.filterMap (fun name => (a.get? name).map (name, ·)) =
      names.filterMap (fun name => (b.get? name).map (name, ·)) := by
  induction names with
  | nil => rfl
  | cons name rest ih =>
    simp only [List.filterMap_cons, h name List.mem_cons_self,
      ih fun other hm => h other (List.mem_cons_of_mem _ hm)]

/-- A step sees of a store only what it declares. -/
theorem contextOf_congr (h : Agree a b s.secrets) :
    contextOf (withSecrets setup a) j w s = contextOf (withSecrets setup b) j w s := by
  have hm : s.secrets.filter (fun name => (a.get? name).isNone) =
      s.secrets.filter (fun name => (b.get? name).isNone) :=
    List.filter_congr fun name hm => by rw [h name hm]
  simp only [contextOf, Job.contextFor, withSecrets, bound_congr h, hm]

/-- A step reads of the store only what it declares, so the runner is asked the same. -/
theorem stepRun_congr (h : Agree a b s.secrets) (past : List Invocation) (elapsed : Nat) :
    stepRun (withSecrets setup a) limit j w past elapsed s =
      stepRun (withSecrets setup b) limit j w past elapsed s := by
  unfold stepRun
  rw [contextOf_congr h]
  rfl

theorem stepSigns_congr (h : Agree a b s.secrets) (place : Nat) (r : StepRun) :
    stepSigns (withSecrets setup a) j w place s r =
      stepSigns (withSecrets setup b) j w place s r := by
  unfold stepSigns
  rw [contextOf_congr h]

/-- The loop before the steps that are left. -/
structure Reached where
  done : List Step
  counts : Counts
  past : List Invocation
  elapsed : Nat
  signs : List JobSign

/-- Runs the loop on from there. -/
def Reached.onward (p : Reached) (setup : RunSetup) (limit : Option Span) (j : Job) (w : String)
    (rest : List Step) : StepsRun :=
  let next := j.runSteps setup limit w p.done p.counts p.past p.elapsed rest
  { next with signs := p.signs ++ next.signs }

/-- With the stores of `P`, the loop either ends in one way, having started none but the first `n`
steps, or goes on to the rest from one point. -/
inductive Until (setup : RunSetup) (limit : Option Span) (j : Job) (w : String)
    (P : SecretStore → Prop) (n : Nat) (rest : List Step) (run : SecretStore → StepsRun) : Prop
  | ended (r : StepsRun) (hs : StartsBy n r.signs) (h : ∀ b, P b → run b = r)
  | reached (p : Reached) (hp : p.done.length = n) (hs : StartsBy n p.signs)
      (h : ∀ b, P b → run b = p.onward (withSecrets setup b) limit j w rest)

theorem Until.after {P : SecretStore → Prop} {next run : SecretStore → StepsRun}
    (h : Until setup limit j w P n rest next) (hs : StartsBy n signs)
    (he : ∀ b, P b → run b = { next b with signs := signs ++ (next b).signs }) :
    Until setup limit j w P n rest run := by
  cases h with
  | ended r hr h =>
    refine .ended { r with signs := signs ++ r.signs } (hs.append hr) fun b hb => ?_
    rw [he b hb, h b hb]
  | reached p hp hr h =>
    refine .reached { p with signs := signs ++ p.signs } hp (hs.append hr) fun b hb => ?_
    rw [he b hb, h b hb]
    simp [Reached.onward]

/-- The steps before the first difference cannot tell the stores apart. -/
theorem runSteps_until {P : SecretStore → Prop} {first : List Step} (setup : RunSetup)
    (limit : Option Span) (j : Job) (w : String) (rest done : List Step) (counts : Counts)
    (past : List Invocation) (elapsed : Nat) (hP : ∀ b, P b → ∀ s ∈ first, Agree a b s.secrets)
    (hn : done.length + first.length = n) :
    Until setup limit j w P n rest fun b =>
      j.runSteps (withSecrets setup b) limit w done counts past elapsed (first ++ rest) := by
  induction first generalizing done counts past elapsed with
  | nil => exact .reached ⟨done, counts, past, elapsed, []⟩ hn .nil fun _ _ => rfl
  | cons s first ih =>
    rw [List.length_cons] at hn
    have hfirst : ∀ b, P b → ∀ t ∈ first, Agree a b t.secrets :=
      fun b hb t ht => hP b hb t (List.mem_cons_of_mem _ ht)
    have hs' : ∀ b, P b → Agree a b s.secrets := fun b hb => hP b hb s List.mem_cons_self
    have hlength (t : Step) : (done ++ [t]).length + first.length = n := by
      simp
      omega
    cases hs : s.isPending with
    | false =>
      refine (ih (done ++ [s]) counts past elapsed hfirst (hlength s)).after .nil fun b _ => ?_
      exact runSteps_idle hs
    | true =>
      -- the step reads of a store only its own secrets, so one result stands for all of them
      obtain ⟨r, he⟩ : ∃ r, ∀ b, P b →
          stepRun (withSecrets setup b) limit j w past elapsed s = r :=
        ⟨_, fun b hb => (stepRun_congr (hs' b hb) past elapsed).symm⟩
      obtain ⟨signs, hstart, hsigns⟩ : ∃ signs, StartsBy n signs ∧ ∀ b, P b →
          stepSigns (withSecrets setup b) j w (done.length + 1) s r = signs :=
        ⟨_, stepSigns_startsBy (by omega) _ j w s r,
          fun b hb => (stepSigns_congr (hs' b hb) _ r).symm⟩
      cases hr : r.result with
      | none =>
        let t := s.withState (.running (setup.start.add ⟨elapsed⟩))
        refine .ended ⟨done ++ t :: (first ++ rest), counts, signs, r.elapsed, .broken⟩ hstart
          fun b hb => ?_
        rw [← hsigns b hb]
        exact runSteps_broken hs (he b hb) hr
      | some result =>
        cases result with
        | failed error output =>
          let left := skipPending s!"step '{s.id}' failed" (first ++ rest)
          let t := s.withState
            (.failed error (setup.start.add ⟨elapsed⟩) (setup.start.add ⟨r.elapsed⟩))
          refine .ended ⟨done ++ t :: left, .ofSteps (done ++ t :: left),
            signs ++ .event (.stepFailed s.id error) ::
              skipEvents s!"step '{s.id}' failed" (first ++ rest),
            r.elapsed, .failed (.step s.kind error)⟩ ?_ fun b hb => ?_
          · exact hstart.append (.cons rfl (.closing (skipEvents_closing _ _)))
          · rw [← hsigns b hb]
            exact runSteps_failed hs (he b hb) hr rfl
        | success output =>
          let t := s.withState
            (.completed output (setup.start.add ⟨elapsed⟩) (setup.start.add ⟨r.elapsed⟩))
          have hended : StartsBy n (signs ++ [.event (.stepCompleted s.id)]) :=
            hstart.append (.cons rfl .nil)
          refine (ih (done ++ [t]) (.ofSteps (done ++ t :: (first ++ rest))) r.past r.elapsed
            hfirst (hlength t)).after hended fun b hb => ?_
          rw [← hsigns b hb, List.append_assoc]
          exact runSteps_passed hs (he b hb) hr rfl rfl

theorem onward_starts (p : Reached) (setup : RunSetup) (limit : Option Span) (j : Job) (w : String)
    (rest : List Step) (hs : s.isPending = true) :
    ∃ last, (p.onward setup limit j w (s :: rest)).signs =
      p.signs ++ starting j (p.done.length + 1) s :: last := by
  unfold Reached.onward
  obtain ⟨r, hrun⟩ : ∃ r, j.runSteps setup limit w p.done p.counts p.past p.elapsed (s :: rest) = r :=
    ⟨_, rfl⟩
  rw [hrun]
  cases runSteps_turn hrun with
  | idle hidle =>
    rw [hs] at hidle
    cases hidle
  | broken | passed | failed => exact ⟨_, rfl⟩

theorem tearDown_observed (signs : List JobSign) (result : Except JobError Unit) (now : Instant) :
    observed (j.tearDown (withSecrets setup a) w signs result now) =
      observed (j.tearDown (withSecrets setup b) w signs result now) := by
  cases result with
  | ok => rfl
  | error e =>
    unfold observed
    refine Prod.ext ?_ rfl
    simp only [Job.tearDown, visible_append]
    rfl

/-- The end of a run masks with the store, but only in lines of the log. -/
theorem settle_observed (reason : String) (signs : List JobSign) (r : StepsRun) :
    observed (j.settle (withSecrets setup a) limit reason w signs r) =
      observed (j.settle (withSecrets setup b) limit reason w signs r) := by
  unfold Job.settle
  cases r.ending with
  | done => exact tearDown_observed ..
  | failed e => exact tearDown_observed ..
  | broken =>
    change observed (if setup.cancelsWithin limit then _ else _) =
      observed (if setup.cancelsWithin limit then _ else _)
    split
    · rfl
    · exact tearDown_observed ..

theorem runNowhere_observed (cause : OsError) :
    observed (j.runNowhere (withSecrets setup a) cause) =
      observed (j.runNowhere (withSecrets setup b) cause) := by
  unfold observed
  refine Prod.ext ?_ rfl
  simp only [Job.runNowhere, visible_append]
  rfl

variable {reason : String} {first rest : List Step}

theorem opening_startsBy (j : Job) : StartsBy n j.opening := .cons rfl (.cons rfl .nil)

theorem entrance_startsBy : StartsBy n (entrance setup j w) :=
  (opening_startsBy _).append (.cons rfl (.cons rfl .nil))

theorem stepsRun_until (setup : RunSetup) (limit : Option Span) (w : String)
    (hj : j.steps = first ++ rest) (hab : ∀ s ∈ first, Agree a b s.secrets) :
    Until setup (setup.stop limit) (started setup j) w (fun store => store = a ∨ store = b)
      first.length rest fun store => stepsRun (withSecrets setup store) limit j w := by
  have hP : ∀ store, store = a ∨ store = b → ∀ s ∈ first, Agree a store s.secrets := by
    rintro store (rfl | rfl) s hs
    · exact fun _ _ => rfl
    · exact hab s hs
  have hloop := runSteps_until setup (setup.stop limit) (started setup j) w rest []
    j.state.counts [] 0 hP (Nat.zero_add _)
  rw [← hj] at hloop
  exact hloop

/-- Stores that agree on all that is declared make for the same loop. -/
theorem stepsRun_congr (hab : ∀ s ∈ j.steps, Agree a b s.secrets) :
    stepsRun (withSecrets setup a) limit j w = stepsRun (withSecrets setup b) limit j w := by
  cases stepsRun_until setup limit w (List.append_nil _).symm hab with
  | ended r _ h => exact (h a (.inl rfl)).trans (h b (.inr rfl)).symm
  | reached p _ _ h => exact (h a (.inl rfl)).trans (h b (.inr rfl)).symm

/-- What the loop shows is seen of the run. -/
theorem runWithin_shows (hw : setup.workspace = .ok w) (hx : x.log?.isNone = true)
    (hr : (stepsRun setup limit j w).signs = signs ++ x :: last) :
    ∃ post, visible (j.runWithin setup limit reason).signs =
      visible (entrance setup j w ++ signs) ++ x :: post := by
  rw [runWithin_somewhere setup limit reason j hw, hr, ← List.append_assoc]
  obtain ⟨final, hf, _⟩ := settle_closes setup (started setup j) w
    (entrance setup j w ++ signs ++ x :: last) limit reason (stepsRun setup limit j w)
  refine ⟨visible (last ++ final), ?_⟩
  rw [hf, List.append_assoc, visible_append]
  simp [visible, hx]

/-- Stores that agree on what is declared before a pending step cannot be told apart before that
step starts, and not at all if it never does. -/
theorem runWithin_before (setup : RunSetup) (limit : Option Span) (reason : String)
    (hj : j.steps = first ++ s :: rest) (hs : s.isPending = true)
    (hab : ∀ t ∈ first, Agree a b t.secrets) :
    let run (store : SecretStore) := j.runWithin (withSecrets setup store) limit reason
    let start := starting j (first.length + 1) s
    (∃ pre post₁ post₂, start ∉ pre ∧ visible (run a).signs = pre ++ start :: post₁ ∧
      visible (run b).signs = pre ++ start :: post₂) ∨
    (start ∉ (run a).signs ∧ start ∉ (run b).signs ∧ observed (run a) = observed (run b)) := by
  intro run start
  have habsent {signs : List JobSign} (h : StartsBy first.length signs) : start ∉ signs :=
    h.not_starting (Nat.lt_succ_self first.length) j s
  cases hw : setup.workspace with
  | error cause =>
    have hrun (store : SecretStore) : run store =
        (started setup j).runNowhere (withSecrets setup store) cause :=
      runWithin_nowhere (withSecrets setup store) limit reason j hw
    have hstarts (store : SecretStore) : StartsBy first.length (run store).signs := by
      rw [hrun store]
      exact (runNowhere_closes ..).startsBy (opening_startsBy _)
    refine .inr ⟨habsent (hstarts a), habsent (hstarts b), ?_⟩
    rw [hrun a, hrun b]
    exact runNowhere_observed cause
  | ok w =>
    cases stepsRun_until setup limit w hj hab with
    -- no run gets beyond `first`: all of them have this loop
    | ended r hr h =>
      have hrun (store : SecretStore) (hstore : store = a ∨ store = b) : run store =
          (started setup j).settle (withSecrets setup store) limit reason w
            (entrance setup j w ++ r.signs) r := by
        rw [← h store hstore]
        exact runWithin_somewhere (withSecrets setup store) limit reason j hw
      have hstarts (store : SecretStore) (hstore : store = a ∨ store = b) :
          StartsBy first.length (run store).signs := by
        rw [hrun store hstore]
        exact (settle_closes ..).startsBy (entrance_startsBy.append hr)
      refine .inr ⟨habsent (hstarts a (.inl rfl)), habsent (hstarts b (.inr rfl)), ?_⟩
      rw [hrun a (.inl rfl), hrun b (.inr rfl)]
      exact settle_observed ..
    -- the loops are one up to `s`, whose start is the next thing that is seen
    | reached p hp hr h =>
      have hseen (store : SecretStore) (hstore : store = a ∨ store = b) : ∃ post,
          visible (run store).signs =
            visible (entrance setup j w ++ p.signs) ++ start :: post := by
        obtain ⟨last, hlast⟩ := onward_starts p (withSecrets setup store) (setup.stop limit)
          (started setup j) w rest hs
        rw [← h store hstore, hp] at hlast
        exact runWithin_shows hw rfl hlast
      obtain ⟨post₁, h₁⟩ := hseen a (.inl rfl)
      obtain ⟨post₂, h₂⟩ := hseen b (.inr rfl)
      refine .inl ⟨_, post₁, post₂, ?_, h₁, h₂⟩
      intro hm
      exact habsent (entrance_startsBy.append hr) (List.mem_filter.mp hm).1

/-- Where no step can tell the stores apart, the runs are one. -/
theorem runWithin_agree (hab : ∀ s ∈ j.steps, Agree a b s.secrets) :
    observed (j.runWithin (withSecrets setup a) limit reason) =
      observed (j.runWithin (withSecrets setup b) limit reason) := by
  cases hw : setup.workspace with
  | error cause =>
    rw [runWithin_nowhere (withSecrets setup a) limit reason j hw,
      runWithin_nowhere (withSecrets setup b) limit reason j hw]
    exact runNowhere_observed cause
  | ok w =>
    rw [runWithin_somewhere (withSecrets setup a) limit reason j hw,
      runWithin_somewhere (withSecrets setup b) limit reason j hw, stepsRun_congr hab]
    exact settle_observed ..

end Stores

/-- For a configuration that passes validation, no two stores can be told apart before the publish
step starts: log lines aside, both runs show the same up to that start, or both end without it and
agree in all they show, in their results and in the jobs they leave. Stores that say the same about
the secrets of the publish step cannot be told apart at all. -/
theorem secrets_unseen {c : Config} {p : Push} {id : RunId} {j : Job} (hv : c.validate = .ok ())
    (hj : Job.forPush c p id = .ok (some j)) (setup : RunSetup) (timeout : Span) (reason : String)
    (a b : SecretStore) :
    let run (store : SecretStore) := { j with timeout }.run (withSecrets setup store) reason
    (∃ s, j.steps[3]? = some s ∧ s.kind = .publish ∧
      let start := starting j 4 s
      ((∃ pre post₁ post₂, start ∉ pre ∧ visible (run a).signs = pre ++ start :: post₁ ∧
          visible (run b).signs = pre ++ start :: post₂) ∨
        (start ∉ (run a).signs ∧ start ∉ (run b).signs ∧ observed (run a) = observed (run b)))) ∧
    ((∀ s ∈ j.steps, s.kind = .publish → Agree a b s.secrets) →
      observed (run a) = observed (run b)) := by
  intro run
  obtain ⟨first, last, hsteps, hlength, hlast, hplain⟩ :=
    forPush_split (admitted_of_validate hv) hj
  have hab : ∀ s ∈ first, Agree a b s.secrets := by
    intro s hs
    rw [hplain s hs]
    nofun
  have hpending : last.isPending = true := by
    rw [Step.isPending, (forPush_fresh hj).pending last (by simp [hsteps])]
    rfl
  refine ⟨⟨last, ?_, hlast, ?_⟩, ?_⟩
  · rw [hsteps, ← hlength]
    simp
  · have h := runWithin_before (j := { j with timeout }) setup
      (some (Job.clockLimit timeout)) reason hsteps hpending hab
    rw [hlength] at h
    exact h
  · intro hpublish
    apply runWithin_agree
    intro s hs
    rcases List.mem_append.mp (hsteps ▸ hs) with hs' | hs'
    · exact hab s hs'
    · rw [List.mem_singleton.mp hs']
      exact hpublish last (by simp [hsteps]) hlast

def token : SecretStore := .ofPairs [("CARGO_REGISTRY_TOKEN", "cio-7")]

/-- The stock job with all its commands succeeding. -/
def stockRun (store : SecretStore) : Job.JobRun :=
  stockJob.run (withSecrets (scripted (fun _ => some 0) .empty) store)

/-- Only one of the runs publishes, yet they cannot be told apart before the publish step. -/
theorem token_unseen :
    (stockRun .empty).job.published = false ∧ (stockRun token).job.published = true ∧
    (∃ s pre post₁ post₂, s.kind = .publish ∧
      visible (stockRun .empty).signs = pre ++ starting stockJob 4 s :: post₁ ∧
      visible (stockRun token).signs = pre ++ starting stockJob 4 s :: post₂) ∧
    observed (stockRun token) = observed (stockRun (token.insert "NPM_TOKEN" ⟨"npm-3"⟩)) := by
  have hmissing : (stockRun .empty).job.published = false := by decide +kernel
  have hshipped : (stockRun token).job.published = true := by decide +kernel
  refine ⟨hmissing, hshipped, ?_, ?_⟩
  · obtain ⟨⟨s, _, hkind, h⟩, _⟩ := secrets_unseen stock_validates forPush_stock
      (scripted (fun _ => some 0) .empty) stockJob.timeout "run cancelled" .empty token
    rcases h with ⟨pre, post₁, post₂, _, h₁, h₂⟩ | ⟨_, _, ho⟩
    · exact ⟨s, pre, post₁, post₂, hkind, h₁, h₂⟩
    · have hp : (stockRun .empty).job.published = (stockRun token).job.published :=
        congrArg (fun o : List JobSign × Ending × Job => o.2.2.published) ho
      rw [hmissing, hshipped] at hp
      contradiction
  · obtain ⟨_, h⟩ := secrets_unseen stock_validates forPush_stock
      (scripted (fun _ => some 0) .empty) stockJob.timeout "run cancelled" token
      (token.insert "NPM_TOKEN" ⟨"npm-3"⟩)
    have hother : ∀ s ∈ stockJob.steps, ∀ name ∈ s.secrets, name ≠ "NPM_TOKEN" := by
      decide +kernel
    refine h fun s hs _ name hn => ?_
    rw [Bindings.get?_insert, if_neg (hother s hs name hn)]

end ReleaseJob.Proofs
