import ReleaseJob.Proofs.Fates
import ReleaseJob.Proofs.Masking
import ReleaseJob.Proofs.Noninterference

namespace ReleaseJob

/-- What a store holds of the secrets that a step declares. -/
def Step.bound (s : Step) (store : SecretStore) : List Secret := s.secrets.filterMap store.get?

def StepContext.values (c : StepContext) : List Secret := c.secrets.map Prod.snd

namespace Proofs

/-- What the run of a step hides of its secrets: all of them, in the output, in the error of a
runner, and in the command line that is quoted for a command which came to a bad end. -/
structure Discreet (runner : Runner) (past : List Invocation) (c : StepContext) (r : StepRun) :
    Prop where
  output : ∀ result, r.result = some result → Hidden c.values result.output
  refused : ∀ error output, r.result = some (.failed error output) →
    ∀ before i e, r.signs.filterMap StepSign.invocation? = before ++ [i] →
      (runner (past ++ before ++ [i])).outcome = .error e → Hidden c.values error
  exited : ∀ error output, r.result = some (.failed error output) →
    ∀ before i o, r.signs.filterMap StepSign.invocation? = before ++ [i] →
      (runner (past ++ before ++ [i])).outcome = .ok o → o.exit ≠ some 0 →
      ∃ line, error = exitFault line o.exit ∧ Hidden c.values line

section Executor

variable {runner : Runner} {past before invoked : List Invocation} {c : StepContext}
  {commands : List (List String)} {result : StepResult} {i : Invocation} {error text : String}

theorem hidden_empty (values : List Secret) : Hidden values "" := by
  rintro v - ⟨hne, hi⟩
  exact hne (String.toList_eq_nil_iff.mp (List.infix_nil.mp hi))

/-- Whatever is masked with the values that are bound to a step hides all of them. For each text
that comes out of a step it is then enough that it was masked so. -/
theorem redact_hidden (hs : Starless c.values) (text : String) : Hidden c.values (c.redact text) :=
  redactAll_hidden hs text

theorem Finish.masked (h : Finish runner past c commands invoked result) :
    ∃ text, result.output = c.redact text := by
  cases h <;> exact ⟨_, rfl⟩

/-- Of the commands of a step that failed, the last one says why, unless it succeeded and the next
command line was empty. -/
theorem Finish.last (h : Finish runner past c commands (before ++ [i]) (.failed error text)) :
    (∃ o, (runner (past ++ before ++ [i])).outcome = .ok o ∧ o.exit = some 0) ∨
    (∃ e, (runner (past ++ before ++ [i])).outcome = .error e ∧ error = c.redact e.message) ∨
    ∃ o, (runner (past ++ before ++ [i])).outcome = .ok o ∧
      error = exitFault (c.redact i.commandLine) o.exit := by
  generalize hi : before ++ [i] = invoked at h
  cases h with
  | empty _ hp => exact .inl (exit_of_passes (hi ▸ hp) List.prefix_rfl)
  | refused he =>
    obtain ⟨rfl, hlast⟩ := List.append_inj' hi rfl
    cases hlast
    exact .inr (.inl ⟨_, he, rfl⟩)
  | exited ho =>
    obtain ⟨rfl, hlast⟩ := List.append_inj' hi rfl
    cases hlast
    exact .inr (.inr ⟨_, ho, rfl⟩)

theorem Finish.discreet {r : StepRun} (hs : Starless c.values) (hr : r.result = some result)
    (h : Finish runner past c commands (r.signs.filterMap StepSign.invocation?) result) :
    Discreet runner past c r := by
  refine ⟨fun result' hr' => ?_, fun error output hr' before i e hi he => ?_,
    fun error output hr' before i o hi ho hne => ?_⟩
  all_goals
    rw [hr] at hr'
    cases hr'
  · obtain ⟨text, htext⟩ := h.masked
    exact htext ▸ redact_hidden hs text
  · rw [hi] at h
    rcases h.last with ⟨o, ho, -⟩ | ⟨e', -, rfl⟩ | ⟨o, ho, -⟩
    · rw [he] at ho
      cases ho
    · exact redact_hidden hs _
    · rw [he] at ho
      cases ho
  · rw [hi] at h
    rcases h.last with ⟨o', ho', hexit⟩ | ⟨e, he, -⟩ | ⟨o', ho', rfl⟩
    · rw [ho] at ho'
      cases ho'
      exact absurd hexit hne
    · rw [ho] at he
      cases he
    · rw [ho] at ho'
      cases ho'
      exact ⟨_, rfl, redact_hidden hs _⟩

/-- Whatever the runner answers, a step hides its own secrets. -/
theorem run_discreet (runner : Runner) (limit : Option Span) (s : Step) (past : List Invocation)
    (elapsed : Nat) (hs : Starless c.values) :
    Discreet runner past c (s.run runner limit c past elapsed) := by
  obtain ⟨r, he⟩ : ∃ r, s.run runner limit c past elapsed = r := ⟨_, rfl⟩
  rw [he]
  cases hr : r.result with
  | none => exact ⟨by simp [hr], by simp [hr], by simp [hr]⟩
  | some result =>
    rcases run_finish he hr with ⟨-, hi, hempty⟩ | h
    · refine ⟨fun result' hr' => ?_, ?_, ?_⟩
      · rw [hr] at hr'
        cases hr'
        exact hempty ▸ hidden_empty c.values
      · simp [hi]
      · simp [hi]
    · exact h.discreet hs hr

end Executor

/-- Each sign satisfies a condition, seen with the place of the step that was started last. -/
def Throughout (P : Nat → JobSign → Prop) (place : Nat) : List JobSign → Prop
  | [] => True
  | x :: rest => P (x.place?.getD place) x ∧ Throughout P (x.place?.getD place) rest

section Lines

variable {P : Nat → JobSign → Prop} {place : Nat} {signs more : List JobSign}

theorem Throughout.append (h : Throughout P place signs) (hm : ∀ place, Throughout P place more) :
    Throughout P place (signs ++ more) := by
  induction signs generalizing place with
  | nil => exact hm place
  | cons x rest ih => exact ⟨h.1, ih h.2⟩

theorem Throughout.of_forall (h : ∀ x ∈ signs, ∀ place, P place x) : Throughout P place signs := by
  induction signs generalizing place with
  | nil => trivial
  | cons x rest ih =>
    exact ⟨h x List.mem_cons_self _, ih fun y hy => h y (List.mem_cons_of_mem _ hy)⟩

theorem Throughout.of_unstarted (hp : ∀ x ∈ signs, x.place? = none) (h : ∀ x ∈ signs, P place x) :
    Throughout P place signs := by
  induction signs with
  | nil => trivial
  | cons x rest ih =>
    have hx : x.place?.getD place = place := by rw [hp x List.mem_cons_self]; rfl
    rw [Throughout, hx]
    exact ⟨h x List.mem_cons_self, ih (fun y hy => hp y (List.mem_cons_of_mem _ hy))
      fun y hy => h y (List.mem_cons_of_mem _ hy)⟩

/-- The place of a sign is told by the signs in front of it. -/
theorem Throughout.at {front back : List JobSign} {x : JobSign} (hx : x.place? = none)
    (h : Throughout P place (front ++ x :: back)) : P (placeAfter place front) x := by
  induction front generalizing place with
  | nil =>
    have hp := h.1
    rw [hx] at hp
    exact hp
  | cons y rest ih => exact ih h.2

end Lines

/-- A line that is shown comes from the step that was started last, masked with what that step has. -/
def LineMasked (setup : RunSetup) (j : Job) (place : Nat) (x : JobSign) : Prop :=
  ∀ id stream line, x = .event (.stepOutput id stream line) →
    ∃ k s text, place = k + 1 ∧ j.steps[k]? = some s ∧ id = s.id ∧
      line = redactAll (s.bound setup.secrets) text

section Run

variable {setup : RunSetup} {limit : Option Span} {reason w : String} {j : Job} {k place : Nat}
  {l ended : List Step} {s t u : Step} {signs : List JobSign}

/-- A step is masked with what the store holds under the names it declares, and with nothing of
another step. -/
theorem contextOf_values (setup : RunSetup) (j : Job) (w : String) (s : Step) :
    (contextOf setup j w s).values = s.bound setup.secrets := by
  rw [StepContext.values, contextOf, Job.contextFor, List.map_filterMap, Step.bound]
  congr
  funext name
  cases setup.secrets.get? name <;> rfl

theorem closing_masked (h : ∀ x ∈ signs, x.isClosing = true) :
    Throughout (LineMasked setup j) place signs := by
  apply Throughout.of_forall
  rintro x hx _ id stream line rfl
  cases h _ hx

theorem opening_masked : Throughout (LineMasked setup j) place j.opening := by
  apply Throughout.of_forall
  rintro x hx _ id stream line rfl
  simp [Job.opening] at hx

theorem entrance_masked : Throughout (LineMasked setup j) place (entrance setup j w) :=
  (opening_masked (j := started setup j)).append fun _ => .of_forall (by simp [LineMasked])

theorem stepSigns_masked (hs : j.steps[k]? = some s) (r : StepRun) :
    Throughout (LineMasked setup j) place (stepSigns setup j w (k + 1) s r) := by
  refine ⟨nofun, .of_unstarted (fun x hx => ?_) fun x hx id stream line he => ?_⟩
  all_goals obtain ⟨y, hy, rfl⟩ := List.mem_map.mp hx
  · cases y <;> rfl
  · cases y with
    | log | invoked => cases he
    | line stream text =>
      cases he
      refine ⟨k, s, text, rfl, hs, rfl, ?_⟩
      rw [← contextOf_values setup j w s]
      rfl

theorem Fate.masked (h : Fate setup limit j w k s t signs) (hs : j.steps[k]? = some s) :
    Throughout (LineMasked setup j) place signs := by
  cases h with
  | unmoved => trivial
  | skipped => exact closing_masked (by simp [JobSign.isClosing])
  | held => exact stepSigns_masked hs _
  | passed => exact (stepSigns_masked hs _).append fun _ => .of_forall (by simp [LineMasked])
  | failed => exact (stepSigns_masked hs _).append fun _ => closing_masked (by simp [JobSign.isClosing])

theorem Fates.masked (h : Fates setup limit j w k l ended signs) (hl : j.steps.drop k = l) :
    Throughout (LineMasked setup j) place signs := by
  induction h generalizing place with
  | nil => trivial
  | @cons k s _ rest _ _ _ h _ ih =>
    have hs : j.steps[k]? = some s := by rw [← List.head?_drop, hl, List.head?_cons]
    have hrest : j.steps.drop (k + 1) = rest := by rw [← List.tail_drop, hl, List.tail_cons]
    exact (h.masked hs).append fun _ => ih hrest

/-- This holds of every run: a step that is broken off has shown masked lines, too. -/
theorem runWithin_masked (setup : RunSetup) (limit : Option Span) (reason : String) (j : Job) :
    Throughout (LineMasked setup j) 0 (j.runWithin setup limit reason).signs := by
  cases hw : setup.workspace with
  | error cause =>
    rw [runWithin_nowhere setup limit reason j hw]
    obtain ⟨last, hlast, hclosing⟩ := runNowhere_closes setup (started setup j) cause
    rw [hlast]
    exact opening_masked.append fun _ => closing_masked hclosing
  | ok w =>
    rw [runWithin_somewhere setup limit reason j hw]
    obtain ⟨last, hlast, hclosing⟩ := settle_closes setup (started setup j) w
      (entrance setup j w ++ (stepsRun setup limit j w).signs) limit reason
      (stepsRun setup limit j w)
    have hrun : (started setup j).runSteps setup (setup.stop limit) w [] j.state.counts [] 0 j.steps =
        stepsRun setup limit j w := rfl
    obtain ⟨ended, -, hf⟩ := runSteps_fates hrun
    have hloop (place : Nat) : Throughout (LineMasked setup j) place (stepsRun setup limit j w).signs :=
      hf.masked rfl
    rw [hlast]
    exact (entrance_masked.append hloop).append fun _ => closing_masked hclosing

/-- What a run leaves of a step shows no secret of it. The state may still be the old one, and the
text of a failure may be that of the run, which was broken off at the step. -/
structure LeftDiscreet (setup : RunSetup) (limit : Option Span) (reason : String) (j : Job)
    (s t : Step) : Prop where
  output : ∀ text a b, t.state = .completed text a b →
    t.state = s.state ∨ Hidden (s.bound setup.secrets) text
  error : ∀ text a b, t.state = .failed text a b →
    t.state = s.state ∨ text = setup.breakText limit reason j ∨
      ∃ w past elapsed output, setup.workspace = .ok w ∧
        let r := stepRun setup (setup.stop limit) j w past elapsed s
        r.result = some (.failed text output) ∧
          Discreet setup.runner past (contextOf setup j w s) r

theorem LeftDiscreet.of_unchanged (h : t.state = s.state) :
    LeftDiscreet setup limit reason j s t :=
  ⟨fun _ _ _ _ => .inl h, fun _ _ _ _ => .inl h⟩

/-- A step whose texts come from its own run shows none of its secrets. Values of other steps are
not masked in it. -/
theorem Fate.leftDiscreet (hw : setup.workspace = .ok w) (hv : Starless (s.bound setup.secrets))
    (h : Fate setup (setup.stop limit) (started setup j) w k s t signs) :
    LeftDiscreet setup limit reason j s t := by
  have hrun (past : List Invocation) (elapsed : Nat) :
      Discreet setup.runner past (contextOf setup j w s)
        (stepRun setup (setup.stop limit) j w past elapsed s) :=
    run_discreet _ _ s past elapsed (contextOf_values setup j w s ▸ hv)
  cases h with
  | unmoved => exact .of_unchanged rfl
  | skipped | held => exact ⟨nofun, nofun⟩
  | @passed past elapsed _ output _ _ he hr =>
    refine ⟨?_, nofun⟩
    rintro text a b ⟨⟩
    subst he
    have hhidden := (hrun past elapsed).output _ hr
    rw [contextOf_values] at hhidden
    exact .inr hhidden
  | @failed past elapsed _ error output _ _ he hr =>
    refine ⟨nofun, ?_⟩
    rintro text a b ⟨⟩
    subst he
    exact .inr (.inr ⟨w, past, elapsed, output, hw, hr, hrun past elapsed⟩)

theorem LeftBy.leftDiscreet (h : LeftBy (setup.breakText limit reason j) u t)
    (hu : LeftDiscreet setup limit reason j s u) : LeftDiscreet setup limit reason j s t := by
  cases h with
  | same => exact hu
  | skipped => exact ⟨nofun, nofun⟩
  | stopped =>
    refine ⟨nofun, ?_⟩
    rintro text a b ⟨⟩
    exact .inr (.inl rfl)

theorem runWithin_leftDiscreet (setup : RunSetup) (limit : Option Span) (reason : String) (j : Job) :
    List.Forall₂ (fun s t => Starless (s.bound setup.secrets) →
      LeftDiscreet setup limit reason j s t) j.steps (j.runWithin setup limit reason).job.steps := by
  refine (runWithin_fates setup limit reason j).imp ?_
  rintro s t ⟨u, hu, hend⟩ hv
  rcases hu with rfl | ⟨w, k, signs, hw, hfate⟩
  · exact hend.leftDiscreet (.of_unchanged rfl)
  · exact hend.leftDiscreet (hfate.leftDiscreet hw hv)

end Run

/-- No text that comes out of a step shows the values bound to it, if none of them holds a star:
neither the result of its run, whatever the runner does, nor a line that is shown of it, nor what a
run of the job leaves of it. -/
theorem channels_discreet :
    (∀ runner limit s c past elapsed, Starless (StepContext.values c) →
      Discreet runner past c (Step.run runner limit s c past elapsed)) ∧
    ∀ setup limit reason j, let r := Job.runWithin setup limit j reason
      (∀ front back id stream line, r.signs = front ++ .event (.stepOutput id stream line) :: back →
        ∃ k s, placeAfter 0 front = k + 1 ∧ j.steps[k]? = some s ∧ id = s.id ∧
          (Starless (s.bound setup.secrets) → Hidden (s.bound setup.secrets) line)) ∧
      List.Forall₂ (fun s t => Starless (s.bound setup.secrets) →
        LeftDiscreet setup limit reason j s t) j.steps r.job.steps := by
  refine ⟨fun runner limit s c past elapsed => run_discreet runner limit s past elapsed, ?_⟩
  intro setup limit reason j r
  refine ⟨fun front back id stream line hr => ?_, runWithin_leftDiscreet setup limit reason j⟩
  have hall := runWithin_masked setup limit reason j
  rw [show (j.runWithin setup limit reason).signs = _ from hr] at hall
  obtain ⟨k, s, text, hplace, hs, hid, rfl⟩ := Throughout.at rfl hall id stream line rfl
  exact ⟨k, s, hplace, hs, hid, fun hv => redactAll_hidden hv text⟩

/-- Every command prints the token, and publishing fails. -/
def leaky : RunSetup :=
  { withSecrets (scripted (fun _ => some 0) .empty) token with
    runner := fun past => ⟨[.line .stdout "token is cio-7", .wait ⟨5⟩],
      .ok ⟨some (if past.length = 6 then 101 else 0), "token is cio-7"⟩⟩ }

/-- The line that a sign shows of a step. -/
def lineOf? (id : String) : JobSign → Option String
  | .event (.stepOutput step _ line) => if step = id then some line else none
  | _ => none

theorem lineOf?_eq_some {id line : String} {x : JobSign} (h : lineOf? id x = some line) :
    ∃ stream, x = .event (.stepOutput id stream line) := by
  unfold lineOf? at h
  split at h
  · next step stream shown =>
    obtain ⟨rfl, rfl⟩ : step = id ∧ shown = line := by simpa using h
    exact ⟨stream, rfl⟩
  · cases h

theorem leak_masked :
    ∃ s t, stockJob.steps[3]? = some s ∧ (stockJob.run leaky).job.steps[3]? = some t ∧
      (s.bound leaky.secrets).map Secret.expose = ["cio-7"] ∧ t.state.isFailed = true ∧
      LeftDiscreet leaky (some (Job.clockLimit stockJob.timeout)) "run cancelled" stockJob s t ∧
      (stockJob.run leaky).signs.filterMap (lineOf? "publish") = ["token is ***"] ∧
      Hidden (s.bound leaky.secrets) "token is ***" := by
  obtain ⟨-, hrun⟩ := channels_discreet
  obtain ⟨hlines, hleft⟩ := hrun leaky (some (Job.clockLimit stockJob.timeout)) "run cancelled"
    stockJob
  have hshown : (stockJob.run leaky).signs.filterMap (lineOf? "publish") = ["token is ***"] := by
    decide +kernel
  have hfailed : ((stockJob.run leaky).job.steps[3]?.map (·.state.isFailed)) = some true := by
    decide +kernel
  obtain ⟨t, ht, hstate⟩ := Option.map_eq_some_iff.mp hfailed
  -- the line belongs to some step, and only the fourth one goes by that id
  obtain ⟨x, hx, hline⟩ := List.mem_filterMap.mp (hshown ▸ List.mem_singleton_self "token is ***")
  obtain ⟨front, back, hsplit⟩ := List.append_of_mem hx
  obtain ⟨stream, rfl⟩ := lineOf?_eq_some hline
  obtain ⟨k, s, -, hs, hid, hhidden⟩ := hlines front back _ _ _ hsplit
  obtain rfl : k = 3 := by
    match k with
    | 3 => rfl
    | 0 | 1 | 2 =>
      cases hs
      contradiction
    | _ + 4 => cases hs
  have hbound : (s.bound leaky.secrets).map Secret.expose = ["cio-7"] := by
    cases hs
    rfl
  have hstars : Starless (s.bound leaky.secrets) := by
    intro v hv
    have he : v.expose ∈ ["cio-7"] := hbound ▸ List.mem_map_of_mem hv
    rw [List.mem_singleton.mp he]
    decide
  have hdiscreet : LeftDiscreet leaky (some (Job.clockLimit stockJob.timeout)) "run cancelled"
      stockJob s t := by
    obtain ⟨_, rfl⟩ := List.getElem?_eq_some_iff.mp hs
    obtain ⟨_, rfl⟩ := List.getElem?_eq_some_iff.mp ht
    exact hleft.get _ _ hstars
  exact ⟨s, t, hs, ht, hbound, hstate, hdiscreet, hshown, hhidden hstars⟩

end Proofs

end ReleaseJob
