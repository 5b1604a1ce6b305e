import ReleaseJob.Proofs.Channels
import ReleaseJob.Proofs.Lines
import ReleaseJob.Proofs.Turns

namespace ReleaseJob

/-- The output is made of the lines that were shown. -/
def Reply.Relays (r : Reply) : Prop :=
  ∀ o, r.outcome = .ok o → o.output = Proofs.joinLines (r.lines.map Prod.snd)

def StepSign.line? : StepSign → Option String
  | line _ text => some text
  | _ => none

def JobSign.line? : JobSign → Option String
  | event (.stepOutput _ _ line) => some line
  | _ => none

/-- The output that a step is left with when its commands have succeeded. -/
def StepState.kept? : StepState → Option String
  | completed text _ _ => some text
  | _ => none

namespace Proofs

section Step

variable {runner : Runner} {limit : Option Span} {id text : String} {c : StepContext} {s : Step}
  {past : List Invocation} {elapsed time : Nat} {r : StepRun} {argv : List String}
  {lines : List (OutputStream × String)} {acts : List RunnerAct}

theorem playActs_lines (h : playActs limit elapsed acts = (lines, some time)) :
    lines = RunnerAct.lines acts := by
  induction acts generalizing elapsed lines with
  | nil => exact (Prod.mk.inj h).1.symm
  | cons act rest ih =>
    cases act with
    | line stream line =>
      simp only [playActs] at h
      obtain ⟨rfl, htime⟩ := Prod.mk.inj h
      exact congrArg ((stream, line) :: ·) (ih (Prod.ext rfl htime))
    | wait span =>
      rw [playActs] at h
      split at h
      · exact ih h
      · cases h

theorem commandSigns_lines (id : String) (c : StepContext) (i : Invocation)
    (lines : List (OutputStream × String)) :
    (commandSigns id c i lines).filterMap StepSign.line? = lines.map Prod.snd := by
  change (lines.map fun l => StepSign.line l.1 l.2).filterMap StepSign.line? = _
  rw [List.filterMap_map, ← List.filterMap_eq_map]
  rfl

/-- A step of one command that succeeds shows the lines of its reply, and is left with its output. -/
theorem runCommands_single (he : Step.runCommands runner limit id c [] past elapsed [argv] = r)
    (hr : r.result = some (.success text)) :
    ∃ i o, (runner (past ++ [i])).outcome = .ok o ∧ text = c.redact o.output ∧
      r.signs.filterMap StepSign.line? = (runner (past ++ [i])).lines.map Prod.snd := by
  subst he
  cases argv with
  | nil => cases hr
  | cons program args =>
    obtain ⟨i, hi⟩ : ∃ i, c.ask program args = i := ⟨_, rfl⟩
    obtain ⟨⟨lines, time?⟩, hp⟩ : ∃ p, playActs limit elapsed (runner (past ++ [i])).acts = p :=
      ⟨_, rfl⟩
    unfold StepContext.ask at hi
    simp only [Step.runCommands, Invocation.ofArgv?, hi, hp] at hr ⊢
    cases time? with
    | none => cases hr
    | some time =>
      cases ho : (runner (past ++ [i])).outcome with
      | error e =>
        simp only [ho] at hr
        cases hr
      | ok o =>
        simp only [ho] at hr ⊢
        cases hs : o.success with
        | false =>
          simp only [hs] at hr
          cases hr
        | true =>
          simp only [hs, ↓reduceIte, StepRun.after] at hr ⊢
          cases hr
          refine ⟨i, o, ho, by simp, ?_⟩
          change (commandSigns id c i lines ++ [StepSign.log _]).filterMap StepSign.line? = _
          rw [List.filterMap_append, commandSigns_lines, playActs_lines hp]
          exact List.append_nil _

/-- The output of the only command is what the step keeps, masked as a whole. -/
theorem run_single (he : s.run runner limit c past elapsed = r)
    (hone : (s.commands c).length = 1) (hr : r.result = some (.success text)) :
    ∃ i o, (runner (past ++ [i])).outcome = .ok o ∧ text = c.redact o.output ∧
      r.signs.filterMap StepSign.line? = (runner (past ++ [i])).lines.map Prod.snd := by
  subst he
  obtain ⟨argv, hargv⟩ := List.length_eq_one_iff.mp hone
  unfold Step.run at hr ⊢
  rw [hargv] at hr ⊢
  cases hm : c.missing.isEmpty with
  | false =>
    simp only [hm] at hr
    cases hr
  | true =>
    simp only [hm, ↓reduceIte] at hr ⊢
    -- what is logged before the command shows no line
    obtain ⟨i, o, ho, htext, hlines⟩ := runCommands_single rfl hr
    exact ⟨i, o, ho, htext, hlines⟩

theorem lines_ofStep (c : StepContext) (signs : List StepSign) :
    (signs.map (.ofStep c)).filterMap JobSign.line? =
      (signs.filterMap StepSign.line?).map c.redact := by
  rw [List.filterMap_map, List.map_filterMap]
  congr 1
  funext x
  cases x <;> rfl

end Step

/-- The lines shown of the step at a place, where `now` is the place of the step that was started
last. -/
def linesAt (place now : Nat) : List JobSign → List String
  | [] => []
  | x :: rest =>
    let now := x.place?.getD now
    if now = place then x.line?.toList ++ linesAt place now rest else linesAt place now rest

section Places

variable {place now k : Nat} {signs a b : List JobSign}

theorem linesAt_append :
    linesAt place now (a ++ b) = linesAt place now a ++ linesAt place (placeAfter now a) b := by
  induction a generalizing now with
  | nil => rfl
  | cons x rest ih =>
    simp only [List.cons_append, linesAt, ih]
    split
    · rw [List.append_assoc]
      rfl
    · rfl

theorem linesAt_silent (h : ∀ x ∈ signs, x.line? = none) : linesAt place now signs = [] := by
  induction signs generalizing now with
  | nil => rfl
  | cons x rest ih =>
    rw [linesAt, h x List.mem_cons_self, ih fun y hy => h y (List.mem_cons_of_mem _ hy)]
    exact ite_self _

/-- Lines belong to the step that was started last. -/
theorem linesAt_unstarted (h : ∀ x ∈ signs, x.place? = none) :
    linesAt place now signs = if now = place then signs.filterMap JobSign.line? else [] := by
  induction signs with
  | nil => split <;> rfl
  | cons x rest ih =>
    have hx : x.place?.getD now = now := by rw [h x List.mem_cons_self]; rfl
    have hrest := ih fun y hy => h y (List.mem_cons_of_mem _ hy)
    simp only [linesAt, hx, hrest]
    split
    · cases hl : x.line? <;> simp [hl]
    · rfl

theorem ofStep_unplaced (c : StepContext) (signs : List StepSign) :
    ∀ x ∈ signs.map (JobSign.ofStep c), x.place? = none := by
  intro x hx
  obtain ⟨y, -, rfl⟩ := List.mem_map.mp hx
  cases y <;> rfl

/-- A step that is started shows its lines at its place. -/
theorem linesAt_block {id name : String} {total : Nat} (h : ∀ x ∈ signs, x.place? = none) :
    linesAt place now (.event (.stepStarted id name (k + 1) total) :: signs) =
      if k + 1 = place then signs.filterMap JobSign.line? else [] := by
  rw [← linesAt_unstarted h]
  exact ite_self _

end Places

section Run

variable {setup : RunSetup} {limit : Option Span} {reason w : String} {j : Job} {s t : Step}
  {l ended : List Step} {signs : List JobSign} {k m place now : Nat}

/-- A step shows its lines at its own place, and a step that is not run shows none. -/
theorem Fate.linesAt (h : Fate setup limit j w k s t signs) :
    linesAt place now signs = if k + 1 = place then signs.filterMap JobSign.line? else [] := by
  cases h with
  | unmoved => split <;> rfl
  | skipped =>
    rw [linesAt_silent (List.forall_mem_singleton.mpr rfl)]
    split <;> rfl
  | held => exact linesAt_block (ofStep_unplaced _ _)
  | passed | failed =>
    refine linesAt_block fun x hx => ?_
    rcases List.mem_append.mp hx with hx | hx
    · exact ofStep_unplaced _ _ x hx
    · rw [List.mem_singleton.mp hx]
      rfl

/-- Steps show nothing at a place in front of them. -/
theorem Fates.linesAt_front (h : Fates setup limit j w k l ended signs) (hp : place ≤ k) :
    Proofs.linesAt place now signs = [] := by
  induction h generalizing now with
  | nil => rfl
  | cons h _ ih => rw [linesAt_append, h.linesAt, if_neg (by omega), ih (by omega), List.nil_append]

/-- What is shown at the place of a step are the lines of its own block. -/
theorem Fates.linesAt (h : Fates setup limit j w k l ended signs) (now : Nat)
    (hs : l[m]? = some s) (ht : ended[m]? = some t) :
    ∃ block, Fate setup limit j w (k + m) s t block ∧
      Proofs.linesAt (k + m + 1) now signs = block.filterMap JobSign.line? := by
  induction h generalizing m now with
  | nil => cases hs
  | @cons k _ _ _ _ signs _ h hrest ih =>
    cases m with
    | zero =>
      cases hs
      cases ht
      refine ⟨signs, h, ?_⟩
      rw [linesAt_append, h.linesAt, if_pos rfl, hrest.linesAt_front (Nat.le_refl _),
        List.append_nil]
    | succ m =>
      obtain ⟨block, hfate, hlines⟩ := ih (placeAfter now signs) hs ht
      rw [Nat.succ_add_eq_add_succ] at hfate hlines
      refine ⟨block, hfate, ?_⟩
      rw [linesAt_append, h.linesAt, if_neg (by omega), List.nil_append]
      exact hlines

theorem closing_silent {x : JobSign} (h : x.isClosing = true) : x.line? = none := by
  cases x with
  | event e => cases e <;> first | rfl | cases h
  | log | opened | invoked | closed => rfl

theorem forall₂_getElem? {R : α → β → Prop} {l : List α} {m : List β} {b : β}
    (h : List.Forall₂ R l m) (hb : m[k]? = some b) : ∃ a, l[k]? = some a ∧ R a b := by
  induction h generalizing k with
  | nil => cases hb
  | cons hr _ ih =>
    cases k with
    | zero =>
      cases hb
      exact ⟨_, rfl, hr⟩
    | succ k => exact ih hb

/-- What is shown of a step in a run is what the loop showed of it. -/
theorem runWithin_lines (hw : setup.workspace = .ok w) (hs : j.steps[k]? = some s)
    (ht : (j.runWithin setup limit reason).job.steps[k]? = some t) :
    ∃ u block, Fate setup (setup.stop limit) (started setup j) w k s u block ∧
      LeftBy (setup.breakText limit reason j) u t ∧
      linesAt (k + 1) 0 (j.runWithin setup limit reason).signs =
        block.filterMap JobSign.line? := by
  have hrun : (started setup j).runSteps setup (setup.stop limit) w [] j.state.counts [] 0 j.steps =
      stepsRun setup limit j w := rfl
  obtain ⟨ended, hsteps, hf⟩ := runSteps_fates hrun
  rw [runWithin_somewhere setup limit reason j hw] at ht ⊢
  obtain ⟨u, hu, hleft⟩ := forall₂_getElem? (settle_leaves (stepsRun setup limit j w)) ht
  rw [hsteps, List.nil_append] at hu
  obtain ⟨last, hlast, hclosing⟩ := settle_closes setup (started setup j) w
    (entrance setup j w ++ (stepsRun setup limit j w).signs) limit reason
    (stepsRun setup limit j w)
  have hentrance : ∀ x ∈ entrance setup j w, x.line? = none := by
    simp [entrance, Job.opening, JobSign.line?]
  obtain ⟨block, hfate, hlines⟩ := hf.linesAt (placeAfter 0 (entrance setup j w)) hs hu
  rw [List.length_nil, Nat.zero_add] at hfate hlines
  refine ⟨u, block, hfate, hleft, ?_⟩
  rw [hlast, linesAt_append, linesAt_append, linesAt_silent hentrance, List.nil_append, hlines,
    linesAt_silent fun x hx => closing_silent (hclosing x hx), List.append_nil]

theorem redact_bound (setup : RunSetup) (j : Job) (w : String) (s : Step) :
    (contextOf setup j w s).redact = redactAll (s.bound setup.secrets) :=
  congrArg redactAll (contextOf_values setup j w s)

/-- The line that tells of a completed step is no output. -/
theorem passed_lines (setup : RunSetup) (j : Job) (w : String) (n : Nat) (s : Step) (r : StepRun) :
    (stepSigns setup j w n s r ++ [JobSign.event (.stepCompleted s.id)]).filterMap JobSign.line? =
      (r.signs.filterMap StepSign.line?).map (redactAll (s.bound setup.secrets)) := by
  rw [List.filterMap_append, ← redact_bound setup j w s, ← lines_ofStep]
  exact List.append_nil _

/-- How the lines shown of a command agree with the output that is kept of it. -/
structure Streamed (values : List Secret) (printed shown : List String) (kept : String) : Prop where
  line_by_line : shown = printed.map (redactAll values)
  as_a_whole : kept = redactAll values (joinLines printed)
  same : (∀ v ∈ values, '\n' ∉ v.expose.toList) → joinLines shown = kept
  same_iff : Unbroken printed → (joinLines shown = kept ↔ breaks kept = printed.length - 1)
  hidden : Starless values →
    ∀ v ∈ values, '\n' ∉ v.expose.toList → ¬v.OccursIn (joinLines shown)

theorem streamed (values : List Secret) (printed : List String) :
    Streamed values printed (printed.map (redactAll values))
      (redactAll values (joinLines printed)) where
  line_by_line := rfl
  as_a_whole := rfl
  same hv := (redactAll_joinLines hv printed).symm
  same_iff h := eq_comm.trans (redactAll_lines_iff h)
  hidden hs v hv hn := by
    refine joinLines_clean hn (hs v hv) fun line hline => ?_
    obtain ⟨text, -, rfl⟩ := List.mem_map.mp hline
    exact redactAll_hidden hs text v hv

/-- The lines shown of a step of one command, put together, are the output that it is left with, if
no value bound to it holds a line break. With such values they are the same just when masking the
output as a whole takes no line break out of it. -/
theorem streamed_as_kept {text : String} (hw : setup.workspace = .ok w)
    (hr : ∀ past, (setup.runner past).Relays) (hs : j.steps[k]? = some s) (hp : s.isPending = true)
    (hone : (s.commands (contextOf setup j w s)).length = 1)
    (ht : (j.runWithin setup limit reason).job.steps[k]? = some t)
    (hc : t.state.kept? = some text) :
    ∃ past, Streamed (s.bound setup.secrets) ((setup.runner past).lines.map Prod.snd)
      (linesAt (k + 1) 0 (j.runWithin setup limit reason).signs) text := by
  obtain ⟨u, block, hfate, hleft, hlines⟩ := runWithin_lines hw hs ht
  obtain rfl : u = t := by
    cases hleft with
    | same => rfl
    | stopped | skipped => cases hc
  rw [hlines]
  cases hfate with
  | unmoved =>
    cases hstate : s.state with
    | pending =>
      rw [hstate] at hc
      cases hc
    | running | completed | failed | skipped =>
      rw [Step.isPending, hstate] at hp
      cases hp
  | skipped | held | failed => cases hc
  | @passed past elapsed r _ _ _ he hres =>
    cases hc
    obtain ⟨i, o, ho, rfl, hstep⟩ := run_single he hone hres
    refine ⟨past ++ [i], ?_⟩
    rw [passed_lines, hstep, redact_bound, hr _ o ho]
    exact streamed _ _

end Run

/-- Every command prints a word in two lines. -/
def talking (word : String) : RunSetup :=
  { scripted (fun _ => some 0) (.ofPairs [("CARGO_REGISTRY_TOKEN", word)]) with
    runner := fun _ => ⟨[.line .stdout "cio", .line .stdout "7"], .ok ⟨some 0, "cio\n7"⟩⟩ }

theorem talking_relays (word : String) (past : List Invocation) :
    ((talking word).runner past).Relays := by
  rintro o ⟨⟩
  rfl

/-- The word is masked in its line, as it is in the output. -/
theorem word_streamed :
    ∃ past, Streamed [⟨"cio"⟩] (((talking "cio").runner past).lines.map Prod.snd)
      (linesAt 4 0 (stockJob.run (talking "cio")).signs) "***\n7" := by
  have hkept : ((stockJob.run (talking "cio")).job.steps[3]?.bind (·.state.kept?)) =
      some "***\n7" := by decide +kernel
  obtain ⟨t, ht, htext⟩ := Option.bind_eq_some_iff.mp hkept
  exact streamed_as_kept rfl (talking_relays "cio") rfl rfl rfl ht htext

/-- A word that reaches over the end of a line is masked in the output and shown in the lines. -/
theorem broken_word_shown :
    let r := stockJob.run (talking "cio\n7")
    (∀ past, ((talking "cio\n7").runner past).Relays) ∧ linesAt 4 0 r.signs = ["cio", "7"] ∧
      (r.job.steps[3]?.bind (·.state.kept?)) = some "***" ∧ joinLines ["cio", "7"] ≠ "***" ∧
      Secret.OccursIn ⟨"cio\n7"⟩ (joinLines ["cio", "7"]) := by
  refine ⟨talking_relays _, by decide +kernel, by decide +kernel, by decide +kernel, by decide, ?_⟩
  exact ⟨[], [], rfl⟩

end Proofs

end ReleaseJob
