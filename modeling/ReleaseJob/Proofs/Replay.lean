import ReleaseJob.Proofs.Course

namespace ReleaseJob

/-- The state of a step without its times and its output. -/
inductive Standing
  | pending
  | running
  | completed
  | failed (error : String)
  | skipped (reason : String)
  deriving DecidableEq

def StepState.standing : StepState → Standing
  | pending => .pending
  | running _ => .running
  | completed .. => .completed
  | failed error _ _ => .failed error
  | skipped reason => .skipped reason

/-- The step that an event settles, and how. -/
def JobEvent.settles? : JobEvent → Option (String × Standing)
  | stepCompleted step => some (step, .completed)
  | stepFailed step error => some (step, .failed error)
  | stepSkipped step reason => some (step, .skipped reason)
  | _ => none

/-- How a run ends whose steps end like this. -/
def StepsEnding.ending? : StepsEnding → Option Ending
  | done => some .completed
  | failed e => some (.failed e)
  | broken => none

namespace Proofs

/-- Settles the first pending step of that id. -/
def settleFirst (id : String) (standing : Standing) :
    List (String × Standing) → List (String × Standing)
  | [] => []
  | e :: rest =>
    if e = (id, .pending) then (id, standing) :: rest else e :: settleFirst id standing rest

def replay (board : List (String × Standing)) (events : List JobEvent) :
    List (String × Standing) :=
  events.foldl (fun board e => e.settles?.elim board fun (id, s) => settleFirst id s board) board

def board (l : List Step) : List (String × Standing) := l.map fun s => (s.id, s.state.standing)

/-- The same steps before any of them ran. -/
def blank (l : List Step) : List (String × Standing) := l.map fun s => (s.id, .pending)

section Board

variable {setup : RunSetup} {j : Job} {w : String} {s : Step} {place : Nat}
  {l steps ended : List Step} {signs body : List JobSign} {ending : StepsEnding}
  {settled rest : List (String × Standing)}

theorem board_append (a b : List Step) : board (a ++ b) = board a ++ board b := List.map_append

theorem blank_append (a b : List Step) : blank (a ++ b) = blank a ++ blank b := List.map_append

theorem replay_append (b : List (String × Standing)) (x y : List JobEvent) :
    replay b (x ++ y) = replay (replay b x) y :=
  List.foldl_append

/-- No step is pending any more. -/
def Decided (b : List (String × Standing)) : Prop := ∀ e ∈ b, e.2 ≠ .pending

theorem Decided.nil : Decided [] := nofun

theorem Decided.snoc (h : Decided settled) (id : String) {standing : Standing}
    (hs : standing ≠ .pending) : Decided (settled ++ [(id, standing)]) := by
  intro e he
  rcases List.mem_append.mp he with he | he
  · exact h e he
  · rw [List.mem_singleton.mp he]
    exact hs

/-- Settled steps are passed over, so the first pending step of an id is the next one. -/
theorem settleFirst_next (h : Decided settled) (id : String) (standing : Standing) :
    settleFirst id standing (settled ++ (id, .pending) :: rest) =
      settled ++ (id, standing) :: rest := by
  induction settled with
  | nil => simp [settleFirst]
  | cons e settled ih =>
    have he : e ≠ (id, .pending) := fun he => h e List.mem_cons_self (he ▸ rfl)
    rw [List.cons_append, settleFirst, if_neg he, ih fun x hx => h x (List.mem_cons_of_mem _ hx)]
    rfl

/-- An event settles the first step that is still pending. -/
theorem replay_next {e : JobEvent} {id : String} {standing : Standing} (h : Decided settled)
    (he : e.settles? = some (id, standing)) (signs : List JobSign) :
    replay (settled ++ (id, .pending) :: rest) (events (.event e :: signs)) =
      replay (settled ++ [(id, standing)] ++ rest) (events signs) := by
  rw [events_event, replay, List.foldl_cons, he, List.append_assoc]
  exact congrArg (replay · (events signs)) (settleFirst_next h id standing)

/-- What a step shows while it runs settles nothing. -/
theorem replay_within (hb : ∀ x ∈ body, Within setup j w s x) (b : List (String × Standing)) :
    replay b (events body) = b := by
  induction body with
  | nil => rfl
  | cons x body ih =>
    have hx := hb x List.mem_cons_self
    have ih := ih fun y hy => hb y (List.mem_cons_of_mem _ hy)
    cases x with
    | event e =>
      cases e with
      | stepOutput => exact ih
      | _ => cases hx
    | log | invoked => exact ih
    | opened | closed => cases hx

/-- The end of a block settles its step. -/
theorem replay_block {e : JobEvent} {standing : Standing} (hs : Decided settled)
    (hb : ∀ x ∈ body, Within setup j w s x) (he : e.settles? = some (s.id, standing)) :
    replay (settled ++ (s.id, .pending) :: rest)
        (events (starting j place s :: body ++ .event e :: signs)) =
      replay (settled ++ [(s.id, standing)] ++ rest) (events signs) := by
  have hbody : replay (settled ++ (s.id, .pending) :: rest) (events (starting j place s :: body)) =
      settled ++ (s.id, .pending) :: rest := replay_within hb _
  rw [events_append, replay_append, hbody, replay_next hs he]

theorem Blocks.decided (h : Blocks setup j w place l ended signs) : Decided (board ended) := by
  intro e he
  obtain ⟨s, hs, rfl⟩ := List.mem_map.mp he
  have := h.completed s hs
  cases hst : s.state <;> simp_all [StepState.isCompleted, StepState.standing]

/-- Steps that complete are settled one after the other. -/
theorem Blocks.replay_eq (h : Blocks setup j w place l ended signs) (hs : Decided settled)
    (rest : List (String × Standing)) :
    replay (settled ++ (blank l ++ rest)) (events signs) = settled ++ (board ended ++ rest) := by
  induction h generalizing settled with
  | nil => rfl
  | @cons _ s _ _ _ _ _ _ _ hb h ih =>
    have hnext : Decided (settled ++ [(s.id, .completed)]) := hs.snoc s.id nofun
    exact (replay_block hs hb rfl).trans ((ih hnext).trans (List.append_assoc ..))

theorem replay_skips (hs : Decided settled) (reason : String) (l : List Step) :
    replay (settled ++ blank l) (events (l.map fun s => .event (.stepSkipped s.id reason))) =
      settled ++ board (l.map (·.withState (.skipped reason))) := by
  induction l generalizing settled with
  | nil => rfl
  | cons s l ih =>
    have hnext : Decided (settled ++ [(s.id, .skipped reason)]) := hs.snoc s.id nofun
    exact (replay_next hs rfl _).trans ((ih hnext).trans (List.append_assoc ..))

/-- Who replays a course finds the steps as they are left. -/
theorem Course.replay_eq (h : Course setup j w place l steps signs ending)
    (he : ending ≠ .broken) : replay (blank l) (events signs) = board steps := by
  cases h with
  | done h =>
    have hall := h.replay_eq .nil []
    rwa [List.append_nil, List.append_nil] at hall
  | @failed before ended after lead body s error reason t u fault h hb hf =>
    have hlead : replay (blank (before ++ s :: after)) (events lead) =
        board ended ++ blank (s :: after) := by
      rw [blank_append]
      exact h.replay_eq .nil (blank (s :: after))
    have hnext : Decided (board ended ++ [(s.id, .failed error)]) := h.decided.snoc s.id nofun
    rw [List.append_assoc, events_append, replay_append, hlead, blank, List.map_cons,
      replay_block h.decided hb rfl]
    refine (replay_skips hnext reason after).trans ?_
    rw [List.append_assoc, board_append]
    rfl
  | broken => exact absurd rfl he

end Board

section Endings

variable {setup : RunSetup} {w : String} {j k : Job} {l : List Step} {signs : List JobSign}
  {r : StepsRun}

/-- The events at the timeout complete the course of the steps. -/
theorem timeOut_course (h : Course setup j w 1 l k.steps signs .broken)
    (hl : ∀ s ∈ l, s.state = .pending) (lead : List JobSign) (now : Instant) {e : Job.JobRun}
    (he : k.timeOut setup w (lead ++ signs) now = e) :
    ∃ steps, visible e.signs = visible lead ++ steps ++ [.closed w,
        .event (.tornDown k.state.id), .event (.ended k.state.id e.job.state.status)] ∧
      Course setup j w 1 l e.job.steps steps (.failed (.timeout k.timeout)) := by
  generalize hk : k.steps = held at h
  cases h with
  | @broken before ended after first body s t h hb =>
    have hafter : ∀ s ∈ after, s.state = .pending :=
      fun s hs => hl s (List.mem_append_right _ (List.mem_cons_of_mem _ hs))
    obtain ⟨fault, heq⟩ := timeOut_eq hk h.completed hafter setup w
      (lead ++ (first ++ starting j (1 + before.length) s :: body)) now
    rw [heq] at he
    subst he
    refine ⟨visible (first ++ starting j (1 + before.length) s :: body) ++
      .event (.stepFailed s.id (JobError.timeout k.timeout).message) ::
        after.map fun a => .event (.stepSkipped a.id "job timed out"), ?_, ?_⟩
    · refine (tearDown_visible ..).trans (congrArg (· ++ _) ?_)
      rw [visible_append, visible_append, visible_log, visible_event, visible_skips,
        List.append_assoc]
    · rw [visible_append]
      exact .failed h.visible (Within.visible hb) .timeout

/-- What follows the steps completes their course. -/
theorem settle_course (hr : Course setup j w 1 l r.steps r.signs r.ending)
    (hl : ∀ s ∈ l, s.state = .pending) (limit : Option Span) (reason : String)
    (lead : List JobSign) {e : Job.JobRun}
    (he : k.settle setup limit reason w (lead ++ r.signs) r = e) (hc : e.ending ≠ .cancelled) :
    ∃ steps ending,
      visible e.signs = visible lead ++ steps ++ [.closed w, .event (.tornDown k.state.id),
        .event (.ended k.state.id e.job.state.status)] ∧
      Course setup j w 1 l e.job.steps steps ending ∧ ending.ending? = some e.ending := by
  obtain ⟨steps, counts, signs, elapsed, ending⟩ := r
  have hcourse := hr.visible
  dsimp only at hr hcourse he
  unfold Job.settle at he
  cases ending with
  | done =>
    subst he
    refine ⟨visible signs, .done, ?_, hcourse, rfl⟩
    exact (tearDown_visible ..).trans (congrArg (· ++ _) (visible_append ..))
  | failed fault =>
    subst he
    refine ⟨visible signs, .failed fault, ?_, hcourse, rfl⟩
    exact (tearDown_visible ..).trans (congrArg (· ++ _) (visible_append ..))
  | broken =>
    dsimp only at he
    split at he
    · subst he
      exact absurd rfl hc
    · let stopped : Job := { k with steps, state := { k.state with counts } }
      obtain ⟨shown, hshown, hend⟩ := timeOut_course (k := stopped) hr hl lead _ he
      refine ⟨shown, _, hshown, hend, ?_⟩
      subst he
      rfl

end Endings

/-- The trace of a fresh job that is run to its end. It opens with the start of the job and closes
with its end and final status. Between them, if there is a workspace, each step has its block, in
which it shows its own lines and invokes its own commands, until one fails and the rest is skipped
for one reason, and the workspace is torn down; if there is none, every step is skipped. The events
replayed over pending steps give the steps as they are left. -/
theorem run_replays {j : Job} (hf : Fresh j) (setup : RunSetup) (reason : String)
    (hc : (j.run setup reason).ending ≠ .cancelled) :
    let r := j.run setup reason
    let first : JobSign := .event (.started j.state.id j.name j.tag.name)
    let last : JobSign := .event (.ended j.state.id r.job.state.status)
    (∀ w, setup.workspace = .ok w → ∃ steps ending,
      visible r.signs =
        [first, .opened w] ++ steps ++ [.closed w, .event (.tornDown j.state.id), last] ∧
      Course setup j w 1 j.steps r.job.steps steps ending ∧ ending.ending? = some r.ending) ∧
    (∀ cause, setup.workspace = .error cause → ∃ why,
      visible r.signs = first :: j.steps.map (fun s => .event (.stepSkipped s.id why)) ++ [last] ∧
      r.job.steps = j.steps.map (·.withState (.skipped why)) ∧
      r.ending = .failed (.workspace cause)) ∧
    replay (blank j.steps) (events r.signs) = board r.job.steps := by
  intro r first last
  have hsome (w : String) (hw : setup.workspace = .ok w) : ∃ steps ending,
      visible r.signs =
        [first, .opened w] ++ steps ++ [.closed w, .event (.tornDown j.state.id), last] ∧
      Course setup j w 1 j.steps r.job.steps steps ending ∧ ending.ending? = some r.ending := by
    exact settle_course (stepsRun_course hf) hf.pending _ reason _
      (runWithin_somewhere setup _ reason j hw).symm hc
  have hnone (cause : OsError) (hw : setup.workspace = .error cause) : ∃ why,
      visible r.signs = first :: j.steps.map (fun s => .event (.stepSkipped s.id why)) ++ [last] ∧
      r.job.steps = j.steps.map (·.withState (.skipped why)) ∧
      r.ending = .failed (.workspace cause) := by
    have hr : r = (started setup j).runNowhere setup cause := runWithin_nowhere setup _ reason j hw
    have hskips : visible (skipEvents "job workspace could not be created" j.steps) = _ :=
      (congrArg visible (skipEvents_eq hf.pending _)).trans (visible_skips _ _)
    refine ⟨"job workspace could not be created", ?_, ?_, ?_⟩
    · have hstatus : r.job.state.status = .failed := by
        rw [hr]
        rfl
      have hlast : last = .event (.ended j.state.id .failed) := by simp only [last, hstatus]
      rw [hlast, hr]
      simp only [Job.runNowhere, visible_append, visible_log]
      exact congrArg (first :: · ++ [.event (.ended j.state.id .failed)]) hskips
    · rw [hr]
      exact skipPending_eq hf.pending _
    · rw [hr]
      rfl
  refine ⟨hsome, hnone, ?_⟩
  cases hw : setup.workspace with
  | ok w =>
    obtain ⟨steps, ending, hsigns, hcourse, hending⟩ := hsome w hw
    have hb : ending ≠ .broken := by
      rintro rfl
      cases hending
    rw [← events_visible, hsigns, events_append, events_append, replay_append, replay_append]
    exact hcourse.replay_eq hb
  | error cause =>
    obtain ⟨why, hsigns, hsteps, _⟩ := hnone cause hw
    rw [← events_visible, hsigns, hsteps, events_append, replay_append]
    exact replay_skips .nil why j.steps

/-- The step that was running when the time was up has failed, and the events say so. -/
theorem hurried_replays :
    replay (blank hurried.steps) (events (hurried.run untested).signs) =
      [("checkout", .completed), ("toolchain", .failed "Job exceeded its timeout of 12ns"),
        ("test", .skipped "job timed out"), ("publish", .skipped "job timed out")] := by
  obtain ⟨_, _, hreplay⟩ := run_replays hurried_fresh untested "run cancelled" (run_returns rfl _ _ _)
  exact hreplay.trans (by decide +kernel)

end Proofs

end ReleaseJob
