import ReleaseJob.Job.Run
import ReleaseJob.Proofs.Commands

namespace ReleaseJob

/-- Whether a sign may follow the last step. -/
def JobSign.isClosing : JobSign → Bool
  | log _ | closed _ => true
  | opened _ | invoked _ => false
  | event (.stepFailed ..) | event (.stepSkipped ..) => true
  | event (.tornDown _) | event (.ended ..) => true
  | event _ => false

/-- The place of the step that a sign starts. -/
def JobSign.place? : JobSign → Option Nat
  | event (.stepStarted _ _ place _) => some place
  | _ => none

namespace Proofs

def invocations (signs : List JobSign) : List Invocation := signs.filterMap JobSign.invocation?

def events (signs : List JobSign) : List JobEvent := signs.filterMap JobSign.event?

/-- The signs that are no log lines. -/
def visible (signs : List JobSign) : List JobSign := signs.filter (·.log?.isNone)

def starting (j : Job) (place : Nat) (s : Step) : JobSign :=
  .event (.stepStarted s.id s.name place j.steps.length)

/-- The invocations, each with the place of the step that was started last. -/
def placed (place : Nat) : List JobSign → List (Nat × Invocation)
  | [] => []
  | x :: rest => match x.invocation? with
    | some i => (place, i) :: placed place rest
    | none => placed (x.place?.getD place) rest

/-- The place of the step that was started last. -/
def placeAfter (place : Nat) (signs : List JobSign) : Nat :=
  signs.foldl (fun place x => x.place?.getD place) place

@[simp] theorem invocations_append (a b : List JobSign) :
    invocations (a ++ b) = invocations a ++ invocations b :=
  List.filterMap_append ..

@[simp] theorem visible_append (a b : List JobSign) : visible (a ++ b) = visible a ++ visible b :=
  List.filter_append ..

@[simp] theorem visible_event (e : JobEvent) (signs : List JobSign) :
    visible (.event e :: signs) = .event e :: visible signs := rfl

@[simp] theorem visible_log (l : LogLine) (signs : List JobSign) :
    visible (.log l :: signs) = visible signs := rfl

@[simp] theorem invocations_event (e : JobEvent) (signs : List JobSign) :
    invocations (.event e :: signs) = invocations signs := rfl

@[simp] theorem events_append (a b : List JobSign) : events (a ++ b) = events a ++ events b :=
  List.filterMap_append ..

@[simp] theorem events_event (e : JobEvent) (signs : List JobSign) :
    events (.event e :: signs) = e :: events signs := rfl

/-- The log tells no events. -/
theorem events_visible (signs : List JobSign) : events (visible signs) = events signs := by
  induction signs with
  | nil => rfl
  | cons x rest ih =>
    cases x with
    | event e => exact congrArg (e :: ·) ih
    | log | opened | invoked | closed => exact ih

/-- Invocations behind a list of signs belong to the step that it started last. -/
theorem placed_append (place : Nat) (a b : List JobSign) :
    placed place (a ++ b) = placed place a ++ placed (placeAfter place a) b := by
  induction a generalizing place with
  | nil => rfl
  | cons x rest ih => cases x <;> simp [placed, placeAfter, JobSign.invocation?, JobSign.place?, ih]

theorem placed_unstarted (h : ∀ x ∈ signs, x.place? = none) :
    placed place signs = (invocations signs).map (place, ·) := by
  induction signs with
  | nil => rfl
  | cons x rest ih =>
    have hr := ih fun y hy => h y (List.mem_cons_of_mem _ hy)
    cases x with
    | invoked i => exact congrArg ((place, i) :: ·) hr
    | event e =>
      have he : placed place (.event e :: rest) = placed ((JobSign.event e).place?.getD place) rest :=
        rfl
      rw [he, h _ List.mem_cons_self]
      exact hr
    | log | opened | closed => exact hr

theorem invocations_ofStep (c : StepContext) (signs : List StepSign) :
    invocations (signs.map (.ofStep c)) = signs.filterMap StepSign.invocation? := by
  rw [invocations, List.filterMap_map]
  congr 1
  funext x
  cases x <;> rfl

/-- Nothing but closing signs was added. -/
def Closes (signs all : List JobSign) : Prop :=
  ∃ last, all = signs ++ last ∧ ∀ x ∈ last, x.isClosing = true

theorem Closes.trans (h : Closes a b) (g : Closes b c) : Closes a c := by
  obtain ⟨last, rfl, hl⟩ := h
  obtain ⟨final, rfl, hf⟩ := g
  refine ⟨last ++ final, List.append_assoc .., ?_⟩
  intro x hx
  rcases List.mem_append.mp hx with hx | hx
  · exact hl x hx
  · exact hf x hx

theorem Closes.append (a : List JobSign) (h : ∀ x ∈ b, x.isClosing = true) : Closes a (a ++ b) :=
  ⟨b, rfl, h⟩

theorem invocations_closing (h : ∀ x ∈ signs, x.isClosing = true) : invocations signs = [] := by
  refine List.filterMap_eq_nil_iff.mpr fun x hx => ?_
  have := h x hx
  cases x with
  | invoked => cases this
  | log | event | opened | closed => rfl

theorem closing_place {x : JobSign} (h : x.isClosing = true) : x.place? = none := by
  cases x with
  | event e => cases e <;> first | rfl | cases h
  | log | opened | invoked | closed => rfl

theorem placed_closing (h : ∀ x ∈ signs, x.isClosing = true) (place : Nat) :
    placed place signs = [] := by
  rw [placed_unstarted fun x hx => closing_place (h x hx), invocations_closing h, List.map_nil]

theorem Closes.placed_eq (h : Closes signs all) (place : Nat) :
    placed place all = placed place signs := by
  obtain ⟨last, rfl, hl⟩ := h
  rw [placed_append, placed_closing hl, List.append_nil]

theorem Closes.invocations_eq (h : Closes signs all) : invocations all = invocations signs := by
  obtain ⟨last, rfl, hl⟩ := h
  rw [invocations_append, invocations_closing hl, List.append_nil]

theorem skipEvents_closing (reason : String) (l : List Step) :
    ∀ x ∈ skipEvents reason l, x.isClosing = true := by
  intro x hx
  obtain ⟨s, _, rfl⟩ := List.mem_map.mp hx
  rfl

theorem failRunning_closing (error : String) (now : Instant) (l : List Step) :
    ∀ x ∈ (Job.failRunning error now l).2, x.isClosing = true := by
  induction l with
  | nil => simp [Job.failRunning]
  | cons s rest ih =>
    simp only [Job.failRunning]
    split
    · simp [JobSign.isClosing]
    · exact ih

theorem conclude_closing (setup : RunSetup) (j : Job) (result : Except JobError Unit)
    (now : Instant) : ∀ x ∈ (j.conclude setup result now).2, x.isClosing = true := by
  cases result <;> simp [Job.conclude, JobSign.isClosing]

section Endings

variable (setup : RunSetup) (j : Job) (w : String) (signs : List JobSign)

theorem tearDown_closes (result : Except JobError Unit) (now : Instant) :
    Closes signs (j.tearDown setup w signs result now).signs := by
  refine .append signs fun x hx => ?_
  rcases List.mem_cons.mp hx with rfl | hx
  · rfl
  rcases List.mem_cons.mp hx with rfl | hx
  · rfl
  rcases List.mem_cons.mp hx with rfl | hx
  · rfl
  · exact conclude_closing setup j result now x hx

theorem timeOut_closes (now : Instant) : Closes signs (j.timeOut setup w signs now).signs := by
  refine .trans ?_ (tearDown_closes ..)
  refine .trans (b := signs ++ _) (.append signs fun x hx => ?_)
    (.append _ (skipEvents_closing _ _))
  rcases List.mem_cons.mp hx with rfl | hx
  · rfl
  · exact failRunning_closing _ now j.steps x hx

theorem runNowhere_closes (cause : OsError) :
    Closes j.opening (j.runNowhere setup cause).signs := by
  simp only [Job.runNowhere]
  refine .trans (b := j.opening ++ _) (.append _ fun x hx => ?_)
    (.append _ (conclude_closing _ _ _ _))
  rcases List.mem_cons.mp hx with rfl | hx
  · rfl
  · exact skipEvents_closing _ _ x hx

/-- What comes after the steps invokes nothing and starts no step, whatever the ending. -/
theorem settle_closes (limit : Option Span) (reason : String) (r : StepsRun) :
    Closes signs (j.settle setup limit reason w signs r).signs := by
  unfold Job.settle
  cases r.ending with
  | done => exact tearDown_closes ..
  | failed e => exact tearDown_closes ..
  | broken =>
    dsimp only
    split
    · exact .append signs (by simp [JobSign.isClosing])
    · exact timeOut_closes ..

end Endings

end Proofs

end ReleaseJob
