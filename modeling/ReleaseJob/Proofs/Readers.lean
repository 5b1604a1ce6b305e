import Mathlib.Logic.Relation
import ReleaseJob.Command.Streams
import ReleaseJob.Proofs.Lines
import ReleaseJob.Proofs.Turns

namespace ReleaseJob

/-- What a stream gives, one call after another. -/
abbrev LineReads := List (Except ReadFault String)

/-- A command that has ended, and what its streams give. -/
def Ended.ofReads (reads : OutputStream → LineReads) (exit : Except String (Option Int)) : Ended :=
  ⟨.ofReads (reads .stdout), .ofReads (reads .stderr), exit⟩

inductive LineReader
  | reading (due : LineReads)
  | ended (fault : Option ReadFault)

namespace LineReader

/-- What the reader still has before it. -/
def rest : LineReader → LineStream
  | reading due => .ofReads due
  | ended fault => ⟨[], fault⟩

/-- How the reader came to its end, if it did. -/
def result? : LineReader → Option (Except ReadFault Unit)
  | reading _ => none
  | ended none => some (.ok ())
  | ended (some fault) => some (.error fault)

/-- How many moves the reader can make at most. -/
def moves : LineReader → Nat
  | reading due => due.length + 1
  | ended _ => 0

end LineReader

/-- Both readers, the lines that were passed on, and the buffer. -/
structure LineReaders where
  reader : OutputStream → LineReader
  shown : List (OutputStream × String)
  kept : List String

namespace LineReaders

def start (reads : OutputStream → LineReads) : LineReaders :=
  ⟨fun stream => .reading (reads stream), [], []⟩

def put (r : LineReaders) (stream : OutputStream) (next : LineReader) : LineReaders :=
  { r with reader := Function.update r.reader stream next }

/-- A line is passed on and put into the buffer before the other reader comes to move. -/
def pass (r : LineReaders) (stream : OutputStream) (line : String) : LineReaders :=
  { r with shown := r.shown ++ [(stream, line)], kept := r.kept ++ [line] }

/-- One of the readers asks for a line: it gets one, or meets a fault, or is at the end. -/
inductive Move (r : LineReaders) : LineReaders → Prop
  | line {stream : OutputStream} {line : String} {due : LineReads}
      (h : r.reader stream = .reading (.ok line :: due)) :
      Move r ((r.pass stream line).put stream (.reading due))
  | fault {stream : OutputStream} {fault : ReadFault} {due : LineReads}
      (h : r.reader stream = .reading (.error fault :: due)) :
      Move r (r.put stream (.ended (some fault)))
  | finish {stream : OutputStream} (h : r.reader stream = .reading []) :
      Move r (r.put stream (.ended none))

/-- Any moves, of whichever reader. -/
abbrev Moves : LineReaders → LineReaders → Prop := Relation.ReflTransGen Move

/-- What the command is answered once both readers have come to their end. Whether standard output
was read to its end is asked first, and how the command ended last. -/
def reply? (r : LineReaders) (program : String) (exit : Except String (Option Int)) : Option Reply := do
  let out ← (r.reader .stdout).result?
  let err ← (r.reader .stderr).result?
  let failed (fault : ReadFault) : RunnerError := .io program fault.message
  return {
    acts := r.shown.map fun (stream, line) => .line stream line
    outcome := do
      out.mapError failed
      err.mapError failed
      let code ← exit.mapError (.io program)
      return ⟨code, Proofs.joinLines r.kept⟩ }

end LineReaders

namespace Proofs

open LineReaders

/-- What was passed on of one stream. -/
def linesOf (stream : OutputStream) (shown : List (OutputStream × String)) : List String :=
  (shown.filter (·.1 = stream)).map Prod.snd

section Order

variable {stream other : OutputStream} {line : String} {shown : List (OutputStream × String)}

theorem linesOf_append (a b : List (OutputStream × String)) :
    linesOf stream (a ++ b) = linesOf stream a ++ linesOf stream b := by
  rw [linesOf, List.filter_append, List.map_append]
  rfl

theorem linesOf_cons_self :
    linesOf stream ((stream, line) :: shown) = line :: linesOf stream shown := by
  simp [linesOf]

theorem linesOf_cons_other (h : other ≠ stream) :
    linesOf other ((stream, line) :: shown) = linesOf other shown := by
  simp [linesOf, h.symm]

/-- However the turns are taken, each stream comes in its own order and as a whole. -/
theorem linesOf_readLines (turns : List OutputStream) (out err : List String) :
    linesOf .stdout (readLines turns out err) = out ∧
      linesOf .stderr (readLines turns out err) = err := by
  fun_induction readLines turns out err with
  | case1 out err => simp [linesOf, List.filter_map, Function.comp_def]
  | case2 turns line out err ih =>
    exact ⟨by rw [linesOf_cons_self, ih.1], by rw [linesOf_cons_other (by decide), ih.2]⟩
  | case3 turns out line err ih =>
    exact ⟨by rw [linesOf_cons_other (by decide), ih.1], by rw [linesOf_cons_self, ih.2]⟩
  | case4 turns err ih => exact ih
  | case5 turns out ih => exact ih

/-- Lines in any order are read in that order by the turns of their own streams. -/
theorem readLines_turns (shown : List (OutputStream × String)) :
    readLines (shown.map Prod.fst) (linesOf .stdout shown) (linesOf .stderr shown) = shown := by
  induction shown with
  | nil => rfl
  | cons entry shown ih =>
    obtain ⟨stream, line⟩ := entry
    cases stream with
    | stdout =>
      rw [linesOf_cons_self, linesOf_cons_other (by decide), List.map_cons, readLines, ih]
    | stderr =>
      rw [linesOf_cons_self, linesOf_cons_other (by decide), List.map_cons, readLines, ih]

end Order

section Run

variable {reads : OutputStream → LineReads} {r next : LineReaders} {stream : OutputStream}
  {program : String} {exit : Except String (Option Int)} {reply : Reply}

theorem put_self (r : LineReaders) (stream : OutputStream) (next : LineReader) :
    (r.put stream next).reader stream = next :=
  Function.update_self ..

theorem put_other {other : OutputStream} (h : other ≠ stream) (r : LineReaders) (next : LineReader) :
    (r.put stream next).reader other = r.reader other :=
  Function.update_of_ne h ..

/-- What was passed on of each stream, and what its reader has before it, make up the stream; the
buffer holds the lines in the order in which they were passed on. -/
structure Underway (reads : OutputStream → LineReads) (r : LineReaders) : Prop where
  streams : ∀ stream, LineStream.ofReads (reads stream) =
    ⟨linesOf stream r.shown ++ (r.reader stream).rest.lines, (r.reader stream).rest.fault⟩
  kept : r.kept = r.shown.map Prod.snd

theorem underway_start (reads : OutputStream → LineReads) : Underway reads (.start reads) :=
  ⟨fun _ => rfl, rfl⟩

/-- A reader that comes to its end has no line before it. -/
theorem Underway.close (h : Underway reads r) {last : LineReader}
    (hlast : last.rest = (r.reader stream).rest) : Underway reads (r.put stream last) := by
  refine ⟨fun other => ?_, h.kept⟩
  by_cases ho : other = stream
  · subst ho
    rw [put_self, hlast]
    exact h.streams other
  · rw [put_other ho]
    exact h.streams other

/-- The line that was next of a stream is now the last one passed on of it; the other stream does
not notice. -/
theorem Underway.pass {line : String} {due : LineReads} (h : Underway reads r)
    (hr : r.reader stream = .reading (.ok line :: due)) :
    Underway reads ((r.pass stream line).put stream (.reading due)) := by
  constructor
  case streams =>
    intro other
    rw [h.streams other]
    change _ = LineStream.mk (linesOf other (r.shown ++ [(stream, line)]) ++ _) _
    rw [linesOf_append]
    by_cases ho : other = stream
    · subst ho
      rw [put_self, hr, linesOf_cons_self, List.append_assoc]
      rfl
    · rw [put_other ho, linesOf_cons_other ho]
      change _ = LineStream.mk ((_ ++ []) ++ _) _
      rw [List.append_nil]
      rfl
  case kept =>
    change r.kept ++ [line] = (r.shown ++ [(stream, line)]).map Prod.snd
    rw [h.kept, List.map_append]
    rfl

/-- One move keeps the books, whoever makes it. -/
theorem Underway.move (h : Underway reads r) (hm : Move r next) : Underway reads next := by
  cases hm with
  | line hr => exact h.pass hr
  | fault hr =>
    refine h.close ?_
    rw [hr]
    rfl
  | finish hr =>
    refine h.close ?_
    rw [hr]
    rfl

theorem Underway.moves (h : Underway reads r) (hm : Moves r next) : Underway reads next := by
  induction hm with
  | refl => exact h
  | tail _ hlast ih => exact ih.move hlast

/-- How many moves the readers can make at most. -/
def movesLeft (r : LineReaders) : Nat := (r.reader .stdout).moves + (r.reader .stderr).moves

/-- Only the reader that moves has less before it. -/
theorem movesLeft_put {last : LineReader} (h : last.moves < (r.reader stream).moves) :
    movesLeft (r.put stream last) < movesLeft r := by
  unfold movesLeft
  cases stream with
  | stdout =>
    rw [put_self, put_other (by decide)]
    omega
  | stderr =>
    rw [put_self, put_other (by decide)]
    omega

theorem movesLeft_move (hm : Move r next) : movesLeft next < movesLeft r := by
  cases hm with
  | @line stream line due hr =>
    refine movesLeft_put (r := r.pass stream line) ?_
    change _ < (r.reader stream).moves
    simp [hr, LineReader.moves]
  | fault hr => exact movesLeft_put (by simp [hr, LineReader.moves])
  | finish hr => exact movesLeft_put (by simp [hr, LineReader.moves])

/-- The readers cannot go on for ever. -/
theorem move_wellFounded : WellFounded fun next r : LineReaders => Move r next :=
  Subrelation.wf movesLeft_move (measure movesLeft).wf

theorem move_of_reading {due : LineReads} (hr : r.reader stream = .reading due) :
    ∃ next, Move r next := by
  cases due with
  | nil => exact ⟨_, .finish hr⟩
  | cons read due =>
    cases read with
    | error fault => exact ⟨_, .fault hr⟩
    | ok line => exact ⟨_, .line hr⟩

theorem reply?_of_ended {out err : Option ReadFault} (hout : r.reader .stdout = .ended out)
    (herr : r.reader .stderr = .ended err) :
    r.reply? program exit = some
      { acts := r.shown.map fun (stream, line) => .line stream line
        outcome := (out.or err).elim ((exit.mapError (.io program)).map (⟨·, joinLines r.kept⟩))
          fun fault => .error (.io program fault.message) } := by
  rw [reply?, hout, herr]
  cases out <;> cases err <;> cases exit <;> rfl

/-- There is no answer while one of the readers is still reading. -/
theorem ended_of_reply? (h : r.reply? program exit = some reply) :
    ∃ out err, r.reader .stdout = .ended out ∧ r.reader .stderr = .ended err := by
  rw [reply?] at h
  cases hout : r.reader .stdout with
  | reading due =>
    rw [hout] at h
    cases h
  | ended out =>
    cases herr : r.reader .stderr with
    | reading due =>
      rw [hout, herr] at h
      cases out <;> cases h
    | ended err => exact ⟨out, err, rfl, rfl⟩

/-- As long as there is no answer, a reader can move. -/
theorem move_of_unanswered (h : r.reply? program exit = none) : ∃ next, Move r next := by
  cases hout : r.reader .stdout with
  | reading due => exact move_of_reading hout
  | ended out =>
    cases herr : r.reader .stderr with
    | reading due => exact move_of_reading herr
    | ended err =>
      rw [reply?_of_ended hout herr] at h
      cases h

/-- A reader without a line before it comes to its end. -/
theorem closes (h : (r.reader stream).rest.lines = []) :
    ∃ fault, Moves r (r.put stream (.ended fault)) := by
  cases hr : r.reader stream with
  | ended fault =>
    refine ⟨fault, ?_⟩
    have hsame : r.put stream (.ended fault) = r := by
      rw [LineReaders.put, ← hr, Function.update_eq_self]
    rw [hsame]
  | reading due =>
    cases due with
    | nil => exact ⟨none, .single (.finish hr)⟩
    | cons read due =>
      cases read with
      | error fault => exact ⟨some fault, .single (.fault hr)⟩
      | ok line =>
        rw [hr] at h
        cases h

/-- Two readers without a line before them come to an answer. -/
theorem closes_both (h : ∀ stream, (r.reader stream).rest.lines = []) (program : String)
    (exit : Except String (Option Int)) :
    ∃ last reply, Moves r last ∧ last.shown = r.shown ∧ last.reply? program exit = some reply := by
  obtain ⟨out, hout⟩ := closes (h .stdout)
  have hrest : ((r.put .stdout (.ended out)).reader .stderr).rest.lines = [] := by
    rw [put_other (by decide)]
    exact h .stderr
  obtain ⟨err, herr⟩ := closes hrest
  have houtEnded : ((r.put .stdout (.ended out)).put .stderr (.ended err)).reader .stdout =
      .ended out := by
    rw [put_other (by decide), put_self]
  exact ⟨_, _, hout.trans herr, rfl, reply?_of_ended houtEnded (put_self ..)⟩

/-- A reader with a line before it has just that line to read next. -/
theorem reading_of_lines {reader : LineReader} {line : String} {lines : List String}
    (h : line :: lines = reader.rest.lines) :
    ∃ due, reader = .reading (.ok line :: due) ∧ lines = (LineStream.ofReads due).lines := by
  cases reader with
  | ended fault => cases h
  | reading due =>
    cases due with
    | nil => cases h
    | cons read due =>
      cases read with
      | error fault => cases h
      | ok first =>
        obtain ⟨rfl, hdue⟩ := List.cons.inj h
        exact ⟨due, rfl, hdue⟩

/-- The readers can take what is before them in any order that keeps that of each stream. -/
theorem takes (shown : List (OutputStream × String)) (program : String)
    (exit : Except String (Option Int))
    (h : ∀ stream, linesOf stream shown = (r.reader stream).rest.lines) :
    ∃ last reply, Moves r last ∧ last.shown = r.shown ++ shown ∧
      last.reply? program exit = some reply := by
  -- On the lines that are still to be taken: the reader that has the first of them before it moves,
  -- and both readers then have the others before them.
  induction shown generalizing r with
  | nil =>
    rw [List.append_nil]
    exact closes_both (fun stream => (h stream).symm) program exit
  | cons entry shown ih =>
    obtain ⟨stream, line⟩ := entry
    obtain ⟨due, hr, hdue⟩ := reading_of_lines (linesOf_cons_self.symm.trans (h stream))
    have hrest : ∀ other, linesOf other shown =
        (((r.pass stream line).put stream (.reading due)).reader other).rest.lines := by
      intro other
      by_cases ho : other = stream
      · subst ho
        rw [put_self]
        exact hdue
      · rw [put_other ho, ← linesOf_cons_other ho]
        exact h other
    obtain ⟨last, reply, hmoves, hshown, hreply⟩ := ih hrest
    refine ⟨last, reply, .head (.line hr) hmoves, ?_, hreply⟩
    rw [hshown]
    exact List.append_assoc ..

/-- The answer is the one that a list of turns gives by which the lines are read as they were passed
on. -/
theorem Underway.reply_eq (h : Underway reads r) (hreply : r.reply? program exit = some reply)
    {turns : List OutputStream}
    (hturns : readLines turns (linesOf .stdout r.shown) (linesOf .stderr r.shown) = r.shown) :
    (Ended.ofReads reads exit).collect program turns = reply := by
  obtain ⟨out, err, hout, herr⟩ := ended_of_reply? hreply
  have hfirst := h.streams .stdout
  have hsecond := h.streams .stderr
  rw [hout] at hfirst
  rw [herr] at hsecond
  simp only [LineReader.rest, List.append_nil] at hfirst hsecond
  rw [reply?_of_ended hout herr] at hreply
  cases hreply
  simp only [Ended.collect, Ended.ofReads, hfirst, hsecond, hturns, h.kept]
  cases out <;> cases err <;> cases exit <;> rfl

end Run

/-- What a reply tells of the streams of a command, each read to its end or up to a fault. -/
structure Delivered (reads : OutputStream → LineReads) (program : String)
    (exit : Except String (Option Int)) (reply : Reply) : Prop where
  whole : ∀ stream (lines : List String), reads stream = lines.map .ok →
    linesOf stream reply.lines = lines
  cut : ∀ stream (lines : List String) fault rest,
    reads stream = lines.map .ok ++ .error fault :: rest → linesOf stream reply.lines = lines
  output : (∀ stream, ∃ lines : List String, reads stream = lines.map .ok) →
    ∀ code, exit = .ok code → reply.outcome = .ok ⟨code, joinLines (reply.lines.map Prod.snd)⟩
  unended : (∀ stream, ∃ lines : List String, reads stream = lines.map .ok) →
    ∀ cause, exit = .error cause → reply.outcome = .error (.io program cause)
  faultOut : ∀ (lines : List String) fault rest,
    reads .stdout = lines.map .ok ++ .error fault :: rest →
    reply.outcome = .error (.io program fault.message)
  faultErr : ∀ (out lines : List String) fault rest, reads .stdout = out.map .ok →
    reads .stderr = lines.map .ok ++ .error fault :: rest →
    reply.outcome = .error (.io program fault.message)

theorem ofReads_whole (lines : List String) : LineStream.ofReads (lines.map .ok) = ⟨lines, none⟩ := by
  induction lines with
  | nil => rfl
  | cons line rest ih => rw [List.map_cons, LineStream.ofReads, ih]

/-- What would come after a fault is never asked for. -/
theorem ofReads_cut (lines : List String) (fault : ReadFault) (rest : LineReads) :
    LineStream.ofReads (lines.map .ok ++ .error fault :: rest) = ⟨lines, some fault⟩ := by
  induction lines with
  | nil => rfl
  | cons line lines ih => rw [List.map_cons, List.cons_append, LineStream.ofReads, ih]

theorem collect_lines (e : Ended) (program : String) (turns : List OutputStream) :
    (e.collect program turns).lines = readLines turns e.out.lines e.err.lines := by
  change RunnerAct.lines ((readLines turns e.out.lines e.err.lines).map _) = _
  induction readLines turns e.out.lines e.err.lines with
  | nil => rfl
  | cons entry rest ih => exact congrArg (entry :: ·) ih

theorem linesOf_collect (reads : OutputStream → LineReads) (program : String)
    (exit : Except String (Option Int)) (turns : List OutputStream) (stream : OutputStream) :
    linesOf stream ((Ended.ofReads reads exit).collect program turns).lines =
      (LineStream.ofReads (reads stream)).lines := by
  rw [collect_lines]
  cases stream with
  | stdout => exact (linesOf_readLines ..).1
  | stderr => exact (linesOf_readLines ..).2

/-- The turns decide how the streams are mixed and nothing else. -/
theorem collect_delivered (reads : OutputStream → LineReads) (program : String)
    (exit : Except String (Option Int)) (turns : List OutputStream) :
    Delivered reads program exit ((Ended.ofReads reads exit).collect program turns) := by
  constructor
  case whole =>
    intro stream lines h
    rw [linesOf_collect, h, ofReads_whole]
  case cut =>
    intro stream lines fault rest h
    rw [linesOf_collect, h, ofReads_cut]
  case output =>
    intro h code hcode
    obtain ⟨out, hout⟩ := h .stdout
    obtain ⟨err, herr⟩ := h .stderr
    rw [collect_lines]
    simp only [Ended.collect, Ended.ofReads, hout, herr, ofReads_whole, hcode]
    rfl
  case unended =>
    intro h cause hcause
    obtain ⟨out, hout⟩ := h .stdout
    obtain ⟨err, herr⟩ := h .stderr
    simp only [Ended.collect, Ended.ofReads, hout, herr, ofReads_whole, hcause]
    rfl
  case faultOut =>
    intro lines fault rest h
    simp only [Ended.collect, Ended.ofReads, h, ofReads_cut]
  case faultErr =>
    intro out lines fault rest hout herr
    simp only [Ended.collect, Ended.ofReads, hout, herr, ofReads_whole, ofReads_cut]

/-- Whatever the readers of a command's two streams do, a reader can move until there is an answer,
they cannot go on for ever, and what they have passed on so far is the front of each stream and what is
in the buffer. Their answer passes on each stream in its order up to its end or its fault, and is made
of just the lines that were passed on. The answers they can come to are those for the lists of turns. -/
theorem streams_delivered (reads : OutputStream → LineReads) (program : String)
    (exit : Except String (Option Int)) :
    (∀ turns, ∃ r, Moves (.start reads) r ∧
      r.reply? program exit = some ((Ended.ofReads reads exit).collect program turns)) ∧
    WellFounded (fun next r : LineReaders => Move r next) ∧
    ∀ r, Moves (.start reads) r →
      Underway reads r ∧ (r.reply? program exit = none → ∃ next, Move r next) ∧
      ∀ reply, r.reply? program exit = some reply →
        (∃ turns, (Ended.ofReads reads exit).collect program turns = reply) ∧
        Delivered reads program exit reply := by
  refine ⟨fun turns => ?_, move_wellFounded, fun r hr => ?_⟩
  · have hlines := linesOf_collect reads program exit turns
    obtain ⟨r, reply, hmoves, hr, hreply⟩ := takes (r := .start reads) _ program exit hlines
    have hshown : r.shown = ((Ended.ofReads reads exit).collect program turns).lines := hr
    have hunder : Underway reads r := (underway_start reads).moves hmoves
    have hturns : readLines turns (linesOf .stdout r.shown) (linesOf .stderr r.shown) = r.shown := by
      rw [hshown, hlines, hlines, collect_lines]
      rfl
    exact ⟨r, hmoves, hreply.trans (congrArg some (hunder.reply_eq hreply hturns).symm)⟩
  · have hunder : Underway reads r := (underway_start reads).moves hr
    refine ⟨hunder, move_of_unanswered, fun reply hreply => ?_⟩
    have hsame := hunder.reply_eq hreply (readLines_turns r.shown)
    exact ⟨⟨_, hsame⟩, hsame ▸ collect_delivered ..⟩

/-- Both streams are cut short, standard output with a line still to come. -/
def spoilt : OutputStream → LineReads
  | .stdout => [.ok "hello", .error (.notText ⟨0, some 1⟩), .ok "world"]
  | .stderr => [.ok "oops", .ok "bye", .error (.system "Input/output error (os error 5)")]

/-- The lines before both faults are passed on, and the fault on standard output is the one
reported. -/
theorem spoilt_delivered :
    ∃ r reply, Moves (.start spoilt) r ∧ r.reply? "sh" (.ok (some 1)) = some reply ∧
      reply.lines = [(.stderr, "oops"), (.stdout, "hello"), (.stderr, "bye")] ∧
      reply.outcome = .error (.io "sh" "invalid utf-8 sequence of 1 bytes from index 0") ∧
      Underway spoilt r ∧ Delivered spoilt "sh" (.ok (some 1)) reply := by
  obtain ⟨hturns, _, hmoves⟩ := streams_delivered spoilt "sh" (.ok (some 1))
  obtain ⟨r, hr, hreply⟩ := hturns [.stderr, .stdout]
  obtain ⟨hunder, _, hdelivered⟩ := hmoves r hr
  exact ⟨r, _, hr, hreply, rfl, rfl, hunder, (hdelivered _ hreply).2⟩

end Proofs

end ReleaseJob
