import VideoTerminal.Proofs.Control.Interpreter
import VideoTerminal.Proofs.Control.Run
import VideoTerminal.Proofs.Terminal.Due
import VideoTerminal.Proofs.Text.Utf8
import VideoTerminal.Session.Live

/-!
# What a live session will come to

While bytes are being read and text is being interpreted, it is settled what will come of it:
`unread` is the text that the reading side still has to append, and `Live.promise` what the
interpreting side will have come to when that, and all that is in the pipe, is interpreted.  No step
of either side changes the promise (`promise_stepReader`, `promise_stepInterpreter`), so that no
interleaving does (`promise_follow`).

The promise is about everything but what is to be drawn: before it waits, and at its end, the
interpreting side asks the terminal, which then forgets.  `Live.Sound` is what the two sides keep;
most of it is what each phase knows.
-/

namespace VideoTerminal

namespace Interpreter

/-- What is to be drawn does not steer what comes of a piece of input. -/
theorem take_congr {i j : Interpreter} (h : i.due = j.due) (input : Input) :
    (i.take input).map seen = (j.take input).map seen := by
  cases input with
  | char c => exact feed_congr h c
  | run text =>
      obtain ⟨hparser, hterminal⟩ := due_eq_iff.1 h
      have htext : (i.terminal.putText text).map Terminal.due =
          (j.terminal.putText text).map Terminal.due := by
        rw [← Terminal.putText_due, hterminal, Terminal.putText_due]
      refine map_bind_congr htext ?_
      intro t u hdue
      exact congrArg (fun i => Except.ok (i, [])) (due_eq_iff.2 ⟨hparser, hdue⟩)

end Interpreter

namespace Responder

theorem write_nil (r : Responder) : r.write [] = r := by
  unfold write
  split <;> simp

/-- Replies are written one after the other. -/
theorem write_append (r : Responder) (replies more : List Reply) :
    r.write (replies ++ more) = (r.write replies).write more := by
  unfold write
  cases hb : r.broken <;> simp [hb]

end Responder

/-! ## What the owner hears -/

namespace Notifier

/-- Hearing of something, the owner may ask what is to be drawn; nothing else happens to the
terminal. -/
theorem due_hearAll (n : Notifier) (t : Terminal) (hooks : List Hook) :
    (n.hearAll t hooks).2.due = t.due := by
  induction hooks generalizing n t with
  | nil => rfl
  | cons hook rest ih =>
      rw [hearAll, ih]
      cases hook with
      | beforeWait => exact t.due_takeRenderRequest
      | chunkEnd => rfl
      | appended text => rfl
      | chunkStart => rfl

/-- A notice of what has changed is none of the end. -/
theorem exited_mem_events_notify (n : Notifier) (t : Terminal) :
    Event.exited ∈ (n.notify t).1.events ↔ .exited ∈ n.events := by
  unfold notify announceTitle
  dsimp only
  repeat' split
  all_goals simp [send, publish]

/-- The owner is not told of the end on the way. -/
theorem exited_mem_events_hearAll (n : Notifier) (t : Terminal) (hooks : List Hook) :
    Event.exited ∈ (n.hearAll t hooks).1.events ↔ .exited ∈ n.events := by
  induction hooks generalizing n t with
  | nil => rfl
  | cons hook rest ih =>
      rw [hearAll, ih]
      cases hook with
      | beforeWait => exact n.exited_mem_events_notify t
      | chunkEnd => rfl
      | appended text => rfl
      | chunkStart => rfl

end Notifier

/-! ## What is still to come -/

/-- The bytes that a source returns before its end: it ends when it returns none, or fails. -/
def Reading.beforeEnd : List Reading → List UInt8
  | [] => []
  | .failed :: _ => []
  | .interrupted :: rest => beforeEnd rest
  | .bytes bs :: rest => if bs.isEmpty then [] else bs ++ beforeEnd rest

/-- Whether the text has been ended. -/
def ReadingPhase.closed : ReadingPhase → Bool
  | .dropping | .done => true
  | _ => false

namespace InterpretingPhase

/-- What is being fetched; nothing at the end. -/
def stage : InterpretingPhase → Stage
  | .fetching stage => stage
  | _ => .char false

/-- Whether the end of the text has been seen. -/
def finished : InterpretingPhase → Bool
  | .fetching _ => false
  | _ => true

/-- Whether the owner has been told a last time. -/
def told : InterpretingPhase → Bool
  | .stopping | .exiting | .done => true
  | _ => false

/-- Whether the session is marked as running. -/
def running : InterpretingPhase → Bool
  | .exiting | .done => false
  | _ => true

/-- Who has been told a last time has interpreted everything. -/
theorem finished_of_told {phase : InterpretingPhase} (h : phase.told = true) :
    phase.finished = true := by
  cases phase <;> simp_all [told, finished]

/-- Who has finished fetches nothing more. -/
theorem stage_of_finished {phase : InterpretingPhase} (h : phase.finished = true) :
    phase.stage = .char false := by
  cases phase <;> simp_all [stage, finished]

/-- A session that has stopped has interpreted everything. -/
theorem finished_of_not_running {phase : InterpretingPhase} (h : phase.running = false) :
    phase.finished = true := by
  cases phase <;> simp_all [running, finished]

end InterpretingPhase

namespace Live

open Text.Utf8 (decodeLossy)

/-- The text that the reading side still has to append. -/
def unread (l : Live) : List Char :=
  match l.reading with
  | .checking | .reading | .flushing =>
    decodeLossy (l.decoder.pending ++ Reading.beforeEnd l.source)
  | .finishing => decodeLossy l.decoder.pending
  | .delivering | .closing | .dropping | .done => []

/-- The interpreting side and its pipe. -/
def work (l : Live) : Interpretation where
  interpreter := l.interpreter
  pipe := l.pipe
  stage := l.interpreting.stage
  finished := l.interpreting.finished

/-- What a session has come to, but for what is to be drawn: the interpreter, and the responder
after replies. -/
def outcome (l : Live) (out : Interpreter × List Reply) : Interpreter × Responder :=
  (out.1.due, l.responder.write out.2)

/-- **What will have come of it** when all that is read is interpreted. -/
def promise (l : Live) : Except Fault (Interpreter × Responder) :=
  (l.work.promise l.unread).map l.outcome

/-- **What both sides keep.** -/
structure Sound (l : Live) : Prop where
  work : l.work.Sound
  decoder : l.decoder.Inconclusive
  closed : l.pipe.channel.closed = l.reading.closed
  running : l.session.running = l.interpreting.running
  /-- Once the owner has been told a last time, there is nothing left to tell. -/
  told : l.interpreting.told = true →
    l.session.modes = l.session.terminal.modes ∧
      l.session.terminal.takeRenderRequest.2 = l.session.terminal
  quiet : l.interpreting ≠ .done → Event.exited ∉ l.session.notifier.events
  /-- The end is told once, and then nothing more. -/
  exited : l.interpreting = .done →
    ∃ earlier, l.session.notifier.events = earlier ++ [.exited] ∧ .exited ∉ earlier

variable {l : Live}

/-- The pipe of a sound session is sound. -/
theorem Sound.pipe (hl : l.Sound) : l.pipe.Sound := hl.work.pipe

/-- The interpreting side sees the end only after the reading side has ended the text. -/
theorem Sound.closed_of_finished (hl : l.Sound) (h : l.interpreting.finished = true) :
    l.reading.closed = true := by
  rw [← hl.closed]
  exact hl.pipe.closed_of_exhausted (hl.work.finished h).2

/-- Before the pipe is closed there is more to interpret. -/
theorem Sound.finished_eq (hl : l.Sound) (h : l.reading.closed = false) :
    l.interpreting.finished = false := by
  cases hf : l.interpreting.finished with
  | false => rfl
  | true => exact (hl.closed_of_finished hf).symm.trans h

/-- Promises differ at most in what is to be drawn when the interpreters do. -/
theorem seen_promise_congr {n m : Interpretation} (hdue : n.interpreter.due = m.interpreter.due)
    (hreplies : n.replies = m.replies) (hrest : n.rest = m.rest) (more : List Char) :
    (n.promise more).map Interpreter.seen = (m.promise more).map Interpreter.seen := by
  unfold Interpretation.promise
  rw [hrest, hreplies]
  exact Interpreter.foldlM_feedNext_congr hdue m.replies (m.rest ++ more)

/-- A promise does not look at what is to be drawn. -/
theorem promise_eq (l : Live) :
    l.promise = ((l.work.promise l.unread).map Interpreter.seen).map fun out =>
      (out.1, l.responder.write out.2) := by
  unfold promise
  cases l.work.promise l.unread <;> rfl

/-- What is to come depends on what is there and on where replies go. -/
theorem promise_congr {l' : Live} (hdue : l'.interpreter.due = l.interpreter.due)
    (hrest : l'.work.rest = l.work.rest) (hunread : l'.unread = l.unread)
    (hresponder : l'.responder = l.responder) : l'.promise = l.promise := by
  have hseen := @seen_promise_congr l'.work l.work hdue rfl hrest l.unread
  rw [promise_eq, promise_eq l, hunread, hresponder, hseen]

/-- Hooks of the pipe ask for drawing at most. -/
theorem due_withPipe (l : Live) (changed : Pipe × List Hook) :
    (l.withPipe changed).interpreter.due = l.interpreter.due :=
  Interpreter.due_eq_iff.2 ⟨rfl, Notifier.due_hearAll _ _ _⟩

/-! ## The reading side -/

/-- **Writing keeps the promise**: what is added to the pipe is no longer to be read. -/
theorem Sound.write (hl : l.Sound) (hopen : l.reading.closed = false)
    {changed : Pipe × List Hook} {added : List Char} (hpipe : changed.1.Sound)
    (hmoves : l.pipe.Moves added changed.1) {phase : ReadingPhase}
    (hclosed : changed.1.channel.closed = phase.closed) {decoder : Text.Utf8.Decoder}
    (hdecoder : decoder.Inconclusive) {source : List Reading}
    (hunread : l.unread =
      added ++ unread { l with reading := phase, decoder := decoder, source := source }) :
    Sound { l.withPipe changed with reading := phase, decoder := decoder, source := source } ∧
      promise { l.withPipe changed with reading := phase, decoder := decoder, source := source } =
        l.promise := by
  have hfetching : l.interpreting.finished = false := hl.finished_eq hopen
  have hend : ¬ l.pipe.Exhausted true := hl.pipe.not_exhausted (hl.closed.trans hopen)
  obtain ⟨hwork, hadds⟩ :=
    Interpretation.promise_of_moves hl.work (fun h => absurd h hend) hpipe hmoves
  constructor
  · constructor
    -- the interpreting side is still fetching, so that what it knows at its end is not asked for
    · exact ⟨hwork.pipe, hwork.ground, hwork.finished⟩
    · exact hdecoder
    · exact hclosed
    · exact hl.running
    · intro htold
      have hfinished := InterpretingPhase.finished_of_told htold
      exact absurd (hfetching.symm.trans hfinished) (by simp)
    · intro hphase hmem
      exact hl.quiet hphase ((Notifier.exited_mem_events_hearAll _ _ _).1 hmem)
    · intro hdone
      have hdone : l.interpreting = .done := hdone
      rw [hdone] at hfetching
      simp [InterpretingPhase.finished] at hfetching
  · have hseen : ∀ more,
        ((Live.work (l.withPipe changed)).promise more).map Interpreter.seen =
          (Interpretation.promise { l.work with pipe := changed.1 } more).map Interpreter.seen :=
      seen_promise_congr (l.due_withPipe changed) rfl rfl
    rw [promise_eq, promise_eq l, hunread, ← hadds]
    exact congrArg (Except.map _) (hseen _)

/-- A step in which the reading side only makes up its mind. -/
theorem Sound.setReading (hl : l.Sound) {phase : ReadingPhase}
    (hclosed : phase.closed = l.reading.closed) {source : List Reading}
    (hunread : unread { l with reading := phase, source := source } = l.unread) :
    Sound { l with reading := phase, source := source } ∧
      promise { l with reading := phase, source := source } = l.promise := by
  constructor
  · exact { hl with closed := hl.closed.trans hclosed.symm }
  · unfold promise
    rw [hunread]
    rfl

/-- Bytes that have been read go to the pipe, and what is to come stays. -/
theorem Sound.appendBytes (hl : l.Sound) (hreading : l.reading = .reading) {bs : List UInt8}
    {rest : List Reading} (hbytes : Reading.beforeEnd l.source = bs ++ Reading.beforeEnd rest) :
    (Live.appendBytes { l with source := rest } bs).Sound ∧
      (Live.appendBytes { l with source := rest } bs).promise = l.promise := by
  have hopen : l.reading.closed = false := by rw [hreading]; rfl
  obtain ⟨hpipe, hmoves, hstill⟩ :=
    hl.pipe.append (hl.closed.trans hopen) (l.decoder.decode bs).1
  have hafter : ∀ phase : ReadingPhase, phase = .flushing ∨ phase = .checking →
      unread { l with reading := phase, decoder := (l.decoder.decode bs).2, source := rest } =
        decodeLossy ((l.decoder.decode bs).2.pending ++ Reading.beforeEnd rest) := by
    rintro phase (rfl | rfl) <;> rfl
  generalize hphase : (if bs.length < readSize then ReadingPhase.flushing else .checking) = phase
  have hnext : phase = .flushing ∨ phase = .checking := by
    rw [← hphase]
    split <;> simp
  have hunread : l.unread = (l.decoder.decode bs).1 ++
      unread { l with reading := phase, decoder := (l.decoder.decode bs).2, source := rest } := by
    rw [hafter phase hnext, ← l.decoder.decode_append, ← hbytes]
    unfold unread
    rw [hreading]
  have hclosed : (l.pipe.append (l.decoder.decode bs).1).1.channel.closed = phase.closed := by
    rw [hstill]
    rcases hnext with rfl | rfl <;> rfl
  have hkept := hl.write hopen hpipe hmoves hclosed (l.decoder.inconclusive_decode bs) hunread
  rw [← hphase] at hkept
  exact hkept

/-- **Reading keeps what is to come.** -/
theorem Sound.readSource (hl : l.Sound) (hreading : l.reading = .reading) :
    l.readSource.Sound ∧ l.readSource.promise = l.promise := by
  have hunread : l.unread = decodeLossy (l.decoder.pending ++ Reading.beforeEnd l.source) := by
    unfold unread
    rw [hreading]
  have hends (rest : List Reading) (hnone : Reading.beforeEnd l.source = []) :
      Sound { l with source := rest, reading := .finishing } ∧
        promise { l with source := rest, reading := .finishing } = l.promise := by
    refine hl.setReading (by rw [hreading]; rfl) ?_
    rw [hunread, hnone, List.append_nil]
    rfl
  unfold Live.readSource
  split
  · next hs => exact hends l.source (by rw [hs]; rfl)
  · next rest hs => exact hends rest (by rw [hs]; rfl)
  · next rest hs =>
    refine hl.setReading (by rw [hreading]; rfl) ?_
    rw [hunread, hs]
    rfl
  · next bs rest hs =>
    by_cases hempty : bs.isEmpty = true
    · rw [if_pos hempty]
      exact hends rest (by rw [hs, Reading.beforeEnd, if_pos hempty])
    · rw [if_neg hempty]
      have hbytes : Reading.beforeEnd l.source = bs ++ Reading.beforeEnd rest := by
        rw [hs, Reading.beforeEnd, if_neg hempty]
      split
      · next hlong =>
        have hmore : (bs.drop readSize).isEmpty = false := by
          rw [List.isEmpty_eq_false_iff, ← List.length_pos_iff, List.length_drop]
          omega
        refine hl.appendBytes hreading ?_
        rw [hbytes, Reading.beforeEnd, hmore]
        change _ = bs.take readSize ++ (bs.drop readSize ++ Reading.beforeEnd rest)
        rw [← List.append_assoc, List.take_append_drop]
      · exact hl.appendBytes hreading hbytes

/-- The mark of a running session is taken away only after the end has been seen, so that the reading
side finds it until it has ended the text. -/
theorem Sound.running_of_open (hl : l.Sound) (hopen : l.reading.closed = false) :
    l.session.running = true := by
  have hfetching := hl.finished_eq hopen
  rw [hl.running]
  cases hr : l.interpreting.running with
  | true => rfl
  | false =>
      have hfinished := InterpretingPhase.finished_of_not_running hr
      exact absurd (hfetching.symm.trans hfinished) (by simp)

/-- Queuing what is held back adds nothing to the text. -/
theorem Sound.flush (hl : l.Sound) (hopen : l.reading.closed = false) {phase : ReadingPhase}
    (hclosed : phase.closed = false) (hunread : l.unread = unread { l with reading := phase }) :
    Sound { l.withPipe l.pipe.flush with reading := phase } ∧
      promise { l.withPipe l.pipe.flush with reading := phase } = l.promise := by
  obtain ⟨hpipe, hmoves, -, hsame⟩ := hl.pipe.flush
  have hstill : l.pipe.flush.1.channel.closed = phase.closed := by
    rw [hsame, hl.closed, hopen, hclosed]
  exact hl.write hopen hpipe hmoves hstill hl.decoder hunread

/-- What the decoder has kept is the end of the text. -/
theorem Sound.finish (hl : l.Sound) (hreading : l.reading = .finishing) :
    l.stepReader.Sound ∧ l.stepReader.promise = l.promise := by
  have hopen : l.reading.closed = false := by rw [hreading]; rfl
  obtain ⟨hpipe, hmoves, hstill⟩ :=
    hl.pipe.append (hl.closed.trans hopen) l.decoder.finish.1
  have hclosed : _ = ReadingPhase.closed .delivering := hstill
  have hunread : l.unread = l.decoder.finish.1 ++ [] := by
    rw [Text.Utf8.Decoder.finish_eq hl.decoder, List.append_nil]
    unfold unread
    rw [hreading]
  unfold stepReader
  rw [hreading]
  exact hl.write hopen hpipe hmoves hclosed Text.Utf8.Decoder.inconclusive_new hunread

/-- Giving the writing end up after the text has been ended changes nothing for the other side. -/
theorem Sound.dropWriter (hl : l.Sound) (hreading : l.reading = .dropping) :
    l.stepReader.Sound ∧ l.stepReader.promise = l.promise := by
  have hclosed : l.pipe.channel.closed = true := hl.closed.trans (by rw [hreading]; rfl)
  obtain ⟨hpipe, hmoves, -, hstill⟩ := hl.pipe.dropWriter
  have hdrop := Pipe.dropWriter_of_closed hclosed
  -- the interpreting side may have seen the end already, and goes on seeing it
  have hend : l.pipe.Exhausted true → l.pipe.dropWriter.1.Exhausted true := by
    intro hend
    rw [hdrop]
    exact ⟨hend.contents, hend.messages, hend.ended⟩
  obtain ⟨hwork, hadds⟩ := Interpretation.promise_of_moves hl.work hend hpipe hmoves
  have hunread : l.unread = [] := by
    unfold unread
    rw [hreading]
  unfold stepReader
  rw [hreading, hdrop]
  rw [hdrop] at hwork hadds hstill
  constructor
  · exact { hl with
      work := ⟨hwork.pipe, hwork.ground, hwork.finished⟩
      closed := hstill }
  · unfold promise
    rw [hunread]
    exact congrArg (Except.map _) (hadds [])

/-- **No step of the reading side changes the promise.** -/
theorem promise_stepReader (hl : l.Sound) :
    l.stepReader.Sound ∧ l.stepReader.promise = l.promise := by
  cases hreading : l.reading with
  | checking =>
      have hopen : l.reading.closed = false := by rw [hreading]; rfl
      unfold stepReader
      rw [hreading, hl.running_of_open hopen]
      refine hl.setReading (by rw [hreading]; rfl) ?_
      unfold unread
      rw [hreading]
      rfl
  | reading =>
      unfold stepReader
      rw [hreading]
      exact hl.readSource hreading
  | flushing =>
      have hunread : l.unread = unread { l with reading := .checking } := by
        unfold unread
        rw [hreading]
      unfold stepReader
      rw [hreading]
      exact hl.flush (by rw [hreading]; rfl) rfl hunread
  | finishing => exact hl.finish hreading
  | delivering =>
      have hunread : l.unread = unread { l with reading := .closing } := by
        unfold unread
        rw [hreading]
      unfold stepReader
      rw [hreading]
      exact hl.flush (by rw [hreading]; rfl) rfl hunread
  | closing =>
      obtain ⟨hpipe, hmoves, -, hended⟩ := hl.pipe.close
      have hclosed : _ = ReadingPhase.closed .dropping := hended
      have hunread : l.unread = [] ++ unread { l with reading := .dropping } := by
        unfold unread
        rw [hreading]
        rfl
      unfold stepReader
      rw [hreading]
      exact hl.write (by rw [hreading]; rfl) hpipe hmoves hclosed hl.decoder hunread
  | dropping => exact hl.dropWriter hreading
  | done =>
      unfold stepReader
      rw [hreading]
      exact ⟨hl, rfl⟩

/-! ## The interpreting side -/

/-- The interpreting side has read the pipe, of which the owner hears, and the reading side is where
it was. -/
structure Hears (l : Live) (q : Pipe) (hooks : List Hook) (l' : Live) : Prop where
  pipe : l'.pipe = q
  notifier : l'.session.notifier = (l.withPipe (q, hooks)).session.notifier
  running : l'.session.running = l.session.running
  reading : l'.reading = l.reading
  decoder : l'.decoder = l.decoder

/-- While input is being fetched, the owner is not told anything a last time. -/
theorem Sound.hears (hl : l.Sound) {stage : Stage} (hphase : l.interpreting = .fetching stage)
    {q : Pipe} {hooks : List Hook} {l' : Live} (h : l.Hears q hooks l') (hreads : l.pipe.ReadsTo q)
    (hrunning : l'.interpreting.running = true) (htold : l'.interpreting.told = false)
    (hwork : l'.work.Sound) : l'.Sound := by
  constructor
  · exact hwork
  · rw [h.decoder]
    exact hl.decoder
  · rw [h.pipe, h.reading]
    exact hreads.closed_eq.trans hl.closed
  · rw [h.running, hrunning, hl.running, hphase]
    rfl
  · intro htold'
    exact absurd (htold.symm.trans htold') (by simp)
  · intro _
    rw [h.notifier]
    intro hmem
    exact hl.quiet (by simp [hphase]) ((Notifier.exited_mem_events_hearAll _ _ _).1 hmem)
  · intro hdone
    rw [hdone] at htold
    simp [InterpretingPhase.told] at htold

/-- At its end the interpreting side has nothing left to do. -/
theorem sound_work_of_exhausted (hpipe : l.pipe.Sound) (hend : l.pipe.Exhausted true)
    (hfinished : l.interpreting.finished = true) : l.work.Sound := by
  have hstage : l.work.stage = .char false := InterpretingPhase.stage_of_finished hfinished
  refine ⟨hpipe, ?_, fun _ => ⟨?_, hend⟩⟩
  · intro part hpart
    rw [hstage] at hpart
    simp at hpart
  · rw [hstage]
    exact hend.contents

section Fetch

variable {stage : Stage} {l' : Live}

/-- The stage of fetching is that of the interpretation. -/
theorem work_stage (hphase : l.interpreting = .fetching stage) : l.work.stage = stage := by
  unfold Live.work
  rw [hphase]
  rfl

/-- While it fetches, the interpretation goes on. -/
theorem work_finished (hphase : l.interpreting = .fetching stage) : l.work.finished = false := by
  unfold Live.work
  rw [hphase]
  rfl

/-- **Everything that a step of fetching can come to**, unless it is a fault. -/
theorem fetch_cases (hphase : l.interpreting = .fetching stage) (h : l.fetch stage = .ok l') :
    ∃ result q hooks,
      l.work.pipe.fetchStep l.work.interpreter.betweenSequences l.work.stage = (result, q, hooks) ∧
      ((∃ next, result = .onward next ∧
          l' = { l.withPipe (q, hooks) with interpreting := .fetching next }) ∨
        (result = .ended ∧ l' = { l.withPipe (q, hooks) with interpreting := .notifying }) ∨
        ∃ input i replies, result = .got input ∧
          (l.withPipe (q, hooks)).interpreter.take input = .ok (i, replies) ∧
          l' = { (l.withPipe (q, hooks)).withInterpreter i replies with
            interpreting := .fetching (.char false) }) := by
  rw [work_stage hphase]
  unfold fetch at h
  rcases hf : l.pipe.fetchStep l.interpreter.betweenSequences stage with ⟨result, q, hooks⟩
  rw [hf] at h
  refine ⟨result, q, hooks, hf, ?_⟩
  cases result with
  | onward next => exact .inl ⟨next, rfl, (Except.ok.inj h).symm⟩
  | ended => exact .inr (.inl ⟨rfl, (Except.ok.inj h).symm⟩)
  | got input =>
      dsimp only at h
      split at h
      · next i replies ht => exact .inr (.inr ⟨input, i, replies, rfl, ht, (Except.ok.inj h).symm⟩)
      · simp at h

/-- **Fetching and interpreting a piece of input keeps the promise.** -/
theorem promise_fetch (hl : l.Sound) (hphase : l.interpreting = .fetching stage)
    (h : l.fetch stage = .ok l') : l'.Sound ∧ l'.promise = l.promise := by
  obtain ⟨result, q, hooks, hstep, ⟨next, rfl, rfl⟩ | ⟨rfl, rfl⟩ |
    ⟨input, i, replies, rfl, ht, rfl⟩⟩ := fetch_cases hphase h
  · obtain ⟨hreads, hwork, hrest⟩ := hl.work.onward (work_finished hphase) hstep
    refine ⟨hl.hears hphase ⟨rfl, rfl, rfl, rfl, rfl⟩ hreads rfl rfl ?_, ?_⟩
    · exact ⟨hwork.pipe, hwork.ground, by simp [Live.work, InterpretingPhase.finished]⟩
    · exact promise_congr (l.due_withPipe (q, hooks)) hrest rfl rfl
  · obtain ⟨hreads, hq, hnil, hend⟩ := hl.work.ended hstep
    refine ⟨hl.hears hphase ⟨rfl, rfl, rfl, rfl, rfl⟩ hreads rfl rfl ?_, ?_⟩
    · exact sound_work_of_exhausted hq hend rfl
    · have hrest : l.work.rest = q.contents ++ q.held := by
        unfold Interpretation.rest
        rw [hnil, hend.contents, hreads.1]
      exact promise_congr (l.due_withPipe (q, hooks)) hrest.symm rfl rfl
  · obtain ⟨hreads, -, -⟩ := hl.work.got hstep
    refine ⟨hl.hears hphase ⟨rfl, rfl, rfl, rfl, rfl⟩ hreads rfl rfl ?_, ?_⟩
    · exact ⟨hl.pipe.of_readsTo hreads, by simp [Live.work, InterpretingPhase.stage],
        by simp [Live.work, InterpretingPhase.finished]⟩
    · have hgot := Interpretation.promise_got hl.work hstep l.unread
      have htake := Interpreter.take_congr (l.due_withPipe (q, hooks)) input
      -- `j` is what the terminal would have become without having been asked what is to be drawn
      obtain ⟨⟨j, _⟩, hj, hseen⟩ := exists_ok_of_map_eq htake ht
      obtain ⟨hij, rfl⟩ : i.due = j.due ∧ replies = _ := by simpa using hseen
      generalize htext : q.contents ++ q.held ++ l.unread = text at hgot
      have hsofar := j.foldlM_feedNext_replies replies text
      have hlater := Interpreter.foldlM_feedNext_congr hij [] text
      calc
        _ = ((text.foldlM Interpreter.feedNext (i, [])).map Interpreter.seen).map fun out =>
              (out.1, (l.responder.write replies).write out.2) := by
            rw [promise_eq, ← htext]
            rfl
        _ = (text.foldlM Interpreter.feedNext (j, replies)).map l.outcome := by
            rw [hlater, hsofar, ← Interpreter.feedText_eq_foldlM]
            cases j.feedText text with
            | error fault => rfl
            | ok out => simp [Except.map, outcome, Responder.write_append]
        _ = l.promise := by
            unfold promise
            rw [hgot]
            change _ = ((l.interpreter.take input).bind _).map l.outcome
            rw [hj]
            rfl

/-- A fault is one that is promised. -/
theorem promise_of_fetch_error (hl : l.Sound) (hphase : l.interpreting = .fetching stage)
    {fault : Fault} (h : l.fetch stage = .error fault) : l.promise = .error fault := by
  unfold fetch at h
  rcases hf : l.pipe.fetchStep l.interpreter.betweenSequences stage with ⟨result, q, hooks⟩
  have hstep : l.work.pipe.fetchStep l.work.interpreter.betweenSequences l.work.stage =
      (result, q, hooks) := by
    rw [work_stage hphase]
    exact hf
  rw [hf] at h
  cases result with
  | onward next => simp at h
  | ended => simp at h
  | got input =>
      have hgot := Interpretation.promise_got hl.work hstep l.unread
      have htake := Interpreter.take_congr (l.due_withPipe (q, hooks)) input
      dsimp only at h
      split at h
      · simp at h
      · next fault' ht =>
        obtain rfl := Except.error.inj h
        have hfault : l.work.interpreter.take input = .error fault' := error_of_map_eq htake ht
        unfold promise
        rw [hgot, hfault]
        rfl

end Fetch

/-- **No step of the interpreting side changes the promise.** -/
theorem promise_stepInterpreter {l' : Live} (hl : l.Sound) (h : l.stepInterpreter = .ok l') :
    l'.Sound ∧ l'.promise = l.promise := by
  have hend : l.interpreting.finished = true → l.pipe.Exhausted true := fun hfinished =>
    (hl.work.finished hfinished).2
  have hrest : l'.pipe = l.pipe → l'.interpreting.finished = true → l.interpreting.finished = true →
      l'.work.rest = l.work.rest := by
    intro hpipe hafter hbefore
    unfold Interpretation.rest Live.work
    dsimp only
    rw [hpipe, InterpretingPhase.stage_of_finished hafter,
      InterpretingPhase.stage_of_finished hbefore]
  unfold stepInterpreter at h
  cases hphase : l.interpreting with
  | fetching stage =>
      rw [hphase] at h
      exact promise_fetch hl hphase h
  | notifying =>
      rw [hphase] at h hend hrest
      obtain rfl := Except.ok.inj h
      have hdue : l.notify.interpreter.due = l.interpreter.due :=
        Interpreter.due_eq_iff.2 ⟨rfl, Terminal.due_takeRenderRequest _⟩
      refine ⟨?_, promise_congr hdue (hrest rfl rfl rfl) rfl rfl⟩
      constructor
      · exact sound_work_of_exhausted hl.pipe (hend rfl) rfl
      · exact hl.decoder
      · exact hl.closed
      · exact hl.running.trans (by rw [hphase]; rfl)
      · intro _
        have hmodes : (l.session.notifier.notify l.session.terminal).2.modes =
            l.session.terminal.modes := l.session.terminal.modes_takeRenderRequest
        exact ⟨(Notifier.snapshot_notify _ _).trans hmodes.symm,
          Terminal.takeRenderRequest_takeRenderRequest _⟩
      · intro _ hmem
        exact hl.quiet (by simp [hphase]) ((Notifier.exited_mem_events_notify _ _).1 hmem)
      · simp
  | stopping =>
      rw [hphase] at h hend hrest
      obtain rfl := Except.ok.inj h
      refine ⟨?_, promise_congr rfl (hrest rfl rfl rfl) rfl rfl⟩
      exact { hl with
        work := sound_work_of_exhausted hl.pipe (hend rfl) rfl
        running := rfl
        told := fun _ => hl.told (by rw [hphase]; rfl)
        quiet := fun _ => hl.quiet (by simp [hphase])
        exited := by simp }
  | exiting =>
      rw [hphase] at h hend hrest
      obtain rfl := Except.ok.inj h
      refine ⟨?_, promise_congr rfl (hrest rfl rfl rfl) rfl rfl⟩
      exact { hl with
        work := sound_work_of_exhausted hl.pipe (hend rfl) rfl
        running := hl.running.trans (by rw [hphase]; rfl)
        told := fun _ => hl.told (by rw [hphase]; rfl)
        quiet := fun hundone => absurd rfl hundone
        exited := fun _ => ⟨_, rfl, hl.quiet (by simp [hphase])⟩ }
  | done =>
      rw [hphase] at h
      obtain rfl := Except.ok.inj h
      exact ⟨hl, rfl⟩

/-- A fault is one that is promised. -/
theorem promise_of_stepInterpreter_error (hl : l.Sound) {fault : Fault}
    (h : l.stepInterpreter = .error fault) : l.promise = .error fault := by
  unfold stepInterpreter at h
  cases hphase : l.interpreting with
  | fetching stage =>
      rw [hphase] at h
      exact promise_of_fetch_error hl hphase h
  | notifying =>
      rw [hphase] at h
      simp at h
  | stopping =>
      rw [hphase] at h
      simp at h
  | exiting =>
      rw [hphase] at h
      simp at h
  | done =>
      rw [hphase] at h
      simp at h

/-! ## Both sides -/

/-- **A step keeps what is to come**, whichever side takes it. -/
theorem promise_step {l' : Live} (hl : l.Sound) {side : Side} (h : l.step side = .ok l') :
    l'.Sound ∧ l'.promise = l.promise := by
  cases side with
  | reader =>
      obtain rfl := Except.ok.inj h
      exact promise_stepReader hl
  | interpreter => exact promise_stepInterpreter hl h

/-- A step that fails does so with the fault that was to come. -/
theorem promise_of_step_error (hl : l.Sound) {side : Side} {fault : Fault}
    (h : l.step side = .error fault) : l.promise = .error fault := by
  cases side with
  | reader => simp [step] at h
  | interpreter => exact promise_of_stepInterpreter_error hl h

/-- **No interleaving changes the promise**, and a fault is one that is promised. -/
theorem promise_follow (hl : l.Sound) (sides : List Side) :
    (∀ fault, l.follow sides = .error fault → l.promise = .error fault) ∧
      ∀ l', l.follow sides = .ok l' → l'.Sound ∧ l'.promise = l.promise := by
  unfold follow
  induction sides generalizing l with
  | nil =>
      refine ⟨by simp [pure, Except.pure], ?_⟩
      intro l' h
      obtain rfl := Except.ok.inj h
      exact ⟨hl, rfl⟩
  | cons side rest ih =>
      rw [List.foldlM_cons]
      cases hstep : l.step side with
      | error fault =>
          refine ⟨?_, by simp [bind, Except.bind]⟩
          intro fault' h
          obtain rfl := Except.error.inj h
          exact promise_of_step_error hl hstep
      | ok next =>
          obtain ⟨hnext, hpromise⟩ := promise_step hl hstep
          rw [← hpromise]
          exact ih hnext

/-! ## From the start to the end -/

/-- The text of everything that is read before the end. -/
def textOf (source : List Reading) : List Char := decodeLossy (Reading.beforeEnd source)

/-- A session is sound when it starts. -/
theorem sound_spawn (id : Nat) (source : List Reading) (responder : Responder)
    (options : Session.Options) : (spawn id source responder options).Sound where
  work := ⟨Pipe.sound_new _ _, by simp [spawn, Live.work, InterpretingPhase.stage],
    by simp [spawn, Live.work, InterpretingPhase.finished]⟩
  decoder := Text.Utf8.Decoder.inconclusive_new
  closed := rfl
  running := rfl
  told := by simp [spawn, InterpretingPhase.told]
  quiet := by simp [spawn, Session.new]
  exited := by simp [spawn]

/-- What is promised at the start: what comes of the whole text at once. -/
theorem promise_spawn (id : Nat) (source : List Reading) (responder : Responder)
    (options : Session.Options) :
    (spawn id source responder options).promise =
      ((Interpreter.mk {} (Session.new id options).terminal).feedText (textOf source)).map
        fun out => (out.1.due, responder.write out.2) := by
  rw [Interpreter.feedText_eq_foldlM]
  rfl

/-- At the end the promise is kept. -/
theorem promise_of_finished (hl : l.Sound) (h : l.interpreting.finished = true) :
    l.promise = .ok (l.interpreter.due, l.responder) := by
  have hunread : l.unread = [] := by
    have hclosed := hl.closed_of_finished h
    unfold unread
    cases hr : l.reading <;> simp_all [ReadingPhase.closed]
  have hkept := Interpretation.promise_of_finished hl.work h
  unfold promise
  rw [hunread, hkept]
  exact congrArg (fun r => Except.ok (l.interpreter.due, r)) l.responder.write_nil

end Live

end VideoTerminal
