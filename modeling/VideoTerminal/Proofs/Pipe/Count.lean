import VideoTerminal.Pipe.Reading

/-!
# The count of chunks

The two ends of a pipe share a channel and a number, the count of chunks on their way.  Neither end
can change both at once: the writer counts a chunk and then sends it, the reader receives a chunk
and then takes it off the count, and the other end may come in between.  A `Handover` is a pipe with
what each end is about to do, and a `Move` one such step.

At any time the count is the number of chunks in the channel, and of those that one end has counted
and the channel does not have (`Handover.count_follow`).  It never says that there is nothing when
there is a chunk, and there is always a chunk to be taken off.

With the other end idle, the steps of an operation come to the operation (`Handover.follow_write`,
`Handover.follow_receive`).
-/

namespace VideoTerminal

namespace Channel

/-- The chunks among the messages on their way. -/
def chunkCount (ch : Channel) : Nat := (ch.messages.filter fun m => !m.isClose).length

section Step

variable {ch : Channel}

/-- Counting a chunk leaves the reader. -/
@[simp] theorem hasReader_announce : ch.announce.hasReader = ch.hasReader := rfl

@[simp] theorem hasReader_settle : ch.settle.hasReader = ch.hasReader := rfl

/-- One chunk more is counted. -/
@[simp] theorem pending_announce : ch.announce.pending = ch.pending + 1 := rfl

/-- One chunk is counted off. -/
@[simp] theorem pending_settle : ch.settle.pending = ch.pending - 1 := rfl

/-- Counting a chunk sends none. -/
@[simp] theorem chunkCount_announce : ch.announce.chunkCount = ch.chunkCount := rfl

@[simp] theorem chunkCount_settle : ch.settle.chunkCount = ch.chunkCount := rfl

/-- Sending does not count. -/
@[simp] theorem pending_send (m : Message) : (ch.send m).pending = ch.pending := by
  unfold send
  split <;> rfl

@[simp] theorem hasReader_send (m : Message) : (ch.send m).hasReader = ch.hasReader := by
  unfold send
  split <;> rfl

@[simp] theorem closed_send (m : Message) : (ch.send m).closed = ch.closed := by
  unfold send
  split <;> rfl

/-- What is sent comes last, if there is a reader. -/
theorem messages_send (m : Message) :
    (ch.send m).messages = ch.messages ++ if ch.hasReader then [m] else [] := by
  unfold send
  split <;> simp [*]

/-- What is sent to no one is lost. -/
theorem send_of_not_hasReader (m : Message) (h : ch.hasReader = false) : ch.send m = ch := by
  simp [send, h]

/-- What is sent is one chunk more, unless it says that the text has ended or no one reads. -/
theorem chunkCount_send (m : Message) :
    (ch.send m).chunkCount =
      ch.chunkCount + if ch.hasReader && !m.isClose then 1 else 0 := by
  unfold chunkCount
  rw [messages_send]
  cases ch.hasReader <;> cases m <;> simp [Message.isClose]

end Step

end Channel

namespace Pipe

/-! ## Steps of the writer -/

/-- What the writer can begin. -/
inductive WriterOperation
  | append (chunk : List Char)
  | flush
  | close
  | drop
  deriving DecidableEq

/-- What remains to be done after a chunk. -/
inductive Errand
  | nothing
  /-- The text is to be ended. -/
  | close
  /-- The text is to be ended, and the writing end to be given up. -/
  | drop
  deriving DecidableEq

/-- What the writer does next. -/
inductive WriterPhase
  /-- It may begin an operation. -/
  | free
  /-- Counts a chunk. -/
  | counting (chunk : List Char) (errand : Errand)
  /-- Sends the chunk that it has counted. -/
  | sending (chunk : List Char) (errand : Errand)
  /-- Takes a chunk that found no reader off the count. -/
  | uncounting (errand : Errand)
  /-- Marks the text as ended. -/
  | ending (dropping : Bool)
  /-- Sends the last message. -/
  | closing (dropping : Bool)
  /-- Gives its end up. -/
  | dropping
  | gone
  deriving DecidableEq

namespace WriterPhase

/-- What follows a chunk. -/
def behind : Errand → WriterPhase
  | .nothing => free
  | .close => ending false
  | .drop => ending true

/-- The chunks that the writer has counted and the channel does not have. -/
def counted : WriterPhase → Nat
  | sending _ _ | uncounting _ => 1
  | _ => 0

/-- Whether the writer has found the text not ended, and has not ended it. -/
def isWriting : WriterPhase → Bool
  | counting _ _ | sending _ _ | uncounting _ | ending _ => true
  | _ => false

/-- What follows a chunk has not counted another one yet. -/
theorem counted_behind (errand : Errand) : (behind errand).counted = 0 := by
  cases errand <;> rfl

end WriterPhase

/-- Begins to end the text, unless that has been done. -/
def beginClose (p : Pipe) (errand : Errand) : Pipe × WriterPhase :=
  if p.channel.closed then (p, if errand = .drop then .dropping else .free)
  else
    ({ p with held := [] },
      if p.held.isEmpty then .behind errand else .counting p.held errand)

/-- Begins an operation: the writer looks whether the text has ended, and what there is to send. -/
def beginWrite (p : Pipe) : WriterOperation → Pipe × WriterPhase
  | .append chunk =>
    if p.channel.closed || chunk.isEmpty then (p, .free)
    else
      let cut := cutComplete (p.held ++ chunk)
      ({ p with held := cut.2 },
        if cut.1.isEmpty then .free else .counting cut.1 .nothing)
  | .flush =>
    if p.channel.closed || p.held.isEmpty then (p, .free)
    else ({ p with held := [] }, .counting p.held .nothing)
  | .close => p.beginClose .close
  | .drop => p.beginClose .drop

/-- A step of the writer, which begins `op` if it is free. -/
def writeStep (p : Pipe) (phase : WriterPhase) (op : WriterOperation) : Pipe × WriterPhase :=
  match phase with
  | .free => p.beginWrite op
  | .counting chunk errand => ({ p with channel := p.channel.announce }, .sending chunk errand)
  | .sending chunk errand =>
    ({ p with channel := p.channel.send (.chunk chunk) },
      if p.channel.hasReader then .behind errand else .uncounting errand)
  | .uncounting errand => ({ p with channel := p.channel.settle }, .behind errand)
  | .ending dropping =>
    ({ p with channel := { p.channel with closed := true } }, .closing dropping)
  | .closing dropping =>
    ({ p with channel := p.channel.send .close }, if dropping then .dropping else .free)
  | .dropping => ({ p with channel := { p.channel with hasWriter := false } }, .gone)
  | .gone => (p, .gone)

/-- Beginning an operation is to look at the channel and to take what is held back. -/
theorem beginWrite_cases (p : Pipe) (op : WriterOperation) :
    ∃ held phase, p.beginWrite op = ({ p with held := held }, phase) ∧ phase.counted = 0 ∧
      (phase.isWriting = true → p.channel.closed = false) ∧
      ∀ dropping, phase ≠ .closing dropping := by
  cases hclosed : p.channel.closed with
  | true =>
    refine ⟨p.held, (p.beginWrite op).2, ?_, ?_, ?_, ?_⟩ <;>
      cases op <;>
        simp [beginWrite, beginClose, hclosed, WriterPhase.counted, WriterPhase.isWriting]
  | false =>
    refine ⟨(p.beginWrite op).1.held, (p.beginWrite op).2, ?_, ?_, fun _ => rfl, ?_⟩
    · obtain ⟨held, channel, reader⟩ := p
      cases op <;> simp only [beginWrite, beginClose] <;> split <;> simp_all
    · cases op <;> simp only [beginWrite, beginClose, hclosed] <;> repeat' split
      all_goals simp_all [WriterPhase.counted, WriterPhase.behind]
    · cases op <;> simp only [beginWrite, beginClose, hclosed] <;> repeat' split
      all_goals simp_all [WriterPhase.behind]

/-! ## Steps of the reader -/

/-- What the reader does next. -/
inductive ReaderPhase
  /-- It may receive a message. -/
  | free
  /-- Takes a chunk that it has received off the count, and puts it into the buffer. -/
  | uncounting (chunk : List Char)
  | gone
  deriving DecidableEq

/-- The chunks that the reader has received and not taken off the count. -/
def ReaderPhase.received : ReaderPhase → Nat
  | uncounting _ => 1
  | _ => 0

/-- A step in which the reader receives a message, or is done with one. -/
def receiveStep (p : Pipe) : ReaderPhase → Pipe × ReaderPhase
  | .free =>
    match p.channel.receive? with
    | none =>
      let ended := p.reader.ended || !p.channel.hasWriter
      ({ p with reader := { p.reader with ended := ended } }, .free)
    | some (.chunk text, channel) => ({ p with channel := channel }, .uncounting text)
    | some (.close, channel) =>
      ({ p with channel := channel, reader := { p.reader with ended := true } }, .free)
  | .uncounting text =>
    ({ p with
        channel := p.channel.settle
        reader := { p.reader with unread := p.reader.unread ++ text } }, .free)
  | .gone => (p, .gone)

/-! ## What every step keeps -/

/-- **What holds at any time** of a channel, of what both ends do next, and of the chunks that were
lost with the reader. -/
structure Kept (ch : Channel) (writer : WriterPhase) (reader : ReaderPhase) (lost : Nat) :
    Prop where
  pending : ch.pending = ch.chunkCount + writer.counted + reader.received + lost
  reader : ch.hasReader = true ↔ reader ≠ .gone
  lost : ch.hasReader = true → lost = 0
  /-- Nothing is on its way to nobody. -/
  messages : ch.hasReader = false → ch.messages = []
  /-- Only the writer ends the text, and not while it writes. -/
  writing : writer.isWriting = true → ch.closed = false
  /-- The text is marked as ended before the last message is sent. -/
  marked : ∀ dropping, writer = .closing dropping → ch.closed = true
  /-- Until it has been sent, the last message is not on its way. -/
  unsent : ch.closed = false ∨ (∃ dropping, writer = .closing dropping) →
    ∀ m ∈ ch.messages, m.isClose = false
  /-- Nothing comes after the last message. -/
  last : ∀ m ∈ ch.messages.dropLast, m.isClose = false

/-- A new channel has nothing to count. -/
theorem Kept.new (pacing : Pacing) (threshold : Nat) :
    Kept (Pipe.new pacing threshold).channel .free .free 0 where
  pending := rfl
  reader := by simp [Pipe.new]
  lost _ := rfl
  messages _ := rfl
  writing _ := rfl
  marked _ hphase := by simp at hphase
  unsent _ m hm := by simp [Pipe.new] at hm
  last m hm := by simp [Pipe.new] at hm

section Writer

variable {p : Pipe} {reader : ReaderPhase} {lost : Nat}

/-- A chunk is sent. -/
theorem Kept.sending {chunk : List Char} {errand : Errand}
    (h : Kept p.channel (.sending chunk errand) reader lost) (op : WriterOperation) :
    Kept (p.writeStep (.sending chunk errand) op).1.channel
      (p.writeStep (.sending chunk errand) op).2 reader lost := by
  have hopen : p.channel.closed = false := h.writing rfl
  have hchunks : ∀ m ∈ p.channel.messages, m.isClose = false := h.unsent (.inl hopen)
  have hpending := h.pending
  simp only [WriterPhase.counted] at hpending
  unfold writeStep
  dsimp only
  cases hreader : p.channel.hasReader with
  | true =>
    have hall : ∀ m ∈ (p.channel.send (.chunk chunk)).messages, m.isClose = false := by
      intro m hm
      rw [Channel.messages_send, hreader] at hm
      rcases List.mem_append.mp hm with hm | hm
      · exact hchunks m hm
      · obtain rfl := List.mem_singleton.mp hm
        rfl
    have hcount : (p.channel.send (.chunk chunk)).chunkCount = p.channel.chunkCount + 1 := by
      rw [Channel.chunkCount_send, hreader]
      rfl
    have hclosing : ∀ dropping, WriterPhase.behind errand ≠ .closing dropping := by
      cases errand <;> simp [WriterPhase.behind]
    refine ⟨?_, by simpa using h.reader, by simpa using h.lost, by simp [hreader],
      by simpa using fun _ => hopen, fun dropping hphase => absurd hphase (hclosing dropping),
      fun _ => hall, fun m hm => hall m (List.dropLast_subset _ hm)⟩
    rw [Channel.pending_send, hcount, if_pos rfl, WriterPhase.counted_behind]
    omega
  | false =>
    rw [Channel.send_of_not_hasReader _ hreader]
    exact ⟨hpending, h.reader, h.lost, h.messages, fun _ => hopen, by simp, fun _ => hchunks,
      h.last⟩

/-- The last message is sent. -/
theorem Kept.closing {dropping : Bool} (h : Kept p.channel (.closing dropping) reader lost)
    (op : WriterOperation) :
    Kept (p.writeStep (.closing dropping) op).1.channel (p.writeStep (.closing dropping) op).2
      reader lost := by
  have hclosed : p.channel.closed = true := h.marked _ rfl
  have hchunks : ∀ m ∈ p.channel.messages, m.isClose = false := h.unsent (.inr ⟨_, rfl⟩)
  have hcount : (p.channel.send .close).chunkCount = p.channel.chunkCount := by
    rw [Channel.chunkCount_send]
    simp [Message.isClose]
  have hpending := h.pending
  unfold writeStep
  dsimp only
  refine ⟨?_, by simpa using h.reader, by simpa using h.lost, ?_, ?_, ?_, ?_, ?_⟩
  · rw [Channel.pending_send, hcount]
    cases dropping <;> exact hpending
  · intro hreader
    rw [Channel.hasReader_send] at hreader
    rw [Channel.send_of_not_hasReader _ hreader]
    exact h.messages hreader
  · cases dropping <;> simp [WriterPhase.isWriting]
  · cases dropping <;> simp
  · cases dropping <;> simp [hclosed]
  · intro m hm
    rw [Channel.messages_send] at hm
    split at hm
    · rw [List.dropLast_concat] at hm
      exact hchunks m hm
    · rw [List.append_nil] at hm
      exact h.last m hm

/-- **A step of the writer.** -/
theorem Kept.write {phase : WriterPhase} (h : Kept p.channel phase reader lost)
    (op : WriterOperation) :
    Kept (p.writeStep phase op).1.channel (p.writeStep phase op).2 reader lost := by
  have hpending := h.pending
  cases phase with
  | free =>
      obtain ⟨held, phase, hbegin, hcounted, hwriting, hclosing⟩ := p.beginWrite_cases op
      rw [writeStep, hbegin]
      refine ⟨?_, h.reader, h.lost, h.messages, hwriting,
        fun dropping hphase => absurd hphase (hclosing dropping), ?_, h.last⟩
      · rw [hcounted]
        exact hpending
      · rintro (hopen | ⟨dropping, hphase⟩)
        · exact h.unsent (.inl hopen)
        · exact absurd hphase (hclosing dropping)
  | counting chunk errand =>
      have hopen : p.channel.closed = false := h.writing rfl
      refine ⟨?_, h.reader, h.lost, h.messages, fun _ => hopen, by simp [writeStep],
        fun _ => h.unsent (.inl hopen), h.last⟩
      simp only [writeStep, WriterPhase.counted, Channel.pending_announce,
        Channel.chunkCount_announce] at hpending ⊢
      omega
  | sending chunk errand => exact h.sending op
  | uncounting errand =>
      have hopen : p.channel.closed = false := h.writing rfl
      have hclosing : ∀ dropping, WriterPhase.behind errand ≠ .closing dropping := by
        cases errand <;> simp [WriterPhase.behind]
      refine ⟨?_, h.reader, h.lost, h.messages, fun _ => hopen,
        fun dropping hphase => absurd hphase (hclosing dropping),
        fun _ => h.unsent (.inl hopen), h.last⟩
      simp only [WriterPhase.counted] at hpending
      simp only [writeStep, WriterPhase.counted_behind, Channel.pending_settle,
        Channel.chunkCount_settle]
      omega
  | ending dropping =>
      have hopen : p.channel.closed = false := h.writing rfl
      refine ⟨hpending, h.reader, h.lost, h.messages, ?_, fun _ _ => rfl,
        fun _ => h.unsent (.inl hopen), h.last⟩
      simp [writeStep, WriterPhase.isWriting]
  | closing dropping => exact h.closing op
  | dropping =>
      refine ⟨hpending, h.reader, h.lost, h.messages, ?_, by simp [writeStep], ?_, h.last⟩
      · simp [writeStep, WriterPhase.isWriting]
      · rintro (hopen | ⟨dropping, hphase⟩)
        · exact h.unsent (.inl hopen)
        · simp [writeStep] at hphase
  | gone => exact h

end Writer

section Reader

variable {p : Pipe} {writer : WriterPhase} {lost : Nat}

/-- The channel without its oldest message keeps what it kept, but for the count. -/
theorem Kept.receive {reader : ReaderPhase} (h : Kept p.channel writer reader lost) :
    Kept (p.receiveStep reader).1.channel writer (p.receiveStep reader).2 lost := by
  have hpending := h.pending
  cases reader with
  | free =>
      have hreader : p.channel.hasReader = true := h.reader.mpr (by simp)
      unfold receiveStep Channel.receive?
      cases hmessages : p.channel.messages with
      | nil => exact h
      | cons m rest =>
        have hunsent : p.channel.closed = false ∨ (∃ dropping, writer = .closing dropping) →
            ∀ m' ∈ rest, m'.isClose = false := by
          intro hopen m' hm'
          exact h.unsent hopen m' (by simp [hmessages, hm'])
        have hlast : ∀ m' ∈ rest.dropLast, m'.isClose = false := by
          intro m' hm'
          have hne : rest ≠ [] := by
            rintro rfl
            simp at hm'
          refine h.last m' ?_
          rw [hmessages, List.dropLast_cons_of_ne_nil hne]
          exact List.mem_cons_of_mem m hm'
        cases m with
        | chunk text =>
          refine ⟨?_, by simp [hreader], h.lost, by simp [hreader], h.writing, h.marked, hunsent,
            hlast⟩
          simp only [Channel.chunkCount, hmessages, Message.isClose, ReaderPhase.received]
            at hpending ⊢
          simp at hpending ⊢
          omega
        | close =>
          refine ⟨?_, by simp [hreader], h.lost, by simp [hreader], h.writing, h.marked, hunsent,
            hlast⟩
          simpa [Channel.chunkCount, hmessages, Message.isClose] using hpending
  | uncounting text =>
      have hreader : p.channel.hasReader = true := h.reader.mpr (by simp)
      refine ⟨?_, by simp [receiveStep, hreader], h.lost, h.messages, h.writing, h.marked,
        h.unsent, h.last⟩
      simp only [ReaderPhase.received] at hpending
      simp only [receiveStep, ReaderPhase.received, Channel.pending_settle,
        Channel.chunkCount_settle]
      omega
  | gone => exact h

/-- The reader is given up. -/
theorem Kept.dropReader (h : Kept p.channel writer .free lost) :
    Kept p.dropReader.channel writer .gone p.channel.chunkCount where
  pending := by
    have hpending := h.pending
    have hlost := h.lost (h.reader.mpr (by simp))
    simp only [ReaderPhase.received] at hpending
    simp only [Pipe.dropReader, Channel.chunkCount, ReaderPhase.received, List.filter_nil,
      List.length_nil]
    simp only [Channel.chunkCount] at hpending
    omega
  reader := by simp [Pipe.dropReader]
  lost := by simp [Pipe.dropReader]
  messages _ := rfl
  writing := h.writing
  marked := h.marked
  unsent _ m hm := by simp [Pipe.dropReader] at hm
  last m hm := by simp [Pipe.dropReader] at hm

end Reader

/-! ## Both ends -/

/-- A pipe, and what both ends do next. -/
structure Handover where
  pipe : Pipe
  writer : WriterPhase := .free
  reader : ReaderPhase := .free
  /-- Chunks that were on their way when the reader was given up. -/
  lost : Nat := 0

/-- What can happen next. -/
inductive Move
  /-- A step of the writer, which begins the operation if it is free. -/
  | write (op : WriterOperation)
  /-- A step in which the reader receives a message, or is done with one. -/
  | receive
  /-- Something that the reader does by itself, such as handing out its buffer. -/
  | work (reader : Reader)
  /-- The reader is given up. -/
  | dropReader

namespace Handover

/-- An open pipe of which nothing has been done. -/
def new (pacing : Pacing) (threshold : Nat) : Handover := { pipe := .new pacing threshold }

/-- A move.  A reader that is not free is not given up. -/
def step (s : Handover) : Move → Handover
  | .write op =>
    { s with
      pipe := (s.pipe.writeStep s.writer op).1
      writer := (s.pipe.writeStep s.writer op).2 }
  | .receive =>
    { s with
      pipe := (s.pipe.receiveStep s.reader).1
      reader := (s.pipe.receiveStep s.reader).2 }
  | .work reader => { s with pipe := { s.pipe with reader := reader } }
  | .dropReader =>
    if s.reader = .free then
      { s with pipe := s.pipe.dropReader, reader := .gone, lost := s.pipe.channel.chunkCount }
    else s

/-- Moves in order. -/
def follow (s : Handover) (moves : List Move) : Handover := moves.foldl step s

/-- **Every move keeps it.** -/
theorem kept_step {s : Handover} (h : Kept s.pipe.channel s.writer s.reader s.lost) (move : Move) :
    Kept (s.step move).pipe.channel (s.step move).writer (s.step move).reader
      (s.step move).lost := by
  cases move with
  | write op => exact h.write op
  | receive => exact h.receive
  | work reader => exact h
  | dropReader =>
      unfold step
      dsimp only
      split
      · next hfree =>
        rw [hfree] at h
        exact h.dropReader
      · exact h

/-- **The count is kept** by any steps of the two sides. -/
theorem kept_follow {s : Handover} (h : Kept s.pipe.channel s.writer s.reader s.lost)
    (moves : List Move) :
    Kept (s.follow moves).pipe.channel (s.follow moves).writer (s.follow moves).reader
      (s.follow moves).lost := by
  induction moves generalizing s with
  | nil => exact h
  | cons move moves ih => exact ih (kept_step h move)

/-- **The count of chunks.**  Both ends of a new pipe take steps, in whatever order, and at some
time the reader may be given up.  At any time:

* the count is the number of chunks in the channel, of those that the writer has counted and not yet
  sent, of those that the reader has received and not yet taken off, and of those that were lost
  with the reader; none are lost as long as there is a reader;
* an end that takes a chunk off the count finds it above zero;
* a chunk in the channel keeps the pipe from looking empty;
* nothing comes after the last message. -/
theorem count_follow (pacing : Pacing) (threshold : Nat) (moves : List Move) :
    let s := (new pacing threshold).follow moves
    s.pipe.channel.pending =
        s.pipe.channel.chunkCount + s.writer.counted + s.reader.received + s.lost ∧
      (s.pipe.channel.hasReader = true → s.lost = 0) ∧
      ((∃ errand, s.writer = .uncounting errand) ∨ (∃ text, s.reader = .uncounting text) →
        0 < s.pipe.channel.pending) ∧
      (∀ text, .chunk text ∈ s.pipe.channel.messages → s.pipe.isEmpty = false) ∧
      ∀ before after, s.pipe.channel.messages = before ++ .close :: after → after = [] := by
  intro s
  have h : Kept s.pipe.channel s.writer s.reader s.lost :=
    kept_follow (Kept.new pacing threshold) moves
  have hpending := h.pending
  refine ⟨hpending, h.lost, ?_, ?_, ?_⟩
  · rintro (⟨errand, hphase⟩ | ⟨text, hphase⟩)
    · rw [hphase, WriterPhase.counted] at hpending
      omega
    · rw [hphase, ReaderPhase.received] at hpending
      omega
  · intro text hmem
    have hpos : 0 < s.pipe.channel.chunkCount :=
      List.length_pos_of_mem (List.mem_filter.mpr ⟨hmem, rfl⟩)
    have hne : s.pipe.channel.pending ≠ 0 := by omega
    simp [isEmpty, hne]
  · intro before after hmessages
    cases after with
    | nil => rfl
    | cons m after =>
      have hmem : Message.close ∈ s.pipe.channel.messages.dropLast := by
        rw [hmessages, List.dropLast_append_of_ne_nil (by simp),
          List.dropLast_cons_of_ne_nil (by simp)]
        simp
      cases h.last _ hmem

/-! ## One end alone -/

variable {s t u : Handover}

/-- Steps of one kind can be followed by more of them. -/
theorem exists_follow_trans {move : Move}
    (hst : ∃ n, s.follow (List.replicate n move) = t)
    (htu : ∃ n, t.follow (List.replicate n move) = u) :
    ∃ n, s.follow (List.replicate n move) = u := by
  obtain ⟨m, rfl⟩ := hst
  obtain ⟨n, rfl⟩ := htu
  refine ⟨m + n, ?_⟩
  rw [← List.replicate_append_replicate, follow, List.foldl_append]
  rfl

section Alone

variable (p : Pipe) (writer : WriterPhase) (reader : ReaderPhase) (lost : Nat)
  (op : WriterOperation)

/-- Some steps of the writer send a chunk. -/
theorem follow_chunk (chunk : List Char) (errand : Errand) :
    ∃ n, follow ⟨p, .counting chunk errand, reader, lost⟩ (List.replicate n (.write op)) =
      ⟨(p.sendChunk chunk).1, .behind errand, reader, lost⟩ := by
  cases hreader : p.channel.hasReader with
  | true =>
    exact ⟨2, by simp [follow, step, writeStep, sendChunk, Channel.sendChunk, hreader]⟩
  | false =>
    exact ⟨3, by simp [follow, step, writeStep, sendChunk, Channel.sendChunk, hreader]⟩

/-- Some steps of the writer close the channel. -/
theorem follow_close (dropping : Bool) :
    ∃ n, follow ⟨p, .ending dropping, reader, lost⟩ (List.replicate n (.write op)) =
      ⟨{ p with channel := { p.channel with closed := true }.send .close },
        if dropping then .dropping else .free, reader, lost⟩ :=
  ⟨2, rfl⟩

/-- Sending what is held back, if there is something, and ending the text. -/
theorem follow_beginClose {errand : Errand} (hopen : p.channel.closed = false) :
    ∃ n, follow ⟨(p.beginClose errand).1, (p.beginClose errand).2, reader, lost⟩
        (List.replicate n (.write op)) = ⟨p.flush.1, .behind errand, reader, lost⟩ := by
  unfold beginClose flush
  rw [hopen]
  cases hheld : p.held with
  | nil =>
    obtain ⟨held, channel, reader⟩ := p
    exact ⟨0, by simp_all [follow]⟩
  | cons c held =>
    simpa using follow_chunk { p with held := [] } reader lost op (c :: held) errand

/-- What an operation of the writer comes to. -/
def written (p : Pipe) : WriterOperation → Pipe × WriterPhase
  | .append chunk => ((p.append chunk).1, .free)
  | .flush => (p.flush.1, .free)
  | .close => (p.close.1, .free)
  | .drop => (p.dropWriter.1, .gone)

/-- **The steps of an operation of the writer**, if the reader takes none in between. -/
theorem follow_write :
    ∃ n, follow ⟨p, .free, reader, lost⟩ (List.replicate n (.write op)) =
      ⟨(written p op).1, (written p op).2, reader, lost⟩ := by
  have hbegin : ∃ n, follow ⟨p, .free, reader, lost⟩ (List.replicate n (.write op)) =
      ⟨(p.beginWrite op).1, (p.beginWrite op).2, reader, lost⟩ := ⟨1, rfl⟩
  cases op with
  | append chunk =>
      refine exists_follow_trans hbegin ?_
      unfold beginWrite written Pipe.append
      dsimp only
      split
      · exact ⟨0, rfl⟩
      · split
        · exact ⟨0, rfl⟩
        · exact follow_chunk _ reader lost _ _ .nothing
  | flush =>
      refine exists_follow_trans hbegin ?_
      unfold beginWrite written Pipe.flush
      dsimp only
      split
      · exact ⟨0, rfl⟩
      · exact follow_chunk _ reader lost _ _ .nothing
  | close =>
      cases hclosed : p.channel.closed with
      | true => exact ⟨1, by simp [follow, step, writeStep, beginWrite, beginClose, written,
          Pipe.close, hclosed]⟩
      | false =>
        have hwritten : written p .close =
            ({ p.flush.1 with
                channel := { p.flush.1.channel with closed := true }.send .close }, .free) := by
          simp [written, Pipe.close, hclosed]
        rw [hwritten]
        exact exists_follow_trans (exists_follow_trans hbegin
          (follow_beginClose p reader lost .close hclosed))
          (follow_close p.flush.1 reader lost _ false)
  | drop =>
      have hdrop (q : Pipe) : ∃ n, follow ⟨q, .dropping, reader, lost⟩
          (List.replicate n (.write .drop)) =
            ⟨{ q with channel := { q.channel with hasWriter := false } }, .gone, reader, lost⟩ :=
        ⟨1, rfl⟩
      cases hclosed : p.channel.closed with
      | true =>
        have hwritten : written p .drop =
            ({ p with channel := { p.channel with hasWriter := false } }, .gone) := by
          simp [written, Pipe.dropWriter, Pipe.close, hclosed]
        rw [hwritten]
        refine exists_follow_trans hbegin ?_
        simpa [beginWrite, beginClose, hclosed] using hdrop p
      | false =>
        have hwritten : written p .drop =
            ({ p.flush.1 with
                channel :=
                  { ({ p.flush.1.channel with closed := true }.send .close) with
                    hasWriter := false } }, .gone) := by
          simp [written, Pipe.dropWriter, Pipe.close, hclosed]
        rw [hwritten]
        exact exists_follow_trans (exists_follow_trans (exists_follow_trans hbegin
          (follow_beginClose p reader lost .drop hclosed))
          (follow_close p.flush.1 reader lost _ true)) (hdrop _)

/-- **Receiving**, if the writer takes no steps in between. -/
theorem follow_receive :
    ∃ n, follow ⟨p, writer, .free, lost⟩ (List.replicate n .receive) =
      ⟨p.drain, writer, .free, lost⟩ := by
  generalize hmessages : p.channel.messages = messages
  induction messages generalizing p with
  | nil =>
    refine ⟨1, ?_⟩
    obtain ⟨held, ⟨messages, pending, closed, hasWriter, hasReader⟩, reader⟩ := p
    simp_all [follow, step, receiveStep, Channel.receive?, drain, Channel.receiveAll]
  | cons m rest ih =>
    cases m with
    | chunk text =>
      have htaken : ∃ n, follow ⟨p, writer, .free, lost⟩ (List.replicate n .receive) =
          ⟨{ p with
              channel := { p.channel with messages := rest }.settle
              reader := { p.reader with unread := p.reader.unread ++ text } },
            writer, .free, lost⟩ :=
        ⟨2, by simp [follow, step, receiveStep, Channel.receive?, hmessages]⟩
      refine exists_follow_trans htaken ?_
      have hrest := ih { p with
        channel := { p.channel with messages := rest }.settle
        reader := { p.reader with unread := p.reader.unread ++ text } } rfl
      simpa [drain, Channel.receiveAll, hmessages, Message.text, Message.isClose,
        Channel.settle, Nat.sub_sub, Nat.add_comm] using hrest
    | close =>
      have htaken : ∃ n, follow ⟨p, writer, .free, lost⟩ (List.replicate n .receive) =
          ⟨{ p with
              channel := { p.channel with messages := rest }
              reader := { p.reader with ended := true } },
            writer, .free, lost⟩ :=
        ⟨1, by simp [follow, step, receiveStep, Channel.receive?, hmessages]⟩
      refine exists_follow_trans htaken ?_
      have hrest := ih { p with
        channel := { p.channel with messages := rest }
        reader := { p.reader with ended := true } } rfl
      simpa [drain, Channel.receiveAll, hmessages, Message.text, Message.isClose] using hrest

end Alone

end Handover

end Pipe

end VideoTerminal
