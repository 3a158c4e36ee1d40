import VideoTerminal.Pipe
import VideoTerminal.Pipe.Run

/-!
# Reading from a pipe

A reading takes what is at hand and goes on in the channel.  `Pipe.nextStep` and `Pipe.readStep` are
one step of a reading: it asks the channel at most once, and the writer may write before the next
step.  `Pipe.next` and `Pipe.read` are the steps of a reading in which the writer does nothing.

What is at hand is read as one text (`readAtHand_eq_takeRun`), so that a run which is being read is
one all the time (`Pipe.takeAtHand`).  A step that asks leaves nothing on its way
(`messages_refill`), so that a reading without the writer ends (`asksLeft_readStep`).
-/

namespace VideoTerminal

/-- What a reader gets. -/
inductive Received (α : Type)
  | got (a : α)
  /-- Nothing, and nothing more will come. -/
  | ended
  /-- Nothing yet. -/
  | parked
  deriving DecidableEq, Repr

/-- What a step of a reading comes to. -/
inductive Step (σ α : Type)
  | got (a : α)
  /-- Nothing, and nothing more will come. -/
  | ended
  /-- The reading goes on. -/
  | onward (s : σ)
  deriving DecidableEq, Repr

namespace Pipe

/-! ## What is at hand -/

/-- Whether nothing is pushed back, buffered or on its way. -/
def isEmpty (p : Pipe) : Bool :=
  p.reader.pushback.isEmpty && p.reader.unread.isEmpty && p.channel.pending == 0

/-- Whether a reader would have to wait for the writer. -/
def wouldWait (p : Pipe) : Bool := p.channel.hasWriter && !p.channel.closed && p.isEmpty

/-- Changes the pacing of later waits. -/
def setPacing (p : Pipe) (pacing : Pacing) : Pipe :=
  { p with reader := { p.reader with pacing := pacing } }

/-- Takes characters back, which are then read again first and in their order. -/
def pushBack (p : Pipe) (cs : List Char) : Pipe :=
  { p with reader := { p.reader with pushback := cs ++ p.reader.pushback } }

/-- The pipe after the first character of its buffer has been handed out. -/
def dropBuffered (p : Pipe) : Pipe :=
  match p.reader.unread with
  | [] => p
  | c :: rest => { p with reader := { p.reader with unread := rest, spent := c :: p.reader.spent } }

/-- A run from the characters that were pushed back. -/
def readPushback (p : Pipe) (max : Nat) : List Char × Pipe :=
  let taken := takeRun max p.reader.pushback
  (taken.1, { p with reader := { p.reader with pushback := taken.2 } })

/-- A run from the buffer, unless characters that were pushed back stand before it. -/
def readBuffer (p : Pipe) (max : Nat) : List Char × Pipe :=
  if p.reader.pushback.isEmpty then
    let taken := takeRun max p.reader.unread
    let spent := taken.1.reverse ++ p.reader.spent
    (taken.1, { p with reader := { p.reader with unread := taken.2, spent := spent } })
  else ([], p)

/-- Reads what is at hand: the characters that were pushed back, then the buffer. -/
def readAtHand (p : Pipe) (max : Nat) : List Char × Pipe :=
  let back := p.readPushback max
  let front := back.2.readBuffer (max - back.1.length)
  (back.1 ++ front.1, front.2)

/-- **What is at hand is read as one text.** -/
theorem readAtHand_eq_takeRun (p : Pipe) (max : Nat) :
    (p.readAtHand max).1 = (takeRun max (p.reader.pushback ++ p.reader.unread)).1 ∧
      (p.readAtHand max).2.reader.pushback ++ (p.readAtHand max).2.reader.unread =
        (takeRun max (p.reader.pushback ++ p.reader.unread)).2 := by
  by_cases hrest : (takeRun max p.reader.pushback).2 = []
  · have hback : (takeRun max p.reader.pushback).1 = p.reader.pushback := by
      have := takeRun_append max p.reader.pushback
      rwa [hrest, List.append_nil] at this
    rw [takeRun_append_right hrest]
    simp [readAtHand, readPushback, readBuffer, hrest, hback]
  · rw [takeRun_append_left (Or.inl hrest)]
    simp [readAtHand, readPushback, readBuffer, hrest]

/-- A run goes on with what is at hand. -/
def takeAtHand {max : Nat} (p : Pipe) (s : PartialRun max) : PartialRun max × Pipe :=
  let hand := p.readAtHand (max - s.text.length)
  ({ s with
      text := s.text ++ hand.1
      length_le := by
        have := length_takeRun_le (max - s.text.length) (p.reader.pushback ++ p.reader.unread)
        have := s.length_le
        simp only [hand, (readAtHand_eq_takeRun p _).1, List.length_append]
        omega
      plain := by
        intro c hc
        rcases List.mem_append.1 hc with hc | hc
        · exact s.plain c hc
        · exact not_isControl7_of_mem_takeRun ((readAtHand_eq_takeRun p _).1 ▸ hc) },
    hand.2)

/-- Whether a run may go on: it is too short, and everything at hand has been read. -/
def mayGoOn {max : Nat} (p : Pipe) (s : PartialRun max) : Bool :=
  decide (s.text.length < max) && p.reader.pushback.isEmpty && p.reader.unread.isEmpty

/-! ## Asking the channel -/

/-- Announces the end of a buffer that has been handed out. -/
def endChunk (p : Pipe) : Pipe × List Hook :=
  if p.reader.inChunk then ({ p with reader := { p.reader with inChunk := false } }, [.chunkEnd])
  else (p, [])

/-- Gives up spent characters when they take enough bytes. -/
def compact (p : Pipe) : Pipe :=
  if p.reader.compactionThreshold ≤ p.reader.position then
    { p with reader := { p.reader with spent := [] } }
  else p

/-- Moves everything on its way into the buffer, and notices when nothing more will come. -/
def drain (p : Pipe) : Pipe :=
  let messages := p.channel.messages
  { p with
    channel := p.channel.receiveAll.2
    reader :=
      { p.reader with
        unread := p.reader.unread ++ messages.flatMap Message.text
        ended := p.reader.ended || messages.any Message.isClose || !p.channel.hasWriter } }

/-- What a refill came to. -/
inductive Refill
  | data | ended
  /-- Nothing has come in time. -/
  | late
  /-- Nothing has come, and the reader waits. -/
  | waits
  deriving DecidableEq, Repr

/-- The buffer's end is announced, spent characters are given up, and what is on its way comes in. 
A reader that waits has done the first two before. -/
def restock (p : Pipe) (waiting : Bool) : Pipe × List Hook :=
  if waiting then (p.drain, []) else (p.endChunk.1.compact.drain, p.endChunk.2)

/-- Announces the start of a buffer. -/
def startChunk (p : Pipe) : Pipe := { p with reader := { p.reader with inChunk := true } }

/-- Refills the buffer, which has been handed out.  Where there is nothing, the reader begins to
wait; where it has waited, and still there is nothing, the wait is over unless it lasts until data
come. -/
def refill (p : Pipe) (wait : Wait) (waiting : Bool) : Refill × Pipe × List Hook :=
  let q := (p.restock waiting).1
  let hooks := (p.restock waiting).2
  if !q.reader.unread.isEmpty then (.data, q.startChunk, hooks ++ [.chunkStart])
  else if q.reader.ended then (.ended, q, hooks)
  else if waiting then (if wait = .untilData then .waits else .late, q, hooks)
  else if wait = .none then (.late, q, hooks)
  else (.waits, q, hooks ++ [.beforeWait])

/-! ## Characters -/

/-- A step in which the next character is read.  A wait that is over begins again. -/
def nextStep (p : Pipe) (waiting : Bool) : Step Bool Char × Pipe × List Hook :=
  match p.reader.pushback with
  | c :: rest => (.got c, { p with reader := { p.reader with pushback := rest } }, [])
  | [] =>
    match p.reader.unread with
    | c :: _ => (.got c, p.dropBuffered, [])
    | [] =>
      match p.refill p.reader.pacing.pollWait waiting with
      | (.ended, q, hooks) => (.ended, q, hooks)
      | (.late, q, hooks) => (.onward true, q, hooks ++ [.beforeWait])
      | (.waits, q, hooks) => (.onward true, q, hooks)
      | (.data, q, hooks) =>
        match q.reader.unread with
        | c :: _ => (.got c, q.dropBuffered, hooks)
        | [] => (.onward true, q, hooks)

/-- The next character.  The writer does nothing, so that a wait would be in vain. -/
def next (p : Pipe) : Received Char × Pipe × List Hook :=
  match p.nextStep false with
  | (.got c, q, hooks) => (.got c, q, hooks)
  | (.ended, q, hooks) => (.ended, q, hooks)
  | (.onward _, q, hooks) => (.parked, q, hooks)

/-! ## Runs -/

/-- The wait for more of a run: for its first character as for any, for more of it but briefly. -/
def runWait (p : Pipe) (run : List Char) : Wait :=
  if run.isEmpty then p.reader.pacing.pollWait else p.reader.pacing.bulkWait

/-- What the channel's answer makes of a run: characters that have been taken are handed out when no
more come. -/
def afterRefill {max : Nat} (s : PartialRun max) : Refill → Step (PartialRun max) (List Char)
  | .data => .onward { s with waiting := false }
  | .ended => if s.text.isEmpty then .ended else .got s.text
  | .late => if s.text.isEmpty then .onward { s with waiting := true } else .got s.text
  | .waits => .onward { s with waiting := true }

/-- A wait for a first character that is over begins again. -/
def renewal (run : List Char) : Refill → List Hook
  | .late => if run.isEmpty then [.beforeWait] else []
  | _ => []

/-- A step in which a run of up to `max` characters that are not controls is read.  A control that
ends the run stays unread. -/
def readStep {max : Nat} (p : Pipe) (s : PartialRun max) :
    Step (PartialRun max) (List Char) × Pipe × List Hook :=
  let hand := p.takeAtHand s
  if hand.2.mayGoOn hand.1 then
    let asked := hand.2.refill (hand.2.runWait hand.1.text) s.waiting
    (afterRefill hand.1 asked.1, asked.2.1, asked.2.2 ++ renewal hand.1.text asked.1)
  else (.got hand.1.text, hand.2, [])

/-! ## What asking leaves -/

section Restock

variable (p : Pipe) (waiting : Bool)

/-- Restocking moves text to the reader and holds on to all of it. -/
@[simp] theorem held_restock : (p.restock waiting).1.held = p.held := by
  unfold restock drain compact endChunk
  repeat' split
  all_goals rfl

/-- Restocking receives all messages, and nothing else happens to the channel. -/
@[simp] theorem channel_restock : (p.restock waiting).1.channel = p.channel.receiveAll.2 := by
  unfold restock drain compact endChunk
  repeat' split
  all_goals rfl

@[simp] theorem pushback_restock :
    (p.restock waiting).1.reader.pushback = p.reader.pushback := by
  unfold restock drain compact endChunk
  repeat' split
  all_goals rfl

/-- What was queued comes behind what has not been read. -/
@[simp] theorem unread_restock :
    (p.restock waiting).1.reader.unread = p.reader.unread ++ p.channel.queued := by
  unfold restock drain compact endChunk
  repeat' split
  all_goals rfl

@[simp] theorem pacing_restock : (p.restock waiting).1.reader.pacing = p.reader.pacing := by
  unfold restock drain compact endChunk
  repeat' split
  all_goals rfl

/-- After restocking, the text has ended if it had, if a message says so, or if no one can write any
more. -/
@[simp] theorem ended_restock :
    (p.restock waiting).1.reader.ended =
      (p.reader.ended || p.channel.messages.any Message.isClose || !p.channel.hasWriter) := by
  unfold restock drain compact endChunk
  repeat' split
  all_goals rfl

end Restock

/-- **Everything a refill can come to.**  What was on its way is in the buffer, and the answer tells
whether the buffer holds something. -/
theorem refill_cases {p q : Pipe} {wait : Wait} {waiting : Bool} {answer : Refill}
    {hooks : List Hook} (h : p.refill wait waiting = (answer, q, hooks)) :
    (answer = .data ∧ (p.restock waiting).1.reader.unread ≠ [] ∧
        q = (p.restock waiting).1.startChunk) ∨
    ((p.restock waiting).1.reader.unread = [] ∧ q = (p.restock waiting).1 ∧
      ((answer = .ended ∧ q.reader.ended = true) ∨
        (answer = .late ∧ q.reader.ended = false ∧ (waiting = true ∨ wait = .none)) ∨
        (answer = .waits ∧ q.reader.ended = false ∧ (waiting = true → wait = .untilData)))) := by
  unfold refill at h
  generalize p.restock waiting = restocked at h ⊢
  obtain ⟨r, heard⟩ := restocked
  dsimp only at h ⊢
  by_cases hu : r.reader.unread = []
  · right
    refine ⟨hu, ?_⟩
    by_cases he : r.reader.ended = true
    · obtain ⟨rfl, rfl, -⟩ : Refill.ended = answer ∧ r = q ∧ _ := by simpa [hu, he] using h
      exact ⟨rfl, Or.inl ⟨rfl, he⟩⟩
    · have he : r.reader.ended = false := by simpa using he
      cases waiting with
      | true =>
        by_cases hw : wait = .untilData
        · obtain ⟨rfl, rfl, -⟩ : Refill.waits = answer ∧ r = q ∧ _ := by
            simpa [hu, he, hw] using h
          exact ⟨rfl, Or.inr (Or.inr ⟨rfl, he, fun _ => hw⟩)⟩
        · obtain ⟨rfl, rfl, -⟩ : Refill.late = answer ∧ r = q ∧ _ := by
            simpa [hu, he, hw] using h
          exact ⟨rfl, Or.inr (Or.inl ⟨rfl, he, Or.inl rfl⟩)⟩
      | false =>
        by_cases hw : wait = .none
        · obtain ⟨rfl, rfl, -⟩ : Refill.late = answer ∧ r = q ∧ _ := by
            simpa [hu, he, hw] using h
          exact ⟨rfl, Or.inr (Or.inl ⟨rfl, he, Or.inr hw⟩)⟩
        · obtain ⟨rfl, rfl, -⟩ : Refill.waits = answer ∧ r = q ∧ _ := by
            simpa [hu, he, hw] using h
          exact ⟨rfl, Or.inr (Or.inr ⟨rfl, he, by simp⟩)⟩
  · left
    obtain ⟨rfl, rfl, -⟩ : Refill.data = answer ∧ r.startChunk = q ∧ _ := by simpa [hu] using h
    exact ⟨rfl, hu, rfl⟩

/-- A refill leaves nothing on its way. -/
theorem messages_refill {p q : Pipe} {wait : Wait} {waiting : Bool} {answer : Refill}
    {hooks : List Hook} (h : p.refill wait waiting = (answer, q, hooks)) :
    q.channel.messages = [] := by
  rcases refill_cases h with ⟨-, -, rfl⟩ | ⟨-, rfl, -⟩
  · simp [startChunk]
  · simp

/-- Taking what is at hand does not look into the channel. -/
@[simp] theorem channel_takeAtHand {max : Nat} (p : Pipe) (s : PartialRun max) :
    (p.takeAtHand s).2.channel = p.channel := by
  unfold takeAtHand readAtHand readBuffer readPushback
  dsimp only
  split <;> rfl

/-- A run goes on while it is short of its limit and nothing is at hand. -/
theorem mayGoOn_eq_true {max : Nat} {p : Pipe} {s : PartialRun max} :
    p.mayGoOn s = true ↔
      s.text.length < max ∧ p.reader.pushback = [] ∧ p.reader.unread = [] := by
  simp [mayGoOn, and_assoc]

/-- How often a reading without the writer may still ask the channel, at least. -/
def asksLeft (p : Pipe) (waiting : Bool) : Nat :=
  (if p.channel.messages.isEmpty then 0 else 2) + (if waiting then 0 else 1)

/-- A run that goes on without the writer comes closer to its end. -/
theorem asksLeft_readStep {max : Nat} {p q : Pipe} {s t : PartialRun max} {hooks : List Hook}
    (h : p.readStep s = (.onward t, q, hooks)) (hw : t.needsWriter = false) :
    q.asksLeft t.waiting < p.asksLeft s.waiting := by
  unfold readStep at h
  dsimp only at h
  split at h
  · next hm =>
    have hchannel := channel_takeAtHand p s
    generalize (p.takeAtHand s).2 = hand at h hm hchannel
    generalize (p.takeAtHand s).1 = run at h hm
    rcases hr : hand.refill (hand.runWait run.text) s.waiting with ⟨answer, r, heard⟩
    rw [hr] at h
    obtain ⟨ht, rfl, -⟩ : afterRefill run answer = .onward t ∧ r = q ∧ _ := by simpa using h
    have hmessages : r.channel.messages = [] := messages_refill hr
    obtain ⟨-, -, hunread⟩ := mayGoOn_eq_true.1 hm
    unfold asksLeft
    rw [hmessages, ← hchannel]
    rcases refill_cases hr with ⟨rfl, hdata, -⟩ | ⟨-, -, ⟨rfl, -⟩ | ⟨rfl, -⟩ | ⟨rfl, -, hwait⟩⟩
    · -- data: what has come was on its way
      obtain rfl : _ = t := Step.onward.inj ht
      have : hand.channel.messages ≠ [] := by
        intro hnil
        apply hdata
        simp [hunread, Channel.queued, hnil]
      simp [this]
      omega
    · simp only [afterRefill] at ht
      split at ht <;> simp at ht
    · simp only [afterRefill] at ht
      split at ht
      · next he =>
        obtain rfl : _ = t := Step.onward.inj ht
        simp [PartialRun.needsWriter, he] at hw
      · simp at ht
    · obtain rfl : _ = t := Step.onward.inj ht
      cases hsw : s.waiting with
      | false => simp
      | true =>
        -- a wait for more of a run is never without limit
        exfalso
        have hlimit := hwait hsw
        unfold runWait at hlimit
        split at hlimit
        · next he => simp [PartialRun.needsWriter, he] at hw
        · exact Pacing.bulkWait_ne_untilData _ hlimit
  · simp at h

/-- What is heard in a first part comes before what is heard in the rest. -/
def heardFirst {α : Type} (hooks : List Hook) (rest : α × Pipe × List Hook) :
    α × Pipe × List Hook :=
  (rest.1, rest.2.1, hooks ++ rest.2.2)

/-- The steps of a run as long as they do not need the writer, who does nothing. -/
def readOn {max : Nat} (p : Pipe) (s : PartialRun max) :
    Received (List Char) × Pipe × List Hook :=
  match _h : p.readStep s with
  | (.got run, q, hooks) => (.got run, q, hooks)
  | (.ended, q, hooks) => (.ended, q, hooks)
  | (.onward t, q, hooks) =>
    if _hw : t.needsWriter then (.parked, q, hooks) else heardFirst hooks (q.readOn t)
termination_by p.asksLeft s.waiting
decreasing_by exact asksLeft_readStep _h (by simpa using _hw)

/-- Reads up to `max` characters that are not controls.  The writer does nothing, so that a wait
would be in vain. -/
def read (p : Pipe) (max : Nat) : Received (List Char) × Pipe × List Hook :=
  let start : PartialRun max := {}
  p.readOn start

end Pipe

end VideoTerminal
