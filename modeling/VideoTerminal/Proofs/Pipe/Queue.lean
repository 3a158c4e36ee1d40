import VideoTerminal.Proofs.Pipe.Sound

/-!
# A pipe is a queue of characters

Whoever writes to a pipe and reads from it sees a plain queue of characters: the chunks, the buffer
and its compaction, the characters pushed back and the waits do not show.

* `Queue` is the plain queue.  The writer adds at its right end, and the reader takes from its left
  end; the last `held` characters can not be read yet.  `Queue.Step` is what an operation may do to
  it.
* `Pipe.queue` is the queue that a pipe is: what a reading that is under way has taken, what is
  pushed back, the unread part of the buffer, the chunks on their way, and what the writer holds
  back.
* `answer_char`, `answer_run` and `answer_nothing` — a reading of the pipe is a reading of the
  queue.
-/

namespace VideoTerminal.Pipe

/-- What a reader asks for: a character, or a run of at most `max` characters. -/
inductive Request
  | char
  | run (max : Nat)
  deriving DecidableEq

/-- What can be done with a pipe.  A reading is made at once, or it is begun and goes on while the
writer writes: by one step, or by all steps that do not need the writer. -/
inductive Operation
  | append (chunk : List Char)
  | flush
  | close
  | dropWriter
  | pushBack (cs : List Char)
  | setPacing (pacing : Pacing)
  | isEmpty
  | ask (r : Request)
  | begin (r : Request)
  | advance
  | complete
  deriving DecidableEq

/-- What comes of an operation.  A reading `waits` for the writer, or it goes `onward`; what the
reader is not free to do, or has nothing to go on with, is `refused`. -/
inductive Outcome
  | done
  | answer (b : Bool)
  | char (c : Char)
  | run (text : List Char)
  | ended
  | waits
  | onward
  | refused
  deriving DecidableEq

/-- A plain queue of characters: what has been written and not been read, how many characters at its
right end can not be read yet, whether the writer has ended it, and the reading under way. -/
structure Queue where
  text : List Char := []
  held : Nat := 0
  closed : Bool := false
  request : Option Request := none
  deriving DecidableEq

namespace Queue

/-- What can be read without the writer. -/
def ready (q : Queue) : List Char := q.text.take (q.text.length - q.held)

/-- The longest beginning of what can be read that has no control, cut at `max` characters. -/
def run (q : Queue) (max : Nat) : List Char :=
  (q.ready.take max).takeWhile fun c => !Text.isControl7 c

/-- What a reading comes to where nothing can be read. -/
def nothing (q : Queue) : Outcome := if q.closed && q.text.isEmpty then .ended else .waits

/-- A reading: its outcome, and the queue without what has been read. -/
def answer (q : Queue) : Request → Outcome × Queue
  | .char =>
    match q.ready with
    | [] => (q.nothing, q)
    | c :: _ => (.char c, { q with text := q.text.tail })
  | .run max =>
    if max = 0 ∨ q.ready ≠ [] then
      (.run (q.run max), { q with text := q.text.drop (q.run max).length })
    else (q.nothing, q)

/-- Where a queue lets a request wait, it is as before. -/
theorem answer_of_waits {q : Queue} {r : Request} (h : (q.answer r).1 = .waits) :
    (q.answer r).2 = q := by
  cases r with
  | char =>
      unfold answer at h ⊢
      cases hready : q.ready with
      | nil => rfl
      | cons c rest => simp [hready] at h
  | run max =>
      unfold answer at h ⊢
      dsimp only at h ⊢
      split at h
      · simp at h
      · next hnone => rw [if_neg hnone]

/-- **What an operation may do to the queue.**  A chunk is added at the right end, and of what could
be read nothing is held back.  A reading that is under way changes the queue only in its last step,
and then as a reading that is made at once; after the end it makes no other step. -/
inductive Step : Queue → Operation → Outcome → Queue → Prop
  | append {q : Queue} {chunk : List Char} {held : Nat} (hopen : q.closed = false)
      (hheld : held ≤ q.held + chunk.length) :
      Step q (.append chunk) .done { q with text := q.text ++ chunk, held := held }
  | append_closed {q : Queue} {chunk : List Char} (hclosed : q.closed = true) :
      Step q (.append chunk) .done q
  | flush (q : Queue) : Step q .flush .done { q with held := 0 }
  | close (q : Queue) : Step q .close .done { q with held := 0, closed := true }
  | dropWriter (q : Queue) : Step q .dropWriter .done { q with held := 0, closed := true }
  | pushBack {q : Queue} {cs : List Char} (hfree : q.request = none) :
      Step q (.pushBack cs) .done { q with text := cs ++ q.text }
  | setPacing {q : Queue} {pacing : Pacing} (hfree : q.request = none) :
      Step q (.setPacing pacing) .done q
  | isEmpty {q : Queue} (hfree : q.request = none) :
      Step q .isEmpty (.answer q.ready.isEmpty) q
  | ask {q : Queue} {r : Request} (hfree : q.request = none) :
      Step q (.ask r) (q.answer r).1 (q.answer r).2
  | begin {q : Queue} {r : Request} (hfree : q.request = none) :
      Step q (.begin r) .done { q with request := some r }
  | onward {q : Queue} {r : Request} (hbusy : q.request = some r)
      (hmore : (q.answer r).1 ≠ .ended) : Step q .advance .onward q
  | advance {q : Queue} {r : Request} (hbusy : q.request = some r)
      (hready : (q.answer r).1 ≠ .waits) :
      Step q .advance (q.answer r).1 { (q.answer r).2 with request := none }
  | complete {q : Queue} {r : Request} (hbusy : q.request = some r)
      (hready : (q.answer r).1 ≠ .waits) :
      Step q .complete (q.answer r).1 { (q.answer r).2 with request := none }
  | waits {q : Queue} {r : Request} (hbusy : q.request = some r)
      (hwaits : (q.answer r).1 = .waits) : Step q .complete .waits q
  | busy {q : Queue} {op : Operation} (hbusy : q.request ≠ none)
      (hop : op = .isEmpty ∨ (∃ cs, op = .pushBack cs) ∨ (∃ pacing, op = .setPacing pacing) ∨
        (∃ r, op = .ask r) ∨ ∃ r, op = .begin r) : Step q op .refused q
  | idle {q : Queue} {op : Operation} (hfree : q.request = none)
      (hop : op = .advance ∨ op = .complete) : Step q op .refused q

/-- The operations of a script in order, and their outcomes. -/
inductive Run : Queue → List Operation → List Outcome → Queue → Prop
  | nil (q : Queue) : Run q [] [] q
  | cons {q q' q'' : Queue} {op : Operation} {o : Outcome} {ops : List Operation}
      {os : List Outcome} (step : Step q op o q') (rest : Run q' ops os q'') :
      Run q (op :: ops) (o :: os) q''

end Queue

/-! ## The queue that a pipe is -/

/-- A pipe as a queue, when a reading has taken `taken`. -/
def queue (p : Pipe) (taken : List Char) (request : Option Request) : Queue where
  text := taken ++ p.contents ++ p.held
  held := p.held.length
  closed := p.channel.closed
  request := request

section View

variable {p q : Pipe} {taken : List Char} {request : Option Request}

/-- What is ready in the queue has been taken or is in the pipe. -/
theorem ready_queue : (p.queue taken request).ready = taken ++ p.contents := by
  have hlength : (taken ++ p.contents ++ p.held).length - p.held.length =
      (taken ++ p.contents).length := by
    rw [List.length_append]
    omega
  unfold Queue.ready queue
  dsimp only
  rw [hlength]
  exact List.take_left

/-- A step of a reading changes neither what is held back nor whether the text has ended. -/
theorem ReadsTo.queue_eq (h : p.ReadsTo q) {rest : List Char}
    (htext : taken ++ p.contents = rest ++ q.contents) :
    q.queue rest request = p.queue taken request := by
  unfold queue
  rw [h.1, h.closed_eq, htext]

/-- The run of a text in the words of the queue. -/
theorem takeWhile_take_eq (max : Nat) (cs : List Char) :
    (cs.take max).takeWhile (fun c => !Text.isControl7 c) = (takeRun max cs).1 := by
  fun_induction takeRun max cs with
  | case1 => simp
  | case2 => simp
  | case3 max c cs hc => simp [hc]
  | case4 max c cs hc ih =>
      have hc : Text.isControl7 c = false := by simpa using hc
      simp [hc, ih]

/-- **Reading a character.** -/
theorem answer_char (h : p.ReadsTo q) {c : Char} (hc : taken ++ p.contents = c :: q.contents) :
    (p.queue taken request).answer .char = (.char c, q.queue [] request) := by
  have hqueue : q.queue [c] request = p.queue taken request := h.queue_eq hc
  rw [← hqueue]
  unfold Queue.answer
  rw [ready_queue]
  rfl

/-- **Reading a run.** -/
theorem answer_run (h : p.ReadsTo q) {max : Nat} {run : List Char}
    (hrun : takeRun max (taken ++ p.contents) = (run, q.contents))
    (hne : max = 0 ∨ taken ++ p.contents ≠ []) :
    (p.queue taken request).answer (.run max) = (.run run, q.queue [] request) := by
  have htext : taken ++ p.contents = run ++ q.contents := by
    have := takeRun_append max (taken ++ p.contents)
    rw [hrun] at this
    exact this.symm
  have htake : (p.queue taken request).run max = run := by
    unfold Queue.run
    rw [takeWhile_take_eq, ready_queue, hrun]
  have hqueue : q.queue run request = p.queue taken request := h.queue_eq htext
  unfold Queue.answer
  dsimp only
  rw [ready_queue, if_pos hne, htake, ← hqueue]
  simp [queue]

/-- **Reading where there is nothing**: the text has ended, or the writer is needed. -/
theorem answer_nothing (hs : p.Sound) (hnil : taken ++ p.contents = []) {r : Request}
    (hr : r ≠ .run 0) :
    (p.queue taken request).answer r =
      (if p.channel.closed then .ended else .waits, p.queue taken request) := by
  have hready : (p.queue taken request).ready = [] := ready_queue.trans hnil
  have hnothing : (p.queue taken request).nothing =
      if p.channel.closed then .ended else .waits := by
    unfold Queue.nothing
    change (if p.channel.closed && (taken ++ p.contents ++ p.held).isEmpty then _ else _) = _
    cases hclosed : p.channel.closed with
    | false => rfl
    | true => simp [hnil, hs.held hclosed]
  cases r with
  | char =>
      unfold Queue.answer
      rw [hready]
      exact congrArg (·, p.queue taken request) hnothing
  | run max =>
      have hmax : ¬(max = 0 ∨ (p.queue taken request).ready ≠ []) := by
        rw [hready]
        simpa using hr
      unfold Queue.answer
      dsimp only
      rw [if_neg hmax]
      exact congrArg (·, p.queue taken request) hnothing

end View

end VideoTerminal.Pipe
