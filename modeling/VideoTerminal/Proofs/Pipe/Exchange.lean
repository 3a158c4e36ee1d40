import VideoTerminal.Proofs.Pipe.Queue

/-!
# Pipes in use

An `Exchange` is a pipe with the reading that is under way.  The main result is
`Exchange.run_refines_queue`: every script of operations of both ends, mixed in any way, has on a
new pipe the outcomes that a plain queue allows, and leaves in the pipe the text that the queue has.

Every operation is one of the queue (`Exchange.perform_refines_queue`), and it keeps the pipe sound;
the script follows by induction.
-/

namespace VideoTerminal.Pipe

/-- A reading that is under way. -/
inductive Pull
  | char (waiting : Bool)
  | run (max : Nat) (part : PartialRun max)

namespace Pull

/-- A reading of which nothing has been done. -/
def start : Request → Pull
  | .char => .char false
  | .run max => .run max {}

/-- What has been asked for. -/
def request : Pull → Request
  | .char _ => .char
  | .run max _ => .run max

/-- Characters that have been taken from the pipe. -/
def taken : Pull → List Char
  | .char _ => []
  | .run _ part => part.text

end Pull

/-- A reading that is made at once. -/
def ask (p : Pipe) : Request → Outcome × Pipe
  | .char =>
    match p.next with
    | (.got c, q, _) => (.char c, q)
    | (.ended, q, _) => (.ended, q)
    | (.parked, q, _) => (.waits, q)
  | .run max =>
    match p.read max with
    | (.got text, q, _) => (.run text, q)
    | (.ended, q, _) => (.ended, q)
    | (.parked, q, _) => (.waits, q)

/-- A step of a reading, and what is left of it. -/
def advance (p : Pipe) : Pull → Outcome × Pipe × Option Pull
  | .char waiting =>
    match p.nextStep waiting with
    | (.got c, q, _) => (.char c, q, none)
    | (.ended, q, _) => (.ended, q, none)
    | (.onward waiting, q, _) => (.onward, q, some (.char waiting))
  | .run max part =>
    match p.readStep part with
    | (.got text, q, _) => (.run text, q, none)
    | (.ended, q, _) => (.ended, q, none)
    | (.onward part, q, _) => (.onward, q, some (.run max part))

/-- The steps of a reading as long as the writer is not needed, and what is left of it. -/
def complete (p : Pipe) : Pull → Outcome × Pipe × Option Pull
  | .char waiting =>
    match p.nextStep waiting with
    | (.got c, q, _) => (.char c, q, none)
    | (.ended, q, _) => (.ended, q, none)
    | (.onward waiting, q, _) => (.waits, q, some (.char waiting))
  | .run max part =>
    match p.readOn part with
    | (.got text, q, _) => (.run text, q, none)
    | (.ended, q, _) => (.ended, q, none)
    | (.parked, q, _) => (.waits, q, some (.run max { waiting := true }))

/-- A pipe in use. -/
structure Exchange where
  pipe : Pipe
  pull : Option Pull := none

namespace Exchange

/-- An operation: its outcome, and the pipe after it.  A reader while reading does nothing else. -/
def perform (x : Exchange) : Operation → Outcome × Exchange
  | .append chunk => (.done, { x with pipe := (x.pipe.append chunk).1 })
  | .flush => (.done, { x with pipe := x.pipe.flush.1 })
  | .close => (.done, { x with pipe := x.pipe.close.1 })
  | .dropWriter => (.done, { x with pipe := x.pipe.dropWriter.1 })
  | .pushBack cs =>
    match x.pull with
    | none => (.done, { x with pipe := x.pipe.pushBack cs })
    | some _ => (.refused, x)
  | .setPacing pacing =>
    match x.pull with
    | none => (.done, { x with pipe := x.pipe.setPacing pacing })
    | some _ => (.refused, x)
  | .isEmpty =>
    match x.pull with
    | none => (.answer x.pipe.isEmpty, x)
    | some _ => (.refused, x)
  | .ask r =>
    match x.pull with
    | none => ((x.pipe.ask r).1, { x with pipe := (x.pipe.ask r).2 })
    | some _ => (.refused, x)
  | .begin r =>
    match x.pull with
    | none => (.done, { x with pull := some (.start r) })
    | some _ => (.refused, x)
  | .advance =>
    match x.pull with
    | none => (.refused, x)
    | some pull => ((x.pipe.advance pull).1, ⟨(x.pipe.advance pull).2.1, (x.pipe.advance pull).2.2⟩)
  | .complete =>
    match x.pull with
    | none => (.refused, x)
    | some pull =>
      ((x.pipe.complete pull).1, ⟨(x.pipe.complete pull).2.1, (x.pipe.complete pull).2.2⟩)

/-- The operations of a script in order: their outcomes, and the pipe after them. -/
def run (x : Exchange) : List Operation → List Outcome × Exchange
  | [] => ([], x)
  | op :: ops =>
    let performed := x.perform op
    let rest := performed.2.run ops
    (performed.1 :: rest.1, rest.2)

/-- The queue that a pipe in use is. -/
def queue (x : Exchange) : Queue :=
  x.pipe.queue ((x.pull.map Pull.taken).getD []) (x.pull.map Pull.request)

end Exchange

/-! ## Readings -/

section Readings

variable {p : Pipe} {request : Option Request}

/-- A pipe that is exhausted after a reading of nothing answers as the queue. -/
theorem answer_exhausted {q : Pipe} {taken : List Char} {r : Request} {ended : Bool} (hs : p.Sound)
    (hreads : p.ReadsTo q) (hend : q.Exhausted ended) (hnil : taken ++ p.contents = [])
    (hr : r ≠ .run 0) :
    (p.queue taken request).answer r =
      (if ended then .ended else .waits, q.queue [] request) := by
  have hclosed := (hs.of_readsTo hreads).closed_of_exhausted hend
  have hqueue : q.queue [] request = p.queue taken request :=
    hreads.queue_eq (by rw [hnil, hend.contents]; rfl)
  have hsame : p.channel.closed = q.channel.closed := (congrArg Queue.closed hqueue).symm
  rw [answer_nothing hs hnil hr, hqueue, hsame, hclosed]

/-- A request for a run is one for a character at least. -/
theorem run_ne_zero {max : Nat} (h : 0 < max) : Request.run max ≠ .run 0 := by
  intro hzero
  obtain rfl : max = 0 := Request.run.inj hzero
  exact Nat.lt_irrefl 0 h

/-- **A reading that is made at once** is one of the queue. -/
theorem ask_refines_queue (hs : p.Sound) (r : Request) (request : Option Request) :
    (p.ask r).2.Sound ∧
      (p.queue [] request).answer r = ((p.ask r).1, (p.ask r).2.queue [] request) := by
  cases r with
  | char =>
      unfold ask next
      rcases hn : p.nextStep false with ⟨result, q, hooks⟩
      obtain ⟨hreads, ⟨c, rfl, hc⟩ | ⟨rfl, hnil, hend⟩ | ⟨rfl, hnil, hend⟩⟩ := nextStep_cases hn
      · exact ⟨hs.of_readsTo hreads, answer_char hreads hc⟩
      · exact ⟨hs.of_readsTo hreads, answer_exhausted hs hreads hend hnil (by simp)⟩
      · exact ⟨hs.of_readsTo hreads, answer_exhausted hs hreads hend hnil (by simp)⟩
  | run max =>
      unfold ask read
      dsimp only
      rcases hr : p.readOn ({} : PartialRun max) with ⟨result, q, hooks⟩
      obtain ⟨hreads, ⟨run, rfl, hrun, hne⟩ | ⟨rfl, hmax, hnil, hend⟩ | ⟨rfl, hmax, hnil, hend⟩⟩ :=
        readOn_cases hr
      · exact ⟨hs.of_readsTo hreads, answer_run hreads hrun hne⟩
      · exact ⟨hs.of_readsTo hreads, answer_exhausted hs hreads hend hnil (run_ne_zero hmax)⟩
      · exact ⟨hs.of_readsTo hreads, answer_exhausted hs hreads hend hnil (run_ne_zero hmax)⟩

/-- **The steps of a reading that do not need the writer** are a reading of the queue, and where the
reading waits it has taken nothing. -/
theorem complete_refines_queue (hs : p.Sound) (pull : Pull) (request : Option Request) :
    (p.complete pull).2.1.Sound ∧
      (p.queue pull.taken request).answer pull.request =
        ((p.complete pull).1, (p.complete pull).2.1.queue [] request) ∧
      ((p.complete pull).2.2 = none ∧ (p.complete pull).1 ≠ .waits ∨
        ∃ rest, (p.complete pull).2.2 = some rest ∧ (p.complete pull).1 = .waits ∧
          rest.request = pull.request ∧ rest.taken = []) := by
  cases pull with
  | char waiting =>
      unfold complete
      dsimp only
      rcases hn : p.nextStep waiting with ⟨result, q, hooks⟩
      obtain ⟨hreads, ⟨c, rfl, hc⟩ | ⟨rfl, hnil, hend⟩ | ⟨rfl, hnil, hend⟩⟩ := nextStep_cases hn
      · exact ⟨hs.of_readsTo hreads, answer_char hreads hc, Or.inl ⟨rfl, by simp⟩⟩
      · exact ⟨hs.of_readsTo hreads, answer_exhausted hs hreads hend hnil (by simp [Pull.request]),
          Or.inl ⟨rfl, by simp⟩⟩
      · exact ⟨hs.of_readsTo hreads, answer_exhausted hs hreads hend hnil (by simp [Pull.request]),
          Or.inr ⟨_, rfl, rfl, rfl, rfl⟩⟩
  | run max part =>
      unfold complete
      dsimp only
      rcases hr : p.readOn part with ⟨result, q, hooks⟩
      obtain ⟨hreads, ⟨run, rfl, hrun, hne⟩ | ⟨rfl, hmax, hnil, hend⟩ | ⟨rfl, hmax, hnil, hend⟩⟩ :=
        readOn_cases hr
      · exact ⟨hs.of_readsTo hreads, answer_run hreads hrun hne, Or.inl ⟨rfl, by simp⟩⟩
      · exact ⟨hs.of_readsTo hreads, answer_exhausted hs hreads hend hnil (run_ne_zero hmax),
          Or.inl ⟨rfl, by simp⟩⟩
      · exact ⟨hs.of_readsTo hreads, answer_exhausted hs hreads hend hnil (run_ne_zero hmax),
          Or.inr ⟨_, rfl, rfl, rfl, rfl⟩⟩

/-- **A step of a reading** is the reading of the queue, or it leaves the queue as it is. -/
theorem advance_refines_queue (hs : p.Sound) (pull : Pull) (request : Option Request) :
    (p.advance pull).2.1.Sound ∧
      (((p.advance pull).2.2 = none ∧ (p.advance pull).1 ≠ .waits ∧
          (p.queue pull.taken request).answer pull.request =
            ((p.advance pull).1, (p.advance pull).2.1.queue [] request)) ∨
        ∃ rest, (p.advance pull).2.2 = some rest ∧ (p.advance pull).1 = .onward ∧
          rest.request = pull.request ∧
          (p.advance pull).2.1.queue rest.taken request = p.queue pull.taken request ∧
          ((p.queue pull.taken request).answer pull.request).1 ≠ .ended) := by
  cases pull with
  | char waiting =>
      unfold advance
      dsimp only
      rcases hn : p.nextStep waiting with ⟨result, q, hooks⟩
      obtain ⟨hreads, ⟨c, rfl, hc⟩ | ⟨rfl, hnil, hend⟩ | ⟨rfl, hnil, hend⟩⟩ := nextStep_cases hn
      · exact ⟨hs.of_readsTo hreads, Or.inl ⟨rfl, by simp, answer_char hreads hc⟩⟩
      · exact ⟨hs.of_readsTo hreads, Or.inl ⟨rfl, by simp,
          answer_exhausted hs hreads hend hnil (by simp [Pull.request])⟩⟩
      · refine ⟨hs.of_readsTo hreads, Or.inr ⟨_, rfl, rfl, rfl, ?_, ?_⟩⟩
        · exact hreads.queue_eq (hnil.trans hend.contents.symm)
        · simp only [Pull.taken, Pull.request]
          rw [answer_exhausted hs hreads hend hnil (by simp)]
          simp
  | run max part =>
      unfold advance
      dsimp only
      rcases hr : p.readStep part with ⟨result, q, hooks⟩
      obtain ⟨hreads, ⟨run, rfl, hrun, hne⟩ | ⟨rfl, hmax, hnil, hend⟩ |
        ⟨t, rfl, hmax, htext, hwaits⟩⟩ := readStep_cases hr
      · exact ⟨hs.of_readsTo hreads, Or.inl ⟨rfl, by simp, answer_run hreads hrun hne⟩⟩
      · exact ⟨hs.of_readsTo hreads, Or.inl ⟨rfl, by simp,
          answer_exhausted hs hreads hend hnil (run_ne_zero hmax)⟩⟩
      · refine ⟨hs.of_readsTo hreads, Or.inr ⟨_, rfl, rfl, rfl, hreads.queue_eq htext.symm, ?_⟩⟩
        by_cases hnil : part.text ++ p.contents = []
        · have hend : q.Exhausted false := by
            rcases hwaits with ⟨-, hne⟩ | ⟨-, hend⟩
            · exact absurd (List.append_eq_nil_iff.1 (htext.trans hnil)).2 hne
            · exact hend
          simp only [Pull.taken, Pull.request]
          rw [answer_exhausted hs hreads hend hnil (run_ne_zero hmax)]
          simp
        · rw [Pull.request, Pull.taken, Queue.answer, ready_queue, if_pos (Or.inr hnil)]
          simp

end Readings

namespace Exchange

/-- Moving text from the writer to the channel adds it at the right end of the queue. -/
theorem queue_of_moves {x : Exchange} {q : Pipe} {added : List Char} (h : x.pipe.Moves added q) :
    queue { x with pipe := q } =
      { x.queue with
        text := x.queue.text ++ added, held := q.held.length, closed := q.channel.closed } := by
  have htext := h.text
  unfold queue Pipe.queue
  simp only [List.append_assoc] at htext ⊢
  rw [htext]

/-- Going on with a request is a step of the queue. -/
theorem perform_advance_refines_queue {p : Pipe} (hs : p.Sound) (pull : Pull) :
    (perform ⟨p, some pull⟩ .advance).2.pipe.Sound ∧
      Queue.Step (queue ⟨p, some pull⟩) .advance (perform ⟨p, some pull⟩ .advance).1
        (perform ⟨p, some pull⟩ .advance).2.queue := by
  obtain ⟨hsound, ⟨hrest, hready, hanswer⟩ | ⟨rest, hrest, honward, hsame, hqueue, hmore⟩⟩ :=
    advance_refines_queue hs pull (some pull.request)
  · have hstep : Queue.Step (p.queue pull.taken (some pull.request)) .advance
        ((p.queue pull.taken (some pull.request)).answer pull.request).1
        { ((p.queue pull.taken (some pull.request)).answer pull.request).2 with
          request := none } := by
      apply Queue.Step.advance rfl
      rw [hanswer]
      exact hready
    rw [hanswer] at hstep
    refine ⟨hsound, ?_⟩
    simp only [perform]
    rw [hrest]
    exact hstep
  · have hsameQueue : queue ⟨(p.advance pull).2.1, some rest⟩ = queue ⟨p, some pull⟩ := by
      change Pipe.queue _ rest.taken (some rest.request) = _
      rw [hsame]
      exact hqueue
    refine ⟨hsound, ?_⟩
    simp only [perform]
    rw [hrest, honward, hsameQueue]
    exact .onward rfl hmore

/-- Completing a request is a step of the queue. -/
theorem perform_complete_refines_queue {p : Pipe} (hs : p.Sound) (pull : Pull) :
    (perform ⟨p, some pull⟩ .complete).2.pipe.Sound ∧
      Queue.Step (queue ⟨p, some pull⟩) .complete (perform ⟨p, some pull⟩ .complete).1
        (perform ⟨p, some pull⟩ .complete).2.queue := by
  obtain ⟨hsound, hanswer, ⟨hrest, hready⟩ | ⟨rest, hrest, hwaits, hsame, htaken⟩⟩ :=
    complete_refines_queue hs pull (some pull.request)
  · have hstep : Queue.Step (p.queue pull.taken (some pull.request)) .complete
        ((p.queue pull.taken (some pull.request)).answer pull.request).1
        { ((p.queue pull.taken (some pull.request)).answer pull.request).2 with
          request := none } := by
      apply Queue.Step.complete rfl
      rw [hanswer]
      exact hready
    rw [hanswer] at hstep
    refine ⟨hsound, ?_⟩
    simp only [perform]
    rw [hrest]
    exact hstep
  · have hnothing := (congrArg Prod.fst hanswer).trans hwaits
    have hsameQueue : queue ⟨(p.complete pull).2.1, some rest⟩ = queue ⟨p, some pull⟩ := by
      change Pipe.queue _ rest.taken (some rest.request) = _
      rw [hsame, htaken]
      exact (congrArg Prod.snd hanswer).symm.trans (Queue.answer_of_waits hnothing)
    refine ⟨hsound, ?_⟩
    simp only [perform]
    rw [hrest, hwaits, hsameQueue]
    exact .waits rfl hnothing

/-- **Every operation is one of the queue**, and keeps the pipe sound. -/
theorem perform_refines_queue {x : Exchange} (hs : x.pipe.Sound) (op : Operation) :
    (x.perform op).2.pipe.Sound ∧
      Queue.Step x.queue op (x.perform op).1 (x.perform op).2.queue := by
  cases op with
  | append chunk =>
      simp only [perform]
      by_cases hclosed : x.pipe.channel.closed = true
      · rw [append_of_closed hclosed]
        exact ⟨hs, .append_closed hclosed⟩
      · have hopen : x.pipe.channel.closed = false := by simpa using hclosed
        obtain ⟨hsound, hmoves, hstill⟩ := hs.append hopen chunk
        refine ⟨hsound, ?_⟩
        rw [queue_of_moves hmoves, hstill, ← hopen]
        exact .append hopen hmoves.length_held_le
  | flush =>
      obtain ⟨hsound, hmoves, hheld, hsame⟩ := hs.flush
      refine ⟨hsound, ?_⟩
      simp only [perform]
      rw [queue_of_moves hmoves, hheld, hsame, List.append_nil]
      exact .flush x.queue
  | close =>
      obtain ⟨hsound, hmoves, hheld, hclosed⟩ := hs.close
      refine ⟨hsound, ?_⟩
      simp only [perform]
      rw [queue_of_moves hmoves, hheld, hclosed, List.append_nil]
      exact .close x.queue
  | dropWriter =>
      obtain ⟨hsound, hmoves, hheld, hclosed⟩ := hs.dropWriter
      refine ⟨hsound, ?_⟩
      simp only [perform]
      rw [queue_of_moves hmoves, hheld, hclosed, List.append_nil]
      exact .dropWriter x.queue
  | pushBack cs =>
      obtain ⟨p, pull⟩ := x
      cases pull with
      | none =>
        have hqueue : queue ⟨p.pushBack cs, none⟩ =
            { queue ⟨p, none⟩ with text := cs ++ (queue ⟨p, none⟩).text } := by
          simp [queue, Pipe.queue, contents, Pipe.pushBack]
        refine ⟨hs.of_same rfl rfl rfl, ?_⟩
        simp only [perform]
        rw [hqueue]
        exact .pushBack rfl
      | some pull => exact ⟨hs, .busy (by simp [queue, Pipe.queue]) (by simp)⟩
  | setPacing pacing =>
      obtain ⟨p, pull⟩ := x
      cases pull with
      | none => exact ⟨hs.of_same rfl rfl rfl, .setPacing rfl⟩
      | some pull => exact ⟨hs, .busy (by simp [queue, Pipe.queue]) (by simp)⟩
  | isEmpty =>
      obtain ⟨p, pull⟩ := x
      cases pull with
      | none =>
        have hready : (queue ⟨p, none⟩).ready = p.contents := ready_queue
        have hempty : p.isEmpty = (queue ⟨p, none⟩).ready.isEmpty := by
          rw [hs.isEmpty_eq, hready]
        refine ⟨hs, ?_⟩
        simp only [perform]
        rw [hempty]
        exact .isEmpty rfl
      | some pull => exact ⟨hs, .busy (by simp [queue, Pipe.queue]) (by simp)⟩
  | ask r =>
      obtain ⟨p, pull⟩ := x
      cases pull with
      | none =>
        obtain ⟨hsound, hanswer⟩ := ask_refines_queue hs r none
        have hstep : Queue.Step (p.queue [] none) (.ask r) ((p.queue [] none).answer r).1
            ((p.queue [] none).answer r).2 := .ask rfl
        rw [hanswer] at hstep
        exact ⟨hsound, hstep⟩
      | some pull => exact ⟨hs, .busy (by simp [queue, Pipe.queue]) (by simp)⟩
  | begin r =>
      obtain ⟨p, pull⟩ := x
      cases pull with
      | none =>
        have hqueue : queue ⟨p, some (.start r)⟩ =
            { queue ⟨p, none⟩ with request := some r } := by
          cases r <;> rfl
        refine ⟨hs, ?_⟩
        simp only [perform]
        rw [hqueue]
        exact .begin rfl
      | some pull => exact ⟨hs, .busy (by simp [queue, Pipe.queue]) (by simp)⟩
  | advance =>
      obtain ⟨p, pull⟩ := x
      cases pull with
      | none => exact ⟨hs, .idle rfl (Or.inl rfl)⟩
      | some pull => exact perform_advance_refines_queue hs pull
  | complete =>
      obtain ⟨p, pull⟩ := x
      cases pull with
      | none => exact ⟨hs, .idle rfl (Or.inr rfl)⟩
      | some pull => exact perform_complete_refines_queue hs pull

/-- From any sound state, a script does what it does to a queue. -/
theorem run_refines_queue_of_sound {x : Exchange} (hs : x.pipe.Sound) (script : List Operation) :
    Queue.Run x.queue script (x.run script).1 (x.run script).2.queue := by
  induction script generalizing x with
  | nil => exact .nil x.queue
  | cons op ops ih =>
      obtain ⟨hsound, hstep⟩ := perform_refines_queue hs op
      exact .cons hstep (ih hsound)

/-- **A pipe is a queue of characters.**  Whatever is done with a new pipe by both of its ends, in
whatever order, every outcome is the one of the plain queue, and the text that the queue has is in
the pipe. -/
theorem run_refines_queue (pacing : Pacing) (threshold : Nat) (script : List Operation) :
    Queue.Run {} script (run { pipe := .new pacing threshold } script).1
      (run { pipe := .new pacing threshold } script).2.queue := by
  have hsound : Exchange.pipe { pipe := .new pacing threshold } |>.Sound :=
    sound_new pacing threshold
  exact run_refines_queue_of_sound hsound script

end Exchange

end VideoTerminal.Pipe
