import VideoTerminal.Proofs.Pipe.Chunks
import VideoTerminal.Proofs.Pipe.Exchange

/-!
# What the observer of a pipe hears

The observer is told when the reader begins to hand out its buffer, when it has handed it out, and
when it is about to wait.  Between the hooks, chunks enter the buffer and characters leave it.  A
trace has all of this in order, as `Happening`s, and a `Watch` is what can be known from it: whether
a start is open, what is in the buffer, and what is on its way.

`Watch.Allows` is the protocol.  Each part of a reading obeys it (`Pipe.Shows`), and so does every
script of operations of both ends (`Exchange.hooks_follow_protocol`).
-/

namespace VideoTerminal

/-- Starts and ends alternate, and nobody waits between a start and its end; `isOpen` tells whether
a start has been announced whose end has not. -/
def Hook.Orderly : Bool → List Hook → Prop
  | _, [] => True
  | isOpen, .appended _ :: hooks => Orderly isOpen hooks
  | isOpen, .chunkStart :: hooks => isOpen = false ∧ Orderly true hooks
  | isOpen, .chunkEnd :: hooks => isOpen = true ∧ Orderly false hooks
  | isOpen, .beforeWait :: hooks => isOpen = false ∧ Orderly isOpen hooks

namespace Pipe

/-! ## The protocol -/

/-- What happens to a pipe, for those who watch it. -/
inductive Happening
  /-- The observer hears something. -/
  | heard (hook : Hook)
  /-- Text that was on its way enters the buffer. -/
  | received (text : List Char)
  /-- Characters of the buffer are handed out. -/
  | handed (text : List Char)
  deriving DecidableEq

namespace Happening

/-- What is heard. -/
def hooks (trace : List Happening) : List Hook :=
  trace.filterMap fun
    | .heard hook => some hook
    | _ => none

/-- The text that enters the buffer. -/
def receivedText (trace : List Happening) : List Char :=
  trace.flatMap fun
    | .received text => text
    | _ => []

/-- The text that the buffer hands out. -/
def handedText (trace : List Happening) : List Char :=
  trace.flatMap fun
    | .handed text => text
    | _ => []

/-- The hooks of two traces are heard one after the other. -/
@[simp] theorem hooks_append (trace more : List Happening) :
    hooks (trace ++ more) = hooks trace ++ hooks more := by
  simp [hooks]

@[simp] theorem hooks_map_heard (heard : List Hook) : hooks (heard.map .heard) = heard := by
  induction heard with
  | nil => rfl
  | cons hook rest ih => exact congrArg (hook :: ·) ih

end Happening

/-- What can be known of a pipe from what has happened. -/
structure Watch where
  /-- A start has been announced, and its end has not. -/
  isOpen : Bool := false
  /-- What is in the buffer and has not been handed out. -/
  unread : List Char := []
  /-- The text of the chunks on their way. -/
  queued : List Char := []
  deriving DecidableEq

namespace Watch

/-- **The protocol.**  A start is announced only when none is open and there is something to hand
out, its end when all has been handed out, and a wait only when no start is open.  Nothing enters
the buffer while a start is open. -/
def Allows (w : Watch) : Happening → Prop
  | .heard (.appended _) => True
  | .heard .chunkStart => w.isOpen = false ∧ w.unread ≠ []
  | .heard .chunkEnd => w.isOpen = true ∧ w.unread = []
  | .heard .beforeWait => w.isOpen = false
  | .received text => w.isOpen = false ∧ text <+: w.queued
  | .handed text => text <+: w.unread

/-- What is known after a happening. -/
def next (w : Watch) : Happening → Watch
  | .heard (.appended text) => { w with queued := w.queued ++ text }
  | .heard .chunkStart => { w with isOpen := true }
  | .heard .chunkEnd => { w with isOpen := false }
  | .heard .beforeWait => w
  | .received text =>
    { w with unread := w.unread ++ text, queued := w.queued.drop text.length }
  | .handed text => { w with unread := w.unread.drop text.length }

/-- What is known after a trace. -/
def after (w : Watch) (trace : List Happening) : Watch := trace.foldl next w

/-- Everything that happens is allowed when it happens. -/
def Follows (w : Watch) : List Happening → Prop
  | [] => True
  | happening :: trace => w.Allows happening ∧ (w.next happening).Follows trace

variable {w : Watch} {trace : List Happening}

/-- Two traces keep to the protocol if the first does, and the second behind it. -/
theorem follows_append {more : List Happening} :
    w.Follows (trace ++ more) ↔ w.Follows trace ∧ (w.after trace).Follows more := by
  induction trace generalizing w with
  | nil => simp [Follows, after]
  | cons happening trace ih => simp [Follows, after, ih, and_assoc]

/-- Who follows the protocol is heard in order. -/
theorem Follows.orderly (h : w.Follows trace) :
    Hook.Orderly w.isOpen (Happening.hooks trace) := by
  induction trace generalizing w with
  | nil => trivial
  | cons happening trace ih =>
    obtain ⟨hallows, hrest⟩ := h
    have hrest := ih hrest
    cases happening with
    | heard hook =>
        cases hook with
        | appended text => exact hrest
        | chunkStart => exact ⟨hallows.1, hrest⟩
        | chunkEnd => exact ⟨hallows.1, hrest⟩
        | beforeWait => exact ⟨hallows, hrest⟩
    | received text => exact hrest
    | handed text => exact hrest

/-- No text is lost on its way to the buffer. -/
theorem Follows.queued (h : w.Follows trace) :
    w.queued ++ (Hook.chunks (Happening.hooks trace)).flatten =
      Happening.receivedText trace ++ (w.after trace).queued := by
  induction trace generalizing w with
  | nil => simp [Happening.hooks, Hook.chunks, Happening.receivedText, after]
  | cons happening trace ih =>
    obtain ⟨hallows, hrest⟩ := h
    have hrest := ih hrest
    cases happening with
    | heard hook =>
        cases hook with
        | appended text =>
          rw [next, List.append_assoc] at hrest
          exact hrest
        | chunkStart => exact hrest
        | chunkEnd => exact hrest
        | beforeWait => exact hrest
    | received text =>
        obtain ⟨more, hmore⟩ := hallows.2
        have hqueued : (w.next (.received text)).queued = more := by
          simp [next, ← hmore]
        have htext : Happening.receivedText (.received text :: trace) =
            text ++ Happening.receivedText trace := rfl
        rw [hqueued] at hrest
        rw [← hmore, htext, List.append_assoc, List.append_assoc]
        exact congrArg (text ++ ·) hrest
    | handed text => exact hrest

/-- What has entered the buffer is handed out or still there. -/
theorem Follows.unread (h : w.Follows trace) :
    w.unread ++ Happening.receivedText trace =
      Happening.handedText trace ++ (w.after trace).unread := by
  induction trace generalizing w with
  | nil => simp [Happening.handedText, Happening.receivedText, after]
  | cons happening trace ih =>
    obtain ⟨hallows, hrest⟩ := h
    have hrest := ih hrest
    cases happening with
    | heard hook => cases hook <;> exact hrest
    | received text =>
        rw [next, List.append_assoc] at hrest
        exact hrest
    | handed text =>
        obtain ⟨more, hmore⟩ := hallows
        have hunread : (w.next (.handed text)).unread = more := by
          simp [next, ← hmore]
        have htext : Happening.handedText (.handed text :: trace) =
            text ++ Happening.handedText trace := rfl
        rw [hunread] at hrest
        rw [← hmore, htext, List.append_assoc, List.append_assoc]
        exact congrArg (text ++ ·) hrest

end Watch

/-! ## What parts of a reading show -/

/-- What there is to be known of a pipe. -/
def watch (p : Pipe) : Watch where
  isOpen := p.reader.inChunk
  unread := p.reader.unread
  queued := p.channel.queued

/-- **A trace shows** what has made `q` of the pipe `p`, and follows the protocol. -/
structure Shows (p : Pipe) (trace : List Happening) (q : Pipe) : Prop where
  follows : p.watch.Follows trace
  after : p.watch.after trace = q.watch

namespace Shows

variable {p q r : Pipe}

/-- What the protocol does not see need not be shown. -/
theorem of_eq (h : p.watch = q.watch) : p.Shows [] q := ⟨trivial, h⟩

theorem trans {trace more : List Happening} (h : p.Shows trace q) (h' : q.Shows more r) :
    p.Shows (trace ++ more) r where
  follows := Watch.follows_append.mpr ⟨h.follows, h.after ▸ h'.follows⟩
  after := by
    rw [← h'.after, ← h.after]
    exact List.foldl_append

/-- One happening is shown if the protocol allows it and comes to the same. -/
theorem single {happening : Happening} (hallows : p.watch.Allows happening)
    (hnext : p.watch.next happening = q.watch) : p.Shows [happening] q :=
  ⟨⟨hallows, trivial⟩, hnext⟩

/-- Characters of the buffer are handed out. -/
theorem handed {text : List Char} (hunread : p.reader.unread = text ++ q.reader.unread)
    (hopen : q.reader.inChunk = p.reader.inChunk) (hchannel : q.channel = p.channel) :
    p.Shows [.handed text] q := by
  refine single ⟨q.reader.unread, hunread.symm⟩ ?_
  simp [Watch.next, watch, hunread, hopen, hchannel]

end Shows

section Parts

variable (p : Pipe)

/-- A chunk ends when all of it has been read. -/
theorem shows_endChunk (hread : p.reader.unread = []) :
    p.Shows (p.endChunk.2.map .heard) p.endChunk.1 := by
  unfold endChunk
  split
  · next hopen => exact Shows.single ⟨hopen, hread⟩ rfl
  · exact Shows.of_eq rfl

/-- The protocol does not see where the buffer begins. -/
theorem watch_compact : p.compact.watch = p.watch := by
  unfold compact
  split <;> rfl

/-- Draining receives what is queued, outside a chunk. -/
theorem shows_drain (hclosed : p.reader.inChunk = false) :
    p.Shows [.received p.channel.queued] p.drain := by
  refine Shows.single ⟨hclosed, List.prefix_refl _⟩ ?_
  simp [Watch.next, watch, drain, Channel.queued]

/-- A chunk starts when something has come. -/
theorem shows_startChunk (hclosed : p.reader.inChunk = false) (hunread : p.reader.unread ≠ []) :
    p.Shows [.heard .chunkStart] p.startChunk :=
  Shows.single ⟨hclosed, hunread⟩ rfl

/-- Outside a chunk the reader may wait. -/
theorem shows_beforeWait (hclosed : p.reader.inChunk = false) :
    p.Shows [.heard .beforeWait] p :=
  Shows.single hclosed rfl

/-- A character that is dropped has been handed on. -/
theorem shows_dropBuffered : p.Shows [.handed (p.reader.unread.take 1)] p.dropBuffered := by
  unfold dropBuffered
  split
  · next hunread => exact Shows.handed (by simp [hunread]) rfl rfl
  · next c rest hunread => exact Shows.handed (by simp [hunread]) rfl rfl

/-- What is read from the buffer has been handed on. -/
theorem shows_readBuffer (max : Nat) :
    p.Shows [.handed (p.readBuffer max).1] (p.readBuffer max).2 := by
  unfold readBuffer
  dsimp only
  split
  · exact Shows.handed (takeRun_append max p.reader.unread).symm rfl rfl
  · exact Shows.handed rfl rfl rfl

/-- The characters of the buffer among those that are taken from what is at hand. -/
def takenFromBuffer (p : Pipe) (max : Nat) : List Char :=
  ((p.readPushback max).2.readBuffer (max - (p.readPushback max).1.length)).1

theorem shows_readAtHand (max : Nat) :
    p.Shows [.handed (p.takenFromBuffer max)] (p.readAtHand max).2 :=
  (Shows.of_eq rfl : p.Shows [] (p.readPushback max).2).trans (shows_readBuffer _ _)

end Parts

/-! ## Refilling the buffer -/

/-- What a refill shows after the buffer has been restocked. -/
def answerHooks (restocked : Pipe) (wait : Wait) (waiting : Bool) : List Hook :=
  if !restocked.reader.unread.isEmpty then [.chunkStart]
  else if restocked.reader.ended then []
  else if waiting then []
  else if wait = .none then []
  else [.beforeWait]

/-- What a refill shows: the end of the old buffer, what comes in, and the answer. -/
def refillTrace (p : Pipe) (wait : Wait) (waiting : Bool) : List Happening :=
  (p.restock waiting).2.map .heard ++ [.received p.channel.queued] ++
    ((p.restock waiting).1.answerHooks wait waiting).map .heard

section Refill

variable {p : Pipe} {wait : Wait} {waiting : Bool}

/-- A trace of refilling has the hooks of refilling. -/
theorem hooks_refillTrace (p : Pipe) (wait : Wait) (waiting : Bool) :
    Happening.hooks (p.refillTrace wait waiting) = (p.refill wait waiting).2.2 := by
  unfold refillTrace refill answerHooks
  generalize p.restock waiting = restocked
  simp only [Happening.hooks_append, Happening.hooks_map_heard]
  have hreceived : Happening.hooks [.received p.channel.queued] = [] := rfl
  rw [hreceived, List.append_nil]
  repeat' split
  all_goals simp_all

/-- The end of the old buffer comes before what comes in. -/
theorem shows_restock (hread : p.reader.unread = [])
    (hwaits : waiting = true → p.reader.inChunk = false) :
    p.Shows ((p.restock waiting).2.map .heard ++ [.received p.channel.queued])
        (p.restock waiting).1 ∧
      (p.restock waiting).1.reader.inChunk = false := by
  cases waiting with
  | true => exact ⟨p.shows_drain (hwaits rfl), hwaits rfl⟩
  | false =>
    have hclosed : p.endChunk.1.reader.inChunk = false := by
      unfold endChunk
      split
      · rfl
      · next hclosed => simpa using hclosed
    have hcompact : p.endChunk.1.compact.reader.inChunk = false :=
      (congrArg Watch.isOpen p.endChunk.1.watch_compact).trans hclosed
    have hqueued : p.endChunk.1.compact.channel.queued = p.channel.queued := by
      refine (congrArg Watch.queued p.endChunk.1.watch_compact).trans ?_
      unfold endChunk watch
      split <;> rfl
    have hdrain := p.endChunk.1.compact.shows_drain hcompact
    rw [hqueued] at hdrain
    have hcompacted : p.Shows (p.endChunk.2.map .heard) p.endChunk.1.compact := by
      simpa using (p.shows_endChunk hread).trans (Shows.of_eq p.endChunk.1.watch_compact.symm)
    exact ⟨hcompacted.trans hdrain, hcompact⟩

/-- Where something has come, a chunk starts. -/
theorem answerHooks_of_ne_nil {restocked : Pipe} (h : restocked.reader.unread ≠ []) :
    restocked.answerHooks wait waiting = [.chunkStart] := by
  simp [answerHooks, h]

/-- Where nothing has come, the reader may be about to wait. -/
theorem answerHooks_of_nil (wait : Wait) (waiting : Bool) {restocked : Pipe}
    (h : restocked.reader.unread = []) :
    restocked.answerHooks wait waiting = [] ∨
      restocked.answerHooks wait waiting = [.beforeWait] := by
  unfold answerHooks
  rw [h]
  repeat' split
  all_goals simp_all

/-- **A refill** of a buffer that has been handed out.  A reader that has to wait, or has waited,
has no start open. -/
theorem shows_refill (wait : Wait) (hread : p.reader.unread = [])
    (hwaits : waiting = true → p.reader.inChunk = false) :
    p.Shows (p.refillTrace wait waiting) (p.refill wait waiting).2.1 ∧
      ((p.refill wait waiting).1 = .data →
        (p.refill wait waiting).2.1.reader.unread ≠ []) ∧
      ((p.refill wait waiting).1 ≠ .data →
        (p.refill wait waiting).2.1.reader.inChunk = false) := by
  obtain ⟨hrestock, hclosed⟩ := shows_restock hread hwaits
  unfold refillTrace
  rcases hr : p.refill wait waiting with ⟨answer, q, hooks⟩
  rcases refill_cases hr with ⟨rfl, hdata, rfl⟩ | ⟨hnil, rfl, hanswer⟩
  · rw [answerHooks_of_ne_nil hdata]
    exact ⟨hrestock.trans ((p.restock waiting).1.shows_startChunk hclosed hdata), fun _ => hdata,
      fun hne => absurd rfl hne⟩
  · have hdata : answer ≠ .data := by
      rintro rfl
      simp at hanswer
    refine ⟨hrestock.trans ?_, fun h => absurd h hdata, fun _ => hclosed⟩
    rcases answerHooks_of_nil wait waiting hnil with hanswer | hanswer <;> rw [hanswer]
    · exact Shows.of_eq rfl
    · exact (p.restock waiting).1.shows_beforeWait hclosed

end Refill

/-! ## Readings -/

/-- What a step shows in which the next character is read. -/
def nextTrace (p : Pipe) (waiting : Bool) : List Happening :=
  match p.reader.pushback with
  | _ :: _ => []
  | [] =>
    match p.reader.unread with
    | c :: _ => [.handed [c]]
    | [] =>
      let asked := p.refill p.reader.pacing.pollWait waiting
      p.refillTrace p.reader.pacing.pollWait waiting ++
        match asked.1 with
        | .late => [.heard .beforeWait]
        | .data => [.handed (asked.2.1.reader.unread.take 1)]
        | .ended | .waits => []

/-- What a step shows in which a run is read. -/
def readTrace {max : Nat} (p : Pipe) (s : PartialRun max) : List Happening :=
  let hand := p.takeAtHand s
  .handed (p.takenFromBuffer (max - s.text.length)) ::
    if hand.2.mayGoOn hand.1 then
      let wait := hand.2.runWait hand.1.text
      hand.2.refillTrace wait s.waiting ++
        (renewal hand.1.text (hand.2.refill wait s.waiting).1).map .heard
    else []

/-- What the steps of a run show. -/
def readOnTrace {max : Nat} (p : Pipe) (s : PartialRun max) : List Happening :=
  p.readTrace s ++
    match _h : p.readStep s with
    | (.got _, _, _) => []
    | (.ended, _, _) => []
    | (.onward t, q, _) => if _hw : t.needsWriter then [] else q.readOnTrace t
termination_by p.asksLeft s.waiting
decreasing_by exact asksLeft_readStep _h (by simpa using _hw)

section Readings

variable {p q : Pipe}

/-- **A step of a next character.** -/
theorem nextStep_shows {waiting : Bool} {result : Step Bool Char} {hooks : List Hook}
    (h : p.nextStep waiting = (result, q, hooks))
    (hwaits : waiting = true → p.reader.inChunk = false) :
    Happening.hooks (p.nextTrace waiting) = hooks ∧ p.Shows (p.nextTrace waiting) q ∧
      (result = .onward true → q.reader.inChunk = false) := by
  unfold nextStep at h
  unfold nextTrace
  cases hback : p.reader.pushback with
  | cons c rest =>
    obtain ⟨rfl, rfl, rfl⟩ : Step.got c = result ∧ _ = q ∧ [] = hooks := by simpa [hback] using h
    exact ⟨rfl, Shows.of_eq rfl, by simp⟩
  | nil =>
    rw [hback] at h
    dsimp only at h ⊢
    cases hunread : p.reader.unread with
    | cons c rest =>
      obtain ⟨rfl, rfl, rfl⟩ : Step.got c = result ∧ p.dropBuffered = q ∧ [] = hooks := by
        simpa [hunread] using h
      have hdrop := p.shows_dropBuffered
      rw [hunread] at hdrop
      exact ⟨rfl, hdrop, by simp⟩
    | nil =>
      rw [hunread] at h
      dsimp only at h ⊢
      obtain ⟨hshows, hdata, hclosed⟩ :=
        shows_refill p.reader.pacing.pollWait hunread hwaits
      have hheard := hooks_refillTrace p p.reader.pacing.pollWait waiting
      generalize p.refillTrace p.reader.pacing.pollWait waiting = trace at hshows hheard ⊢
      rcases hr : p.refill p.reader.pacing.pollWait waiting with ⟨answer, r, heard⟩
      rw [hr] at h hshows hdata hclosed hheard
      dsimp only at h hshows hdata hclosed hheard ⊢
      cases answer with
      | data =>
        cases hr : r.reader.unread with
        | nil => exact absurd hr (hdata rfl)
        | cons c rest =>
          obtain ⟨rfl, rfl, rfl⟩ : Step.got c = result ∧ r.dropBuffered = q ∧ heard = hooks := by
            simpa [hr] using h
          refine ⟨?_, hr ▸ hshows.trans r.shows_dropBuffered, by simp⟩
          rw [Happening.hooks_append, hheard]
          exact List.append_nil heard
      | late =>
        obtain ⟨rfl, rfl, rfl⟩ :
            Step.onward true = result ∧ r = q ∧ heard ++ [.beforeWait] = hooks := by
          simpa using h
        have hclosed := hclosed (by simp)
        refine ⟨?_, hshows.trans (r.shows_beforeWait hclosed), fun _ => hclosed⟩
        rw [Happening.hooks_append, hheard]
        rfl
      | ended =>
        obtain ⟨rfl, rfl, rfl⟩ : Step.ended = result ∧ r = q ∧ heard = hooks := by simpa using h
        rw [List.append_nil]
        exact ⟨hheard, hshows, by simp⟩
      | waits =>
        obtain ⟨rfl, rfl, rfl⟩ : Step.onward true = result ∧ r = q ∧ heard = hooks := by
          simpa using h
        rw [List.append_nil]
        exact ⟨hheard, hshows, fun _ => hclosed (by simp)⟩

/-- **A step of a run.** -/
theorem readStep_shows {max : Nat} {s : PartialRun max}
    {result : Step (PartialRun max) (List Char)} {hooks : List Hook}
    (h : p.readStep s = (result, q, hooks))
    (hwaits : s.waiting = true → p.reader.inChunk = false) :
    Happening.hooks (p.readTrace s) = hooks ∧ p.Shows (p.readTrace s) q ∧
      ∀ t, result = .onward t → t.waiting = true → q.reader.inChunk = false := by
  have hhand : p.Shows [.handed (p.takenFromBuffer (max - s.text.length))] (p.takeAtHand s).2 :=
    p.shows_readAtHand _
  have hopen : (p.takeAtHand s).2.reader.inChunk = p.reader.inChunk :=
    (congrArg Watch.isOpen hhand.after).symm
  unfold readStep at h
  unfold readTrace
  generalize p.takenFromBuffer (max - s.text.length) = taken at hhand ⊢
  generalize p.takeAtHand s = hand at h hhand hopen ⊢
  dsimp only at h ⊢
  split at h
  · next hmore =>
    rw [if_pos hmore]
    obtain ⟨-, -, hunread⟩ := mayGoOn_eq_true.mp hmore
    obtain ⟨hshows, -, hclosed⟩ := shows_refill (hand.2.runWait hand.1.text) hunread
      (fun hw => hopen.trans (hwaits hw))
    have hheard := hooks_refillTrace hand.2 (hand.2.runWait hand.1.text) s.waiting
    generalize hand.2.refillTrace (hand.2.runWait hand.1.text) s.waiting = trace
      at hshows hheard ⊢
    rcases hr : hand.2.refill (hand.2.runWait hand.1.text) s.waiting with ⟨answer, r, heard⟩
    rw [hr] at h hshows hclosed hheard
    dsimp only at h hshows hclosed hheard ⊢
    obtain ⟨rfl, rfl, rfl⟩ : afterRefill hand.1 answer = result ∧ r = q ∧
        heard ++ renewal hand.1.text answer = hooks := by simpa using h
    have hrenewal : r.Shows ((renewal hand.1.text answer).map .heard) r := by
      unfold renewal
      split
      · split
        · exact r.shows_beforeWait (hclosed (by simp))
        · exact Shows.of_eq rfl
      · exact Shows.of_eq rfl
    refine ⟨?_, hhand.trans (hshows.trans hrenewal), ?_⟩
    · change Happening.hooks (trace ++ _) = _
      rw [Happening.hooks_append, hheard, Happening.hooks_map_heard]
    · intro t ht hwaiting
      apply hclosed
      rintro rfl
      obtain rfl : _ = t := Step.onward.inj ht
      simp at hwaiting
  · next hdone =>
    obtain ⟨rfl, rfl, rfl⟩ : Step.got hand.1.text = result ∧ hand.2 = q ∧ [] = hooks := by
      simpa using h
    rw [if_neg hdone]
    exact ⟨rfl, hhand, by simp⟩

/-- A reading that goes on does so behind its first step. -/
theorem readOnTrace_of_onward {max : Nat} {s t : PartialRun max} {hooks : List Hook}
    (h : p.readStep s = (.onward t, q, hooks)) :
    p.readOnTrace s = p.readTrace s ++ if t.needsWriter then [] else q.readOnTrace t := by
  rw [readOnTrace]
  split <;> simp_all

/-- A reading that does not go on has one step. -/
theorem readOnTrace_of_not_onward {max : Nat} {s : PartialRun max}
    (h : ∀ t, (p.readStep s).1 ≠ .onward t) : p.readOnTrace s = p.readTrace s := by
  rw [readOnTrace]
  split <;> simp_all

/-- **The steps of a run** without the writer. -/
theorem readOn_shows {max : Nat} {s : PartialRun max} {result : Received (List Char)}
    {hooks : List Hook} (h : p.readOn s = (result, q, hooks))
    (hwaits : s.waiting = true → p.reader.inChunk = false) :
    Happening.hooks (p.readOnTrace s) = hooks ∧ p.Shows (p.readOnTrace s) q ∧
      (result = .parked → q.reader.inChunk = false) := by
  fun_induction readOn p s generalizing result q hooks with
  | case1 p s run r heard hstep =>
      obtain ⟨rfl, rfl, rfl⟩ : Received.got run = result ∧ r = q ∧ heard = hooks := by
        simpa only [Prod.mk.injEq] using h
      obtain ⟨hheard, hshows, -⟩ := readStep_shows hstep hwaits
      rw [readOnTrace_of_not_onward (by simp [hstep])]
      exact ⟨hheard, hshows, by simp⟩
  | case2 p s r heard hstep =>
      obtain ⟨rfl, rfl, rfl⟩ : Received.ended = result ∧ r = q ∧ heard = hooks := by
        simpa only [Prod.mk.injEq] using h
      obtain ⟨hheard, hshows, -⟩ := readStep_shows hstep hwaits
      rw [readOnTrace_of_not_onward (by simp [hstep])]
      exact ⟨hheard, hshows, by simp⟩
  | case3 p s t r heard hstep hneeds =>
      obtain ⟨rfl, rfl, rfl⟩ : Received.parked = result ∧ r = q ∧ heard = hooks := by
        simpa only [Prod.mk.injEq] using h
      obtain ⟨hheard, hshows, hwaiting⟩ := readStep_shows hstep hwaits
      rw [readOnTrace_of_onward hstep, if_pos hneeds, List.append_nil]
      have hwaitsNow : t.waiting = true := by
        simp only [PartialRun.needsWriter, Bool.and_eq_true] at hneeds
        exact hneeds.1
      exact ⟨hheard, hshows, fun _ => hwaiting t rfl hwaitsNow⟩
  | case4 p s t r heard hstep hneeds ih =>
      obtain ⟨hheard, hshows, hwaiting⟩ := readStep_shows hstep hwaits
      obtain ⟨hmoreHeard, hmore, hparked⟩ := ih rfl (hwaiting t rfl)
      obtain ⟨rfl, rfl, rfl⟩ : (r.readOn t).1 = result ∧ (r.readOn t).2.1 = q ∧
          heard ++ (r.readOn t).2.2 = hooks := by
        simpa only [heardFirst, Prod.mk.injEq] using h
      rw [readOnTrace_of_onward hstep, if_neg hneeds]
      refine ⟨?_, hshows.trans hmore, hparked⟩
      rw [Happening.hooks_append, hheard, hmoreHeard]

end Readings

/-! ## The writer -/

section Writer

variable (p : Pipe)

/-- What the writer does leaves the reader alone, and shows the chunks that are queued. -/
structure Delivers (p : Pipe) (done : Pipe × List Hook) : Prop where
  shows_eq : p.Shows (done.2.map .heard) done.1
  reader : done.1.reader = p.reader

variable {p}

/-- What leaves the reader and the queue alone delivers nothing. -/
theorem Delivers.nothing {q : Pipe} (hreader : q.reader = p.reader)
    (hqueued : q.channel.queued = p.channel.queued) : p.Delivers (q, []) where
  shows_eq := Shows.of_eq (by simp [watch, hreader, hqueued])
  reader := hreader

/-- A chunk is queued; what is held back does not show. -/
theorem delivers_sendChunk (hreader : p.channel.hasReader = true) (held text : List Char) :
    p.Delivers (sendChunk { p with held := held } text) where
  shows_eq := by
    refine Shows.single trivial ?_
    simp [Watch.next, watch, sendChunk, Channel.queued_sendChunk _ _ hreader]
  reader := rfl

/-- Appending queues what is sent, and may hold all of it back. -/
theorem delivers_append (hreader : p.channel.hasReader = true) (chunk : List Char) :
    p.Delivers (p.append chunk) := by
  unfold append
  split
  · exact Delivers.nothing rfl rfl
  · dsimp only
    split
    · exact Delivers.nothing rfl rfl
    · exact delivers_sendChunk hreader _ _

/-- Flushing queues what was held back. -/
theorem delivers_flush (hreader : p.channel.hasReader = true) : p.Delivers p.flush := by
  unfold flush
  split
  · exact Delivers.nothing rfl rfl
  · exact delivers_sendChunk hreader _ _

/-- Closing queues what was held back. -/
theorem delivers_close (hreader : p.channel.hasReader = true) : p.Delivers p.close := by
  unfold close
  split
  · exact Delivers.nothing rfl rfl
  · have hflush := delivers_flush hreader
    refine ⟨?_, hflush.reader⟩
    have hend : Shows p.flush.1 []
        { p.flush.1 with channel := { p.flush.1.channel with closed := true }.send .close } := by
      apply Shows.of_eq
      simp only [watch, Channel.queued_send_close]
      rfl
    simpa using hflush.shows_eq.trans hend

/-- Dropping the writer queues what was held back. -/
theorem delivers_dropWriter (hreader : p.channel.hasReader = true) :
    p.Delivers p.dropWriter := by
  have hclose := delivers_close hreader
  have hgone : Shows p.close.1 [] p.dropWriter.1 := Shows.of_eq rfl
  have hshows := hclose.shows_eq.trans hgone
  rw [List.append_nil] at hshows
  exact ⟨hshows, hclose.reader⟩

end Writer

/-! ## Pipes in use -/

/-- Whether the writer has been waited for. -/
def Pull.waits : Pull → Bool
  | .char waiting => waiting
  | .run _ part => part.waiting

/-- What is heard of a reading that is made at once. -/
def askHooks (p : Pipe) : Request → List Hook
  | .char => p.next.2.2
  | .run max => (p.read max).2.2

/-- What a reading shows that is made at once. -/
def askTrace (p : Pipe) : Request → List Happening
  | .char => p.nextTrace false
  | .run max =>
    let start : PartialRun max := {}
    p.readOnTrace start

/-- What is heard of a step of a reading. -/
def advanceHooks (p : Pipe) : Pull → List Hook
  | .char waiting => (p.nextStep waiting).2.2
  | .run _ part => (p.readStep part).2.2

/-- What a step of a reading shows. -/
def advanceTrace (p : Pipe) : Pull → List Happening
  | .char waiting => p.nextTrace waiting
  | .run _ part => p.readTrace part

/-- What is heard of the steps of a reading that do not need the writer. -/
def completeHooks (p : Pipe) : Pull → List Hook
  | .char waiting => (p.nextStep waiting).2.2
  | .run _ part => (p.readOn part).2.2

/-- What the steps of a reading show that do not need the writer. -/
def completeTrace (p : Pipe) : Pull → List Happening
  | .char waiting => p.nextTrace waiting
  | .run _ part => p.readOnTrace part

section Requests

variable (p : Pipe)

/-- A request keeps to the protocol. -/
theorem ask_shows (r : Request) :
    Happening.hooks (p.askTrace r) = p.askHooks r ∧ p.Shows (p.askTrace r) (p.ask r).2 := by
  cases r with
  | char =>
      unfold askTrace askHooks ask next
      rcases hn : p.nextStep false with ⟨result, q, hooks⟩
      obtain ⟨hheard, hshows, -⟩ := nextStep_shows hn (by simp)
      cases result <;> exact ⟨hheard, hshows⟩
  | run max =>
      unfold askTrace askHooks ask read
      dsimp only
      rcases hr : p.readOn ({} : PartialRun max) with ⟨result, q, hooks⟩
      obtain ⟨hheard, hshows, -⟩ := readOn_shows hr (by simp)
      cases result <;> exact ⟨hheard, hshows⟩

variable {p}

/-- Going on with a request keeps to the protocol. -/
theorem advance_shows {pull : Pull} (hwaits : pull.waits = true → p.reader.inChunk = false) :
    Happening.hooks (p.advanceTrace pull) = p.advanceHooks pull ∧
      p.Shows (p.advanceTrace pull) (p.advance pull).2.1 ∧
      ∀ rest, (p.advance pull).2.2 = some rest → rest.waits = true →
        (p.advance pull).2.1.reader.inChunk = false := by
  cases pull with
  | char waiting =>
      unfold advanceTrace advanceHooks advance
      dsimp only
      rcases hn : p.nextStep waiting with ⟨result, q, hooks⟩
      obtain ⟨hheard, hshows, hwaiting⟩ := nextStep_shows hn hwaits
      cases result with
      | got c => exact ⟨hheard, hshows, by simp⟩
      | ended => exact ⟨hheard, hshows, by simp⟩
      | onward again =>
        refine ⟨hheard, hshows, ?_⟩
        rintro rest hrest hagain
        obtain rfl : Pull.char again = rest := by simpa using hrest
        obtain rfl : again = true := hagain
        exact hwaiting rfl
  | run max part =>
      unfold advanceTrace advanceHooks advance
      dsimp only
      rcases hn : p.readStep part with ⟨result, q, hooks⟩
      obtain ⟨hheard, hshows, hwaiting⟩ := readStep_shows hn hwaits
      cases result with
      | got text => exact ⟨hheard, hshows, by simp⟩
      | ended => exact ⟨hheard, hshows, by simp⟩
      | onward t =>
        refine ⟨hheard, hshows, ?_⟩
        rintro rest hrest hagain
        obtain rfl : Pull.run max t = rest := by simpa using hrest
        exact hwaiting t rfl hagain

/-- Completing a request keeps to the protocol. -/
theorem complete_shows {pull : Pull} (hwaits : pull.waits = true → p.reader.inChunk = false) :
    Happening.hooks (p.completeTrace pull) = p.completeHooks pull ∧
      p.Shows (p.completeTrace pull) (p.complete pull).2.1 ∧
      ∀ rest, (p.complete pull).2.2 = some rest → rest.waits = true →
        (p.complete pull).2.1.reader.inChunk = false := by
  cases pull with
  | char waiting =>
      unfold completeTrace completeHooks complete
      dsimp only
      rcases hn : p.nextStep waiting with ⟨result, q, hooks⟩
      obtain ⟨hheard, hshows, hwaiting⟩ := nextStep_shows hn hwaits
      cases result with
      | got c => exact ⟨hheard, hshows, by simp⟩
      | ended => exact ⟨hheard, hshows, by simp⟩
      | onward again =>
        refine ⟨hheard, hshows, ?_⟩
        rintro rest hrest hagain
        obtain rfl : Pull.char again = rest := by simpa using hrest
        obtain rfl : again = true := hagain
        exact hwaiting rfl
  | run max part =>
      unfold completeTrace completeHooks complete
      dsimp only
      rcases hr : p.readOn part with ⟨result, q, hooks⟩
      obtain ⟨hheard, hshows, hparked⟩ := readOn_shows hr hwaits
      cases result with
      | got text => exact ⟨hheard, hshows, by simp⟩
      | ended => exact ⟨hheard, hshows, by simp⟩
      | parked => exact ⟨hheard, hshows, fun _ _ _ => hparked rfl⟩

end Requests

namespace Exchange

/-- What is heard of an operation. -/
def hooks (x : Exchange) : Operation → List Hook
  | .append chunk => (x.pipe.append chunk).2
  | .flush => x.pipe.flush.2
  | .close => x.pipe.close.2
  | .dropWriter => x.pipe.dropWriter.2
  | .pushBack _ | .setPacing _ | .isEmpty | .begin _ => []
  | .ask r => x.pull.elim (x.pipe.askHooks r) fun _ => []
  | .advance => x.pull.elim [] x.pipe.advanceHooks
  | .complete => x.pull.elim [] x.pipe.completeHooks

/-- What an operation shows. -/
def trace (x : Exchange) : Operation → List Happening
  | .append chunk => (x.pipe.append chunk).2.map .heard
  | .flush => x.pipe.flush.2.map .heard
  | .close => x.pipe.close.2.map .heard
  | .dropWriter => x.pipe.dropWriter.2.map .heard
  | .pushBack _ | .setPacing _ | .isEmpty | .begin _ => []
  | .ask r => x.pull.elim (x.pipe.askTrace r) fun _ => []
  | .advance => x.pull.elim [] x.pipe.advanceTrace
  | .complete => x.pull.elim [] x.pipe.completeTrace

/-- What is heard of a script. -/
def hooksOf (x : Exchange) : List Operation → List Hook
  | [] => []
  | op :: ops => x.hooks op ++ (x.perform op).2.hooksOf ops

/-- What a script shows. -/
def traceOf (x : Exchange) : List Operation → List Happening
  | [] => []
  | op :: ops => x.trace op ++ (x.perform op).2.traceOf ops

/-- A reading that has waited for the writer has no start open. -/
def Attentive (x : Exchange) : Prop :=
  ∀ pull, x.pull = some pull → pull.waits = true → x.pipe.reader.inChunk = false

variable {x : Exchange}

/-- **Every operation shows what is heard of it**, and follows the protocol. -/
theorem perform_shows (hs : x.pipe.Sound) (ha : x.Attentive) (op : Operation) :
    Happening.hooks (x.trace op) = x.hooks op ∧ x.pipe.Shows (x.trace op) (x.perform op).2.pipe ∧
      (x.perform op).2.Attentive := by
  have hwriter {done : Pipe × List Hook} (h : x.pipe.Delivers done) :
      Happening.hooks (done.2.map .heard) = done.2 ∧
        x.pipe.Shows (done.2.map .heard) done.1 ∧ Attentive { x with pipe := done.1 } := by
    refine ⟨Happening.hooks_map_heard _, h.shows_eq, ?_⟩
    intro pull hpull hwaits
    rw [h.reader]
    exact ha pull hpull hwaits
  cases op with
  | append chunk => exact hwriter (delivers_append hs.hasReader chunk)
  | flush => exact hwriter (delivers_flush hs.hasReader)
  | close => exact hwriter (delivers_close hs.hasReader)
  | dropWriter => exact hwriter (delivers_dropWriter hs.hasReader)
  | pushBack cs =>
      obtain ⟨p, pull⟩ := x
      cases pull with
      | none => exact ⟨rfl, Shows.of_eq rfl, by simp [Attentive, perform]⟩
      | some pull => exact ⟨rfl, Shows.of_eq rfl, ha⟩
  | setPacing pacing =>
      obtain ⟨p, pull⟩ := x
      cases pull with
      | none => exact ⟨rfl, Shows.of_eq rfl, by simp [Attentive, perform]⟩
      | some pull => exact ⟨rfl, Shows.of_eq rfl, ha⟩
  | isEmpty =>
      obtain ⟨p, pull⟩ := x
      cases pull <;> exact ⟨rfl, Shows.of_eq rfl, ha⟩
  | ask r =>
      obtain ⟨p, pull⟩ := x
      cases pull with
      | none =>
        obtain ⟨hheard, hshows⟩ := p.ask_shows r
        exact ⟨hheard, hshows, by simp [Attentive, perform]⟩
      | some pull => exact ⟨rfl, Shows.of_eq rfl, ha⟩
  | begin r =>
      obtain ⟨p, pull⟩ := x
      cases pull with
      | none =>
        refine ⟨rfl, Shows.of_eq rfl, ?_⟩
        rintro pull hpull hwaits
        obtain rfl : Pull.start r = pull := by simpa [perform] using hpull
        cases r <;> simp [Pull.start, Pull.waits] at hwaits
      | some pull => exact ⟨rfl, Shows.of_eq rfl, ha⟩
  | advance =>
      obtain ⟨p, pull⟩ := x
      cases pull with
      | none => exact ⟨rfl, Shows.of_eq rfl, ha⟩
      | some pull => exact advance_shows (ha pull rfl)
  | complete =>
      obtain ⟨p, pull⟩ := x
      cases pull with
      | none => exact ⟨rfl, Shows.of_eq rfl, ha⟩
      | some pull => exact complete_shows (ha pull rfl)

/-- **A script shows what is heard of it**, and follows the protocol. -/
theorem run_shows (hs : x.pipe.Sound) (ha : x.Attentive) (script : List Operation) :
    Happening.hooks (x.traceOf script) = x.hooksOf script ∧
      x.pipe.Shows (x.traceOf script) (x.run script).2.pipe := by
  induction script generalizing x with
  | nil => exact ⟨rfl, Shows.of_eq rfl⟩
  | cons op ops ih =>
    obtain ⟨hheard, hshows, hattentive⟩ := perform_shows hs ha op
    obtain ⟨hmoreHeard, hmore⟩ := ih (perform_refines_queue hs op).1 hattentive
    refine ⟨?_, hshows.trans hmore⟩
    rw [traceOf, Happening.hooks_append, hheard, hmoreHeard, hooksOf]

/-- **What the observer hears follows a protocol.**  Whatever is done with a new pipe by both of its
ends, in whatever order:

* starts and ends alternate, beginning with a start, and nobody waits between a start and its end;
* the hooks are part of a trace that follows `Watch.Allows`: a start is announced when there is
  something in the buffer, its end when everything has been handed out, and nothing that was queued
  enters the buffer in between.  The trace leaves what the pipe has: the same start is open, the
  same text is in the buffer and on its way;
* the chunks that have been queued are the text that has entered the buffer and the text on its way,
  and what has entered the buffer has been handed out or is still there. -/
theorem hooks_follow_protocol (pacing : Pacing) (threshold : Nat) (script : List Operation) :
    let start : Exchange := { pipe := .new pacing threshold }
    let hooks := start.hooksOf script
    let trace := start.traceOf script
    let last := (start.run script).2.pipe
    Hook.Orderly false hooks ∧
      Happening.hooks trace = hooks ∧ Watch.Follows {} trace ∧ Watch.after {} trace = last.watch ∧
      (Hook.chunks hooks).flatten = Happening.receivedText trace ++ last.channel.queued ∧
      Happening.receivedText trace = Happening.handedText trace ++ last.reader.unread := by
  intro start hooks trace last
  have hattentive : start.Attentive := by simp [start, Attentive]
  obtain ⟨hheard, hfollows, hafter⟩ := run_shows (sound_new pacing threshold) hattentive script
  refine ⟨?_, hheard, hfollows, hafter, ?_, ?_⟩
  · have horderly := hfollows.orderly
    rwa [hheard] at horderly
  · have hqueued := hfollows.queued
    rwa [hheard, hafter] at hqueued
  · have hunread := hfollows.unread
    rwa [hafter] at hunread

end Exchange

end Pipe

end VideoTerminal
