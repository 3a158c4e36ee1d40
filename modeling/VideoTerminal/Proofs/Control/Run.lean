import VideoTerminal.Control.Run
import VideoTerminal.Proofs.Control.Interpreter
import VideoTerminal.Proofs.Pipe.Sound

/-!
# Runs print what their characters print

The interpreter takes printable characters in long runs that do not pass through the parser.  This
file proves that it does not matter: however a text is cut into chunks, and however the steps of the
interpreter are mixed with those of the writer, the interpreter comes to the same terminal and the
same parser, and gives the same replies in the same order, as when it is fed one character after the
other.

* `foldlM_feedNext_input` — a run does what its characters do, and so does a single character;
* `Interpretation.promise` — what the interpreter will have come to when everything that has been
  written is interpreted.  No step changes it (`promise_step`), and the writer only adds text to it
  (`promise_of_moves`);
* `Interpretation.run_eq_feedText` — the main result.
-/

namespace VideoTerminal

namespace Interpreter

/-- A piece of input does what its characters do. -/
theorem foldlM_feedNext_input {i : Interpreter} {input : Input}
    (hrun : ∀ text, input = .run text →
      i.parser.state = .ground ∧ ∀ c ∈ text, Text.isControl7 c = false)
    (replies : List Reply) :
    input.text.foldlM feedNext (i, replies) =
      (i.take input).map fun out => (out.1, replies ++ out.2) := by
  cases input with
  | char c =>
      simp only [Input.text, List.foldlM_cons, List.foldlM_nil, feedNext, take]
      cases i.feed c with
      | error fault => rfl
      | ok out => rfl
  | run text =>
      obtain ⟨hground, hplain⟩ := hrun text rfl
      simp only [Input.text, take]
      rw [foldlM_feedNext_plain hground hplain]
      cases i.terminal.putText text with
      | error fault => rfl
      | ok t =>
        change Except.ok ({ i with terminal := t }, replies) =
          Except.ok ({ i with terminal := t }, replies ++ [])
        rw [List.append_nil]

end Interpreter

namespace Interpretation

/-- What an interpretation keeps: its pipe is sound, a run is read between sequences only, and at
the end there is nothing left. -/
structure Sound (n : Interpretation) : Prop where
  pipe : n.pipe.Sound
  ground : ∀ part, n.stage = .run part → n.interpreter.parser.state = .ground
  finished : n.finished = true → n.pipe.ahead n.stage = [] ∧ n.pipe.Exhausted true

/-- The text that has been written and not been interpreted. -/
def rest (n : Interpretation) : List Char := n.pipe.ahead n.stage ++ n.pipe.held

/-- What will have come of it when that text and `more` have been interpreted. -/
def promise (n : Interpretation) (more : List Char) : Except Fault (Interpreter × List Reply) :=
  (n.rest ++ more).foldlM Interpreter.feedNext (n.interpreter, n.replies)

/-- What is fetched is the beginning of what is ahead; a run is fetched between sequences. -/
theorem Sound.got {n : Interpretation} (hn : n.Sound) {input : Input} {q : Pipe}
    {hooks : List Hook}
    (h : n.pipe.fetchStep n.interpreter.betweenSequences n.stage = (.got input, q, hooks)) :
    n.pipe.ReadsTo q ∧ n.pipe.ahead n.stage = input.text ++ q.contents ∧
      ∀ text, input = .run text →
        n.interpreter.parser.state = .ground ∧ ∀ c ∈ text, Text.isControl7 c = false := by
  obtain ⟨hreads, hfetches⟩ := Pipe.fetchStep_spec h
  have hground := hn.ground
  generalize n.stage = s at hfetches hground
  cases hfetches with
  | char hahead _ => exact ⟨hreads, hahead, by simp⟩
  | @run _ part text hahead _ =>
      have hplain := @Pipe.not_isControl7_of_mem_takeRun Pipe.maxRun (n.pipe.ahead (.run part))
      have htext := Pipe.takeRun_append Pipe.maxRun (n.pipe.ahead (.run part))
      rw [hahead] at hplain htext
      refine ⟨hreads, htext.symm, ?_⟩
      intro text' htext'
      obtain rfl : text = text' := Input.run.inj htext'
      exact ⟨hground part rfl, fun c hc => hplain hc⟩

/-- What will have come of it once a piece of input has been fetched. -/
theorem promise_got {n : Interpretation} (hn : n.Sound) {input : Input} {q : Pipe}
    {hooks : List Hook}
    (h : n.pipe.fetchStep n.interpreter.betweenSequences n.stage = (.got input, q, hooks))
    (more : List Char) :
    n.promise more = (n.interpreter.take input).bind fun out =>
      (q.contents ++ q.held ++ more).foldlM Interpreter.feedNext (out.1, n.replies ++ out.2) := by
  obtain ⟨hreads, hahead, hplain⟩ := hn.got h
  have htext : n.rest ++ more = input.text ++ (q.contents ++ q.held ++ more) := by
    unfold rest
    rw [hahead, hreads.1]
    simp only [List.append_assoc]
  unfold promise
  rw [htext, List.foldlM_append, Interpreter.foldlM_feedNext_input hplain]
  cases n.interpreter.take input with
  | error fault => rfl
  | ok out => rfl

/-- A reading changes nothing of what is held back. -/
theorem rest_of_readsTo {n m : Interpretation} (hreads : n.pipe.ReadsTo m.pipe)
    (hahead : n.pipe.ahead n.stage = m.pipe.ahead m.stage) : m.rest = n.rest := by
  unfold rest
  rw [hahead, hreads.1]

/-- A piece of input that is still being fetched is still ahead. -/
theorem Sound.onward {n : Interpretation} (hn : n.Sound) (hrunning : n.finished = false)
    {stage : Stage} {q : Pipe} {hooks : List Hook}
    (h : n.pipe.fetchStep n.interpreter.betweenSequences n.stage = (.onward stage, q, hooks)) :
    n.pipe.ReadsTo q ∧ Sound { n with pipe := q, stage := stage } ∧
      rest { n with pipe := q, stage := stage } = n.rest := by
  obtain ⟨hreads, hfetches⟩ := Pipe.fetchStep_spec h
  have hahead : n.pipe.ahead n.stage = q.ahead stage := by
    generalize n.stage = s at hfetches
    cases hfetches with
    | begins hahead => exact hahead
    | goesOn hahead => exact hahead
    | waits hahead => exact hahead
  have hground : ∀ part, stage = .run part → n.interpreter.parser.state = .ground := by
    have hn := hn.ground
    generalize n.stage = s at hfetches hn
    cases hfetches with
    | begins _ _ hprintable _ =>
        intro _ _
        simpa [Interpreter.betweenSequences] using hprintable
    | @goesOn _ part _ _ => exact fun _ _ => hn part rfl
    | waits => simp
  refine ⟨hreads, ⟨hn.pipe.of_readsTo hreads, hground, ?_⟩, rest_of_readsTo hreads hahead⟩
  intro hfinished
  simp [hrunning] at hfinished

/-- At the end nothing is ahead. -/
theorem Sound.ended {n : Interpretation} (hn : n.Sound) {q : Pipe} {hooks : List Hook}
    (h : n.pipe.fetchStep n.interpreter.betweenSequences n.stage = (.ended, q, hooks)) :
    n.pipe.ReadsTo q ∧ q.Sound ∧ n.pipe.ahead n.stage = [] ∧ q.Exhausted true := by
  obtain ⟨hreads, hfetches⟩ := Pipe.fetchStep_spec h
  generalize n.stage = s at hfetches
  cases hfetches with
  | ended hahead hend => exact ⟨hreads, hn.pipe.of_readsTo hreads, hahead, hend⟩

/-- **No step changes what will have come of it.** -/
theorem promise_step {n m : Interpretation} (hn : n.Sound) (h : n.step = .ok m) :
    m.Sound ∧ n.pipe.ReadsTo m.pipe ∧ ∀ more, m.promise more = n.promise more := by
  unfold step at h
  split at h
  · obtain rfl := Except.ok.inj h
    exact ⟨hn, Pipe.ReadsTo.refl _, fun _ => rfl⟩
  · next hrunning =>
    split at h
    · next stage q hooks hf =>
      obtain rfl := Except.ok.inj h
      obtain ⟨hreads, hm, hrest⟩ := hn.onward (Bool.eq_false_iff.mpr hrunning) hf
      refine ⟨hm, hreads, fun more => ?_⟩
      unfold promise
      rw [hrest]
    · next q hooks hf =>
      obtain rfl := Except.ok.inj h
      obtain ⟨hreads, hq, hnil, hend⟩ := hn.ended hf
      have hahead : n.pipe.ahead n.stage = q.ahead n.stage := by
        unfold Pipe.ahead at hnil ⊢
        rw [hnil, (List.append_eq_nil_iff.1 hnil).1, hend.contents]
        rfl
      refine ⟨⟨hq, hn.ground, fun _ => ⟨hahead ▸ hnil, hend⟩⟩, hreads, fun more => ?_⟩
      have hrest : rest { n with pipe := q, finished := true } = n.rest :=
        rest_of_readsTo hreads hahead
      unfold promise
      rw [hrest]
    · next input q hooks hf =>
      have hgot := promise_got hn hf
      obtain ⟨hreads, -, -⟩ := hn.got hf
      split at h
      · next i replies ht =>
        obtain rfl := Except.ok.inj h
        refine ⟨⟨hn.pipe.of_readsTo hreads, by simp, fun hfinished => absurd hfinished hrunning⟩,
          hreads, fun more => ?_⟩
        rw [hgot, ht]
        rfl
      · simp at h

/-- A fault is one that the text has. -/
theorem promise_of_step_error {n : Interpretation} (hn : n.Sound) {fault : Fault}
    (h : n.step = .error fault) (more : List Char) : n.promise more = .error fault := by
  unfold step at h
  split at h
  · simp at h
  · split at h
    · simp at h
    · simp at h
    · next input q hooks hf =>
      have hgot := promise_got hn hf
      split at h
      · simp at h
      · next fault' ht =>
        obtain rfl := Except.error.inj h
        rw [hgot, ht]
        rfl

/-! ## Whole runs -/

/-- When the writer has ended the text, it is not needed any more. -/
theorem Sound.needsWriter_of_closed {n : Interpretation} (hn : n.Sound)
    (hclosed : n.pipe.channel.closed = true) {stage : Stage} {q : Pipe} {hooks : List Hook}
    (h : n.pipe.fetchStep n.interpreter.betweenSequences n.stage = (.onward stage, q, hooks)) :
    stage.needsWriter = false := by
  obtain ⟨hreads, hfetches⟩ := Pipe.fetchStep_spec h
  have hend : ¬ q.Exhausted false := by
    intro hend
    have hopen := (hn.pipe.of_readsTo hreads).closed_of_exhausted hend
    rw [hreads.closed_eq, hclosed] at hopen
    simp at hopen
  generalize n.stage = s at hfetches
  cases hfetches with
  | begins => simp [Stage.needsWriter, Stage.waiting]
  | waits _ hexhausted => exact absurd hexhausted hend
  | goesOn _ hwaits =>
      rcases hwaits with ⟨hwaiting, -⟩ | ⟨-, hexhausted⟩
      · simp [Stage.needsWriter, Stage.waiting, hwaiting]
      · exact absurd hexhausted hend

/-- When the writer has ended the text, an interpretation comes to rest at its end only. -/
theorem finished_of_atRest {n m : Interpretation} (hn : n.Sound) (h : n.step = .ok m)
    (hrest : m.atRest = true) (hclosed : n.pipe.channel.closed = true) : m.finished = true := by
  unfold step at h
  split at h
  · next hfinished =>
    obtain rfl := Except.ok.inj h
    exact hfinished
  · split at h
    · next stage q hooks hf =>
      obtain rfl := Except.ok.inj h
      simpa [atRest, hn.needsWriter_of_closed hclosed hf] using hrest
    · obtain rfl := Except.ok.inj h
      rfl
    · split at h
      · obtain rfl := Except.ok.inj h
        simpa [atRest, Stage.needsWriter, Stage.waiting] using hrest
      · simp at h

/-- At the end the promise is kept. -/
theorem promise_of_finished {n : Interpretation} (hn : n.Sound) (h : n.finished = true) :
    n.promise [] = .ok (n.interpreter, n.replies) := by
  obtain ⟨hahead, hend⟩ := hn.finished h
  have hheld : n.pipe.held = [] := hn.pipe.held (hn.pipe.closed_of_exhausted hend)
  unfold promise rest
  rw [hahead, hheld]
  rfl

/-- **A run to the end** keeps the promise. -/
theorem run_of_closed {n : Interpretation} (hn : n.Sound) (hclosed : n.pipe.channel.closed = true) :
    n.run.map (fun m => (m.interpreter, m.replies)) = n.promise [] ∧
      ∀ m, n.run = .ok m → m.finished = true ∧ m.Sound := by
  fun_induction run n with
  | case1 n fault hstep =>
      rw [promise_of_step_error hn hstep]
      exact ⟨rfl, by simp⟩
  | case2 n m hstep hrest =>
      obtain ⟨hm, -, hpromise⟩ := promise_step hn hstep
      have hfinished := finished_of_atRest hn hstep hrest hclosed
      rw [← hpromise, promise_of_finished hm hfinished]
      refine ⟨rfl, ?_⟩
      intro m' hm'
      obtain rfl := Except.ok.inj hm'
      exact ⟨hfinished, hm⟩
  | case3 n m hstep hrest ih =>
      obtain ⟨hm, hreads, hpromise⟩ := promise_step hn hstep
      rw [← hpromise]
      exact ih hm (hreads.closed_eq.trans hclosed)

/-- A text that has been written to its end is interpreted as when it is fed. -/
theorem run_written {p : Pipe} (hp : p.Sound) (hclosed : p.channel.closed = true)
    (i : Interpreter) :
    (i.run p).map (fun out => (out.1, out.2.2)) = i.feedText p.contents := by
  have hstart : Sound { interpreter := i, pipe := p } := ⟨hp, by simp, by simp⟩
  have htext : promise { interpreter := i, pipe := p } [] = i.feedText p.contents := by
    unfold promise rest
    rw [hp.held hclosed, List.append_nil, List.append_nil, Interpreter.feedText_eq_foldlM]
    rfl
  obtain ⟨hrun, -⟩ := run_of_closed hstart hclosed
  rw [← htext, ← hrun]
  unfold Interpreter.run
  cases Interpretation.run { interpreter := i, pipe := p } with
  | error fault => rfl
  | ok n => rfl

/-! ## While the text is being written -/

/-- What both sides do before the writer ends the text. -/
inductive Event
  | append (chunk : List Char)
  | flush
  | step
  deriving DecidableEq

/-- The text that is written. -/
def Event.text : Event → List Char
  | .append chunk => chunk
  | .flush => []
  | .step => []

/-- What one side does. -/
def act (n : Interpretation) : Event → Except Fault Interpretation
  | .append chunk => .ok { n with pipe := (n.pipe.append chunk).1 }
  | .flush => .ok { n with pipe := n.pipe.flush.1 }
  | .step => n.step

/-- The writer ends the text. -/
def close (n : Interpretation) : Interpretation := { n with pipe := n.pipe.close.1 }

/-- What the writer does adds text, and disturbs nothing else. -/
theorem promise_of_moves {n : Interpretation} (hn : n.Sound) {q : Pipe}
    (hend : n.pipe.Exhausted true → q.Exhausted true) {added : List Char} (hq : q.Sound)
    (hmoves : n.pipe.Moves added q) :
    Sound { n with pipe := q } ∧
      ∀ more, promise { n with pipe := q } more = n.promise (added ++ more) := by
  constructor
  · refine ⟨hq, hn.ground, ?_⟩
    intro hfinished
    obtain ⟨hahead, hexhausted⟩ := hn.finished hfinished
    have hq := hend hexhausted
    refine ⟨?_, hq⟩
    unfold Pipe.ahead at hahead ⊢
    rw [(List.append_eq_nil_iff.1 hahead).1, hq.contents]
    rfl
  · intro more
    have htext : rest { n with pipe := q } ++ more = n.rest ++ (added ++ more) := by
      have := hmoves.text
      unfold rest Pipe.ahead
      simp only [List.append_assoc] at this ⊢
      rw [← List.append_assoc q.contents, this]
      simp only [List.append_assoc]
    unfold promise
    rw [htext]

/-- **Whatever is done before the end** changes the promise by the text that is written. -/
theorem promise_act {n m : Interpretation} (hn : n.Sound) (hopen : n.pipe.channel.closed = false)
    {e : Event} (h : n.act e = .ok m) :
    m.Sound ∧ m.pipe.channel.closed = false ∧
      ∀ more, m.promise more = n.promise (e.text ++ more) := by
  have hend : ∀ q : Pipe, n.pipe.Exhausted true → q.Exhausted true :=
    fun _ hend => absurd hend (hn.pipe.not_exhausted hopen)
  cases e with
  | append chunk =>
      obtain rfl := Except.ok.inj h
      obtain ⟨hsound, hmoves, hstill⟩ := hn.pipe.append hopen chunk
      obtain ⟨hm, hpromise⟩ := promise_of_moves hn (hend _) hsound hmoves
      exact ⟨hm, hstill, hpromise⟩
  | flush =>
      obtain rfl := Except.ok.inj h
      obtain ⟨hsound, hmoves, -, hsame⟩ := hn.pipe.flush
      obtain ⟨hm, hpromise⟩ := promise_of_moves hn (hend _) hsound hmoves
      exact ⟨hm, hsame.trans hopen, hpromise⟩
  | step =>
      obtain ⟨hm, hreads, hpromise⟩ := promise_step hn h
      exact ⟨hm, hreads.closed_eq.trans hopen, hpromise⟩

/-- A fault that comes up is the one that was to come. -/
theorem promise_of_act_error {n : Interpretation} (hn : n.Sound) {e : Event} {fault : Fault}
    (h : n.act e = .error fault) (more : List Char) : n.promise more = .error fault := by
  cases e with
  | append chunk => simp [act] at h
  | flush => simp [act] at h
  | step => exact promise_of_step_error hn h more

/-- What a script leads to keeps the promise of where it began. -/
theorem promise_foldlM_act {n : Interpretation} (hn : n.Sound)
    (hopen : n.pipe.channel.closed = false) (script : List Event) :
    (∀ fault, script.foldlM act n = .error fault →
        n.promise (script.flatMap Event.text) = .error fault) ∧
      ∀ m, script.foldlM act n = .ok m → m.Sound ∧ m.pipe.channel.closed = false ∧
        m.promise [] = n.promise (script.flatMap Event.text) := by
  induction script generalizing n with
  | nil =>
      refine ⟨by simp [pure, Except.pure], ?_⟩
      intro m hm
      obtain rfl := Except.ok.inj hm
      exact ⟨hn, hopen, rfl⟩
  | cons e script ih =>
      rw [List.foldlM_cons, List.flatMap_cons]
      cases ha : n.act e with
      | error fault =>
          have hpromise := promise_of_act_error hn ha (e.text ++ script.flatMap Event.text)
          refine ⟨?_, by simp [bind, Except.bind]⟩
          intro fault' hfault
          obtain rfl := Except.error.inj hfault
          exact hpromise
      | ok m =>
          obtain ⟨hm, hstill, hpromise⟩ := promise_act hn hopen ha
          rw [← hpromise]
          exact ih hm hstill

/-- **A text is interpreted as when it is fed character by character.**  Whatever the chunks are and
however the steps of the writer and of the interpreter are mixed, once the writer has ended the text
the interpreter comes to its end, with the same terminal, the same parser and the same replies, and
leaves the pipe empty.  A fault is one that feeding the text has. -/
theorem run_eq_feedText (i : Interpreter) (pacing : Pacing) (threshold : Nat)
    (script : List Event) :
    let result := do
      let n ← script.foldlM act { interpreter := i, pipe := .new pacing threshold }
      n.close.run
    result.map (fun m => (m.interpreter, m.replies)) = i.feedText (script.flatMap Event.text) ∧
      ∀ m, result = .ok m → m.finished = true ∧ m.pipe.isEmpty = true ∧
        m.pipe.reader.ended = true := by
  intro result
  have hstart : Sound { interpreter := i, pipe := .new pacing threshold } :=
    ⟨Pipe.sound_new pacing threshold, by simp, by simp⟩
  have hpromise : ∀ more, promise { interpreter := i, pipe := .new pacing threshold } more =
      i.feedText more := fun more => (i.feedText_eq_foldlM more).symm
  obtain ⟨hfault, hok⟩ := promise_foldlM_act hstart rfl script
  rw [hpromise] at hfault hok
  cases hfollow : script.foldlM act { interpreter := i, pipe := .new pacing threshold } with
  | error fault =>
      have hresult : result = .error fault := by
        change (script.foldlM act _ >>= _) = _
        rw [hfollow]
        rfl
      rw [hresult, hfault fault hfollow]
      exact ⟨rfl, by simp⟩
  | ok n =>
      have hresult : result = n.close.run := by
        change (script.foldlM act _ >>= _) = _
        rw [hfollow]
        rfl
      obtain ⟨hn, hopen, hn'⟩ := hok n hfollow
      obtain ⟨hsound, hmoves, -, hclosed⟩ := hn.pipe.close
      obtain ⟨hm, hkept⟩ := promise_of_moves hn
        (fun hend => absurd hend (hn.pipe.not_exhausted hopen)) hsound hmoves
      obtain ⟨hrun, hend⟩ := run_of_closed hm hclosed
      rw [hresult, ← hn']
      refine ⟨hrun.trans (hkept []), ?_⟩
      intro m hmrun
      obtain ⟨hfinished, hm⟩ := hend m hmrun
      obtain ⟨-, hexhausted⟩ := hm.finished hfinished
      refine ⟨hfinished, ?_, hexhausted.ended⟩
      rw [hm.pipe.isEmpty_eq, hexhausted.contents]
      rfl

end Interpretation

end VideoTerminal
