import VideoTerminal.Control.Interpreter
import VideoTerminal.Proofs.Pipe.Reading

/-!
# Interpreting what a pipe carries

The interpreter takes its input from a pipe.  Between sequences it takes printable characters in
long runs, which print at once; all else it takes one character at a time.  `Pipe.fetchStep` is a
step of fetching a piece of input, and `Interpretation.step` hands the pieces to the interpreter.

Every step that does not need the writer comes closer to the end of what the pipe holds
(`stepsLeft_fetchStep`), so that `Interpretation.run` ends.
-/

namespace VideoTerminal

/-- A piece of input. -/
inductive Input
  | char (c : Char)
  /-- Characters that only print. -/
  | run (text : List Char)
  deriving DecidableEq, Repr

/-- The characters of a piece of input. -/
def Input.text : Input → List Char
  | .char c => [c]
  | .run text => text

namespace Pipe

/-- Characters fetched in one run at most. -/
def maxRun : Nat := 4096

end Pipe

/-- How far a piece of input has been fetched. -/
inductive Stage
  /-- A character is to be read, for which the reader may wait. -/
  | char (waiting : Bool)
  | run (part : PartialRun Pipe.maxRun)
  deriving DecidableEq, Repr

namespace Stage

/-- Characters that have been taken from the pipe. -/
def taken : Stage → List Char
  | .char _ => []
  | .run part => part.text

/-- Whether the reader waits for the channel. -/
def waiting : Stage → Bool
  | .char waiting => waiting
  | .run part => part.waiting

/-- Whether the writer is needed: nothing has been taken, and the reader waits. -/
def needsWriter (s : Stage) : Bool := s.waiting && s.taken.isEmpty

end Stage

namespace Pipe

/-- A step in which a piece of input is fetched: a run of printable characters if `printable`, else
a character.  The first character of a run is pushed back and read again. -/
def fetchStep (p : Pipe) (printable : Bool) : Stage → Step Stage Input × Pipe × List Hook
  | .char waiting =>
    match p.nextStep waiting with
    | (.got c, q, hooks) =>
      if printable && !Text.isControl7 c then (.onward (.run {}), q.pushBack [c], hooks)
      else (.got (.char c), q, hooks)
    | (.ended, q, hooks) => (.ended, q, hooks)
    | (.onward waiting, q, hooks) => (.onward (.char waiting), q, hooks)
  | .run part =>
    match p.readStep part with
    | (.got text, q, hooks) => (.got (.run text), q, hooks)
    | (.ended, q, hooks) => (.ended, q, hooks)
    | (.onward part, q, hooks) => (.onward (.run part), q, hooks)

/-- What an interpreter has before it: what has been fetched of some input, and the contents. -/
def ahead (p : Pipe) (s : Stage) : List Char := s.taken ++ p.contents

/-- What is pushed back has been read, so that pushing it back is part of reading. -/
theorem ReadsTo.pushBack {p q : Pipe} (h : p.ReadsTo q) (cs : List Char) :
    p.ReadsTo (q.pushBack cs) := h

/-- **Everything a step of fetching can come to**, with what is ahead before it and after it. -/
inductive Fetches (p : Pipe) (printable : Bool) : Stage → Step Stage Input → Pipe → Prop
  /-- A character that is interpreted alone. -/
  | char {q : Pipe} {waiting : Bool} {c : Char} (hahead : p.ahead (.char waiting) = c :: q.contents)
      (hsingle : (printable && !Text.isControl7 c) = false) :
      Fetches p printable (.char waiting) (.got (.char c)) q
  /-- A character that begins a run. -/
  | begins {q : Pipe} {waiting : Bool} {c : Char}
      (hahead : p.ahead (.char waiting) = q.ahead (.run {}))
      (hhead : (p.ahead (.char waiting)).head? = some c) (hprintable : printable = true)
      (hplain : Text.isControl7 c = false) :
      Fetches p printable (.char waiting) (.onward (.run {})) q
  /-- A run that has been read. -/
  | run {q : Pipe} {part : PartialRun maxRun} {text : List Char}
      (hahead : takeRun maxRun (p.ahead (.run part)) = (text, q.contents))
      (hne : p.ahead (.run part) ≠ []) :
      Fetches p printable (.run part) (.got (.run text)) q
  /-- A run that is being read. -/
  | goesOn {q : Pipe} {part t : PartialRun maxRun}
      (hahead : p.ahead (.run part) = q.ahead (.run t))
      (hwaits : (t.waiting = false ∧ q.contents ≠ []) ∨ (t.waiting = true ∧ q.Exhausted false)) :
      Fetches p printable (.run part) (.onward (.run t)) q
  /-- There is no character yet. -/
  | waits {q : Pipe} {waiting : Bool} (hahead : p.ahead (.char waiting) = q.ahead (.char true))
      (hend : q.Exhausted false) :
      Fetches p printable (.char waiting) (.onward (.char true)) q
  /-- There will be nothing more. -/
  | ended {q : Pipe} {s : Stage} (hahead : p.ahead s = []) (hend : q.Exhausted true) :
      Fetches p printable s .ended q

/-- A step of fetching reads on, and what comes of it is one of the outcomes of `Fetches`. -/
theorem fetchStep_spec {p q : Pipe} {printable : Bool} {s : Stage} {result : Step Stage Input}
    {hooks : List Hook} (h : p.fetchStep printable s = (result, q, hooks)) :
    p.ReadsTo q ∧ p.Fetches printable s result q := by
  cases s with
  | char waiting =>
      simp only [fetchStep] at h
      rcases hn : p.nextStep waiting with ⟨answer, r, heard⟩
      rw [hn] at h
      obtain ⟨hreads, ⟨c, rfl, hc⟩ | ⟨rfl, hnil, hend⟩ | ⟨rfl, hnil, hend⟩⟩ := nextStep_cases hn
      · dsimp only at h
        by_cases hp : (printable && !Text.isControl7 c) = true
        · rw [if_pos hp] at h
          obtain ⟨rfl, rfl, -⟩ : _ = result ∧ r.pushBack [c] = q ∧ _ := by
            simpa only [Prod.mk.injEq] using h
          obtain ⟨hprintable, hplain⟩ : printable = true ∧ Text.isControl7 c = false := by
            simpa using hp
          exact ⟨hreads.pushBack [c], .begins hc (congrArg List.head? hc) hprintable hplain⟩
        · rw [if_neg hp] at h
          obtain ⟨rfl, rfl, -⟩ : _ = result ∧ r = q ∧ _ := by simpa only [Prod.mk.injEq] using h
          exact ⟨hreads, .char hc (by simpa using hp)⟩
      · obtain ⟨rfl, rfl, -⟩ : Step.ended = result ∧ r = q ∧ _ := by
          simpa only [Prod.mk.injEq] using h
        exact ⟨hreads, .ended hnil hend⟩
      · obtain ⟨rfl, rfl, -⟩ : _ = result ∧ r = q ∧ _ := by simpa only [Prod.mk.injEq] using h
        exact ⟨hreads, .waits (hnil.trans hend.contents.symm) hend⟩
  | run part =>
      simp only [fetchStep] at h
      rcases hr : p.readStep part with ⟨answer, r, heard⟩
      rw [hr] at h
      obtain ⟨hreads, ⟨text, rfl, htext, hne⟩ | ⟨rfl, -, hnil, hend⟩ |
        ⟨t, rfl, -, ht, hwaits⟩⟩ := readStep_cases hr
      · obtain ⟨rfl, rfl, -⟩ : _ = result ∧ r = q ∧ _ := by simpa only [Prod.mk.injEq] using h
        exact ⟨hreads, .run htext (hne.resolve_left (by decide))⟩
      · obtain ⟨rfl, rfl, -⟩ : Step.ended = result ∧ r = q ∧ _ := by
          simpa only [Prod.mk.injEq] using h
        exact ⟨hreads, .ended hnil hend⟩
      · obtain ⟨rfl, rfl, -⟩ : _ = result ∧ r = q ∧ _ := by simpa only [Prod.mk.injEq] using h
        exact ⟨hreads, .goesOn ht.symm hwaits⟩

/-! ## Coming closer to the end -/

/-- Whether a text begins with a character that is not a control. -/
def beginsPlain (cs : List Char) : Bool := cs.head?.any fun c => !Text.isControl7 c

/-- A character that is not a control is read, pushed back and read again in a run: these steps come
before those in which it is fetched. -/
def stepsBefore (p : Pipe) : Stage → Nat
  | .char _ => if beginsPlain p.contents then 8 else 0
  | .run _ => 4

/-- Steps without the writer until what is ahead has been fetched, at most. -/
def stepsLeft (p : Pipe) (s : Stage) : Nat :=
  16 * (p.ahead s).length + p.stepsBefore s + p.asksLeft s.waiting

/-- The reader is asked for more at most three times. -/
theorem asksLeft_le (p : Pipe) (waiting : Bool) : p.asksLeft waiting ≤ 3 := by
  unfold asksLeft
  split <;> split <;> omega

/-- The next input is there after at most eight steps. -/
theorem stepsBefore_le (p : Pipe) (s : Stage) : p.stepsBefore s ≤ 8 := by
  unfold stepsBefore
  repeat' split
  all_goals omega

/-- A step that does not need the writer comes closer to the end. -/
theorem stepsLeft_fetchStep {p q : Pipe} {printable : Bool} {s t : Stage} {hooks : List Hook}
    (h : p.fetchStep printable s = (.onward t, q, hooks)) (hw : t.needsWriter = false) :
    q.stepsLeft t < p.stepsLeft s := by
  obtain ⟨-, hfetches⟩ := fetchStep_spec h
  have hasks := q.asksLeft_le t.waiting
  unfold stepsLeft
  cases hfetches with
  | @begins _ waiting c hahead hhead _ hplain =>
      have hbefore : p.stepsBefore (.char waiting) = 8 := by
        have hhead : p.contents.head? = some c := hhead
        simp [stepsBefore, beginsPlain, hhead, hplain]
      have hafter : q.stepsBefore (.run {}) = 4 := rfl
      rw [← hahead]
      omega
  | @goesOn _ part t hahead _ =>
      have hstep : p.readStep part = (.onward t, q, hooks) := by
        simp only [fetchStep] at h
        rcases hr : p.readStep part with ⟨answer, r, heard⟩
        rw [hr] at h
        cases answer <;> simp_all
      have hlt := asksLeft_readStep hstep hw
      rw [← hahead]
      simp only [Stage.waiting, stepsBefore]
      omega
  | waits => simp [Stage.needsWriter, Stage.waiting, Stage.taken] at hw

/-- So does a step in which a piece of input has come. -/
theorem stepsLeft_fetchStep_got {p q : Pipe} {printable : Bool} {s : Stage} {input : Input}
    {hooks : List Hook} (h : p.fetchStep printable s = (.got input, q, hooks)) :
    q.stepsLeft (.char false) < p.stepsLeft s := by
  obtain ⟨-, hfetches⟩ := fetchStep_spec h
  have hasks := q.asksLeft_le false
  have hbefore := q.stepsBefore_le (.char false)
  have hcontents : q.ahead (.char false) = q.contents := rfl
  unfold stepsLeft
  rw [hcontents]
  change 16 * q.contents.length + q.stepsBefore (.char false) + q.asksLeft false < _
  cases hfetches with
  | char hahead _ =>
      rw [hahead, List.length_cons]
      omega
  | @run _ part text hahead hne =>
      have htext : text ++ q.contents = p.ahead (.run part) := by
        have := takeRun_append maxRun (p.ahead (.run part))
        rwa [hahead] at this
      have hfour : p.stepsBefore (.run part) = 4 := rfl
      rw [← htext, List.length_append]
      by_cases hnil : text = []
      · -- nothing has been read, so that a control is next
        have hstops : Stops (takeRun maxRun (p.ahead (.run part))).2 := by
          apply stops_takeRun
          rw [hahead, hnil]
          exact Nat.zero_lt_succ _
        rw [hahead] at hstops
        have hzero : q.stepsBefore (.char false) = 0 := by
          unfold stepsBefore beginsPlain
          cases hc : q.contents with
          | nil => rfl
          | cons c rest =>
            have : Text.isControl7 c = true := hstops c (by simp [hc])
            simp [this]
        omega
      · have := List.length_pos_iff.2 hnil
        omega

end Pipe

namespace Interpreter

/-- Whether the next character prints, unless it is a control. -/
def betweenSequences (i : Interpreter) : Bool := i.parser.state == .ground

/-- Interprets a piece of input. -/
def take (i : Interpreter) : Input → Except Fault (Interpreter × List Reply)
  | .char c => i.feed c
  | .run text => return ({ i with terminal := ← i.terminal.putText text }, [])

end Interpreter

/-- An interpreter at work on a pipe. -/
structure Interpretation where
  interpreter : Interpreter
  pipe : Pipe
  stage : Stage := .char false
  /-- The replies so far. -/
  replies : List Reply := []
  /-- The end of the text has been seen. -/
  finished : Bool := false
  deriving DecidableEq

namespace Interpretation

/-- A step: a piece of input is fetched further, and interpreted when it has come. -/
def step (n : Interpretation) : Except Fault Interpretation :=
  if n.finished then .ok n
  else
    match n.pipe.fetchStep n.interpreter.betweenSequences n.stage with
    | (.onward stage, q, _) => .ok { n with pipe := q, stage := stage }
    | (.ended, q, _) => .ok { n with pipe := q, finished := true }
    | (.got input, q, _) =>
      match n.interpreter.take input with
      | .ok (i, more) =>
        .ok { n with
          interpreter := i, pipe := q, stage := .char false, replies := n.replies ++ more }
      | .error fault => .error fault

/-- Whether nothing is left to be done without the writer. -/
def atRest (n : Interpretation) : Bool := n.finished || n.stage.needsWriter

/-- A step that leaves something to be done comes closer to the end. -/
theorem stepsLeft_step {n m : Interpretation} (h : n.step = .ok m) (hm : m.atRest = false) :
    m.pipe.stepsLeft m.stage < n.pipe.stepsLeft n.stage := by
  obtain ⟨hfinished, hneeds⟩ : m.finished = false ∧ m.stage.needsWriter = false := by
    simpa [atRest] using hm
  unfold step at h
  split at h
  · next hn =>
    obtain rfl : n = m := Except.ok.inj h
    simp [hn] at hfinished
  · split at h
    · next stage q hooks hf =>
      obtain rfl := Except.ok.inj h
      exact Pipe.stepsLeft_fetchStep hf hneeds
    · obtain rfl := Except.ok.inj h
      simp at hfinished
    · next input q hooks hf =>
      split at h
      · obtain rfl := Except.ok.inj h
        exact Pipe.stepsLeft_fetchStep_got hf
      · simp at h

/-- All steps that do not need the writer, who does nothing. -/
def run (n : Interpretation) : Except Fault Interpretation :=
  match _h : n.step with
  | .error fault => .error fault
  | .ok m => if _hm : m.atRest then .ok m else m.run
termination_by n.pipe.stepsLeft n.stage
decreasing_by exact stepsLeft_step _h (by simpa using _hm)

end Interpretation

namespace Interpreter

/-- Interprets what a pipe holds, up to its end or up to where more may come.  Returns what is left
of the pipe and the replies. -/
def run (i : Interpreter) (p : Pipe) : Except Fault (Interpreter × Pipe × List Reply) := do
  let n ← Interpretation.run { interpreter := i, pipe := p }
  return (n.interpreter, n.pipe, n.replies)

end Interpreter

end VideoTerminal
