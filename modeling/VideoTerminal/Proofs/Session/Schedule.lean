import Mathlib.Algebra.GroupWithZero.Nat
import VideoTerminal.Proofs.Session.Live
import VideoTerminal.Proofs.Terminal.Run

/-!
# A live session comes to what its bytes come to at once

However the source hands the bytes out, and however the steps of the two sides are mixed, a session
comes to the terminal, the replies and the modes that interpreting all bytes at once gives, and
tells its owner of the end once, after everything else (`follow_spawn_eq_feedText`).

As long as both sides go on taking steps, the end is reached.  Each side has its own count of steps
left: that of the reading side falls with each of its steps and does not heed the other side's; once
nothing is left to be read, that of the interpreting side falls too.  `Reaches.of_count` says what
such a count is good for.  With these counts `complete` takes enough steps (`complete_spawn`).
-/

namespace VideoTerminal

/-- Both sides go on taking steps. -/
def Fair (schedule : Nat → Side) : Prop := ∀ side n, ∃ m, n ≤ m ∧ schedule m = side

/-- The steps of a schedule before time `n`. -/
def firstSteps (schedule : Nat → Side) (n : Nat) : List Side := (List.range n).map schedule

/-- A fair schedule is fair from any moment on. -/
theorem Fair.drop {schedule : Nat → Side} (h : Fair schedule) (k : Nat) :
    Fair fun n => schedule (k + n) := by
  intro side n
  obtain ⟨m, hm, hside⟩ := h side (k + n)
  obtain ⟨d, rfl⟩ := Nat.exists_eq_add_of_le hm
  refine ⟨n + d, Nat.le_add_right n d, ?_⟩
  rw [← hside, Nat.add_assoc]

/-- The first steps begin with the first one. -/
theorem firstSteps_succ (schedule : Nat → Side) (n : Nat) :
    firstSteps schedule (n + 1) = schedule 0 :: firstSteps (fun k => schedule (1 + k)) n := by
  unfold firstSteps
  rw [List.range_succ_eq_map, List.map_cons, List.map_map]
  congr 1
  apply List.map_congr_left
  intro k _
  exact congrArg schedule (Nat.add_comm k 1)

/-- The first steps are followed by those from then on. -/
theorem firstSteps_add (schedule : Nat → Side) (n k : Nat) :
    firstSteps schedule (n + k) =
      firstSteps schedule n ++ firstSteps (fun m => schedule (n + m)) k := by
  unfold firstSteps
  rw [List.range_add, List.map_append, List.map_map]
  rfl

namespace Live

variable {l : Live}

/-- Steps are taken one after the other. -/
theorem follow_cons (l : Live) (side : Side) (sides : List Side) :
    l.follow (side :: sides) = l.step side >>= fun next => next.follow sides :=
  List.foldlM_cons

theorem follow_append (l : Live) (sides more : List Side) :
    l.follow (sides ++ more) = l.follow sides >>= fun next => next.follow more :=
  List.foldlM_append

/-- Following a schedule far enough leads to a goal, unless there is a fault. -/
def Reaches (l : Live) (schedule : Nat → Side) (Goal : Live → Prop) : Prop :=
  ∃ n, ∀ l', l.follow (firstSteps schedule n) = .ok l' → Goal l'

namespace Reaches

variable {schedule : Nat → Side} {Goal Next : Live → Prop}

/-- What is there is reached. -/
theorem of_goal (h : Goal l) : l.Reaches schedule Goal := by
  refine ⟨0, fun l' hl' => ?_⟩
  obtain rfl := Except.ok.inj hl'
  exact h

/-- What is reached from the next state is reached. -/
theorem of_step (h : ∀ next, l.step (schedule 0) = .ok next →
    next.Reaches (fun n => schedule (1 + n)) Goal) : l.Reaches schedule Goal := by
  cases hnext : l.step (schedule 0) with
  | error fault =>
      refine ⟨1, fun l' hl' => ?_⟩
      rw [firstSteps_succ, follow_cons, hnext] at hl'
      simp [bind, Except.bind] at hl'
  | ok next =>
      obtain ⟨n, hn⟩ := h next hnext
      refine ⟨n + 1, fun l' hl' => hn l' ?_⟩
      rwa [firstSteps_succ, follow_cons, hnext] at hl'

/-- What is reached from what is reached is reached. -/
theorem trans (h : l.Reaches schedule Goal)
    (hnext : ∀ k l', Goal l' → l'.Reaches (fun n => schedule (k + n)) Next) :
    l.Reaches schedule Next := by
  obtain ⟨k, hk⟩ := h
  cases hmid : l.follow (firstSteps schedule k) with
  | error fault =>
      refine ⟨k, fun l' hl' => ?_⟩
      rw [hmid] at hl'
      simp at hl'
  | ok mid =>
      obtain ⟨n, hn⟩ := hnext k mid (hk mid hmid)
      refine ⟨k + n, fun l' hl' => hn l' ?_⟩
      rwa [firstSteps_add, follow_append, hmid] at hl'

/-- **What a count of steps is good for**: if no step makes it rise and the steps of one side make
it fall, then a fair schedule reaches the goal. -/
theorem of_count {Kept : Live → Prop} {count : Live → Nat} {side : Side}
    (hstep : ∀ {l l' s}, Kept l → ¬ Goal l → step l s = .ok l' →
      Kept l' ∧ count l' ≤ count l ∧ (s = side → count l' < count l))
    (hfair : Fair schedule) (hl : Kept l) : l.Reaches schedule fun l => Kept l ∧ Goal l := by
  generalize hbound : count l = bound
  induction bound using Nat.strongRecOn generalizing l schedule with
  | ind bound ih =>
    obtain ⟨turn, -, hturn⟩ := hfair side 0
    -- while the next turn of that side is awaited, the count does not rise
    have hle : count l ≤ bound := Nat.le_of_eq hbound
    clear hbound
    induction turn generalizing l schedule with
    | zero =>
        by_cases hgoal : Goal l
        · exact of_goal ⟨hl, hgoal⟩
        · apply of_step
          intro next hnext
          obtain ⟨hkept, -, hfalls⟩ := hstep hl hgoal hnext
          exact ih (count next) (Nat.lt_of_lt_of_le (hfalls hturn) hle) (hfair.drop 1) hkept rfl
    | succ turn ihturn =>
        by_cases hgoal : Goal l
        · exact of_goal ⟨hl, hgoal⟩
        · apply of_step
          intro next hnext
          obtain ⟨hkept, hmost, -⟩ := hstep hl hgoal hnext
          have hlater : schedule (1 + turn) = side := by
            rw [Nat.add_comm]
            exact hturn
          exact ihturn (hfair.drop 1) hkept hlater (Nat.le_trans hmost hle)

end Reaches

/-! ## The steps that are left -/

/-- Steps of the reading side until it is done, at most. -/
def readingLeft (l : Live) : Nat :=
  match l.reading with
  | .checking => (l.source.map stepsOf).sum + 6
  | .reading => (l.source.map stepsOf).sum + 5
  | .flushing => (l.source.map stepsOf).sum + 7
  | .finishing => 4
  | .delivering => 3
  | .closing => 2
  | .dropping => 1
  | .done => 0

/-- After each reading less is left to be read. -/
theorem readingLeft_readSource (hreading : l.reading = .reading) :
    l.readSource.readingLeft < l.readingLeft := by
  have hleft : l.readingLeft = (l.source.map stepsOf).sum + 5 := by
    unfold readingLeft
    rw [hreading]
  have hafter : ∀ (m : Live) (phase : ReadingPhase), phase = .flushing ∨ phase = .checking →
      readingLeft { m with reading := phase } ≤ (m.source.map stepsOf).sum + 7 := by
    rintro m phase (rfl | rfl) <;> simp [readingLeft]
  rw [hleft]
  unfold readSource
  split
  · exact Nat.lt_of_lt_of_le (by decide : 4 < 5) (Nat.le_add_left 5 _)
  · exact Nat.lt_of_lt_of_le (by decide : 4 < 5) (Nat.le_add_left 5 _)
  · next rest hs =>
    rw [hs]
    simp only [readingLeft, List.map_cons, List.sum_cons, stepsOf]
    omega
  · next bs rest hs =>
    rw [hs, List.map_cons, List.sum_cons]
    split
    · simp only [readingLeft]
      omega
    · split
      · next hlong =>
        have hstay : ¬ (bs.take readSize).length < readSize := by
          rw [List.length_take, Nat.min_eq_left (Nat.le_of_lt hlong)]
          exact Nat.lt_irrefl _
        have hpiece : stepsOf (.bytes bs) = stepsOf (.bytes (bs.drop readSize)) + 3 := by
          have hpos : 0 < readSize := by decide
          simp only [stepsOf, List.length_drop]
          rw [Nat.div_eq_sub_div hpos (Nat.le_of_lt hlong), Nat.mul_add]
        unfold appendBytes
        rw [if_neg hstay]
        simp only [readingLeft, withPipe, List.map_cons, List.sum_cons]
        omega
      · have hpiece : 3 ≤ stepsOf (.bytes bs) := Nat.le_mul_of_pos_right 3 (Nat.succ_pos _)
        refine Nat.lt_of_le_of_lt (hafter _ _ ?_) ?_
        · split <;> simp
        · simp only [withPipe]
          omega

/-- Each step of the reading side leaves it fewer. -/
theorem readingLeft_stepReader (hundone : l.reading ≠ .done) :
    l.stepReader.readingLeft < l.readingLeft := by
  unfold stepReader
  cases hreading : l.reading with
  | reading => exact readingLeft_readSource hreading
  | checking =>
      simp only [readingLeft, hreading]
      cases l.session.running <;> simp
  | done => exact absurd hreading hundone
  | flushing =>
      simp only [readingLeft, hreading, withPipe]
      omega
  | finishing => simp [readingLeft, hreading]
  | delivering => simp [readingLeft, hreading]
  | closing => simp [readingLeft, hreading]
  | dropping => simp [readingLeft, hreading]

/-- The steps of the interpreting side do not disturb the reading side. -/
theorem reading_stepInterpreter {l' : Live} (h : l.stepInterpreter = .ok l') :
    l'.reading = l.reading ∧ l'.source = l.source := by
  unfold stepInterpreter at h
  cases hphase : l.interpreting with
  | fetching stage =>
      rw [hphase] at h
      obtain ⟨_, q, hooks, -, ⟨_, -, rfl⟩ | ⟨-, rfl⟩ | ⟨_, _, _, -, -, rfl⟩⟩ :=
        fetch_cases hphase h
      all_goals exact ⟨rfl, rfl⟩
  | _ =>
      rw [hphase] at h
      obtain rfl := Except.ok.inj h
      exact ⟨rfl, rfl⟩

/-- Steps of the interpreting side until it is done, at most, once nothing is left to be read. -/
def interpretingLeft (l : Live) : Nat :=
  match l.interpreting with
  | .fetching stage => l.pipe.stepsLeft stage + 4
  | .notifying => 3
  | .stopping => 2
  | .exiting => 1
  | .done => 0

/-- When the text has been ended, each step of the interpreting side leaves it fewer. -/
theorem interpretingLeft_stepInterpreter {l' : Live} (hl : l.Sound)
    (hclosed : l.reading.closed = true) (hundone : l.interpreting ≠ .done)
    (h : l.stepInterpreter = .ok l') : l'.interpretingLeft < l.interpretingLeft := by
  unfold stepInterpreter at h
  cases hphase : l.interpreting with
  | fetching stage =>
      rw [hphase] at h
      have hleft : l.interpretingLeft = l.work.pipe.stepsLeft l.work.stage + 4 := by
        rw [work_stage hphase]
        unfold interpretingLeft
        rw [hphase]
        rfl
      rw [hleft]
      obtain ⟨result, q, hooks, hstep, ⟨next, rfl, rfl⟩ | ⟨rfl, rfl⟩ |
        ⟨input, i, replies, rfl, -, rfl⟩⟩ := fetch_cases hphase h
      · have hneeds := hl.work.needsWriter_of_closed (hl.closed.trans hclosed) hstep
        exact Nat.add_lt_add_right (Pipe.stepsLeft_fetchStep hstep hneeds) 4
      · exact Nat.lt_of_lt_of_le (by decide : 3 < 4) (Nat.le_add_left 4 _)
      · exact Nat.add_lt_add_right (Pipe.stepsLeft_fetchStep_got hstep) 4
  | notifying =>
      rw [hphase] at h
      obtain rfl := Except.ok.inj h
      simp [interpretingLeft, hphase]
  | stopping =>
      rw [hphase] at h
      obtain rfl := Except.ok.inj h
      simp [interpretingLeft, hphase]
  | exiting =>
      rw [hphase] at h
      obtain rfl := Except.ok.inj h
      simp [interpretingLeft, hphase]
  | done => exact absurd hphase hundone

/-- **Everything is read**, when both sides go on. -/
theorem reaches_read {schedule : Nat → Side} (hfair : Fair schedule) (hl : l.Sound) :
    l.Reaches schedule fun l => l.Sound ∧ l.reading = .done := by
  refine @Reaches.of_count l schedule (fun l => l.reading = .done) Sound readingLeft .reader ?_
    hfair hl
  intro l l' side hl hundone h
  obtain ⟨hl', -⟩ := promise_step hl h
  cases side with
  | reader =>
      obtain rfl := Except.ok.inj h
      have hless := readingLeft_stepReader hundone
      exact ⟨hl', Nat.le_of_lt hless, fun _ => hless⟩
  | interpreter =>
      obtain ⟨hreading, hsource⟩ := reading_stepInterpreter h
      have hsame : l'.readingLeft = l.readingLeft := by
        unfold readingLeft
        rw [hreading, hsource]
      exact ⟨hl', Nat.le_of_eq hsame, by simp⟩

/-- **Then everything is interpreted**, and the owner is told of the end. -/
theorem reaches_done {schedule : Nat → Side} (hfair : Fair schedule) (hl : l.Sound)
    (hread : l.reading = .done) :
    l.Reaches schedule fun l => (l.Sound ∧ l.reading = .done) ∧ l.interpreting = .done := by
  refine @Reaches.of_count l schedule (fun l => l.interpreting = .done)
    (fun l => l.Sound ∧ l.reading = .done) interpretingLeft .interpreter ?_ hfair ⟨hl, hread⟩
  rintro l l' side ⟨hl, hread⟩ hundone h
  obtain ⟨hl', -⟩ := promise_step hl h
  cases side with
  | reader =>
      have hsame : l' = l := by
        obtain rfl := Except.ok.inj h
        unfold stepReader
        rw [hread]
      subst hsame
      exact ⟨⟨hl, hread⟩, Nat.le_refl _, by simp⟩
  | interpreter =>
      obtain ⟨hreading, -⟩ := reading_stepInterpreter h
      have hless := interpretingLeft_stepInterpreter hl (by rw [hread]; rfl) hundone h
      exact ⟨⟨hl', hreading.trans hread⟩, Nat.le_of_lt hless, fun _ => hless⟩

/-- **A fair schedule comes to its end**, with both sides done. -/
theorem reaches_end {schedule : Nat → Side} (hfair : Fair schedule) (hl : l.Sound) :
    l.Reaches schedule fun l => l.reading = .done ∧ l.interpreting = .done := by
  have hdone : l.Reaches schedule fun l => (l.Sound ∧ l.reading = .done) ∧ l.interpreting = .done :=
    (reaches_read hfair hl).trans fun k _ h => reaches_done (hfair.drop k) h.1 h.2
  obtain ⟨n, hn⟩ := hdone
  exact ⟨n, fun l' h => ⟨(hn l' h).1.2, (hn l' h).2⟩⟩

/-! ## One side after the other -/

/-- A reading side that is done does nothing. -/
theorem stepReader_of_done (h : l.reading = .done) : l.stepReader = l := by
  unfold stepReader
  rw [h]

/-- Where nothing is left to be read, the reading side is done. -/
theorem reading_of_readingLeft_eq_zero (h : l.readingLeft = 0) : l.reading = .done := by
  unfold readingLeft at h
  cases hreading : l.reading <;> simp_all

/-- Where nothing is left to be interpreted, the interpreting side is done. -/
theorem interpreting_of_interpretingLeft_eq_zero (h : l.interpretingLeft = 0) :
    l.interpreting = .done := by
  unfold interpretingLeft at h
  cases hphase : l.interpreting <;> simp_all

/-- The steps of the reading side do not disturb the interpreting side. -/
theorem interpreting_stepReader (l : Live) : l.stepReader.interpreting = l.interpreting := by
  unfold stepReader
  cases l.reading with
  | reading =>
      change l.readSource.interpreting = l.interpreting
      unfold readSource
      repeat' split
      all_goals rfl
  | _ => rfl

/-- As many steps of the reading side as are left. -/
theorem reading_of_follow_replicate {n : Nat} {l' : Live} (hleft : l.readingLeft ≤ n)
    (h : l.follow (List.replicate n .reader) = .ok l') :
    l'.reading = .done ∧ l'.interpreting = l.interpreting := by
  induction n generalizing l with
  | zero =>
      obtain rfl := Except.ok.inj h
      exact ⟨reading_of_readingLeft_eq_zero (Nat.le_zero.1 hleft), rfl⟩
  | succ n ih =>
      rw [List.replicate_succ, follow_cons] at h
      have hrest : l.stepReader.follow (List.replicate n .reader) = .ok l' := h
      have hless : l.stepReader.readingLeft ≤ n := by
        by_cases hdone : l.reading = .done
        · simp [stepReader_of_done hdone, readingLeft, hdone]
        · have hfewer := readingLeft_stepReader hdone
          omega
      obtain ⟨hread, hphase⟩ := ih hless hrest
      exact ⟨hread, hphase.trans l.interpreting_stepReader⟩

/-- As many steps of the interpreting side as are left when the text has been ended. -/
theorem interpreting_of_follow_replicate {n : Nat} {l' : Live} (hl : l.Sound)
    (hread : l.reading = .done) (hleft : l.interpretingLeft ≤ n)
    (h : l.follow (List.replicate n .interpreter) = .ok l') :
    l'.reading = .done ∧ l'.interpreting = .done := by
  induction n generalizing l with
  | zero =>
      obtain rfl := Except.ok.inj h
      exact ⟨hread, interpreting_of_interpretingLeft_eq_zero (Nat.le_zero.1 hleft)⟩
  | succ n ih =>
      rw [List.replicate_succ, follow_cons] at h
      cases hstep : l.step .interpreter with
      | error fault =>
          rw [hstep] at h
          simp [bind, Except.bind] at h
      | ok next =>
          rw [hstep] at h
          obtain ⟨hnext, -⟩ := promise_step hl hstep
          obtain ⟨hreading, -⟩ := reading_stepInterpreter hstep
          have hless : next.interpretingLeft ≤ n := by
            by_cases hdone : l.interpreting = .done
            · have hstill : l.stepInterpreter = .ok l := by
                unfold stepInterpreter
                rw [hdone]
              obtain rfl := Except.ok.inj (hstill.symm.trans hstep)
              simp [interpretingLeft, hdone]
            · have hfewer := interpretingLeft_stepInterpreter hl (by rw [hread]; rfl) hdone hstep
              omega
          exact ih hnext (hreading.trans hread) hless h

/-- At the start all steps of the reading side are left. -/
theorem readerSteps_spawn (id : Nat) (source : List Reading) (responder : Responder)
    (options : Session.Options) :
    (spawn id source responder options).readerSteps =
      (spawn id source responder options).readingLeft := by
  have hsum : ∀ n, source.foldl (fun n reading => n + stepsOf reading) n =
      (source.map stepsOf).sum + n := by
    induction source with
    | nil => simp
    | cons reading rest ih =>
        intro n
        rw [List.foldl_cons, ih, List.map_cons, List.sum_cons]
        omega
  exact hsum 6

/-- **Reading everything and then interpreting it** leads to the end. -/
theorem complete_spawn {id : Nat} {source : List Reading} {responder : Responder}
    {options : Session.Options} (h : (spawn id source responder options).complete = .ok l) :
    l.reading = .done ∧ l.interpreting = .done := by
  unfold complete at h
  cases hread : (spawn id source responder options).follow
      (List.replicate (spawn id source responder options).readerSteps .reader) with
  | error fault =>
      rw [hread] at h
      simp [bind, Except.bind] at h
  | ok mid =>
      rw [hread] at h
      obtain ⟨hsound, -⟩ :=
        (promise_follow (sound_spawn id source responder options) _).2 mid hread
      rw [readerSteps_spawn] at hread
      obtain ⟨hmid, hstart⟩ := reading_of_follow_replicate (Nat.le_refl _) hread
      refine interpreting_of_follow_replicate hsound hmid ?_ h
      unfold interpretingLeft
      rw [hstart]
      exact Nat.le_refl _

/-! ## The end -/

/-- What a session has come to, once its owner has been told of the end: `i` and `replies` are what
feeding the whole text gives, and `start` is the responder it began with. -/
structure Concluded (l : Live) (start : Responder) (i : Interpreter) (replies : List Reply) :
    Prop where
  parser : l.parser = i.parser
  /-- The terminals differ at most in what is to be drawn. -/
  terminal : l.session.terminal.due = i.terminal.due
  /-- Unless drawing is suspended, nothing is to be drawn any more. -/
  drawn : i.terminal.renderSuspended = false →
    l.session.terminal = i.terminal.takeRenderRequest.2
  /-- The replies have been written in order; where every write fails, none has. -/
  sent : l.responder.sent =
    start.sent ++ if start.broken then [] else replies.flatMap Reply.bytes
  running : l.session.running = false
  modes : l.session.modes = i.terminal.modes
  /-- The owner has been told of the end once, after everything else. -/
  exited : ∃ earlier, l.session.notifier.events = earlier ++ [.exited] ∧ .exited ∉ earlier

/-- The owner is told of the end exactly when the interpreting side is done. -/
theorem Sound.exited_mem_iff (hl : l.Sound) :
    Event.exited ∈ l.session.notifier.events ↔ l.interpreting = .done := by
  constructor
  · intro hmem
    by_cases hdone : l.interpreting = .done
    · exact hdone
    · exact absurd hmem (hl.quiet hdone)
  · intro hdone
    obtain ⟨earlier, hevents, -⟩ := hl.exited hdone
    rw [hevents]
    simp

/-- At the end the session has come to what was promised. -/
theorem Sound.concluded (hl : l.Sound) (hdone : l.interpreting = .done) {start : Responder}
    {fed : Except Fault (Interpreter × List Reply)}
    (hpromise : l.promise = fed.map fun out => (out.1.due, start.write out.2)) :
    ∃ i replies, fed = .ok (i, replies) ∧ l.Concluded start i replies := by
  have hkept := promise_of_finished hl (by rw [hdone]; rfl)
  rw [hkept] at hpromise
  rcases fed with fault | ⟨i, replies⟩
  · simp [Except.map] at hpromise
  · obtain ⟨hdue, hresponder⟩ :
        l.interpreter.due = i.due ∧ l.responder = start.write replies := by
      simpa [Except.map] using hpromise
    obtain ⟨hparser, hterminal⟩ := Interpreter.due_eq_iff.1 hdue
    obtain ⟨hmodes, hdrawn⟩ := hl.told (by rw [hdone]; rfl)
    have hsame : l.session.terminal.modes = i.terminal.modes := by
      rw [← Terminal.modes_due, ← Terminal.modes_due i.terminal]
      exact congrArg Terminal.modes hterminal
    refine ⟨i, replies, rfl, ?_⟩
    constructor
    · exact hparser
    · exact hterminal
    · intro hdraws
      rw [← hdrawn]
      exact (Terminal.takeRenderRequest_congr hterminal.symm hdraws).symm
    · rw [hresponder, Responder.write]
      cases start.broken <;> simp
    · exact hl.running.trans (by rw [hdone]; rfl)
    · exact hmodes.trans hsame
    · exact hl.exited hdone

/-- A fault on the way is one that feeding the whole text has. -/
theorem fault_of_follow (hl : l.Sound) {start : Responder}
    {fed : Except Fault (Interpreter × List Reply)}
    (hpromise : l.promise = fed.map fun out => (out.1.due, start.write out.2)) {sides : List Side}
    {fault : Fault} (h : l.follow sides = .error fault) : fed = .error fault := by
  have hfault := (promise_follow hl sides).1 fault h
  rw [hpromise] at hfault
  cases fed with
  | error fault' => exact congrArg Except.error (Except.error.inj hfault)
  | ok out => simp [Except.map] at hfault

/-- **A session comes to what its bytes come to at once.**  However the source hands the bytes out,
and however the steps of both sides are mixed:

* a fault is one that feeding the whole text has;
* once the owner has been told of the end, and not before, the session has come to what feeding the
  whole text gives;
* when both sides go on taking steps, both come to their end, unless there is a fault.

The responder has no part in this: where every write fails, only the replies are lost. -/
theorem follow_spawn_eq_feedText (id : Nat) (source : List Reading) (responder : Responder)
    (options : Session.Options) :
    let started := spawn id source responder options
    let fresh := Terminal.new options.cols options.rows options.scrollbackLimit
    let fed := (Interpreter.mk {} fresh).feedText (textOf source)
    (∀ sides fault, started.follow sides = .error fault → fed = .error fault) ∧
      (∀ sides l, started.follow sides = .ok l →
        (Event.exited ∈ l.session.notifier.events ↔ l.interpreting = .done) ∧
          (l.interpreting = .done →
            ∃ i replies, fed = .ok (i, replies) ∧ l.Concluded responder i replies)) ∧
      ∀ schedule, Fair schedule →
        ∃ n, match started.follow (firstSteps schedule n) with
          | .ok l => l.reading = .done ∧ l.interpreting = .done
          | .error fault => fed = .error fault := by
  intro started fresh fed
  have hstarted : started.Sound := sound_spawn id source responder options
  have hpromise : started.promise = fed.map fun out => (out.1.due, responder.write out.2) :=
    promise_spawn id source responder options
  refine ⟨?_, ?_, ?_⟩
  · intro sides fault h
    exact fault_of_follow hstarted hpromise h
  · intro sides l h
    obtain ⟨hl, hsame⟩ := (promise_follow hstarted sides).2 l h
    exact ⟨hl.exited_mem_iff, fun hdone => hl.concluded hdone (hsame.trans hpromise)⟩
  · intro schedule hfair
    obtain ⟨n, hn⟩ := reaches_end hfair hstarted
    refine ⟨n, ?_⟩
    split
    · next l h => exact hn l h
    · next fault h => exact fault_of_follow hstarted hpromise h

/-- On an addressable screen no interleaving has a fault. -/
theorem exists_follow_spawn {options : Session.Options}
    (hsize : Addressable options.cols options.rows) (id : Nat) (source : List Reading)
    (responder : Responder) (sides : List Side) :
    ∃ l, (spawn id source responder options).follow sides = .ok l := by
  have hfresh := Terminal.WellFormed.new hsize options.scrollbackLimit
  obtain ⟨i, replies, hfed, -⟩ :=
    @Terminal.WellFormed.exists_feedText _ _ _ ⟨{}, _⟩ hfresh (textOf source)
  cases h : (spawn id source responder options).follow sides with
  | ok l => exact ⟨l, rfl⟩
  | error fault =>
      have hfault := fault_of_follow (sound_spawn id source responder options)
        (promise_spawn id source responder options) h
      exact absurd (hfed.symm.trans hfault) (by simp)

end Live

end VideoTerminal
