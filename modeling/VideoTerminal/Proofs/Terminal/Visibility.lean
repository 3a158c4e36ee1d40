import VideoTerminal.Proofs.Terminal.Recorded

/-!
# Whether the cursor is seen

That the cursor is to be seen is said twice: by a mode of the terminal, and by each page's cursor.
The mode is switched for the page that is shown; when the other page comes to be shown, nothing
brings its cursor in line with the mode.

What the two say depends on nothing but the switching of this mode, the changes of page and the
resets (`Terminal.sight_of_run`), and so the exact condition for their agreement can be read off
these (`Terminal.visible_eq_cursorVisible_iff`).  They agree all the time if and only if the mode is
on whenever the page changes (`Sight.agreesThroughout_eq`).
-/

namespace VideoTerminal

/-- What a terminal says about whether its cursor is seen. -/
structure Sight where
  /-- The mode. -/
  flag : Bool
  /-- Which page is shown. -/
  alternate : Bool
  /-- The cursor of the page that is shown. -/
  shown : Bool
  /-- The cursor of the other page. -/
  hidden : Bool
  deriving DecidableEq, Repr

/-- Something that has to do with whether the cursor is seen. -/
inductive SightEvent
  /-- The mode is switched. -/
  | switch (on : Bool)
  /-- One of the pages is asked for. -/
  | page (alternate : Bool)
  | reset
  deriving DecidableEq, Repr

namespace Sight

/-- What a fresh terminal says. -/
def fresh : Sight := ⟨true, false, true, true⟩

/-- The cursor of the alternate page is seen each time this page comes to be shown. -/
def apply (s : Sight) : SightEvent → Sight
  | .switch on => { s with flag := on, shown := on }
  | .page on =>
    if on = s.alternate then s
    else { s with alternate := on, shown := if on then true else s.hidden, hidden := s.shown }
  | .reset => fresh

/-- What is said after some events. -/
def after (s : Sight) (events : List SightEvent) : Sight := events.foldl apply s

/-- Whether the cursor is seen just if the mode is on. -/
def agrees (s : Sight) : Bool := s.shown == s.flag

/-- Whether this is so all the time. -/
def agreesThroughout (s : Sight) : List SightEvent → Bool
  | [] => s.agrees
  | e :: rest => s.agrees && (s.apply e).agreesThroughout rest

/-- Whether an event leaves the page or comes while the mode is on. -/
def keepsInSight (s : Sight) : SightEvent → Bool
  | .page on => on == s.alternate || s.flag
  | _ => true

/-- Whether the mode is on whenever the page changes. -/
def inSightThroughout (s : Sight) : List SightEvent → Bool
  | [] => true
  | e :: rest => s.keepsInSight e && (s.apply e).inSightThroughout rest

/-- Mode and cursor agree, and the cursor of the primary page is seen while it is not shown. -/
structure Sound (s : Sight) : Prop where
  agrees : s.agrees = true
  hidden : s.alternate = true → s.hidden = true

/-- At first both cursors are visible, and the mode is on. -/
theorem Sound.fresh : fresh.Sound := ⟨rfl, fun _ => rfl⟩

/-- Events that keep the cursor in sight keep a sound sight. -/
theorem Sound.apply {s : Sight} (h : s.Sound) {e : SightEvent} (he : s.keepsInSight e = true) :
    (s.apply e).Sound := by
  cases e with
  | switch on => exact ⟨beq_self_eq_true on, h.hidden⟩
  | page on =>
      unfold Sight.apply
      dsimp only
      split
      · exact h
      · next hon =>
        have hflag : s.flag = true := by simpa [keepsInSight, hon] using he
        have hshown : s.shown = true := (beq_iff_eq.mp h.agrees).trans hflag
        refine ⟨?_, fun _ => hshown⟩
        cases on with
        | false => simp [Sight.agrees, hflag, h.hidden (by simpa using hon)]
        | true => simp [Sight.agrees, hflag]
  | reset => exact .fresh

/-- A change of page while the mode is off sets mode and cursor at odds. -/
theorem Sound.not_agrees_apply {s : Sight} (h : s.Sound) {e : SightEvent}
    (he : s.keepsInSight e = false) : (s.apply e).agrees = false := by
  cases e with
  | page on =>
      obtain ⟨hon, hflag⟩ : on ≠ s.alternate ∧ s.flag = false := by
        simpa [keepsInSight] using he
      cases on with
      | false => simp [Sight.apply, Sight.agrees, hon, hflag, h.hidden (by simpa using hon)]
      | true => simp [Sight.apply, Sight.agrees, hon, hflag]
  | switch | reset => cases he

/-- What agrees throughout agrees at the start. -/
theorem agrees_of_agreesThroughout {s : Sight} {events : List SightEvent}
    (h : s.agreesThroughout events = true) : s.agrees = true := by
  cases events with
  | nil => exact h
  | cons e rest => exact (Bool.and_eq_true_iff.mp h).1

/-- **Mode and cursor agree all the time** if and only if the page never changes while the mode is
off. -/
theorem Sound.agreesThroughout_eq {s : Sight} (h : s.Sound) (events : List SightEvent) :
    s.agreesThroughout events = s.inSightThroughout events := by
  induction events generalizing s with
  | nil => exact h.agrees
  | cons e rest ih =>
      rw [agreesThroughout, inSightThroughout, h.agrees, Bool.true_and]
      cases he : s.keepsInSight e with
      | true => rw [ih (h.apply he), Bool.true_and]
      | false =>
          rw [Bool.false_and, Bool.eq_false_iff]
          intro hthroughout
          have hagrees := agrees_of_agreesThroughout hthroughout
          rw [h.not_agrees_apply he] at hagrees
          cases hagrees

/-- What agrees throughout agrees after any part of it. -/
theorem agrees_after {s : Sight} {front back : List SightEvent}
    (h : s.agreesThroughout (front ++ back) = true) : (s.after front).agrees = true := by
  induction front generalizing s with
  | nil => exact agrees_of_agreesThroughout h
  | cons e rest ih => exact ih (Bool.and_eq_true_iff.mp h).2

/-- Events in two parts happen one part after the other. -/
theorem after_append (s : Sight) (front back : List SightEvent) :
    s.after (front ++ back) = (s.after front).after back := List.foldl_append

end Sight

/-! ## The events of operations -/

/-- A mode that is switched. -/
def Mode.sightEvents (m : Mode) (on : Bool) : List SightEvent :=
  match m with
  | .cursorVisible => [.switch on]
  | .alternateBuffer => [.page on]
  | _ => []

/-- A private number. -/
def privateSightEvents (on : Bool) (code : Nat) : List SightEvent :=
  if code = 1049 then [.page on]
  else match Mode.ofPrivate? code with
    | some m => m.sightEvents on
    | none => []

def Action.sightEvents : Action → List SightEvent
  | .reset => [.reset]
  | .setPrivateModes codes on => codes.flatMap (privateSightEvents on)
  | _ => []

def Operation.sightEvents : Operation → List SightEvent
  | .perform action => action.sightEvents
  | .feed parser text => (parser.read text).2.flatMap Action.sightEvents
  | .setMode m on => m.sightEvents on
  | _ => []

namespace Terminal

/-- What the terminal says about whether its cursor is seen. -/
def sight (t : Terminal) : Sight :=
  ⟨t.has .cursorVisible, t.usingAlternate, t.cursor.visible, t.hidden.cursor.visible⟩

variable {t t' : Terminal}

/-- Work on the page that is shown leaves what is in sight. -/
theorem Records.sight_eq (h : t.Records none t') : t'.sight = t.sight := by
  rw [sight, sight, has, has, h.modes_eq, h.onShown.usingAlternate_eq, h.visible_eq,
    h.onShown.hidden_eq]

theorem sight_new (cols rows limit : Nat) : (new cols rows limit).sight = .fresh := by
  change Sight.mk (((ModeSet.empty.set .autoWrap true).set .cursorVisible true).contains
    .cursorVisible) false true true = _
  rw [ModeSet.contains_set_self]
  rfl

theorem sight_resize (t : Terminal) (cols rows : Nat) : (t.resize cols rows).sight = t.sight := by
  unfold sight cursor active hidden
  cases hon : t.usingAlternate <;> simp only [resize, hon] <;> rfl

/-- A change of the page that is shown that leaves its cursor in sight or out of it. -/
theorem sight_modifyActive {f : Page → Page}
    (hf : (f t.active).cursor.visible = t.cursor.visible) : (t.modifyActive f).sight = t.sight := by
  rw [sight, sight, has_modifyActive, usingAlternate_modifyActive, cursor_modifyActive,
    hidden_modifyActive, hf]

theorem sight_takeRenderRequest (t : Terminal) : t.takeRenderRequest.2.sight = t.sight := by
  unfold takeRenderRequest
  split
  · rfl
  · unfold sight cursor active hidden
    cases t.usingAlternate <;> rfl

/-- Another page brings its own cursor in sight. -/
theorem sight_useAlternateBuffer (t : Terminal) (on : Bool) :
    (t.useAlternateBuffer on).sight = t.sight.apply (.page on) := by
  unfold useAlternateBuffer Sight.apply
  by_cases hon : on = t.usingAlternate
  · rw [if_pos hon]
    exact (if_pos hon).symm
  · rw [if_neg hon]
    refine .trans ?_ (if_neg hon).symm
    unfold sight cursor active hidden
    cases on with
    | false =>
        have hwas : t.usingAlternate = true := by simpa using hon
        simp only [hwas]
        rfl
    | true =>
        have hwas : t.usingAlternate = false := by simpa using hon
        simp only [hwas]
        rfl

/-- Effects other than a change of page, or of what is seen. -/
theorem sight_applyEffect (t : Terminal) {e : ModeEffect} (hpage : ∀ on, e ≠ .useAlternateBuffer on)
    (hvisible : ∀ on, e ≠ .setCursorVisible on) : (t.applyEffect e).sight = t.sight := by
  cases e with
  | useAlternateBuffer on => exact absurd rfl (hpage on)
  | saveCursor => exact t.records_saveCursor.sight_eq
  | restoreCursor => exact t.records_restoreCursor.sight_eq
  | setCursorVisible on => exact absurd rfl (hvisible on)
  | setRenderSuspended on => rfl
  | requestFlush => exact sight_modifyActive rfl
  | clearScreen => exact t.records_clearScreen.sight_eq
  | resetScrollRegion => rfl

/-- Any other mode leaves what is in sight. -/
theorem sight_withMode (t : Terminal) {m : Mode} (hm : m ≠ .cursorVisible) (on : Bool) :
    ({ t with modes := t.modes.set m on } : Terminal).sight = t.sight := by
  have hflag : (t.modes.set m on).contains .cursorVisible = t.has .cursorVisible :=
    ModeSet.contains_set_of_ne _ _ (Ne.symm hm)
  change Sight.mk ((t.modes.set m on).contains .cursorVisible) _ _ _ = _
  rw [hflag]
  rfl

/-- A mode does to the sight what its events do. -/
theorem sight_setMode (t : Terminal) (m : Mode) (on : Bool) :
    (t.setMode m on).sight = t.sight.after (m.sightEvents on) := by
  by_cases hpage : m = .alternateBuffer
  · subst hpage
    have hswitched :=
      sight_useAlternateBuffer { t with modes := t.modes.set .alternateBuffer on } on
    rw [t.sight_withMode (by decide)] at hswitched
    exact hswitched
  · by_cases hvisible : m = .cursorVisible
    · subst hvisible
      change (({ t with modes := t.modes.set .cursorVisible on } : Terminal).modifyCursor
        fun c => { c with visible := on }).sight = t.sight.apply (.switch on)
      rw [sight, modifyCursor, has_modifyActive, usingAlternate_modifyActive, cursor_modifyActive,
        hidden_modifyActive, has, ModeSet.contains_set_self]
      rfl
    · have hnone : m.sightEvents on = [] := by
        cases m <;> first | rfl | contradiction
      rw [hnone]
      refine List.foldlRecOn (motive := fun u : Terminal => u.sight = t.sight) (m.effects on) _
        (t.sight_withMode hvisible on) ?_
      intro u hu e he
      refine (u.sight_applyEffect (ne_useAlternateBuffer_of_mem hpage he) ?_).trans hu
      rintro other rfl
      cases m <;> cases on <;> simp [Mode.effects] at he hvisible

/-- A private mode does to the sight what its events do. -/
theorem sight_setPrivateMode (t : Terminal) (on : Bool) (code : Nat) :
    (t.setPrivateMode on code).sight = t.sight.after (privateSightEvents on code) := by
  unfold setPrivateMode privateSightEvents
  by_cases hcode : code = 1049
  · rw [if_pos hcode, if_pos hcode]
    cases on with
    | false =>
        exact (sight_setMode _ .storeCursor false).trans (t.sight_setMode .alternateBuffer false)
    | true =>
        refine (sight_setMode _ .alternateBuffer true).trans ?_
        rw [sight_setMode]
        rfl
  · rw [if_neg hcode, if_neg hcode]
    cases Mode.ofPrivate? code with
    | none => rfl
    | some m => exact t.sight_setMode m on

theorem sight_setPrivateModes (t : Terminal) (on : Bool) (codes : List Nat) :
    (codes.foldl (fun t code => t.setPrivateMode on code) t).sight =
      t.sight.after (codes.flatMap (privateSightEvents on)) := by
  induction codes generalizing t with
  | nil => rfl
  | cons code codes ih =>
      rw [List.foldl_cons, ih, sight_setPrivateMode, List.flatMap_cons, Sight.after_append]

/-- No mode of a standard number is among those that have to do with it. -/
theorem sight_setStandardMode (t : Terminal) (on : Bool) (code : Nat) :
    (t.setStandardMode on code).sight = t.sight := by
  unfold setStandardMode
  split
  · next m hm =>
    rw [sight_setMode]
    unfold Mode.ofStandard? at hm
    split at hm <;> cases hm <;> rfl
  · rfl

/-! ## Runs -/

/-- **An action** does to the sight what its events do. -/
theorem sight_of_perform {action : Action} {replies : List Reply}
    (h : t.perform action = .ok (t', replies)) : t'.sight = t.sight.after action.sightEvents := by
  cases action with
  | reset =>
      obtain rfl := congrArg Prod.fst (Except.ok.inj h)
      exact sight_new _ _ _
  | applicationKeypad on =>
      obtain rfl := congrArg Prod.fst (Except.ok.inj h)
      exact t.sight_setMode .keypad on
  | setPrivateModes codes on =>
      obtain rfl := congrArg Prod.fst (Except.ok.inj h)
      exact t.sight_setPrivateModes on codes
  | setStandardModes codes on =>
      obtain rfl := congrArg Prod.fst (Except.ok.inj h)
      refine List.foldlRecOn (motive := fun u : Terminal => u.sight = t.sight) codes _ rfl ?_
      intro u hu code _
      exact (u.sight_setStandardMode on code).trans hu
  | _ => exact (records_of_perform (by trivial) h).sight_eq

theorem sight_of_performAll {actions : List Action} {replies : List Reply}
    (h : t.performAll actions = .ok (t', replies)) :
    t'.sight = t.sight.after (actions.flatMap Action.sightEvents) := by
  induction actions generalizing t replies with
  | nil =>
      obtain rfl := congrArg Prod.fst (Except.ok.inj h)
      rfl
  | cons action rest ih =>
      obtain ⟨middle, first, more, hfirst, hrest⟩ := exists_of_performAll_cons h
      rw [ih hrest, sight_of_perform hfirst, List.flatMap_cons, Sight.after_append]

/-- An operation does to the sight what its events do. -/
theorem sight_of_operate {op : Operation} (h : t.operate op = .ok t') :
    t'.sight = t.sight.after op.sightEvents := by
  cases op with
  | perform action =>
      obtain ⟨⟨done, replies⟩, hperform, hend⟩ := exists_of_bind_eq_ok h
      obtain rfl := Except.ok.inj hend
      exact sight_of_perform hperform
  | feed parser text =>
      obtain ⟨replies, hperform⟩ := exists_performAll_of_feed h
      exact sight_of_performAll hperform
  | putText text => exact (records_of_putText h).sight_eq
  | setMode m on =>
      obtain rfl := Except.ok.inj h
      exact t.sight_setMode m on
  | setStyle style =>
      obtain rfl := Except.ok.inj h
      exact (t.records_withStyle style).sight_eq
  | clearScreen =>
      obtain rfl := Except.ok.inj h
      exact t.records_clearScreen.sight_eq
  | resize cols rows =>
      obtain rfl := Except.ok.inj h
      exact t.sight_resize cols rows
  | clearDirty =>
      obtain rfl := Except.ok.inj h
      exact sight_modifyActive rfl
  | takeRenderRequest =>
      obtain rfl := Except.ok.inj h
      exact t.sight_takeRenderRequest

/-- What is said at the end of a run follows from its events alone. -/
theorem sight_of_run {ops : List Operation} (h : t.run ops = .ok t') :
    t'.sight = t.sight.after (ops.flatMap Operation.sightEvents) := by
  induction ops generalizing t with
  | nil =>
      obtain rfl := Except.ok.inj h
      rfl
  | cons op rest ih =>
      rw [run, List.foldlM_cons] at h
      obtain ⟨middle, hmiddle, hrest⟩ := exists_of_bind_eq_ok h
      rw [ih hrest, sight_of_operate hmiddle, List.flatMap_cons, Sight.after_append]

/-- **Whether the cursor is seen just if the mode is on** follows, after a run of a fresh terminal,
from the switches of this mode, the changes of page and the resets alone.  If the page never changes
while the mode is off, then it has been so all along. -/
theorem visible_eq_cursorVisible_iff {cols rows limit : Nat} {ops : List Operation}
    (h : (new cols rows limit).run ops = .ok t) :
    (t.cursor.visible = t.has .cursorVisible ↔
      (Sight.fresh.after (ops.flatMap Operation.sightEvents)).agrees = true) ∧
    (Sight.fresh.inSightThroughout (ops.flatMap Operation.sightEvents) = true →
      ∀ front back u, ops = front ++ back → (new cols rows limit).run front = .ok u →
        u.cursor.visible = u.has .cursorVisible) := by
  have hagrees : ∀ {ops u}, (new cols rows limit).run ops = .ok u →
      (u.cursor.visible = u.has .cursorVisible ↔
        (Sight.fresh.after (ops.flatMap Operation.sightEvents)).agrees = true) := by
    intro ops u hrun
    rw [← sight_new cols rows limit, ← sight_of_run hrun]
    exact beq_iff_eq.symm
  refine ⟨hagrees h, ?_⟩
  rintro hthroughout front back u rfl hrun
  rw [← Sight.Sound.fresh.agreesThroughout_eq, List.flatMap_append] at hthroughout
  exact (hagrees hrun).mpr (Sight.agrees_after hthroughout)

/-- The cursor is switched off, and then the alternate page is shown. -/
def hideAndEnter : List Operation := [.setMode .cursorVisible false, .setMode .alternateBuffer true]

/-- The mode is off, and the cursor is seen. -/
theorem visible_eq_cursorVisible_iff_hideAndEnter :
    ∃ t : Terminal, (new 5 2 0).run hideAndEnter = .ok t ∧
      t.cursor.visible ≠ t.has .cursorVisible := by
  have hrun : (new 5 2 0).run hideAndEnter =
      .ok (((new 5 2 0).setMode .cursorVisible false).setMode .alternateBuffer true) := rfl
  refine ⟨_, hrun, fun hsame => ?_⟩
  have hagrees := (visible_eq_cursorVisible_iff hrun).1.mp hsame
  exact absurd hagrees (by decide)

/-- The cursor is not always visible when its mode is on. -/
theorem not_visible_eq_cursorVisible :
    ¬ ∀ t : Terminal, t.Reachable → t.cursor.visible = t.has .cursorVisible := by
  intro hall
  have hreachable :
      (((new 5 2 0).setMode .cursorVisible false).setMode .alternateBuffer true).Reachable :=
    ⟨5, 2, 0, hideAndEnter, rfl⟩
  exact absurd (hall _ hreachable) (by decide)

end Terminal

end VideoTerminal
