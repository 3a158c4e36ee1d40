import VideoTerminal.Proofs.Terminal.Recorded

/-!
# Nothing is lost between two requests to draw

A terminal that is asked whether anything is to be drawn forgets it, unless drawing is suspended.
When the answer is no, then what is shown is what was shown when it was asked before, and once
drawing goes on the answer is yes (`Reachable.no_update_lost`).

Two properties are followed through a run for this: that there is something to be drawn or else the
cells are as they were (`Pristine`), and that what is held back is owed (`Owing`).  That drawing is
suspended as long as the mode for it is on holds of every reachable terminal
(`Reachable.heldByMode`).
-/

namespace VideoTerminal

/-- Whether the action ends the holding back of what is to be drawn. -/
def Action.resumes : Action → Bool
  | .reset => true
  | .setPrivateModes codes false => codes.contains 2026
  | _ => false

/-- Whether the operation ends the holding back of what is to be drawn. -/
def Operation.resumes : Operation → Bool
  | .perform action => action.resumes
  | .feed parser text => (parser.read text).2.any Action.resumes
  | .setMode m on => m == .synchronizedUpdate && !on
  | _ => false

namespace Terminal

/-- Whether during a run the terminal is asked what is to be drawn only while drawing is
suspended. -/
def unaskedThroughout (t : Terminal) : List Operation → Bool
  | [] => true
  | op :: rest =>
    (op != .takeRenderRequest || t.renderSuspended) &&
      match t.operate op with
      | .ok t' => t'.unaskedThroughout rest
      | .error _ => true

/-- Drawing is suspended if the mode for it is on. -/
def HeldByMode (t : Terminal) : Prop := t.renderSuspended = t.has .synchronizedUpdate

/-- There is something to be drawn, or the cells that are shown are those of `p`. -/
def Pristine (p : Page) (t : Terminal) : Prop :=
  t.pending = true ∨ ∀ i, t.active.cells? i = p.cells? i

/-- There is something to be drawn, or it is held back. -/
def Owing (t : Terminal) : Prop := t.renderSuspended = true ∨ t.pending = true

variable {t t' : Terminal}

/-- A request is granted if there is something to be drawn. -/
theorem takeRenderRequest_fst (h : t.renderSuspended = false) :
    t.takeRenderRequest.1 = t.pending := by
  simp [takeRenderRequest, h, pending]

/-! ## Switching modes -/

/-- No other effect suspends drawing or resumes it. -/
theorem renderSuspended_applyEffect (t : Terminal) {e : ModeEffect}
    (he : ∀ on, e ≠ .setRenderSuspended on) :
    (t.applyEffect e).renderSuspended = t.renderSuspended := by
  cases e with
  | useAlternateBuffer on =>
      change (t.useAlternateBuffer on).renderSuspended = t.renderSuspended
      unfold useAlternateBuffer
      split
      · rfl
      · rw [renderSuspended_modifyActive]
        cases on <;> rfl
  | saveCursor => exact t.records_saveCursor.renderSuspended_eq
  | restoreCursor => exact t.records_restoreCursor.renderSuspended_eq
  | setCursorVisible on => exact renderSuspended_modifyActive _ _
  | setRenderSuspended on => exact absurd rfl (he on)
  | requestFlush => exact renderSuspended_modifyActive _ _
  | clearScreen => exact t.records_clearScreen.renderSuspended_eq
  | resetScrollRegion => rfl

/-- No mode but one suspends drawing. -/
theorem renderSuspended_setMode_of_ne (t : Terminal) {m : Mode} (hm : m ≠ .synchronizedUpdate)
    (on : Bool) : (t.setMode m on).renderSuspended = t.renderSuspended := by
  refine List.foldlRecOn (motive := fun u : Terminal => u.renderSuspended = t.renderSuspended)
    (m.effects on) _ rfl ?_
  intro u hu e he
  rw [renderSuspended_applyEffect, hu]
  rintro other rfl
  cases m <;> cases on <;> simp [Mode.effects] at he hm

/-- Drawing is suspended while the mode is on. -/
theorem renderSuspended_setMode_synchronizedUpdate (t : Terminal) (on : Bool) :
    (t.setMode .synchronizedUpdate on).renderSuspended = on := by
  cases on with
  | false => exact renderSuspended_modifyActive _ _
  | true => rfl

/-- Where drawing is resumed there is something to be drawn. -/
theorem pending_setMode_synchronizedUpdate_off (t : Terminal) :
    (t.setMode .synchronizedUpdate false).pending = true :=
  pending_iff.mpr (.inl (flushRequested_modifyActive _ _))

/-- At first drawing is not suspended, and the mode is off. -/
theorem heldByMode_new (cols rows limit : Nat) : (new cols rows limit).HeldByMode := by
  change false = ((ModeSet.empty.set .autoWrap true).set .cursorVisible true).contains
    .synchronizedUpdate
  decide

/-- That drawing is suspended by its mode lasts. -/
theorem lasting_heldByMode : Lasting HeldByMode where
  work h hwork := by
    rw [HeldByMode, hwork.renderSuspended_eq, h, has, has, hwork.modes_eq]
  setMode {t} h m on := by
    rw [HeldByMode, has, modes_setMode]
    by_cases hm : m = .synchronizedUpdate
    · rw [hm, ModeSet.contains_set_self, renderSuspended_setMode_synchronizedUpdate]
    · rw [ModeSet.contains_set_of_ne _ _ (Ne.symm hm), renderSuspended_setMode_of_ne t hm]
      exact h
  reset _ := heldByMode_new _ _ _
  resize h _ _ := h

/-- **Drawing is suspended exactly while the mode for it is on**, on every reachable terminal. -/
theorem Reachable.heldByMode (h : t.Reachable) : t.HeldByMode := by
  refine lasting_heldByMode.of_reachable heldByMode_new ?_ ?_ h
  · intro u hu
    rw [HeldByMode, renderSuspended_modifyActive, has_modifyActive]
    exact hu
  · intro u hu
    rw [HeldByMode, renderSuspended_takeRenderRequest, has, modes_takeRenderRequest]
    exact hu

/-! ## What is followed through a run -/

/-- That something is to be drawn lasts. -/
theorem lasting_pending : Lasting fun t => t.Tracked ∧ t.pending = true :=
  .of_recorded And.left fun ⟨_, hpending⟩ h => ⟨h.tracked, h.pending hpending⟩

/-- What is recorded keeps a page the same until something is to be drawn. -/
theorem Recorded.pristine {p : Page} (h : t.Recorded t') (hp : Pristine p t) : t'.Pristine p := by
  by_cases hpending : t'.pending = true
  · exact .inl hpending
  · rcases h.shown with ⟨-, -, hactive⟩ | ⟨hpending', -⟩
    · refine .inr fun i => ?_
      have hkept := hp.resolve_left fun hpending' => hpending (h.pending hpending')
      rcases hactive.cells i (by simp) with hsame | ⟨hchanged, -⟩
      · exact hsame.trans (hkept i)
      · exact absurd (pending_of_changed hchanged) hpending
    · exact absurd hpending' hpending

/-- That the page is the same until something is to be drawn lasts. -/
theorem lasting_pristine (p : Page) : Lasting fun t => t.Tracked ∧ Pristine p t :=
  .of_recorded And.left fun ⟨_, hp⟩ h => ⟨h.tracked, h.pristine hp⟩

/-- That what is held back is owed lasts. -/
theorem lasting_owing : Lasting fun t => t.Tracked ∧ t.Owing where
  work h hwork := by
    have hrecorded := hwork.recorded h.1
    refine ⟨hrecorded.tracked, h.2.imp ?_ hrecorded.pending⟩
    exact hwork.renderSuspended_eq.trans
  setMode {t} h m on := by
    have hrecorded := recorded_setMode h.1 m on
    refine ⟨hrecorded.tracked, ?_⟩
    by_cases hm : m = .synchronizedUpdate
    · rw [hm]
      cases on with
      | false => exact .inr t.pending_setMode_synchronizedUpdate_off
      | true => exact .inl (t.renderSuspended_setMode_synchronizedUpdate true)
    · exact h.2.imp (t.renderSuspended_setMode_of_ne hm on).trans hrecorded.pending
  reset _ := ⟨(recorded_reset _).tracked, .inr (pending_of_changed rfl)⟩
  resize {t} h cols rows := by
    have hrecorded := t.recorded_resize cols rows
    exact ⟨hrecorded.tracked, h.2.imp id hrecorded.pending⟩

/-- That the page has been drawn does not settle what there is to be drawn. -/
theorem pending_clearDirty (t : Terminal) :
    (t.modifyActive Page.clearDirty).pending = t.pending := by
  unfold modifyActive pending
  split <;> rfl

theorem pristine_clearDirty {p : Page} (h : Pristine p t) :
    Pristine p (t.modifyActive Page.clearDirty) := by
  rw [Pristine, pending_clearDirty, active_modifyActive]
  exact h

theorem owing_clearDirty (h : t.Owing) : (t.modifyActive Page.clearDirty).Owing := by
  rw [Owing, pending_clearDirty, renderSuspended_modifyActive]
  exact h

/-! ## Runs between two requests -/

/-- One operation of such a run. -/
theorem Lasting.operate_unasked {P : Terminal → Prop} (h : Lasting P)
    (hdrawn : ∀ u, P u → P (u.modifyActive Page.clearDirty)) (ht : P t) {op : Operation}
    (hop : (op != .takeRenderRequest || t.renderSuspended) = true) (hok : t.operate op = .ok t') :
    P t' := by
  refine h.operate ht hok (fun _ => hdrawn t ht) ?_
  rintro rfl
  rw [takeRenderRequest_of_suspended (by simpa using hop)]
  exact ht

/-- What is not asked for throughout is not asked for at first, nor throughout the rest. -/
theorem unaskedThroughout_cons {op : Operation} {rest : List Operation}
    (hops : t.unaskedThroughout (op :: rest) = true) (hok : t.operate op = .ok t') :
    (op != .takeRenderRequest || t.renderSuspended) = true ∧ t'.unaskedThroughout rest = true := by
  rw [unaskedThroughout, hok, Bool.and_eq_true] at hops
  exact hops

/-- **What lasts holds after operations** among which no request is granted. -/
theorem Lasting.run_unasked {P : Terminal → Prop} (h : Lasting P)
    (hdrawn : ∀ u, P u → P (u.modifyActive Page.clearDirty)) (ht : P t) {ops : List Operation}
    (hops : t.unaskedThroughout ops = true) (hrun : t.run ops = .ok t') : P t' := by
  induction ops generalizing t with
  | nil =>
      obtain rfl := Except.ok.inj hrun
      exact ht
  | cons op rest ih =>
      rw [run, List.foldlM_cons] at hrun
      obtain ⟨middle, hok, hrest⟩ := exists_of_bind_eq_ok hrun
      obtain ⟨hop, hrestops⟩ := unaskedThroughout_cons hops hok
      exact ih (h.operate_unasked hdrawn ht hop hok) hrestops hrest

/-! ## Going on to draw -/

/-- Where the mode is switched off among others there is something to be drawn. -/
theorem pending_setPrivateModes (ht : t.Tracked) {codes : List Nat} (hcodes : 2026 ∈ codes) :
    (codes.foldl (fun t code => t.setPrivateMode false code) t).pending = true := by
  obtain ⟨front, back, rfl⟩ := List.append_of_mem hcodes
  rw [List.foldl_append, List.foldl_cons]
  have hfront : (front.foldl (fun t code => t.setPrivateMode false code) t).Tracked :=
    List.foldlRecOn front _ ht fun _ hu code _ => lasting_tracked.setPrivateMode hu false code
  generalize front.foldl (fun t code => t.setPrivateMode false code) t = u at hfront
  have hoff : (u.setPrivateMode false 2026).Tracked ∧
      (u.setPrivateMode false 2026).pending = true :=
    ⟨lasting_tracked.setPrivateMode hfront false 2026, u.pending_setMode_synchronizedUpdate_off⟩
  refine (List.foldlRecOn (motive := fun u : Terminal => u.Tracked ∧ u.pending = true) back _
    hoff ?_).2
  intro u hu code _
  exact lasting_pending.setPrivateMode hu false code

/-- After an action that resumes drawing there is something to be drawn. -/
theorem pending_of_perform (ht : t.Tracked) {action : Action} {replies : List Reply}
    (haction : action.resumes = true) (hok : t.perform action = .ok (t', replies)) :
    t'.pending = true := by
  cases action with
  | reset =>
      obtain rfl := congrArg Prod.fst (Except.ok.inj hok)
      exact pending_of_changed rfl
  | setPrivateModes codes on =>
      obtain rfl := congrArg Prod.fst (Except.ok.inj hok)
      cases on with
      | false => exact pending_setPrivateModes ht (List.contains_iff_mem.mp haction)
      | true => cases haction
  | _ => cases haction

theorem pending_of_performAll (ht : t.Tracked) {actions : List Action} {replies : List Reply}
    (hactions : actions.any Action.resumes = true)
    (hok : t.performAll actions = .ok (t', replies)) : t'.pending = true := by
  induction actions generalizing t replies with
  | nil => cases hactions
  | cons action rest ih =>
      obtain ⟨middle, first, more, hfirst, hrest⟩ := exists_of_performAll_cons hok
      have hmiddle := lasting_tracked.perform ht hfirst
      rw [List.any_cons, Bool.or_eq_true] at hactions
      rcases hactions with haction | hlater
      · have hpending := pending_of_perform ht haction hfirst
        exact (lasting_pending.performAll ⟨hmiddle, hpending⟩ hrest).2
      · exact ih hmiddle hlater hrest

/-- After an operation that resumes drawing there is something to be drawn. -/
theorem pending_of_operate (ht : t.Tracked) {op : Operation} (hop : op.resumes = true)
    (hok : t.operate op = .ok t') : t'.pending = true := by
  cases op with
  | perform action =>
      obtain ⟨⟨done, replies⟩, hperform, hend⟩ := exists_of_bind_eq_ok hok
      obtain rfl := Except.ok.inj hend
      exact pending_of_perform ht hop hperform
  | feed parser text =>
      obtain ⟨replies, hperform⟩ := exists_performAll_of_feed hok
      exact pending_of_performAll ht hop hperform
  | setMode m on =>
      obtain rfl := Except.ok.inj hok
      obtain ⟨rfl, rfl⟩ : m = .synchronizedUpdate ∧ on = false := by
        simpa [Operation.resumes] using hop
      exact t.pending_setMode_synchronizedUpdate_off
  | _ => cases hop

/-- What is held back at the beginning of a run, or let go during it, is owed at its end. -/
theorem owing_of_run (ht : t.Tracked) {ops : List Operation}
    (howing : t.Owing ∨ ∃ op ∈ ops, op.resumes = true) (hops : t.unaskedThroughout ops = true)
    (hrun : t.run ops = .ok t') : t'.Owing := by
  induction ops generalizing t with
  | nil =>
      obtain rfl := Except.ok.inj hrun
      exact howing.resolve_right (by simp)
  | cons op rest ih =>
      rw [run, List.foldlM_cons] at hrun
      obtain ⟨middle, hok, hrest⟩ := exists_of_bind_eq_ok hrun
      obtain ⟨hop, hrestops⟩ := unaskedThroughout_cons hops hok
      have hmiddle : middle.Tracked :=
        lasting_tracked.operate_unasked (fun _ => Tracked.clearDirty) ht hop hok
      refine ih hmiddle ?_ hrestops hrest
      rcases howing with howing | ⟨resumer, hmem, hresumes⟩
      · exact .inl (lasting_owing.operate_unasked
          (fun _ hu => ⟨hu.1.clearDirty, owing_clearDirty hu.2⟩) ⟨ht, howing⟩ hop hok).2
      · rcases List.mem_cons.mp hmem with rfl | hmem
        · exact .inl (.inr (pending_of_operate ht hresumes hok))
        · exact .inr ⟨resumer, hmem, hresumes⟩

/-- Between two requests of which the second is answered with no, nothing that is shown has
changed. -/
theorem cells_eq_of_run (ht : t.Tracked) {ops : List Operation}
    (hrun : t.takeRenderRequest.2.run ops = .ok t')
    (hops : t.takeRenderRequest.2.unaskedThroughout ops = true)
    (hpending : t'.pending = false) :
    t'.active.rows.map Row.cells = t.active.rows.map Row.cells := by
  have hstart : Pristine t.active t.takeRenderRequest.2 := by
    obtain ⟨changed, hactive⟩ := t.exists_active_takeRenderRequest
    refine .inr fun i => ?_
    rw [hactive]
    rfl
  have hend : Pristine t.active t' :=
    ((lasting_pristine t.active).run_unasked
      (fun _ hu => ⟨hu.1.clearDirty, pristine_clearDirty hu.2⟩) ⟨ht.takeRenderRequest, hstart⟩
      hops hrun).2
  refine List.ext_getElem? fun i => ?_
  rw [List.getElem?_map, List.getElem?_map]
  exact (hend.resolve_left (by simp [hpending])) i

/-- **No change of what is shown is lost** on a reachable terminal that is asked what is to be drawn
before a run and after it, and in between only while drawing is suspended.  If the answer is no at
the end, then the cells that are shown are those at the beginning; as long as the mode for it is on,
asking comes to nothing; and if that mode was on at the beginning or is switched off during the run,
the answer is yes as soon as drawing goes on. -/
theorem Reachable.no_update_lost (h : t.Reachable) :
    (∀ ops t', t.takeRenderRequest.2.run ops = .ok t' →
      t.takeRenderRequest.2.unaskedThroughout ops = true → t'.renderSuspended = false →
      t'.takeRenderRequest.1 = false →
        t'.active.rows.map Row.cells = t.active.rows.map Row.cells) ∧
    (t.has .synchronizedUpdate = true → t.takeRenderRequest = (false, t)) ∧
    ∀ ops t', (t.has .synchronizedUpdate = true ∨ ∃ op ∈ ops, op.resumes = true) →
      t.run ops = .ok t' → t.unaskedThroughout ops = true → t'.renderSuspended = false →
        t'.takeRenderRequest.1 = true := by
  refine ⟨?_, ?_, ?_⟩
  · intro ops t' hrun hops hdraws hno
    rw [takeRenderRequest_fst hdraws] at hno
    exact cells_eq_of_run h.tracked hrun hops hno
  · intro hon
    exact takeRenderRequest_of_suspended (h.heldByMode.trans hon)
  · intro ops t' howing hrun hops hdraws
    have hstart : t.Owing ∨ ∃ op ∈ ops, op.resumes = true :=
      howing.imp_left fun hon => .inl (h.heldByMode.trans hon)
    rw [takeRenderRequest_fst hdraws]
    exact (owing_of_run h.tracked hstart hops hrun).resolve_left (by simp [hdraws])

/-- A letter printed while drawing is suspended, with a request in between. -/
def heldBack : List Operation :=
  [.feed {} "\x1b[?2026ha".toList, .takeRenderRequest, .feed {} "\x1b[?2026l".toList]

/-- It is drawn at the end; moving the cursor alone is not. -/
theorem no_update_lost_heldBack :
    ∃ t moved held : Terminal, t.Reachable ∧
      t.takeRenderRequest.2.run [.perform (.cursorForward 1)] = .ok moved ∧
      moved.takeRenderRequest.1 = false ∧
      moved.active.rows.map Row.cells = t.active.rows.map Row.cells ∧
      moved.run heldBack = .ok held ∧ held.renderSuspended = false ∧
      held.takeRenderRequest.1 = true := by
  have hreachable : (new 3 1 0).Reachable := ⟨3, 1, 0, [], rfl⟩
  have hfacts : ((new 3 1 0).takeRenderRequest.2.run [.perform (.cursorForward 1)]).toOption.map
      (fun moved => (moved.renderSuspended, moved.takeRenderRequest.1,
        moved.unaskedThroughout heldBack,
        (moved.run heldBack).toOption.map renderSuspended)) =
      some (false, false, true, some false) := by decide +kernel
  cases hmove : (new 3 1 0).takeRenderRequest.2.run [.perform (.cursorForward 1)] with
  | error fault =>
      rw [hmove] at hfacts
      cases hfacts
  | ok moved =>
      rw [hmove] at hfacts
      simp only [Except.toOption, Option.map_some, Option.some.injEq, Prod.mk.injEq] at hfacts
      obtain ⟨hdraws, hno, hunasked, hheld⟩ := hfacts
      have hsame := hreachable.no_update_lost.1 [.perform (.cursorForward 1)] moved hmove
        (by decide) hdraws hno
      have hmoved : moved.Reachable :=
        ⟨3, 1, 0, [.takeRenderRequest, .perform (.cursorForward 1)], hmove⟩
      cases hhold : moved.run heldBack with
      | error fault =>
          rw [hhold] at hheld
          cases hheld
      | ok held =>
          rw [hhold] at hheld
          have hgoes : held.renderSuspended = false := Option.some.inj hheld
          have hyes := hmoved.no_update_lost.2.2 heldBack held
            (.inr ⟨.feed {} "\x1b[?2026l".toList, by decide, by decide +kernel⟩) hhold hunasked
            hgoes
          exact ⟨_, moved, held, hreachable, hmove, hno, hsame, hhold, hgoes, hyes⟩

end Terminal

end VideoTerminal
