import VideoTerminal.Proofs.Terminal.Records

/-!
# What a terminal records of its changes

A change of the cells that are shown is recorded on their page, and whenever another page or another
size comes to be shown, all of it is to be drawn (`Terminal.Recorded`).

To follow a property through all that can be done to a terminal it is enough to know four kinds of
steps: work under the same modes, the switching of a mode, a reset and a change of size.  A property
that they keep is `Terminal.Lasting`, and an operation keeps it (`Lasting.operate`), if it does not
just ask what is to be drawn.
-/

namespace VideoTerminal

namespace Page.Tracked

variable {p : Page} {rows : Nat}

theorem new (cols rows limit : Nat) : (Page.new cols rows limit).Tracked rows :=
  .of_fullRedraw List.length_replicate rfl

/-- Recording all rows keeps the record to rows of the screen. -/
theorem markAllDirty (h : p.Tracked rows) : p.markAllDirty.Tracked rows :=
  .of_fullRedraw h.length_rows rfl

/-- In another size all of the page is to be drawn. -/
theorem resize (p : Page) (cols rows : Nat) : (p.resize cols rows).Tracked rows := by
  refine .of_fullRedraw ?_ rfl
  simp only [Page.resize, Page.markAllDirty, List.length_map, List.length_append, List.length_take,
    List.length_replicate]
  omega

theorem withChanged (h : p.Tracked rows) (changed : Bool) :
    ({ p with changed := changed } : Page).Tracked rows :=
  ⟨h.length_rows, h.dirty⟩

end Page.Tracked

namespace Terminal

/-- From `t` to `t'` all that changed is recorded: on the page that is shown, or by drawing all of
the page that is shown now.  What there was to be drawn still is. -/
structure Recorded (t t' : Terminal) : Prop where
  tracked : t'.Tracked
  pending : t.pending = true → t'.pending = true
  shown : (t'.usingAlternate = t.usingAlternate ∧ t'.rows = t.rows ∧
        t.active.Recorded none (t.rows - 1) t'.active) ∨
      (t'.pending = true ∧ t'.active.fullRedraw = true)

/-- There is something to be drawn if the page that is shown has changed. -/
theorem pending_of_changed {t : Terminal} (h : t.active.changed = true) : t.pending = true :=
  pending_iff.mpr (.inr (.inl h))

/-- Work on the page that is shown is recorded if its page is. -/
theorem OnShown.recorded {t t' : Terminal} (h : t.OnShown t') (ht : t.Tracked)
    (hflush : t.flushRequested = true → t'.flushRequested = true)
    (hactive : t.active.Recorded none (t.rows - 1) t'.active) : t.Recorded t' where
  tracked := by
    refine ⟨h.seated ht.seated, ?_, ?_⟩
    · rw [h.rows_eq]
      exact ht.shown.recorded hactive
    · rw [h.hidden_eq, h.rows_eq]
      exact ht.hidden
  pending hpending := by
    rw [pending_iff] at hpending ⊢
    rw [h.hidden_eq]
    exact hpending.imp hflush (.imp_left hactive.changed)
  shown := .inl ⟨h.usingAlternate_eq, h.rows_eq, hactive⟩

/-- What records its changes is recorded. -/
theorem Records.recorded {t t' : Terminal} (h : t.Records none t') (ht : t.Tracked) :
    t.Recorded t' :=
  h.onShown.recorded ht h.flush (h.active ht)

namespace Recorded

variable {t t' t'' : Terminal}

theorem refl (ht : t.Tracked) : t.Recorded t := (Records.refl t).recorded ht

/-- Where all of the page is to be drawn, every change is recorded. -/
theorem of_fullRedraw (htracked : t'.Tracked) (hchanged : t'.active.changed = true)
    (hredraw : t'.active.fullRedraw = true) : t.Recorded t' where
  tracked := htracked
  pending := fun _ => pending_of_changed hchanged
  shown := .inr ⟨pending_of_changed hchanged, hredraw⟩

theorem trans (h : t.Recorded t') (h' : t'.Recorded t'') : t.Recorded t'' where
  tracked := h'.tracked
  pending hpending := h'.pending (h.pending hpending)
  shown := by
    rcases h'.shown with ⟨hpage', hrows', hactive'⟩ | hredraw
    · rcases h.shown with ⟨hpage, hrows, hactive⟩ | ⟨hpending, hredraw⟩
      · rw [hrows] at hactive'
        exact .inl ⟨hpage'.trans hpage, hrows'.trans hrows, hactive.trans hactive'⟩
      · exact .inr ⟨h'.pending hpending, hactive'.fullRedraw hredraw⟩
    · exact .inr hredraw

end Recorded

/-! ## Switching modes, resetting, another size -/

section Steps

variable {t : Terminal}

/-- Both pages, whichever is shown. -/
theorem Tracked.page (h : t.Tracked) {page : Page} (hpage : page ∈ [t.primary, t.alternate]) :
    page.Tracked t.rows := by
  have hboth : t.primary.Tracked t.rows ∧ t.alternate.Tracked t.rows := by
    have hshown := h.shown
    have hhidden := h.hidden
    unfold active at hshown
    unfold Terminal.hidden at hhidden
    cases hon : t.usingAlternate with
    | false =>
        rw [hon] at hshown hhidden
        exact ⟨hshown, hhidden⟩
    | true =>
        rw [hon] at hshown hhidden
        exact ⟨hhidden, hshown⟩
  rcases List.mem_cons.mp hpage with rfl | hpage
  · exact hboth.1
  · obtain rfl := List.mem_singleton.mp hpage
    exact hboth.2

theorem Tracked.new (cols rows limit : Nat) : (Terminal.new cols rows limit).Tracked :=
  ⟨.new cols rows limit, .new _ _ _, .new _ _ _⟩

/-- A reset is recorded. -/
theorem recorded_reset (t : Terminal) : t.Recorded t.reset :=
  .of_fullRedraw (.new _ _ _) rfl rfl

/-- Another size is recorded. -/
theorem recorded_resize (t : Terminal) (cols rows : Nat) : t.Recorded (t.resize cols rows) := by
  refine .of_fullRedraw ⟨.resize t cols rows, ?_, ?_⟩ ?_ ?_
  · unfold active
    split <;> exact .resize _ _ _
  · unfold hidden
    split <;> exact .resize _ _ _
  · unfold active
    split <;> rfl
  · unfold active
    split <;> rfl

/-- The page that comes to be shown is drawn as a whole. -/
theorem recorded_useAlternateBuffer (ht : t.Tracked) (on : Bool) :
    t.Recorded (t.useAlternateBuffer on) := by
  have hseated := ht.seated.useAlternateBuffer on
  have hshown := ht.shown
  have hhidden := ht.hidden
  by_cases hon : on = t.usingAlternate
  · rw [useAlternateBuffer, if_pos hon]
    exact .refl ht
  · unfold active at hshown
    unfold hidden at hhidden
    rw [useAlternateBuffer, if_neg hon] at hseated ⊢
    cases on with
    | false =>
        have hwas : t.usingAlternate = true := by simpa using hon
        rw [if_pos hwas] at hshown hhidden
        exact .of_fullRedraw ⟨hseated, hhidden.markAllDirty, hshown⟩ rfl rfl
    | true =>
        have hwas : t.usingAlternate = false := by simpa using hon
        rw [hwas] at hshown
        exact .of_fullRedraw ⟨hseated, .of_fullRedraw List.length_replicate rfl, hshown⟩ rfl rfl

/-- The effects of modes are recorded. -/
theorem recorded_applyEffect (ht : t.Tracked) (e : ModeEffect) : t.Recorded (t.applyEffect e) := by
  cases e with
  | useAlternateBuffer on => exact recorded_useAlternateBuffer ht on
  | saveCursor => exact t.records_saveCursor.recorded ht
  | restoreCursor => exact t.records_restoreCursor.recorded ht
  | setCursorVisible on =>
      have hshown : t.OnShown (t.modifyCursor fun c => { c with visible := on }) :=
        onShown_modifyCursor rfl
      refine hshown.recorded ht (by simp [modifyCursor]) ?_
      rw [modifyCursor, active_modifyActive]
      exact .of_frame rfl rfl rfl rfl
  | setRenderSuspended on =>
      exact (t.onShown_applyEffect (by simp)).recorded ht id (.refl _)
  | requestFlush =>
      refine (t.onShown_applyEffect (by simp)).recorded ht (fun _ => ?_) ?_
      · exact flushRequested_modifyActive _ _
      · change t.active.Recorded none _
          (({ t with flushRequested := true } : Terminal).modifyActive Page.markAllDirty).active
        rw [active_modifyActive]
        exact .markAllDirty _
  | clearScreen => exact t.records_clearScreen.recorded ht
  | resetScrollRegion => exact (t.onShown_applyEffect (by simp)).recorded ht id (.refl _)

/-- **A mode is set on record.** -/
theorem recorded_setMode (ht : t.Tracked) (m : Mode) (on : Bool) : t.Recorded (t.setMode m on) := by
  have hmodes : t.Recorded { t with modes := t.modes.set m on } :=
    (t.onShown_withModes _).recorded ht id (.refl _)
  unfold setMode
  generalize m.effects on = effects
  generalize { t with modes := t.modes.set m on } = t' at hmodes
  induction effects generalizing t' with
  | nil => exact hmodes
  | cons e effects ih => exact ih _ (hmodes.trans (recorded_applyEffect hmodes.tracked e))

/-- Effects leave the modes as they are. -/
theorem modes_applyEffect (t : Terminal) (e : ModeEffect) : (t.applyEffect e).modes = t.modes := by
  cases e with
  | useAlternateBuffer on =>
      change (t.useAlternateBuffer on).modes = t.modes
      unfold useAlternateBuffer
      split
      · rfl
      · rw [modes_modifyActive]
        cases on <;> rfl
  | saveCursor => exact t.records_saveCursor.modes_eq
  | restoreCursor => exact t.records_restoreCursor.modes_eq
  | setCursorVisible on => exact modes_modifyActive _ _
  | setRenderSuspended on => rfl
  | requestFlush => exact modes_modifyActive _ _
  | clearScreen => exact t.records_clearScreen.modes_eq
  | resetScrollRegion => rfl

/-- A mode that is set is on or off, and no other one changes. -/
theorem modes_setMode (t : Terminal) (m : Mode) (on : Bool) :
    (t.setMode m on).modes = t.modes.set m on := by
  refine List.foldlRecOn (motive := fun u : Terminal => u.modes = t.modes.set m on)
    (m.effects on) _ rfl ?_
  intro u hu e _
  rw [modes_applyEffect, hu]

end Steps

/-! ## Properties that last -/

/-- Feeding is carrying out what the parser reads. -/
theorem exists_performAll_of_feed {t t' : Terminal} {parser : Parser} {text : List Char}
    (hok : t.operate (.feed parser text) = .ok t') :
    ∃ replies, t.performAll (parser.read text).2 = .ok (t', replies) := by
  obtain ⟨⟨i, replies⟩, hfeed, hend⟩ := exists_of_bind_eq_ok hok
  obtain rfl := Except.ok.inj hend
  rw [Interpreter.feedText_eq] at hfeed
  cases hperform : t.performAll (parser.read text).2 with
  | error fault =>
      rw [hperform] at hfeed
      cases hfeed
  | ok done =>
      rw [hperform] at hfeed
      obtain rfl := congrArg Prod.fst (Except.ok.inj hfeed)
      exact ⟨done.2, rfl⟩

/-- A property that is kept by work under the same modes, by the switching of a mode, by a reset and
by a change of size. -/
structure Lasting (P : Terminal → Prop) : Prop where
  work : ∀ {t t' : Terminal}, P t → t.Records none t' → P t'
  setMode : ∀ {t : Terminal}, P t → ∀ m on, P (t.setMode m on)
  reset : ∀ {t : Terminal}, P t → P t.reset
  resize : ∀ {t : Terminal}, P t → ∀ cols rows, P (t.resize cols rows)

namespace Lasting

variable {P : Terminal → Prop} {t t' : Terminal}

/-- What lasts holds after a private mode is set. -/
theorem setPrivateMode (h : Lasting P) (ht : P t) (on : Bool) (code : Nat) :
    P (t.setPrivateMode on code) := by
  unfold Terminal.setPrivateMode
  split
  · split
    · exact h.setMode (h.setMode ht _ _) _ _
    · exact h.setMode (h.setMode ht _ _) _ _
  · split
    · exact h.setMode ht _ _
    · exact ht

theorem setStandardMode (h : Lasting P) (ht : P t) (on : Bool) (code : Nat) :
    P (t.setStandardMode on code) := by
  unfold Terminal.setStandardMode
  split
  · exact h.setMode ht _ _
  · exact ht

/-- **What lasts holds after an action.** -/
theorem perform (h : Lasting P) (ht : P t) {action : Action} {replies : List Reply}
    (hok : t.perform action = .ok (t', replies)) : P t' := by
  cases action with
  | reset =>
      obtain rfl := congrArg Prod.fst (Except.ok.inj hok)
      exact h.reset ht
  | applicationKeypad on =>
      obtain rfl := congrArg Prod.fst (Except.ok.inj hok)
      exact h.setMode ht .keypad on
  | setPrivateModes codes on =>
      obtain rfl := congrArg Prod.fst (Except.ok.inj hok)
      exact List.foldlRecOn codes _ ht fun _ ht code _ => h.setPrivateMode ht on code
  | setStandardModes codes on =>
      obtain rfl := congrArg Prod.fst (Except.ok.inj hok)
      exact List.foldlRecOn codes _ ht fun _ ht code _ => h.setStandardMode ht on code
  | _ => exact h.work ht (records_of_perform (by trivial) hok)

/-- What lasts holds after actions. -/
theorem performAll (h : Lasting P) (ht : P t) {actions : List Action} {replies : List Reply}
    (hok : t.performAll actions = .ok (t', replies)) : P t' := by
  induction actions generalizing t replies with
  | nil =>
      obtain rfl := congrArg Prod.fst (Except.ok.inj hok)
      exact ht
  | cons action rest ih =>
      obtain ⟨middle, first, more, hfirst, hrest⟩ := exists_of_performAll_cons hok
      exact ih (h.perform ht hfirst) hrest

/-- **An operation keeps what lasts**, if its asking what is to be drawn does. -/
theorem operate (h : Lasting P) (ht : P t) {op : Operation} (hok : t.operate op = .ok t')
    (hdrawn : op = .clearDirty → P (t.modifyActive Page.clearDirty))
    (htaken : op = .takeRenderRequest → P t.takeRenderRequest.2) : P t' := by
  cases op with
  | perform action =>
      obtain ⟨⟨done, replies⟩, hperform, hend⟩ := exists_of_bind_eq_ok hok
      obtain rfl := Except.ok.inj hend
      exact h.perform ht hperform
  | feed parser text =>
      obtain ⟨replies, hperform⟩ := exists_performAll_of_feed hok
      exact h.performAll ht hperform
  | putText text => exact h.work ht (records_of_putText hok)
  | setMode m on =>
      obtain rfl := Except.ok.inj hok
      exact h.setMode ht m on
  | setStyle style =>
      obtain rfl := Except.ok.inj hok
      exact h.work ht (t.records_withStyle style)
  | clearScreen =>
      obtain rfl := Except.ok.inj hok
      exact h.work ht t.records_clearScreen
  | resize cols rows =>
      obtain rfl := Except.ok.inj hok
      exact h.resize ht cols rows
  | clearDirty =>
      obtain rfl := Except.ok.inj hok
      exact hdrawn rfl
  | takeRenderRequest =>
      obtain rfl := Except.ok.inj hok
      exact htaken rfl

/-- **On every reachable terminal** there is what lasts, if a fresh one has it and being drawn keeps
it. -/
theorem of_reachable (h : Lasting P) (hnew : ∀ cols rows limit, P (Terminal.new cols rows limit))
    (hdrawn : ∀ t, P t → P (t.modifyActive Page.clearDirty))
    (htaken : ∀ t, P t → P t.takeRenderRequest.2) (ht : t.Reachable) : P t := by
  obtain ⟨cols, rows, limit, ops, hrun⟩ := ht
  refine foldlM_induction ?_ (hnew cols rows limit) hrun
  intro op _ before after hbefore hok
  exact h.operate hbefore hok (fun _ => hdrawn _ hbefore) (fun _ => htaken _ hbefore)

end Lasting

/-- What follows from the record alone. -/
theorem Lasting.of_recorded {P : Terminal → Prop} (htracked : ∀ {t}, P t → t.Tracked)
    (h : ∀ {t t'}, P t → t.Recorded t' → P t') : Lasting P where
  work ht hwork := h ht (hwork.recorded (htracked ht))
  setMode ht m on := h ht (recorded_setMode (htracked ht) m on)
  reset ht := h ht (recorded_reset _)
  resize ht cols rows := h ht (recorded_resize _ cols rows)

/-- That the record is kept to rows of the screen lasts. -/
theorem lasting_tracked : Lasting Tracked := .of_recorded id fun _ h => h.tracked

/-! ## Being drawn -/

section Drawn

variable {t : Terminal}

/-- While drawing is suspended a request is refused, and nothing is forgotten. -/
theorem takeRenderRequest_of_suspended (h : t.renderSuspended = true) :
    t.takeRenderRequest = (false, t) := if_pos h

/-- Of the page that is shown, being asked forgets at most that it has changed. -/
theorem exists_active_takeRenderRequest (t : Terminal) :
    ∃ changed, t.takeRenderRequest.2.active = { t.active with changed := changed } := by
  unfold takeRenderRequest
  split
  · exact ⟨t.active.changed, rfl⟩
  · refine ⟨false, ?_⟩
    unfold active
    dsimp only
    split <;> rfl

/-- A request to render forgets of the hidden page that it has changed. -/
theorem exists_hidden_takeRenderRequest (t : Terminal) :
    ∃ changed, t.takeRenderRequest.2.hidden = { t.hidden with changed := changed } := by
  unfold takeRenderRequest
  split
  · exact ⟨t.hidden.changed, rfl⟩
  · refine ⟨false, ?_⟩
    unfold hidden
    dsimp only
    split <;> rfl

theorem rows_takeRenderRequest (t : Terminal) : t.takeRenderRequest.2.rows = t.rows := by
  unfold takeRenderRequest
  split <;> rfl

theorem renderSuspended_takeRenderRequest (t : Terminal) :
    t.takeRenderRequest.2.renderSuspended = t.renderSuspended := by
  unfold takeRenderRequest
  split <;> rfl

/-- A request to render keeps the record to rows of the screen. -/
theorem Tracked.takeRenderRequest (h : t.Tracked) : t.takeRenderRequest.2.Tracked := by
  obtain ⟨changed, hactive⟩ := t.exists_active_takeRenderRequest
  obtain ⟨changed', hhidden⟩ := t.exists_hidden_takeRenderRequest
  refine ⟨h.seated.takeRenderRequest, ?_, ?_⟩
  · rw [hactive, rows_takeRenderRequest]
    exact h.shown.withChanged changed
  · rw [hhidden, rows_takeRenderRequest]
    exact h.hidden.withChanged changed'

/-- Clearing the record keeps it to rows of the screen. -/
theorem Tracked.clearDirty (h : t.Tracked) : (t.modifyActive Page.clearDirty).Tracked := by
  refine ⟨(onShown_of_row_eq rfl).seated h.seated, ?_, ?_⟩
  · rw [active_modifyActive, rows_modifyActive]
    exact ⟨h.shown.length_rows, .inr (by simp [Page.clearDirty])⟩
  · rw [hidden_modifyActive, rows_modifyActive]
    exact h.hidden

/-- On every reachable terminal no row is recorded that is not on the screen, unless all is to be
drawn. -/
theorem Reachable.tracked (h : t.Reachable) : t.Tracked :=
  lasting_tracked.of_reachable Tracked.new (fun _ => Tracked.clearDirty)
    (fun _ => Tracked.takeRenderRequest) h

end Drawn

end Terminal

end VideoTerminal
