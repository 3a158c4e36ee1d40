import VideoTerminal.Proofs.Terminal.WellFormed

/-!
# Switching modes keeps a terminal well-formed

Two modes have a field that repeats them.  Between the recording of such a mode and its effect the
terminal is not well-formed, so these two are followed from beginning to end; every other mode has
*plain* effects, each of which keeps a well-formed terminal so.
-/

namespace VideoTerminal

/-- Effects that touch no field in which a mode is repeated. -/
def ModeEffect.Plain : ModeEffect → Prop
  | .useAlternateBuffer _ => False
  | .setRenderSuspended _ => False
  | _ => True

/-- The effects of most modes are plain. -/
theorem Mode.plain_effects {m : Mode} (ha : m ≠ .alternateBuffer) (hs : m ≠ .synchronizedUpdate)
    (on : Bool) : ∀ e ∈ m.effects on, e.Plain := by
  intro e he
  cases m <;> cases on <;> simp_all [Mode.effects, ModeEffect.Plain]
  all_goals rcases he with rfl | rfl <;> trivial

namespace Terminal.WellFormed

variable {t : Terminal} {cols rows limit : Nat}

/-- Other modes that agree with the fields that repeat them. -/
theorem withModes (h : t.WellFormed cols rows limit) {modes : ModeSet}
    (ha : t.usingAlternate = modes.contains .alternateBuffer)
    (hs : t.renderSuspended = modes.contains .synchronizedUpdate) :
    { t with modes := modes }.WellFormed cols rows limit :=
  { h with usingAlternate_eq := ha, renderSuspended_eq := hs }

/-- Saving the cursor keeps a terminal well-formed. -/
theorem saveCursor (h : t.WellFormed cols rows limit) :
    t.saveCursor.WellFormed cols rows limit := by
  refine h.modifyCursor fun c hc => ⟨hc.row_lt, hc.col_le, ?_⟩
  intro s hs
  obtain rfl := Option.some.inj hs
  exact ⟨hc.row_lt, hc.col_le⟩

theorem restoreCursor (h : t.WellFormed cols rows limit) :
    t.restoreCursor.WellFormed cols rows limit := by
  have hpos := h.addressable.rows_pos
  have hcols := h.cols_eq
  have hrows := h.rows_eq
  unfold Terminal.restoreCursor
  split
  · next s hs =>
    refine withStyle ?_ s.style
    refine h.modifyCursor ?_
    intro c hc
    refine ⟨?_, ?_, hc.saved⟩
    · dsimp only
      omega
    · dsimp only
      omega
  · exact h

/-- Asking for a flush keeps a terminal well-formed. -/
theorem requestFlush (h : t.WellFormed cols rows limit) :
    ({ t with flushRequested := true }.modifyActive Page.markAllDirty).WellFormed
      cols rows limit := by
  have hflush : { t with flushRequested := true }.WellFormed cols rows limit := { h with }
  exact hflush.modifyActive fun _ hp => hp.markAllDirty

/-- A plain effect keeps a terminal well-formed. -/
theorem applyEffect (h : t.WellFormed cols rows limit) {e : ModeEffect} (he : e.Plain) :
    (t.applyEffect e).WellFormed cols rows limit := by
  cases e with
  | useAlternateBuffer on => exact he.elim
  | setRenderSuspended on => exact he.elim
  | saveCursor => exact h.saveCursor
  | restoreCursor => exact h.restoreCursor
  | setCursorVisible on =>
      change (t.modifyCursor fun c => { c with visible := on }).WellFormed cols rows limit
      refine h.modifyCursor ?_
      intro c hc
      exact ⟨hc.row_lt, hc.col_le, hc.saved⟩
  | requestFlush => exact h.requestFlush
  | clearScreen => exact h.clearScreen
  | resetScrollRegion => exact h.resetRegion

theorem applyEffects (h : t.WellFormed cols rows limit) {es : List ModeEffect}
    (hes : ∀ e ∈ es, e.Plain) : (es.foldl Terminal.applyEffect t).WellFormed cols rows limit := by
  induction es generalizing t with
  | nil => exact h
  | cons e rest ih =>
      obtain ⟨he, hrest⟩ := List.forall_mem_cons.mp hes
      exact ih (h.applyEffect he) hrest

/-- The mode is recorded, and the page that it names is shown. -/
theorem setAlternateBuffer (h : t.WellFormed cols rows limit) (on : Bool) :
    (t.setMode .alternateBuffer on).WellFormed cols rows limit := by
  have hmode : (t.modes.set .alternateBuffer on).contains .alternateBuffer = on :=
    ModeSet.contains_set_self _ _ _
  have hsync : (t.modes.set .alternateBuffer on).contains .synchronizedUpdate = t.renderSuspended :=
    (ModeSet.contains_set_of_ne _ _ (by decide)).trans h.renderSuspended_eq.symm
  simp only [setMode, Mode.effects, List.foldl_cons, List.foldl_nil, Terminal.applyEffect,
    useAlternateBuffer]
  split
  · next hsame => exact h.withModes (hsame.symm.trans hmode.symm) hsync.symm
  · refine modifyActive (f := Page.markAllDirty) ?_ fun _ hp => hp.markAllDirty
    have hfresh : Page.WellFormed
        { Page.new t.cols t.rows 0 with cursor := { saved := t.alternate.cursor.saved } }
        cols rows 0 := by
      have hnew : (Page.new cols rows 0).WellFormed cols rows 0 :=
        Page.WellFormed.new h.addressable.rows_pos
      rw [h.cols_eq, h.rows_eq]
      exact hnew.withCursor (Cursor.onScreen_home h.addressable.rows_pos h.alternate.cursor.saved)
    cases on with
    | false => exact { h with usingAlternate_eq := hmode.symm, renderSuspended_eq := hsync.symm }
    | true =>
        exact { h with
          alternate := hfresh
          usingAlternate_eq := hmode.symm
          renderSuspended_eq := hsync.symm }

/-- The mode is recorded, and drawing is suspended or goes on. -/
theorem setSynchronizedUpdate (h : t.WellFormed cols rows limit) (on : Bool) :
    (t.setMode .synchronizedUpdate on).WellFormed cols rows limit := by
  have hmode : (t.modes.set .synchronizedUpdate on).contains .synchronizedUpdate = on :=
    ModeSet.contains_set_self _ _ _
  have hshown : (t.modes.set .synchronizedUpdate on).contains .alternateBuffer = t.usingAlternate :=
    (ModeSet.contains_set_of_ne _ _ (by decide)).trans h.usingAlternate_eq.symm
  have hset : { t with modes := t.modes.set .synchronizedUpdate on, renderSuspended := on }.WellFormed
      cols rows limit :=
    { h with usingAlternate_eq := hshown.symm, renderSuspended_eq := hmode.symm }
  cases on with
  | false => exact hset.requestFlush
  | true => exact hset

/-- **Setting a mode** keeps a terminal well-formed. -/
theorem setMode (h : t.WellFormed cols rows limit) (m : Mode) (on : Bool) :
    (t.setMode m on).WellFormed cols rows limit := by
  by_cases ha : m = .alternateBuffer
  · rw [ha]
    exact h.setAlternateBuffer on
  · by_cases hs : m = .synchronizedUpdate
    · rw [hs]
      exact h.setSynchronizedUpdate on
    · refine applyEffects ?_ (Mode.plain_effects ha hs on)
      refine h.withModes ?_ ?_
      · rw [ModeSet.contains_set_of_ne _ _ (Ne.symm ha)]
        exact h.usingAlternate_eq
      · rw [ModeSet.contains_set_of_ne _ _ (Ne.symm hs)]
        exact h.renderSuspended_eq

/-- Setting a private mode keeps a terminal well-formed. -/
theorem setPrivateMode (h : t.WellFormed cols rows limit) (on : Bool) (code : Nat) :
    (t.setPrivateMode on code).WellFormed cols rows limit := by
  unfold Terminal.setPrivateMode
  split
  · split
    · exact (h.setMode _ _).setMode _ _
    · exact (h.setMode _ _).setMode _ _
  · split
    · exact h.setMode _ _
    · exact h

theorem setStandardMode (h : t.WellFormed cols rows limit) (on : Bool) (code : Nat) :
    (t.setStandardMode on code).WellFormed cols rows limit := by
  unfold Terminal.setStandardMode
  split
  · exact h.setMode _ _
  · exact h

theorem setPrivateModes (h : t.WellFormed cols rows limit) (on : Bool) (codes : List Nat) :
    (codes.foldl (fun t code => t.setPrivateMode on code) t).WellFormed cols rows limit := by
  induction codes generalizing t with
  | nil => exact h
  | cons code rest ih => exact ih (h.setPrivateMode on code)

theorem setStandardModes (h : t.WellFormed cols rows limit) (on : Bool) (codes : List Nat) :
    (codes.foldl (fun t code => t.setStandardMode on code) t).WellFormed cols rows limit := by
  induction codes generalizing t with
  | nil => exact h
  | cons code rest ih => exact ih (h.setStandardMode on code)

end Terminal.WellFormed

end VideoTerminal
