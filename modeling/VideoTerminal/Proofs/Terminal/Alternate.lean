import VideoTerminal.Proofs.Control.Fields
import VideoTerminal.Proofs.Terminal.Run
import VideoTerminal.Proofs.Terminal.Shown

/-!
# The alternate page is isolated

A program that draws on the alternate page leaves the primary one as it is, whatever it does there,
and the private number 1049 takes it there and back (`Reachable.alternate_isolated`).

What has to be seen is that nothing on the way touches the page that is not shown.  Only the
switching of private modes could, and of one sequence all modes are switched alike: if the alternate
page is shown before and after, it was shown all the time (`onShown_of_perform_of_alternate`).
-/

namespace VideoTerminal

namespace Terminal

/-! ## While the alternate page is shown -/

section Switch

variable {t : Terminal} {on : Bool}

/-- Switching to the page that is shown anyway. -/
theorem onShown_setMode_of_eq (h : t.usingAlternate = on) (m : Mode) :
    t.OnShown (t.setMode m on) := by
  by_cases hm : m = .alternateBuffer
  · rw [hm]
    have hsame : ({ t with modes := t.modes.set .alternateBuffer on } : Terminal).useAlternateBuffer
        on = { t with modes := t.modes.set .alternateBuffer on } := if_pos h.symm
    change t.OnShown
      (({ t with modes := t.modes.set .alternateBuffer on } : Terminal).useAlternateBuffer on)
    rw [hsame]
    exact t.onShown_withModes _
  · exact t.onShown_setMode hm on

/-- A mode that asks for the page that is shown works on that page. -/
theorem onShown_setPrivateMode_of_eq (h : t.usingAlternate = on) (code : Nat) :
    t.OnShown (t.setPrivateMode on code) := by
  unfold setPrivateMode
  split
  · cases on with
    | false =>
        have hfirst := onShown_setMode_of_eq h .alternateBuffer
        exact hfirst.trans (onShown_setMode_of_eq (hfirst.usingAlternate_eq.trans h) _)
    | true =>
        have hfirst := onShown_setMode_of_eq h .storeCursor
        exact hfirst.trans (onShown_setMode_of_eq (hfirst.usingAlternate_eq.trans h) _)
  · split
    · exact onShown_setMode_of_eq h _
    · exact .refl t

/-- Modes that ask for the page that is shown work on that page. -/
theorem onShown_setPrivateModes_of_eq (h : t.usingAlternate = on) (codes : List Nat) :
    t.OnShown (codes.foldl (fun t code => t.setPrivateMode on code) t) := by
  induction codes generalizing t with
  | nil => exact .refl t
  | cons code rest ih =>
      have hfirst := onShown_setPrivateMode_of_eq h code
      exact hfirst.trans (ih (hfirst.usingAlternate_eq.trans h))

/-- Otherwise the mode that is switched names the page, and it is shown then. -/
theorem onShown_or_usingAlternate_setMode (t : Terminal) (m : Mode) (on : Bool) :
    t.OnShown (t.setMode m on) ∨ (t.setMode m on).usingAlternate = on := by
  by_cases hm : m = .alternateBuffer
  · rw [hm]
    right
    simp only [setMode, Mode.effects, List.foldl_cons, List.foldl_nil, applyEffect,
      useAlternateBuffer]
    split
    · next hsame => exact hsame.symm
    · rw [usingAlternate_modifyActive]
  · exact .inl (t.onShown_setMode hm on)

/-- A mode works on the page that is shown, or shows the one it asks for. -/
theorem onShown_or_usingAlternate_setPrivateMode (t : Terminal) (on : Bool) (code : Nat) :
    t.OnShown (t.setPrivateMode on code) ∨ (t.setPrivateMode on code).usingAlternate = on := by
  unfold setPrivateMode
  split
  · cases on with
    | false =>
        have hlast := onShown_setMode (t.setMode .alternateBuffer false) (m := .storeCursor)
          (by decide) false
        rcases t.onShown_or_usingAlternate_setMode .alternateBuffer false with hfirst | hfirst
        · exact .inl (hfirst.trans hlast)
        · exact .inr (hlast.usingAlternate_eq.trans hfirst)
    | true =>
        have hfirst := t.onShown_setMode (m := .storeCursor) (by decide) true
        rcases onShown_or_usingAlternate_setMode (t.setMode .storeCursor true) .alternateBuffer
          true with hlast | hlast
        · exact .inl (hfirst.trans hlast)
        · exact .inr hlast
  · split
    · exact t.onShown_or_usingAlternate_setMode _ on
    · exact .inl (.refl t)

/-- Modes work on the page that is shown, or the one they ask for is shown in the end. -/
theorem onShown_or_usingAlternate_setPrivateModes (t : Terminal) (on : Bool) (codes : List Nat) :
    t.OnShown (codes.foldl (fun t code => t.setPrivateMode on code) t) ∨
      (codes.foldl (fun t code => t.setPrivateMode on code) t).usingAlternate = on := by
  induction codes generalizing t with
  | nil => exact .inl (.refl t)
  | cons code rest ih =>
      rcases t.onShown_or_usingAlternate_setPrivateMode on code with hfirst | hfirst
      · rcases ih (t.setPrivateMode on code) with hrest | hrest
        · exact .inl (hfirst.trans hrest)
        · exact .inr hrest
      · -- What is shown now is shown to the end.
        have hrest := onShown_setPrivateModes_of_eq hfirst rest
        exact .inr (hrest.usingAlternate_eq.trans hfirst)

end Switch

section Alternate

variable {t t' : Terminal}

/-- A mode that leaves the alternate page on the screen works on it. -/
theorem onShown_setMode_of_alternate (ht : t.usingAlternate = true) {m : Mode} {on : Bool}
    (ht' : (t.setMode m on).usingAlternate = true) : t.OnShown (t.setMode m on) := by
  rcases t.onShown_or_usingAlternate_setMode m on with h | h
  · exact h
  · exact onShown_setMode_of_eq (ht.trans (ht'.symm.trans h)) m

/-- An action with the alternate page shown before and after. -/
theorem onShown_of_perform_of_alternate (ht : t.usingAlternate = true)
    (ht' : t'.usingAlternate = true) {action : Action} {replies : List Reply}
    (h : t.perform action = .ok (t', replies)) : t.OnShown t' := by
  cases action with
  | reset =>
      obtain rfl := congrArg Prod.fst (Except.ok.inj h)
      cases ht'
  | setPrivateModes codes on =>
      obtain rfl := congrArg Prod.fst (Except.ok.inj h)
      rcases t.onShown_or_usingAlternate_setPrivateModes on codes with h | h
      · exact h
      · exact onShown_setPrivateModes_of_eq (ht.trans (ht'.symm.trans h)) codes
  | _ => exact onShown_of_perform (by trivial) h

/-- Actions of which all but the last one are titles. -/
theorem onShown_of_performAll_of_alternate (ht : t.usingAlternate = true)
    (ht' : t'.usingAlternate = true) {actions : List Action} {replies : List Reply}
    (htitles : ∀ action ∈ actions.dropLast, ∃ title, action = .setTitle title)
    (h : t.performAll actions = .ok (t', replies)) : t.OnShown t' := by
  induction actions generalizing t replies with
  | nil =>
      obtain rfl := congrArg Prod.fst (Except.ok.inj h)
      exact .refl t
  | cons action rest ih =>
      obtain ⟨middle, first, more, hfirst, hrest⟩ := exists_of_performAll_cons h
      cases rest with
      | nil =>
          obtain rfl := congrArg Prod.fst (Except.ok.inj hrest)
          exact onShown_of_perform_of_alternate ht ht' hfirst
      | cons next rest =>
          rw [List.dropLast_cons_cons] at htitles
          obtain ⟨⟨title, rfl⟩, hothers⟩ := List.forall_mem_cons.mp htitles
          have hstays : (Action.setTitle title).StaysOnPage := trivial
          have hshown := onShown_of_perform hstays hfirst
          exact hshown.trans (ih (hshown.usingAlternate_eq.trans ht) hothers hrest)

end Alternate

end Terminal

/-! ## Runs during which the alternate page stays -/

/-- Whether something holds of the terminal now and after each character of a text. -/
def Interpreter.throughout (holds : Terminal → Bool) (i : Interpreter) : List Char → Bool
  | [] => holds i.terminal
  | c :: rest =>
    holds i.terminal && match i.feed c with
      | .ok (j, _) => j.throughout holds rest
      | .error _ => true

namespace Operation

/-- Whether something holds during an operation: where a text is fed, after each character. -/
def throughout (holds : Terminal → Bool) (t : Terminal) : Operation → Bool
  | .feed parser text => (Interpreter.mk parser t).throughout holds text
  | _ => true

/-- Whether an operation is no change of size. -/
def keepsSize : Operation → Bool
  | .resize _ _ => false
  | _ => true

/-- What keeps the size of the screen is admissible. -/
theorem admissible_of_keepsSize {op : Operation} (h : op.keepsSize = true) : op.Admissible := by
  cases op with
  | resize cols rows => cases h
  | _ => trivial

end Operation

namespace Terminal

/-- Whether something holds of a terminal all through a run: before and after each operation, and
while a text is fed after each of its characters. -/
def throughout (holds : Terminal → Bool) (t : Terminal) : List Operation → Bool
  | [] => holds t
  | op :: rest =>
    holds t && op.throughout holds t && match t.operate op with
      | .ok t' => t'.throughout holds rest
      | .error _ => true

/-- The page that is not shown has the rows, the history and the cursor that it had, and the other
page is not shown meanwhile. -/
structure HiddenKept (t t' : Terminal) : Prop where
  usingAlternate_eq : t'.usingAlternate = t.usingAlternate
  hidden_eq : t'.hidden.due = t.hidden.due
  cols_eq : t'.cols = t.cols
  rows_eq : t'.rows = t.rows

/-- Work on the page that is shown keeps the other one. -/
theorem OnShown.hiddenKept {t t' : Terminal} (h : t.OnShown t') : t.HiddenKept t' where
  usingAlternate_eq := h.usingAlternate_eq
  hidden_eq := by rw [h.hidden_eq]
  cols_eq := h.cols_eq
  rows_eq := h.rows_eq

namespace HiddenKept

theorem refl (t : Terminal) : t.HiddenKept t := ⟨rfl, rfl, rfl, rfl⟩

theorem trans {t₁ t₂ t₃ : Terminal} (h : t₁.HiddenKept t₂) (h' : t₂.HiddenKept t₃) :
    t₁.HiddenKept t₃ where
  usingAlternate_eq := h'.usingAlternate_eq.trans h.usingAlternate_eq
  hidden_eq := h'.hidden_eq.trans h.hidden_eq
  cols_eq := h'.cols_eq.trans h.cols_eq
  rows_eq := h'.rows_eq.trans h.rows_eq

/-- Taking a request to render keeps the hidden page. -/
theorem takeRenderRequest (t : Terminal) : t.HiddenKept t.takeRenderRequest.2 := by
  have hdue := t.due_takeRenderRequest
  refine ⟨?_, ?_, ?_, ?_⟩
  · rw [← usingAlternate_due, hdue, usingAlternate_due]
  · rw [← hidden_due, ← hidden_due, hdue]
  · rw [← cols_due, hdue, cols_due]
  · rw [← rows_due, hdue, rows_due]

end HiddenKept

/-! ### What a text and a run keep -/

/-- What holds throughout a text holds at its start and throughout the rest. -/
theorem feed_throughout {holds : Terminal → Bool} {i j : Interpreter} {c : Char}
    {replies : List Reply} (h : i.feed c = .ok (j, replies)) (rest : List Char) :
    i.throughout holds (c :: rest) = (holds i.terminal && j.throughout holds rest) := by
  rw [Interpreter.throughout, h]

/-- What holds throughout operations holds at the start, during the first and throughout the
rest. -/
theorem operate_throughout {holds : Terminal → Bool} {t t' : Terminal} {op : Operation}
    (h : t.operate op = .ok t') (rest : List Operation) :
    t.throughout holds (op :: rest) =
      (holds t && op.throughout holds t && t'.throughout holds rest) := by
  rw [Terminal.throughout, h]

/-- What holds all through a text holds in the beginning. -/
theorem holds_of_feed_throughout {holds : Terminal → Bool} {i : Interpreter} {text : List Char}
    (h : i.throughout holds text = true) : holds i.terminal = true := by
  cases text with
  | nil => exact h
  | cons c rest =>
      rw [Interpreter.throughout, Bool.and_eq_true] at h
      exact h.1

/-- What holds throughout holds at the start. -/
theorem holds_of_throughout {holds : Terminal → Bool} {t : Terminal} {ops : List Operation}
    (h : t.throughout holds ops = true) : holds t = true := by
  cases ops with
  | nil => exact h
  | cons op rest =>
      rw [Terminal.throughout, Bool.and_eq_true, Bool.and_eq_true] at h
      exact h.1.1

section Runs

variable {t t' : Terminal}

/-- **A text on the alternate page** works on that page only. -/
theorem onShown_of_foldlM_feedNext {i j : Interpreter} {text : List Char}
    {sofar replies : List Reply} (hthroughout : i.throughout Terminal.usingAlternate text = true)
    (h : text.foldlM Interpreter.feedNext (i, sofar) = .ok (j, replies)) :
    i.terminal.OnShown j.terminal := by
  induction text generalizing i sofar with
  | nil =>
      obtain rfl := congrArg Prod.fst (Except.ok.inj h)
      exact .refl _
  | cons c rest ih =>
      rw [List.foldlM_cons] at h
      obtain ⟨⟨middle, first⟩, hnext, hrest⟩ := exists_of_bind_eq_ok h
      obtain ⟨⟨fed, answers⟩, hfeed, hend⟩ := exists_of_bind_eq_ok hnext
      obtain rfl := congrArg Prod.fst (Except.ok.inj hend)
      rw [feed_throughout hfeed, Bool.and_eq_true] at hthroughout
      obtain ⟨hbefore, hafter⟩ := hthroughout
      -- The character has left the alternate page shown.
      obtain ⟨⟨done, asked⟩, hperform, hfed⟩ := exists_of_bind_eq_ok hfeed
      obtain rfl := congrArg Prod.fst (Except.ok.inj hfed)
      have hshown : i.terminal.OnShown done :=
        onShown_of_performAll_of_alternate hbefore (holds_of_feed_throughout hafter)
          (fun action haction => Parser.eq_setTitle_of_mem_dropLast_step haction) hperform
      exact hshown.trans (ih hafter hrest)

/-- One operation, but no change of size. -/
theorem hiddenKept_of_operate {op : Operation} (hop : op.keepsSize = true)
    (ht : t.usingAlternate = true) (hduring : op.throughout Terminal.usingAlternate t = true)
    (ht' : t'.usingAlternate = true) (h : t.operate op = .ok t') : t.HiddenKept t' := by
  cases op with
  | perform action =>
      obtain ⟨⟨done, replies⟩, hperform, hend⟩ := exists_of_bind_eq_ok h
      obtain rfl := Except.ok.inj hend
      exact (onShown_of_perform_of_alternate ht ht' hperform).hiddenKept
  | feed parser text =>
      obtain ⟨⟨i, replies⟩, hfeed, hend⟩ := exists_of_bind_eq_ok h
      obtain rfl := Except.ok.inj hend
      rw [Interpreter.feedText_eq_foldlM] at hfeed
      exact (onShown_of_foldlM_feedNext (i := ⟨parser, t⟩) hduring hfeed).hiddenKept
  | putText text => exact (onShown_of_printed (printed_of_putText h)).hiddenKept
  | setMode m on =>
      obtain rfl := Except.ok.inj h
      exact (onShown_setMode_of_alternate ht ht').hiddenKept
  | setStyle style =>
      obtain rfl := Except.ok.inj h
      exact (t.onShown_withStyle style).hiddenKept
  | clearScreen =>
      obtain rfl := Except.ok.inj h
      exact t.onShown_clearScreen.hiddenKept
  | resize cols rows => cases hop
  | clearDirty =>
      obtain rfl := Except.ok.inj h
      exact (onShown_of_row_eq rfl).hiddenKept
  | takeRenderRequest =>
      obtain rfl := Except.ok.inj h
      exact .takeRenderRequest t

/-- **The page that is not shown is kept** through every run during which the alternate page is
shown all the time and the size is not changed. -/
theorem hiddenKept_of_run {ops : List Operation} (hops : ∀ op ∈ ops, op.keepsSize = true)
    (hthroughout : t.throughout Terminal.usingAlternate ops = true) (h : t.run ops = .ok t') :
    t.HiddenKept t' := by
  induction ops generalizing t with
  | nil =>
      obtain rfl := Except.ok.inj h
      exact .refl t
  | cons op rest ih =>
      rw [run, List.foldlM_cons] at h
      obtain ⟨middle, hmiddle, hrest⟩ := exists_of_bind_eq_ok h
      obtain ⟨hop, hops⟩ := List.forall_mem_cons.mp hops
      rw [operate_throughout hmiddle, Bool.and_eq_true, Bool.and_eq_true] at hthroughout
      obtain ⟨⟨hbefore, hduring⟩, hafter⟩ := hthroughout
      have hkept := hiddenKept_of_operate hop hbefore hduring (holds_of_throughout hafter) hmiddle
      exact hkept.trans (ih hops hafter hrest)

end Runs

/-! ## There and back -/

/-- Nothing but blank cells, no history, and the cursor in the corner. -/
structure ShowsBlank (t : Terminal) : Prop where
  usingAlternate_eq : t.usingAlternate = true
  rows_eq : t.active.rows = List.replicate t.rows (Row.new t.cols)
  scrollback_eq : t.active.scrollback = #[]
  row_eq : t.cursor.row = 0
  col_eq : t.cursor.col = 0

/-- A switch of one mode, by its name or by its private number. -/
inductive Switched (t : Terminal) : Terminal → Prop
  | mode (m : Mode) (on : Bool) : Switched t (t.setMode m on)
  | number (on : Bool) (code : Nat) : Switched t (t.setPrivateMode on code)

section Entry

variable {t t' : Terminal}

/-- Entering the alternate page shows a blank screen. -/
theorem showsBlank_setMode (h : t.usingAlternate = false) :
    (t.setMode .alternateBuffer true).ShowsBlank := by
  simp only [setMode, Mode.effects, List.foldl_cons, List.foldl_nil, applyEffect,
    useAlternateBuffer, h]
  refine ⟨?_, ?_, ?_, ?_, ?_⟩
  all_goals simp [modifyActive, active, cursor, Page.new, Page.markAllDirty]

/-- Whenever the alternate page is entered, it is blank. -/
theorem Switched.showsBlank (h : t.Switched t') (ht : t.usingAlternate = false)
    (ht' : t'.usingAlternate = true) : t'.ShowsBlank := by
  have hstays : ∀ u : Terminal, t.OnShown u → u.usingAlternate ≠ true := by
    intro u hu
    rw [hu.usingAlternate_eq, ht]
    exact Bool.false_ne_true
  have hmode : ∀ m on, (t.setMode m on).usingAlternate = true → (t.setMode m on).ShowsBlank := by
    intro m on hu
    cases on with
    | false => exact absurd hu (hstays _ (onShown_setMode_of_eq ht m))
    | true =>
        by_cases hm : m = .alternateBuffer
        · rw [hm]
          exact showsBlank_setMode ht
        · exact absurd hu (hstays _ (t.onShown_setMode hm true))
  cases h with
  | mode m on => exact hmode m on ht'
  | number on code =>
      cases on with
      | false => exact absurd ht' (hstays _ (onShown_setPrivateMode_of_eq ht code))
      | true =>
          revert ht'
          unfold setPrivateMode
          split
          · intro _
            have hstored := t.onShown_setMode (m := .storeCursor) (by decide) true
            exact showsBlank_setMode (hstored.usingAlternate_eq.trans ht)
          · split
            · exact hmode _ true
            · exact fun hu => absurd hu (hstays t (.refl t))

/-- Changing the page keeps the size of the screen. -/
theorem size_setMode_alternateBuffer (t : Terminal) (on : Bool) :
    (t.setMode .alternateBuffer on).cols = t.cols ∧
      (t.setMode .alternateBuffer on).rows = t.rows := by
  simp only [setMode, Mode.effects, List.foldl_cons, List.foldl_nil, applyEffect,
    useAlternateBuffer]
  split
  · exact ⟨rfl, rfl⟩
  · rw [cols_modifyActive, rows_modifyActive]
    cases on <;> exact ⟨rfl, rfl⟩

/-- Entering the alternate page hides the primary one as it is. -/
theorem hidden_setMode_alternateBuffer (h : t.usingAlternate = false) :
    (t.setMode .alternateBuffer true).hidden = t.primary := by
  simp only [setMode, Mode.effects, List.foldl_cons, List.foldl_nil, applyEffect,
    useAlternateBuffer, h]
  simp [hidden, modifyActive]

/-- On the way to the alternate page position and style are put aside with the primary cursor. -/
theorem hidden_setPrivateMode_enter (h : t.usingAlternate = false) :
    (t.setPrivateMode true 1049).hidden = { t.primary with
      cursor := { t.cursor with saved := some ⟨t.cursor.col, t.cursor.row, t.style⟩ } } := by
  have hstored := t.onShown_setMode (m := .storeCursor) (by decide) true
  refine (hidden_setMode_alternateBuffer (hstored.usingAlternate_eq.trans h)).trans ?_
  simp [setMode, Mode.effects, applyEffect, saveCursor, modifyCursor, modifyActive, cursor, active,
    h]

/-- Entering the alternate page keeps the size of the screen. -/
theorem size_setPrivateMode_enter (t : Terminal) :
    (t.setPrivateMode true 1049).cols = t.cols ∧ (t.setPrivateMode true 1049).rows = t.rows := by
  have hstored := t.onShown_setMode (m := .storeCursor) (by decide) true
  obtain ⟨hcols, hrows⟩ := size_setMode_alternateBuffer (t.setMode .storeCursor true) true
  exact ⟨hcols.trans hstored.cols_eq, hrows.trans hstored.rows_eq⟩

end Entry

/-- The primary page is shown as it was in `t`, with the cursor at its old place, or in the last
column if a wrap was pending, and text goes on in the old style. -/
structure ShowsAgain (t back : Terminal) : Prop where
  usingAlternate_eq : back.usingAlternate = false
  rows_eq : back.primary.rows = t.primary.rows
  scrollback_eq : back.primary.scrollback = t.primary.scrollback
  row_eq : back.cursor.row = t.cursor.row
  col_eq : back.cursor.col = min t.cursor.col (t.cols - 1)
  style_eq : back.style = t.style

/-- On the way back the primary page is shown with the position and the style that were put aside
with its cursor. -/
theorem showsAgain_setPrivateMode_leave {t left : Terminal} (h : left.usingAlternate = true)
    (hrows : left.hidden.rows = t.primary.rows)
    (hback : left.hidden.scrollback = t.primary.scrollback)
    (hsaved : left.hidden.cursor.saved = some ⟨t.cursor.col, t.cursor.row, t.style⟩)
    (hcols : left.cols = t.cols) (hrow : t.cursor.row ≤ left.rows - 1) :
    t.ShowsAgain (left.setPrivateMode false 1049) := by
  obtain ⟨middle, hmiddle, hoff, hprimary, hsize⟩ : ∃ middle : Terminal,
      left.setPrivateMode false 1049 = middle.restoreCursor ∧ middle.usingAlternate = false ∧
        middle.primary = left.hidden.markAllDirty ∧
          middle.cols = left.cols ∧ middle.rows = left.rows := by
    refine ⟨_, rfl, ?_, ?_, size_setMode_alternateBuffer left false⟩
    all_goals simp [setMode, Mode.effects, applyEffect, useAlternateBuffer, hidden, modifyActive, h]
  have hactive : middle.active = left.hidden.markAllDirty := by
    rw [active, hoff, ← hprimary]
    rfl
  have hcursor : middle.cursor = left.hidden.cursor := by
    rw [cursor, hactive]
    rfl
  have hchanged : ∀ f, (middle.modifyCursor f).primary = { left.hidden.markAllDirty with
      cursor := f left.hidden.cursor } := by
    intro f
    rw [modifyCursor, modifyActive, hoff, hprimary]
    rfl
  rw [hmiddle, restoreCursor, hcursor, hsaved]
  dsimp only
  have hplace : ∀ f, (middle.modifyCursor f).cursor = f left.hidden.cursor := by
    intro f
    rw [modifyCursor, cursor_modifyActive, hactive]
    rfl
  refine ⟨?_, ?_, ?_, ?_, ?_, rfl⟩
  · rw [modifyCursor, usingAlternate_modifyActive]
    exact hoff
  · rw [hchanged]
    exact hrows
  · rw [hchanged]
    exact hback
  · change (middle.modifyCursor _).cursor.row = _
    rw [hplace]
    change min t.cursor.row (middle.rows - 1) = t.cursor.row
    omega
  · change (middle.modifyCursor _).cursor.col = _
    rw [hplace]
    change min t.cursor.col (middle.cols - 1) = _
    rw [hsize.1, hcols]

/-- `CSI ? 1049 h` as it is written. -/
def enterAlternate : List Char := Sequence.text ⟨['?'], [1049], 'h'⟩

/-- `CSI ? 1049 l` as it is written. -/
def leaveAlternate : List Char := Sequence.text ⟨['?'], [1049], 'l'⟩

/-- The sequences go from the parser to the terminal. -/
theorem exists_feedText_enterAlternate {p : Parser} (hp : p.state = .ground) (t : Terminal) :
    ∃ q : Parser, q.state = .ground ∧ (Interpreter.mk p t).feedText enterAlternate =
      .ok (⟨q, t.setPrivateMode true 1049⟩, []) := by
  refine ⟨_, ?_, Interpreter.feedText_sequence hp ⟨List.all_eq_true.mp (by decide), ?_, ?_, ?_⟩⟩
  · rfl
  all_goals decide

/-- The sequence that leaves the alternate page never fails. -/
theorem exists_feedText_leaveAlternate {p : Parser} (hp : p.state = .ground) (t : Terminal) :
    ∃ q : Parser, q.state = .ground ∧ (Interpreter.mk p t).feedText leaveAlternate =
      .ok (⟨q, t.setPrivateMode false 1049⟩, []) := by
  refine ⟨_, ?_, Interpreter.feedText_sequence hp ⟨List.all_eq_true.mp (by decide), ?_, ?_, ?_⟩⟩
  · rfl
  all_goals decide

/-- **The alternate page is isolated.**  From every reachable state that shows the primary page,
`CSI ? 1049 h` leads to a blank alternate page.  After any run that keeps it shown, `CSI ? 1049 l`
shows the primary page again with its old rows and history, the cursor at its old place and the old
style, whatever the run did.  Every switch of a mode that enters the alternate page finds it
blank. -/
theorem Reachable.alternate_isolated {t : Terminal} (h : t.Reachable)
    (hprimary : t.usingAlternate = false) {p : Parser} (hp : p.state = .ground) :
    (∃ (q : Parser) (entered : Terminal), q.state = .ground ∧
      (Interpreter.mk p t).feedText enterAlternate = .ok (⟨q, entered⟩, []) ∧
      entered.ShowsBlank ∧
      (∀ cols rows limit, t.WellFormed cols rows limit →
        ∀ ops : List Operation, (∀ op ∈ ops, op.keepsSize = true) →
          ∃ left, entered.run ops = .ok left) ∧
      ∀ (ops : List Operation) (left : Terminal), (∀ op ∈ ops, op.keepsSize = true) →
        entered.throughout Terminal.usingAlternate ops = true → entered.run ops = .ok left →
          ∀ r : Parser, r.state = .ground → ∃ (s : Parser) (back : Terminal), s.state = .ground ∧
            (Interpreter.mk r left).feedText leaveAlternate = .ok (⟨s, back⟩, []) ∧
            t.ShowsAgain back) ∧
    ∀ u u' : Terminal, u.Switched u' → u.usingAlternate = false → u'.usingAlternate = true →
      u'.ShowsBlank := by
  obtain ⟨q, hq, henter⟩ := exists_feedText_enterAlternate hp t
  have hhidden := hidden_setPrivateMode_enter hprimary
  have hblank : (t.setPrivateMode true 1049).ShowsBlank :=
    showsBlank_setMode
      ((t.onShown_setMode (m := .storeCursor) (by decide) true).usingAlternate_eq.trans hprimary)
  refine ⟨⟨q, _, hq, henter, hblank, ?_, ?_⟩, fun u u' hswitch => hswitch.showsBlank⟩
  · intro cols rows limit hwell ops hops
    obtain ⟨left, hrun, -⟩ := (hwell.setPrivateMode true 1049).exists_run
      fun op hop => Operation.admissible_of_keepsSize (hops op hop)
    exact ⟨left, hrun⟩
  · intro ops left hops hthroughout hrun r hr
    have hkept := hiddenKept_of_run hops hthroughout hrun
    obtain ⟨s, hs, hleave⟩ := exists_feedText_leaveAlternate hr left
    obtain ⟨hcols, hrows⟩ := size_setPrivateMode_enter t
    have hsame : left.hidden.due = Page.due { t.primary with
        cursor := { t.cursor with saved := some ⟨t.cursor.col, t.cursor.row, t.style⟩ } } := by
      rw [hkept.hidden_eq, hhidden]
    refine ⟨s, _, hs, hleave, showsAgain_setPrivateMode_leave ?_ ?_ ?_ ?_ ?_ ?_⟩
    · exact hkept.usingAlternate_eq.trans hblank.usingAlternate_eq
    · have hrowsKept := congrArg Page.rows hsame
      exact hrowsKept
    · have hback := congrArg Page.scrollback hsame
      exact hback
    · have hcursor := congrArg Page.cursor hsame
      have hsaved := congrArg Cursor.saved hcursor
      exact hsaved
    · exact hkept.cols_eq.trans hcols
    · rw [hkept.rows_eq, hrows]
      exact h.seated.shown

/-- A program that draws, saves and restores the cursor, changes style and modes, and asks once more
for the alternate page. -/
def visit : List Operation :=
  [.feed {} "x\x1b7\x1b[31m\x1b[?1049h\x1b]0;t\x1b[5;1H".toList, .setMode .originMode true,
    .putText ['\u4E2D', '\u0301'], .perform .restoreCursor, .takeRenderRequest]

/-- It is left as it was entered, with a wrap pending. -/
theorem alternate_isolated_visit :
    ∃ (t entered left back : Terminal) (q s : Parser), t.Reachable ∧ t.usingAlternate = false ∧
      t.cursor.col = t.cols ∧ Parser.state {} = .ground ∧
      (Interpreter.mk {} t).feedText enterAlternate = .ok (⟨q, entered⟩, []) ∧
      (∀ op ∈ visit, op.keepsSize = true) ∧
      entered.throughout Terminal.usingAlternate visit = true ∧
      entered.run visit = .ok left ∧
      (Interpreter.mk {} left).feedText leaveAlternate = .ok (⟨s, back⟩, []) ∧
      t.ShowsAgain back := by
  -- Three letters fill the first row.
  obtain ⟨t, hrun, hwell⟩ := (WellFormed.new (by decide : Addressable 3 2) 5).exists_run
    (by decide : ∀ op ∈ [.putText ['a', 'b', 'c']], Operation.Admissible op)
  have hreachable : t.Reachable := ⟨3, 2, 5, _, hrun⟩
  have hfacts : ((Terminal.new 3 2 5).run [.putText ['a', 'b', 'c']]).toOption.map (fun t =>
      (t.usingAlternate, t.cursor.col == t.cols,
        (t.setPrivateMode true 1049).throughout Terminal.usingAlternate visit)) =
      some (false, true, true) := by decide +kernel
  rw [hrun] at hfacts
  simp only [Except.toOption, Option.map_some, Option.some.injEq, Prod.mk.injEq, beq_iff_eq]
    at hfacts
  obtain ⟨hprimary, hcol, hthroughout⟩ := hfacts
  have hvisit : ∀ op ∈ visit, op.keepsSize = true := by decide
  obtain ⟨⟨q, entered, -, henter, -, hruns, hreturns⟩, -⟩ :=
    hreachable.alternate_isolated hprimary (rfl : Parser.state {} = .ground)
  obtain ⟨left, hleft⟩ := hruns 3 2 5 hwell visit hvisit
  have hentered : entered.throughout Terminal.usingAlternate visit = true := by
    obtain ⟨q', -, hsame⟩ := exists_feedText_enterAlternate (rfl : Parser.state {} = .ground) t
    have houtcome := Except.ok.inj (hsame.symm.trans henter)
    have hterminal := congrArg (fun out => out.1.terminal) houtcome
    dsimp only at hterminal
    rw [← hterminal]
    exact hthroughout
  obtain ⟨s, back, -, hback, hagain⟩ := hreturns visit left hvisit hentered hleft {} rfl
  exact ⟨t, entered, left, back, q, s, hreachable, hprimary, hcol, rfl, henter, hvisit, hentered,
    hleft, hback, hagain⟩

end Terminal

end VideoTerminal
