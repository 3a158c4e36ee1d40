import VideoTerminal.Proofs.Terminal.Recorded

/-!
# Drawing what is recorded is enough

Between one drawing and the next it is enough to draw the rows that are recorded, whatever has been
done in the meantime: every other row is as it was (`Reachable.redraw_sound`), so that the rows
drawn and the rows kept make up the page that is shown (`Reachable.drawOn_shown`).
-/

namespace VideoTerminal

namespace Page

/-- A screen that shows `p` shows `q` once what `q` records is drawn. -/
def CoveredBy (p q : Page) : Prop :=
  q.fullRedraw = true ∨ ∀ i, q.cells? i = p.cells? i ∨ i ∈ q.dirty

/-- What a screen shows after the rows have been drawn that the page records. -/
def drawOn (q : Page) (screen : List Cells) : List Cells :=
  q.rows.mapIdx fun i r => if q.fullRedraw || i ∈ q.dirty then r.cells else screen.getD i []

/-- Drawing what is recorded over an old page shows the new one. -/
theorem CoveredBy.drawOn_eq {p q : Page} (h : p.CoveredBy q) :
    q.drawOn (p.rows.map Row.cells) = q.rows.map Row.cells := by
  refine List.ext_getElem? fun i => ?_
  rw [drawOn, List.getElem?_mapIdx, List.getElem?_map]
  cases hrow : q.rows[i]? with
  | none => rfl
  | some r =>
      simp only [Option.map_some, Option.some.injEq]
      split
      · rfl
      · next hkept =>
        obtain ⟨hredraw, hdirty⟩ : ¬ q.fullRedraw = true ∧ i ∉ q.dirty := by simpa using hkept
        -- The row is kept, and so are its cells.
        have hsame := ((h.resolve_left hredraw) i).resolve_right hdirty
        rw [cells?, cells?, hrow] at hsame
        rw [List.getD_eq_getElem?_getD, List.getElem?_map, ← hsame]
        rfl

end Page

namespace Terminal

variable {t t' : Terminal} {p : Page}

/-- What is recorded keeps an old page covered. -/
theorem Recorded.coveredBy (h : t.Recorded t') (hp : p.CoveredBy t.active) :
    p.CoveredBy t'.active := by
  rcases h.shown with ⟨-, -, hactive⟩ | ⟨-, hredraw⟩
  · rcases hp with hredraw | hrows
    · exact .inl (hactive.fullRedraw hredraw)
    · by_cases hredraw : t'.active.fullRedraw = true
      · exact .inl hredraw
      · refine .inr fun i => ?_
        rcases hactive.cells i (by simp) with hsame | ⟨-, hall | hdirty⟩
        · exact (hrows i).imp hsame.trans (hactive.dirty i)
        · exact absurd hall hredraw
        · exact .inr hdirty
  · exact .inl hredraw

/-- That an old page is covered by the record lasts. -/
theorem lasting_coveredBy (p : Page) : Lasting fun t => t.Tracked ∧ p.CoveredBy t.active :=
  .of_recorded And.left fun ⟨_, hp⟩ h => ⟨h.tracked, h.coveredBy hp⟩

/-- What was shown when the page was drawn last is covered by what is recorded since. -/
theorem coveredBy_of_run (h : t.Tracked) {ops : List Operation} (hops : .clearDirty ∉ ops)
    (hrun : (t.modifyActive Page.clearDirty).run ops = .ok t') :
    t.active.CoveredBy t'.active := by
  have hdrawn : t.active.CoveredBy (t.modifyActive Page.clearDirty).active := by
    rw [active_modifyActive]
    exact .inr fun i => .inl rfl
  refine (foldlM_induction (P := fun u => u.Tracked ∧ t.active.CoveredBy u.active) ?_
    ⟨h.clearDirty, hdrawn⟩ hrun).2
  intro op hop before after hbefore hok
  refine (lasting_coveredBy t.active).operate hbefore hok ?_ fun _ => ?_
  · rintro rfl
    exact absurd hop hops
  · obtain ⟨changed, hactive⟩ := before.exists_active_takeRenderRequest
    refine ⟨hbefore.1.takeRenderRequest, ?_⟩
    rw [hactive]
    exact hbefore.2

/-- **Rows that are not recorded are as they were** when the page was drawn last, whatever has been
done since.  And on every reachable terminal both pages record rows of their screen only, unless all
is to be drawn; without any row, the row that may be recorded is the cursor's. -/
theorem Reachable.redraw_sound (h : t.Reachable) :
    (∀ ops t', .clearDirty ∉ ops → (t.modifyActive Page.clearDirty).run ops = .ok t' →
      ∀ i < t'.active.rows.length, t'.active.cells? i ≠ t.active.cells? i →
        t'.active.fullRedraw = true ∨ i ∈ t'.active.dirty) ∧
      ∀ page ∈ [t.primary, t.alternate], page.fullRedraw = true ∨
        ∀ i ∈ page.dirty, i < page.rows.length ∨ t.rows = 0 ∧ i = 0 := by
  constructor
  · intro ops t' hops hrun i _ hchanged
    rcases coveredBy_of_run h.tracked hops hrun with hredraw | hrows
    · exact .inl hredraw
    · exact .inr ((hrows i).resolve_left hchanged)
  · intro page hpage
    have htracked : page.Tracked t.rows := h.tracked.page hpage
    refine htracked.dirty.imp_right fun hdirty i hi => ?_
    have hle := hdirty i hi
    have hlength := htracked.length_rows
    omega

/-- A wide character is printed over the second half of another and takes that one away. -/
def overprint : List Operation :=
  [.putText ['\u4E2D'], .perform .backspace, .putText ['\u56FD']]

/-- The row of both is recorded. -/
theorem redraw_sound_overprint :
    ∃ t t' : Terminal, t.Reachable ∧ 0 < t.rows ∧
      (t.modifyActive Page.clearDirty).run overprint = .ok t' ∧
      t'.active.cells? 0 ≠ t.active.cells? 0 ∧ t'.active.fullRedraw = false ∧
      0 ∈ t'.active.dirty := by
  have hreachable : (new 3 1 0).Reachable := ⟨3, 1, 0, [], rfl⟩
  have hfacts : (((new 3 1 0).modifyActive Page.clearDirty).run overprint).toOption.map (fun t' =>
      (t'.active.rows.length, t'.active.cells? 0 == (new 3 1 0).active.cells? 0,
        t'.active.fullRedraw)) = some (1, false, false) := by decide +kernel
  cases hrun : ((new 3 1 0).modifyActive Page.clearDirty).run overprint with
  | error fault =>
      rw [hrun] at hfacts
      cases hfacts
  | ok t' =>
      rw [hrun] at hfacts
      simp only [Except.toOption, Option.map_some, Option.some.injEq, Prod.mk.injEq,
        beq_eq_false_iff_ne] at hfacts
      obtain ⟨hlength, hchanged, hredraw⟩ := hfacts
      have hsound := hreachable.redraw_sound.1 overprint t' (by decide) hrun 0 (by omega) hchanged
      exact ⟨_, t', hreachable, Nat.one_pos, hrun, hchanged, hredraw,
        hsound.resolve_left (by simp [hredraw])⟩

/-- **Drawing what is recorded is enough**: a screen on which the page was drawn when it was drawn
last shows, after the recorded rows are drawn, what is to be shown now. -/
theorem Reachable.drawOn_shown (h : t.Reachable) {ops : List Operation} (hops : .clearDirty ∉ ops)
    (hrun : (t.modifyActive Page.clearDirty).run ops = .ok t') :
    t'.active.drawOn (t.active.rows.map Row.cells) = t'.active.rows.map Row.cells :=
  (coveredBy_of_run h.tracked hops hrun).drawOn_eq

end Terminal

end VideoTerminal
