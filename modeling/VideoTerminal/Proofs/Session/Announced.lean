import VideoTerminal.Proofs.Session.Notices
import VideoTerminal.Proofs.Terminal.Touches

/-!
# Which cursors are announced

The owner of a session draws the cursor with the screen, but hears of a feed only if something is to
be drawn.  Most motions of the cursor ask for no drawing (`Terminal.touches`), and neither do its
visibility and its shape.  So a cursor that has changed is announced if and only if something was
left to be drawn before the feed, or one of the actions that were fed asks for it
(`Session.moved_cursor_announced_iff`).
-/

namespace VideoTerminal

/-- What is shown of a cursor. -/
def Cursor.shown (c : Cursor) : Nat × Nat × Bool × CursorShape := (c.row, c.col, c.visible, c.shape)

namespace Session

/-- What bytes ask of the terminal. -/
def actions (s : Session) (bytes : List UInt8) : List Action :=
  (s.parser.read (s.decoder.decode bytes).1).2

/-- The events that have been sent since the session was `s`. -/
def sentSince (s s' : Session) : List Event := s'.notifier.events.drop s.notifier.events.length

/-- Whether a feed comes to something that is to be drawn. -/
def draws (s : Session) (bytes : List UInt8) : Bool :=
  s.terminal.pending || s.terminal.touchesAny (s.actions bytes)

variable {s s' : Session} {bytes : List UInt8} {replies : List Reply}

/-- A feed carries out its actions, and then the owner is told. -/
theorem exists_told_of_feed (hheld : s.terminal.HeldByMode)
    (hfeed : s.feed bytes = .ok (s', replies))
    (hoff : s'.terminal.has .synchronizedUpdate = false) :
    ∃ t, s'.notifier = (s.notifier.notify t).1 ∧ s'.terminal = t.takeRenderRequest.2 ∧
      t.renderSuspended = false ∧ t.pending = s.draws bytes := by
  obtain ⟨t, htext, hnotifier, hterminal⟩ := exists_of_feed hfeed
  obtain ⟨more, hperform⟩ := Terminal.exists_performAll_of_feed htext
  refine ⟨t, hnotifier, hterminal, ?_, Terminal.pending_of_performAll_eq hperform⟩
  have hlasts := Terminal.lasting_heldByMode.performAll hheld hperform
  rwa [hterminal, Terminal.has, Terminal.modes_takeRenderRequest, ← Terminal.has, ← hlasts] at hoff

/-- **What is sent for a feed** that leaves synchronized updates off. -/
theorem sentSince_of_feed (hheld : s.terminal.HeldByMode)
    (hfeed : s.feed bytes = .ok (s', replies))
    (hoff : s'.terminal.has .synchronizedUpdate = false) :
    s.sentSince s' = (if s.draws bytes then [.output] else []) ++
      (if s.notifier.title = s'.title then [] else [.titleChanged s'.title]) := by
  obtain ⟨t, hnotifier, hterminal, hdrawing, hpending⟩ :=
    exists_told_of_feed hheld hfeed hoff
  rw [sentSince, hnotifier, Notifier.events_notify, List.append_assoc, List.drop_left,
    Terminal.takeRenderRequest_fst hdrawing, hpending, title, hterminal,
    Terminal.title_takeRenderRequest]

/-- **Output is announced** exactly if the bytes draw, where the screen is not held back. -/
theorem output_mem_sentSince_iff (hheld : s.terminal.HeldByMode)
    (hfeed : s.feed bytes = .ok (s', replies))
    (hoff : s'.terminal.has .synchronizedUpdate = false) :
    .output ∈ s.sentSince s' ↔ s.draws bytes = true := by
  rw [sentSince_of_feed hheld hfeed hoff]
  cases s.draws bytes with
  | true => simp
  | false => by_cases htitle : s.notifier.title = s'.title <;> simp [htitle]

/-- What has been told of is not left to be drawn. -/
theorem pending_of_feed (hheld : s.terminal.HeldByMode)
    (hfeed : s.feed bytes = .ok (s', replies))
    (hoff : s'.terminal.has .synchronizedUpdate = false) : s'.terminal.pending = false := by
  obtain ⟨t, -, hterminal, hdrawing, -⟩ := exists_told_of_feed hheld hfeed hoff
  rw [hterminal, Terminal.takeRenderRequest, hdrawing]
  rfl

/-- **When a moved cursor is announced.**  Bytes are fed to a session, and synchronized updates are
off in the end.  One event is sent for what is to be drawn if something was left to be drawn before,
as in a fresh session or after a change of size, or if one of the actions asks for it; nothing is
left then.  So a cursor whose row, column, visibility or shape has changed is announced in these
cases only.

On screens of addressable sizes the feed goes through. -/
theorem moved_cursor_announced_iff (s : Session) (bytes : List UInt8)
    (hheld : s.terminal.HeldByMode) :
    (∀ s' replies, s.feed bytes = .ok (s', replies) →
      s'.terminal.has .synchronizedUpdate = false →
        s.sentSince s' = (if s.draws bytes then [.output] else []) ++
          (if s.notifier.title = s'.title then [] else [.titleChanged s'.title]) ∧
        s'.terminal.pending = false ∧
        ((s'.terminal.cursor.shown ≠ s.terminal.cursor.shown → .output ∈ s.sentSince s') ↔
          s'.terminal.cursor.shown = s.terminal.cursor.shown ∨ s.terminal.pending = true ∨
            s.terminal.touchesAny (s.actions bytes) = true)) ∧
    ∀ cols rows limit, s.terminal.WellFormed cols rows limit →
      ∃ s' replies, s.feed bytes = .ok (s', replies) := by
  constructor
  · intro s' replies hfeed hoff
    refine ⟨sentSince_of_feed hheld hfeed hoff, pending_of_feed hheld hfeed hoff, ?_⟩
    rw [output_mem_sentSince_iff hheld hfeed hoff, draws, Bool.or_eq_true]
    tauto
  · intro cols rows limit h
    obtain ⟨s', replies, hfeed, -⟩ := exists_feed h bytes
    exact ⟨s', replies, hfeed⟩

/-- A letter has been printed in a fresh session. -/
def afterLetter : Except Fault (Session × List Reply) :=
  (Session.new 0 { cols := 5, rows := 1 }).feed (Text.Utf8.encode ['a'])

/-- A carriage return is announced. -/
theorem moved_cursor_announced_iff_return :
    ∃ s s' replies more, afterLetter = .ok (s, more) ∧ s.terminal.HeldByMode ∧
      s.feed (Text.Utf8.encode ['\r']) = .ok (s', replies) ∧
      s'.terminal.has .synchronizedUpdate = false ∧ s.terminal.pending = false ∧
      s.terminal.touchesAny (s.actions (Text.Utf8.encode ['\r'])) = true ∧
      s'.terminal.cursor.shown ≠ s.terminal.cursor.shown ∧ s.sentSince s' = [.output] := by
  have hfacts : (afterLetter.toOption.bind fun out =>
      (out.1.feed (Text.Utf8.encode ['\r'])).toOption.map fun fed =>
        (decide (out.1.terminal.renderSuspended = out.1.terminal.has .synchronizedUpdate ∧
            fed.1.terminal.has .synchronizedUpdate = false ∧ out.1.terminal.pending = false ∧
            out.1.terminal.touchesAny (out.1.actions (Text.Utf8.encode ['\r'])) = true ∧
            fed.1.terminal.cursor.shown ≠ out.1.terminal.cursor.shown ∧
            out.1.notifier.title = fed.1.title))) = some true := by
    decide +kernel
  obtain ⟨⟨s, more⟩, hletter, hrest⟩ := Option.bind_eq_some_iff.mp hfacts
  obtain ⟨⟨s', replies⟩, hfeed, hdecide⟩ := Option.map_eq_some_iff.mp hrest
  obtain ⟨hheld, hoff, hpending, htouches, hmoved, htitle⟩ := of_decide_eq_true hdecide
  have hfeed := Terminal.eq_ok_of_toOption hfeed
  obtain ⟨hsent, -, hiff⟩ :=
    (moved_cursor_announced_iff s (Text.Utf8.encode ['\r']) hheld).1 s' replies hfeed hoff
  refine ⟨s, s', replies, more, Terminal.eq_ok_of_toOption hletter, hheld, hfeed, hoff, hpending,
    htouches, hmoved, ?_⟩
  rw [hsent, draws, htouches, Bool.or_true, if_pos rfl, if_pos htitle, List.append_nil]

/-- A cursor that goes forward is not. -/
theorem not_moved_cursor_announced :
    ¬ ∀ (s s' : Session) (bytes : List UInt8) (replies : List Reply), s.terminal.HeldByMode →
      s.terminal.has .synchronizedUpdate = false → s.feed bytes = .ok (s', replies) →
      s'.terminal.has .synchronizedUpdate = false →
      s'.terminal.cursor.shown ≠ s.terminal.cursor.shown → .output ∈ s.sentSince s' := by
  intro hall
  have hfacts : (afterLetter.toOption.bind fun out =>
      (out.1.feed (Text.Utf8.encode "\x1b[3C".toList)).toOption.map fun fed =>
        (decide (out.1.terminal.renderSuspended = out.1.terminal.has .synchronizedUpdate ∧
            out.1.terminal.has .synchronizedUpdate = false ∧
            fed.1.terminal.has .synchronizedUpdate = false ∧
            fed.1.terminal.cursor.shown ≠ out.1.terminal.cursor.shown ∧
            .output ∉ out.1.sentSince fed.1))) = some true := by
    decide +kernel
  obtain ⟨⟨s, more⟩, -, hrest⟩ := Option.bind_eq_some_iff.mp hfacts
  obtain ⟨⟨s', replies⟩, hfeed, hdecide⟩ := Option.map_eq_some_iff.mp hrest
  obtain ⟨hheld, hon, hoff, hmoved, hsilent⟩ := of_decide_eq_true hdecide
  exact hsilent (hall s s' _ replies hheld hon (Terminal.eq_ok_of_toOption hfeed) hoff hmoved)

end Session

end VideoTerminal
