import VideoTerminal.Proofs.Control.Memory
import VideoTerminal.Proofs.Session.Notices
import VideoTerminal.Proofs.Text.Lossy

/-!
# Bytes in pieces

Feeding bytes piece by piece comes to the same as feeding them at once: the same replies, the same
terminal, and the same fault if there is one (`Session.pieces_as_whole`).

One thing may differ.  The owner is told after each piece, and the terminal then forgets what is to
be drawn, unless drawing is suspended.  So while it is suspended, what the terminal remembers of this
depends on the pieces.  `Session.standing` leaves it aside; since all is to be drawn when drawing
goes on, nothing that is done later brings it out (`Session.tellings_congr`).
-/

namespace VideoTerminal

open Text.Utf8

namespace Terminal

/-- The terminal, but while drawing is suspended without what it remembers of what is to be
drawn. -/
def standing (t : Terminal) : Terminal := if t.renderSuspended then t.due else t

/-- What is left aside while drawing is suspended plays no part in `due`. -/
theorem due_standing (t : Terminal) : t.standing.due = t.due := by
  unfold standing
  split <;> rfl

/-- A terminal of which all is to be drawn is suspended as before. -/
theorem renderSuspended_due (t : Terminal) : t.due.renderSuspended = t.renderSuspended := rfl

variable {t u : Terminal}

/-- Terminals that differ only in what is to be drawn are both suspended or both not. -/
theorem renderSuspended_eq_of_due (h : t.due = u.due) : t.renderSuspended = u.renderSuspended := by
  rw [← renderSuspended_due, h, renderSuspended_due]

/-- Two terminals stand for the same if they are the same, or suspended both and different only in
what is to be drawn. -/
theorem standing_eq_iff : t.standing = u.standing ↔
    t.due = u.due ∧ (t.renderSuspended = true ∨ t = u) := by
  constructor
  · intro h
    have hdue : t.due = u.due := by rw [← due_standing, h, due_standing]
    refine ⟨hdue, ?_⟩
    cases hs : t.renderSuspended with
    | true => exact .inl rfl
    | false =>
        rw [standing, standing, ← renderSuspended_eq_of_due hdue, hs] at h
        exact .inr h
  · rintro ⟨hdue, hs | rfl⟩
    · rw [standing, standing, ← renderSuspended_eq_of_due hdue, if_pos hs, if_pos hs, hdue]
    · rfl

/-- Asked what is to be drawn, two terminals that differ in this only come to the same. -/
theorem standing_takeRenderRequest (h : t.due = u.due) :
    t.takeRenderRequest.2.standing = u.takeRenderRequest.2.standing := by
  refine standing_eq_iff.mpr ⟨by simpa using h, ?_⟩
  rw [renderSuspended_takeRenderRequest]
  cases hs : t.renderSuspended with
  | true => exact .inl rfl
  | false => exact .inr (takeRenderRequest_congr h hs)

/-- What is held back or is to be drawn is told by both. -/
theorem takeRenderRequest_fst_congr (h : t.due = u.due) (ht : t.Owing) (hu : u.Owing) :
    t.takeRenderRequest.1 = u.takeRenderRequest.1 := by
  have hsame := renderSuspended_eq_of_due h
  cases hs : t.renderSuspended with
  | true =>
      rw [takeRenderRequest_of_suspended hs, takeRenderRequest_of_suspended (hsame ▸ hs)]
  | false =>
      have hs' : u.renderSuspended = false := hsame ▸ hs
      rw [takeRenderRequest_fst hs, takeRenderRequest_fst hs',
        ht.resolve_left (by simp [hs]), hu.resolve_left (by simp [hs'])]

/-- The title does not depend on what is to be drawn. -/
theorem title_due (t : Terminal) : t.due.title = t.title := rfl

/-- Terminals that stand for the same do so in another size. -/
theorem standing_resize (h : t.standing = u.standing) (cols rows : Nat) :
    (t.resize cols rows).standing = (u.resize cols rows).standing := by
  obtain ⟨hdue, hsame⟩ := standing_eq_iff.mp h
  refine standing_eq_iff.mpr ⟨?_, hsame.imp_right fun hsame => by rw [hsame]⟩
  change t.due.resize cols rows = u.due.resize cols rows
  rw [hdue]

end Terminal

namespace Session

/-- What a session keeps of bytes and of a sequence, the title announced last, and the terminal. -/
def standing (s : Session) : Decoder × Parser × String × Terminal :=
  (s.decoder, s.parser, s.notifier.title, s.terminal.standing)

/-- What has come of bytes. -/
abbrev seen (out : Session × List Reply) : (Decoder × Parser × String × Terminal) × List Reply :=
  (out.1.standing, out.2)

/-- Feeds one piece after another. -/
def feedAll (s : Session) : List (List UInt8) → Except Fault (Session × List Reply)
  | [] => .ok (s, [])
  | piece :: rest => do
    let fed ← s.feed piece
    let more ← fed.1.feedAll rest
    return (more.1, fed.2 ++ more.2)

/-- What the owner hears of calls: for each feed the replies and the events that it sends. -/
def tellings (s : Session) : List Call → Except Fault (List (List Reply × List Event))
  | [] => .ok []
  | .feed bytes :: rest => do
    let fed ← s.feed bytes
    let more ← fed.1.tellings rest
    return (fed.2, fed.1.notifier.events.drop s.notifier.events.length) :: more
  | .resize cols rows :: rest => (s.resize cols rows).tellings rest

/-! ## One feed -/

/-- The owner is told of a terminal. -/
def tell (s : Session) (decoder : Decoder) (i : Interpreter) : Session :=
  { s with
    decoder := decoder
    parser := i.parser
    notifier := (s.notifier.notify i.terminal).1
    terminal := i.terminal.takeRenderRequest.2 }

/-- Feeding bytes decodes them, interprets the text and tells the owner. -/
theorem feed_eq (s : Session) (bytes : List UInt8) :
    s.feed bytes = ((Interpreter.mk s.parser s.terminal).feedText (s.decoder.decode bytes).1).map
      fun out => (s.tell (s.decoder.decode bytes).2 out.1, out.2) := by
  change ((Interpreter.mk s.parser s.terminal).feedText _ >>= fun out =>
    pure (s.tell (s.decoder.decode bytes).2 out.1, out.2)) = _
  cases (Interpreter.mk s.parser s.terminal).feedText (s.decoder.decode bytes).1 with
  | error fault => rfl
  | ok out => rfl

variable {s u : Session}

/-- Terminals that differ only in what is to be drawn stand for the same once that has been told. -/
theorem standing_tell {i j : Interpreter} (h : i.due = j.due) (s u : Session)
    (decoder : Decoder) : (s.tell decoder i).standing = (u.tell decoder j).standing := by
  obtain ⟨hparser, hterminal⟩ := Interpreter.due_eq_iff.mp h
  have htitle : i.terminal.title = j.terminal.title := by
    rw [← Terminal.title_due, hterminal, Terminal.title_due]
  unfold standing tell
  rw [hparser, Terminal.standing_takeRenderRequest hterminal, Notifier.title_notify,
    Notifier.title_notify, htitle]

/-- What a feed comes to depends on what a session has come to. -/
theorem feed_congr {i j : Interpreter} (h : i.due = j.due) (s u : Session) (decoder : Decoder)
    (text : List Char) :
    ((i.feedText text).map fun out => (s.tell decoder out.1, out.2)).map seen =
      ((j.feedText text).map fun out => (u.tell decoder out.1, out.2)).map seen := by
  have hsame := Interpreter.feedText_congr h text
  refine map_bind_congr (x := i.feedText text) (y := j.feedText text)
    (k := fun out => .ok (s.tell decoder out.1, out.2))
    (l := fun out => .ok (u.tell decoder out.1, out.2)) hsame ?_
  rintro ⟨i, replies⟩ ⟨j, replies'⟩ hseen
  obtain ⟨hdue, rfl⟩ : i.due = j.due ∧ replies = replies' := by simpa using hseen
  exact congrArg (fun standing => Except.ok (standing, replies)) (standing_tell hdue s u decoder)

/-! ## Several feeds -/

/-- The replies to what came before come first. -/
def behind (replies : List Reply) (out : Session × List Reply) : Session × List Reply :=
  (out.1, replies ++ out.2)

/-- Replies that came before make no difference. -/
theorem behind_congr {x y : Except Fault (Session × List Reply)} (h : x.map seen = y.map seen)
    (replies : List Reply) :
    (x.map (behind replies)).map seen = (y.map (behind replies)).map seen := by
  cases hx : x with
  | error fault =>
      rw [error_of_map_eq h hx]
  | ok out =>
      obtain ⟨out', hy, hsame⟩ := exists_ok_of_map_eq h hx
      rw [hy]
      obtain ⟨hstanding, hreplies⟩ := Prod.mk.inj hsame
      change Except.ok (out.1.standing, replies ++ out.2) =
        Except.ok (out'.1.standing, replies ++ out'.2)
      rw [hstanding, hreplies]

/-- **Two pieces.** -/
theorem feed_append (s : Session) (piece more : List UInt8) :
    (s.feed piece >>= fun fed => (fed.1.feed more).map (behind fed.2)).map seen =
      (s.feed (piece ++ more)).map seen := by
  rw [feed_eq s piece, feed_eq s (piece ++ more), Decoder.decode_decode,
    Interpreter.feedText_append]
  cases (Interpreter.mk s.parser s.terminal).feedText (s.decoder.decode piece).1 with
  | error fault => rfl
  | ok first =>
      obtain ⟨i, replies⟩ := first
      have hdue : (Interpreter.mk i.parser i.terminal.takeRenderRequest.2).due = i.due := by
        simp [Interpreter.due]
      have hsame := feed_congr hdue (s.tell (s.decoder.decode piece).2 i) s
        ((s.decoder.decode piece).2.decode more).2 ((s.decoder.decode piece).2.decode more).1
      change (((s.tell (s.decoder.decode piece).2 i).feed more).map (behind replies)).map seen = _
      rw [feed_eq]
      refine (behind_congr hsame replies).trans ?_
      change _ = (((i.feedText _).map fun more => (more.1, replies ++ more.2)).map _).map seen
      cases i.feedText ((s.decoder.decode piece).2.decode more).1 with
      | error fault => rfl
      | ok out => rfl

/-- **Any pieces**, if there are any. -/
theorem feedAll_eq {pieces : List (List UInt8)} (h : pieces ≠ []) (s : Session) :
    (s.feedAll pieces).map seen = (s.feed pieces.flatten).map seen := by
  induction pieces generalizing s with
  | nil => exact absurd rfl h
  | cons piece rest ih =>
      rw [List.flatten_cons]
      cases rest with
      | nil =>
          rw [List.flatten_nil, List.append_nil, feedAll]
          cases s.feed piece with
          | error fault => rfl
          | ok fed =>
              exact congrArg (fun replies => Except.ok (fed.1.standing, replies))
                (List.append_nil fed.2)
      | cons next rest =>
          rw [← feed_append, feedAll]
          cases s.feed piece with
          | error fault => rfl
          | ok fed =>
              have hsame := behind_congr (ih (List.cons_ne_nil next rest) fed.1) fed.2
              refine Eq.trans ?_ hsame
              change (fed.1.feedAll (next :: rest) >>= _).map seen = _
              cases fed.1.feedAll (next :: rest) with
              | error fault => rfl
              | ok more => rfl

/-! ## What is heard later -/

theorem standing_eq_iff : s.standing = u.standing ↔
    s.decoder = u.decoder ∧ s.parser = u.parser ∧ s.notifier.title = u.notifier.title ∧
      s.terminal.standing = u.terminal.standing := by
  simp [standing]

/-- The owner is told of output, if there is something to be drawn, and then of a new title. -/
theorem events_tell (s : Session) (decoder : Decoder) (i : Interpreter) :
    (s.tell decoder i).notifier.events.drop s.notifier.events.length =
      (if i.terminal.takeRenderRequest.1 then [.output] else []) ++
        (if s.notifier.title = i.terminal.title then [] else [.titleChanged i.terminal.title]) := by
  change (s.notifier.notify i.terminal).1.events.drop _ = _
  rw [Notifier.events_notify, List.append_assoc, List.drop_left]

/-- What a text leaves to be drawn is told alike. -/
theorem takeRenderRequest_feedText (h : s.standing = u.standing) (hs : s.terminal.Tracked)
    (hu : u.terminal.Tracked) {text : List Char} {i j : Interpreter} {replies replies' : List Reply}
    (hi : (Interpreter.mk s.parser s.terminal).feedText text = .ok (i, replies))
    (hj : (Interpreter.mk u.parser u.terminal).feedText text = .ok (j, replies'))
    (hdue : i.due = j.due) :
    i.terminal.takeRenderRequest.1 = j.terminal.takeRenderRequest.1 := by
  obtain ⟨-, hparser, -, hterminal⟩ := standing_eq_iff.mp h
  obtain ⟨hsame, hsuspended | hequal⟩ := Terminal.standing_eq_iff.mp hterminal
  · -- What is held back is owed, whatever is remembered of it.
    have howing : ∀ {s : Session} {i : Interpreter} {replies : List Reply},
        s.terminal.Tracked → s.terminal.renderSuspended = true →
        (Interpreter.mk s.parser s.terminal).feedText text = .ok (i, replies) →
          i.terminal.Owing := by
      intro s i replies hs hsuspended hi
      exact (Terminal.lasting_owing.operate ⟨hs, .inl hsuspended⟩ (Terminal.operate_feed hi)
        nofun nofun).2
    have hsuspended' := (Terminal.renderSuspended_eq_of_due hsame).symm.trans hsuspended
    exact Terminal.takeRenderRequest_fst_congr (Interpreter.due_eq_iff.mp hdue).2
      (howing hs hsuspended hi) (howing hu hsuspended' hj)
  · rw [hparser, hequal, hj] at hi
    obtain ⟨rfl, -⟩ := Prod.mk.inj (Except.ok.inj hi)
    rfl

/-- Telling the owner keeps the record to rows of the screen. -/
theorem tracked_tell {i : Interpreter} {text : List Char} {replies : List Reply} (decoder : Decoder)
    (hs : s.terminal.Tracked)
    (hi : (Interpreter.mk s.parser s.terminal).feedText text = .ok (i, replies)) :
    (s.tell decoder i).terminal.Tracked :=
  (Terminal.lasting_tracked.operate hs (Terminal.operate_feed hi) nofun nofun).takeRenderRequest

/-- **What a session has come to decides what is heard of it later.** -/
theorem tellings_congr (h : s.standing = u.standing) (hs : s.terminal.Tracked)
    (hu : u.terminal.Tracked) (calls : List Call) : s.tellings calls = u.tellings calls := by
  induction calls generalizing s u with
  | nil => rfl
  | cons c rest ih =>
      obtain ⟨hdecoder, hparser, htitle, hterminal⟩ := standing_eq_iff.mp h
      obtain ⟨hdue, -⟩ := Terminal.standing_eq_iff.mp hterminal
      cases c with
      | feed bytes =>
          have hinterpreter : (Interpreter.mk s.parser s.terminal).due =
              (Interpreter.mk u.parser u.terminal).due :=
            Interpreter.due_eq_iff.mpr ⟨hparser, hdue⟩
          rw [tellings, tellings, feed_eq, feed_eq, hdecoder]
          generalize u.decoder.decode bytes = decoded
          have hsame := Interpreter.feedText_congr hinterpreter decoded.1
          cases hi : (Interpreter.mk s.parser s.terminal).feedText decoded.1 with
          | error fault =>
              have hj : (Interpreter.mk u.parser u.terminal).feedText decoded.1 = .error fault :=
                error_of_map_eq hsame hi
              rw [hj]
              rfl
          | ok out =>
              obtain ⟨⟨j, replies'⟩, hj, hseen⟩ := exists_ok_of_map_eq hsame hi
              obtain ⟨i, replies⟩ := out
              obtain ⟨hdue, rfl⟩ : i.due = j.due ∧ replies = replies' := by simpa using hseen
              have hj : (Interpreter.mk u.parser u.terminal).feedText decoded.1 =
                .ok (j, replies) := hj
              rw [hj]
              change ((s.tell decoded.2 i).tellings rest >>= fun more =>
                  .ok ((replies, (s.tell decoded.2 i).notifier.events.drop _) :: more)) =
                ((u.tell decoded.2 j).tellings rest >>= fun more =>
                  .ok ((replies, (u.tell decoded.2 j).notifier.events.drop _) :: more))
              have htitles : i.terminal.title = j.terminal.title := by
                rw [← Terminal.title_due, (Interpreter.due_eq_iff.mp hdue).2, Terminal.title_due]
              rw [events_tell, events_tell, takeRenderRequest_feedText h hs hu hi hj hdue, htitle,
                htitles, ih (standing_tell hdue s u decoded.2) (tracked_tell decoded.2 hs hi)
                  (tracked_tell decoded.2 hu hj)]
      | resize cols rows =>
          refine ih (standing_eq_iff.mpr ⟨hdecoder, hparser, htitle, ?_⟩)
            (Terminal.lasting_tracked.resize hs cols rows)
            (Terminal.lasting_tracked.resize hu cols rows)
          exact Terminal.standing_resize hterminal cols rows

/-! ## In pieces and as a whole -/

/-- Feeding keeps the record to rows of the screen. -/
theorem tracked_feed {s' : Session} {bytes : List UInt8} {replies : List Reply}
    (hs : s.terminal.Tracked) (h : s.feed bytes = .ok (s', replies)) : s'.terminal.Tracked := by
  rw [feed_eq] at h
  cases hi : (Interpreter.mk s.parser s.terminal).feedText (s.decoder.decode bytes).1 with
  | error fault =>
      rw [hi] at h
      cases h
  | ok out =>
      rw [hi] at h
      obtain rfl := congrArg Prod.fst (Except.ok.inj h)
      exact tracked_tell _ hs hi

theorem tracked_feedAll {s' : Session} {pieces : List (List UInt8)} {replies : List Reply}
    (hs : s.terminal.Tracked) (h : s.feedAll pieces = .ok (s', replies)) :
    s'.terminal.Tracked := by
  induction pieces generalizing s replies with
  | nil =>
      obtain rfl := congrArg Prod.fst (Except.ok.inj h)
      exact hs
  | cons piece rest ih =>
      obtain ⟨⟨fed, first⟩, hfed, hmore⟩ := Terminal.exists_of_bind_eq_ok h
      obtain ⟨⟨last, more⟩, hrest, hend⟩ := Terminal.exists_of_bind_eq_ok hmore
      obtain rfl := congrArg Prod.fst (Except.ok.inj hend)
      exact ih (tracked_feed hs hfed) hrest

/-- Nothing that is heard later tells pieces and the whole apart. -/
theorem tellings_feedAll (hs : s.terminal.Tracked) {pieces : List (List UInt8)} (h : pieces ≠ [])
    (later : List Call) :
    (s.feedAll pieces >>= fun out => out.1.tellings later) =
      (s.feed pieces.flatten >>= fun out => out.1.tellings later) := by
  have hsame := feedAll_eq h s
  cases hall : s.feedAll pieces with
  | error fault => rw [error_of_map_eq hsame hall]
  | ok out =>
      obtain ⟨out', hwhole, hseen⟩ := exists_ok_of_map_eq hsame hall
      rw [hwhole]
      exact tellings_congr (Prod.mk.inj hseen).1 (tracked_feedAll hs hall)
        (tracked_feed hs hwhole) later

/-- **Bytes in pieces are as the whole.**  A decoder that is given them piece by piece says what the
lossy decoding of the whole is, the character of its end included.  What it keeps is at most three
bytes, and is what cuts the bytes off at their end, if anything does.  It says no more characters
than it is given bytes.

A session that is fed piece by piece, whatever was done to it before, comes to the same as when it is
fed the whole: the same replies and the same terminal, or the same fault.  No later feeds and changes
of size tell the two apart. -/
theorem pieces_as_whole (pieces : List (List UInt8)) :
    let read := Decoder.decodeAll {} pieces
    (∀ text, Lossy pieces.flatten text ↔ text = read.1 ++ read.2.finish.1) ∧
    read.2.pending.length ≤ 3 ∧
    (∀ part, part ≠ [] ∧ part = read.2.pending ↔ CutOff part ∧ part <:+ pieces.flatten) ∧
    read.1.length + read.2.pending.length ≤ pieces.flatten.length ∧
    ∀ id options earlier w, (Watch.new id options).run earlier = .ok w → pieces ≠ [] →
      (w.session.feedAll pieces).map seen = (w.session.feed pieces.flatten).map seen ∧
      ∀ later, (w.session.feedAll pieces >>= fun out => out.1.tellings later) =
        (w.session.feed pieces.flatten >>= fun out => out.1.tellings later) := by
  intro read
  have hread : read = Decoder.decode {} pieces.flatten :=
    Decoder.decodeAll_eq Decoder.inconclusive_new pieces
  have hpending : read.2.pending = (scan [] pieces.flatten).2 := by rw [hread]; rfl
  refine ⟨?_, ?_, ?_, ?_, ?_⟩
  · intro text
    have hwhole := Decoder.decode_append {} pieces.flatten []
    rw [List.append_nil, List.append_nil] at hwhole
    rw [lossy_iff, hread, Decoder.finish_eq (Decoder.inconclusive_decode {} pieces.flatten),
      ← hwhole]
    rfl
  · rw [hpending]
    rcases scan_snd_cutOff [] pieces.flatten with hnil | hcut
    · rw [hnil]
      exact Nat.zero_le _
    · exact hcut.length_le
  · intro part
    rw [hpending]
    exact scan_snd_iff [] pieces.flatten
  · have hlen := length_scan_le [] pieces.flatten
    rw [hpending, hread]
    simpa [Decoder.decode] using hlen
  · intro id options earlier w hrun hpieces
    have htracked := ((Watch.Sound.new id options).run hrun).tracked
    exact ⟨feedAll_eq hpieces w.session, tellings_feedAll htracked hpieces⟩

/-- A character that is cut at each of its bytes. -/
theorem pieces_as_whole_cut :
    let s := Session.new 0 { cols := 3, rows := 1 }
    (s.feedAll [[0xE4], [0xB8], [0xAD]]).map seen = (s.feed [0xE4, 0xB8, 0xAD]).map seen :=
  ((pieces_as_whole [[0xE4], [0xB8], [0xAD]]).2.2.2.2 0 { cols := 3, rows := 1 } [] _ rfl
    (by decide)).1

end Session

end VideoTerminal
