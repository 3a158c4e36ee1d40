import Mathlib.Data.List.Chain
import VideoTerminal.Proofs.Terminal.RenderRequest
import VideoTerminal.Proofs.Terminal.Run
import VideoTerminal.Session

/-!
# What the owner is told

A session tells its owner after each feed.  What it tells is about the terminal as the feed has left
it, however much has happened on the way: one event at most for what is to be drawn, one at most for
the title, and the modes (`Session.notices_of_run`).

The session decides by two memories of its own: the notifier's copy of the title, which is the title
of the last event about one (`Notifier.Faithful`), and the terminal's record of what has changed.
Of this it is known that there is something to be drawn unless the screen shows what it showed at
the end of the last feed with drawing switched on (`Terminal.Settled`).
-/

namespace VideoTerminal

/-- The title that an event announces. -/
def Event.title? : Event → Option String
  | .titleChanged title => some title
  | _ => none

namespace Notifier

/-- The titles that have been announced, the oldest first. -/
def titles (n : Notifier) : List String := n.events.filterMap Event.title?

/-- The title announced last; a fresh terminal has none. -/
def lastTitle (n : Notifier) : String := n.titles.getLastD ""

/-- What the owner was told of titles agrees with the copy that is kept, and no title was announced
twice in a row. -/
structure Faithful (n : Notifier) : Prop where
  last : n.lastTitle = n.title
  chain : List.IsChain (· ≠ ·) ("" :: n.titles)

/-- **What is sent**: at most one event for what is to be drawn, and behind it at most one for the
title. -/
theorem events_notify (n : Notifier) (t : Terminal) :
    (n.notify t).1.events =
      n.events ++ (if t.takeRenderRequest.1 then [.output] else []) ++
        (if n.title = t.title then [] else [.titleChanged t.title]) := by
  unfold notify announceTitle
  dsimp only
  cases t.takeRenderRequest.1 <;> by_cases htitle : n.title = t.title <;>
    simp [send, publish, htitle]

/-- A title is announced if it is a new one. -/
theorem titles_notify (n : Notifier) (t : Terminal) :
    (n.notify t).1.titles = n.titles ++ if n.title = t.title then [] else [t.title] := by
  rw [titles, events_notify, List.filterMap_append, List.filterMap_append]
  cases t.takeRenderRequest.1 <;> by_cases htitle : n.title = t.title <;>
    simp [titles, htitle, Event.title?]

/-- After a notice the titles announced are still the ones there were. -/
theorem Faithful.notify {n : Notifier} (h : n.Faithful) (t : Terminal) :
    (n.notify t).1.Faithful := by
  by_cases htitle : n.title = t.title
  · have hsame : (n.notify t).1.titles = n.titles := by
      rw [titles_notify, if_pos htitle, List.append_nil]
    refine ⟨?_, hsame ▸ h.chain⟩
    rw [lastTitle, hsame, title_notify, ← htitle]
    exact h.last
  · have hmore : (n.notify t).1.titles = n.titles ++ [t.title] := by
      rw [titles_notify, if_neg htitle]
    constructor
    · rw [lastTitle, hmore, title_notify, List.getLastD_concat]
    · rw [hmore, ← List.cons_append, List.isChain_append]
      refine ⟨h.chain, List.isChain_singleton _, ?_⟩
      intro last hlast title htitle'
      obtain rfl : t.title = title := by simpa using htitle'
      obtain rfl : n.title = last := by
        rw [List.getLast?_cons, ← List.getLastD_eq_getLast?] at hlast
        exact h.last.symm.trans (Option.some.inj hlast)
      exact htitle

end Notifier

namespace Terminal

/-- The cells that are shown. -/
def shownCells (t : Terminal) : List Cells := t.active.rows.map Row.cells

/-- There is something to be drawn, or the screen shows what was drawn last. -/
def Settled (drawn : Option (List Cells)) (t : Terminal) : Prop :=
  t.pending = true ∨ drawn = some t.shownCells

variable {t t' : Terminal} {drawn : Option (List Cells)}

/-- Feeding is one of the operations of a terminal. -/
theorem operate_feed {i : Interpreter} {parser : Parser} {text : List Char} {replies : List Reply}
    (h : (Interpreter.mk parser t).feedText text = .ok (i, replies)) :
    t.operate (.feed parser text) = .ok i.terminal := by
  rw [operate, h]
  rfl

/-- A request to render leaves what is shown. -/
theorem shownCells_takeRenderRequest (t : Terminal) :
    t.takeRenderRequest.2.shownCells = t.shownCells := by
  obtain ⟨changed, hactive⟩ := t.exists_active_takeRenderRequest
  rw [shownCells, hactive]
  rfl

/-- A request to render leaves the title. -/
theorem title_takeRenderRequest (t : Terminal) : t.takeRenderRequest.2.title = t.title := by
  unfold takeRenderRequest
  split <;> rfl

/-- Where every change is recorded, there is something to be drawn or nothing has changed. -/
theorem Recorded.settled (h : t.Recorded t') (hsettled : t.Settled drawn) : t'.Settled drawn := by
  rcases hsettled with hpending | rfl
  · exact .inl (h.pending hpending)
  · refine (h.pristine (p := t.active) (.inr fun _ => rfl)).imp_right fun hcells => ?_
    refine congrArg some (List.ext_getElem? fun i => ?_)
    rw [shownCells, shownCells, List.getElem?_map, List.getElem?_map]
    exact (hcells i).symm

/-- Whatever happens, the screen shows what was drawn or is to be drawn. -/
theorem lasting_settled (drawn : Option (List Cells)) :
    Lasting fun t => t.Tracked ∧ t.Settled drawn :=
  .of_recorded And.left fun ⟨_, hsettled⟩ h => ⟨h.tracked, h.settled hsettled⟩

end Terminal

namespace Session

/-- What an owner does to a session that it feeds by hand. -/
inductive Call
  | feed (bytes : List UInt8)
  | resize (cols rows : Nat)
  deriving DecidableEq

/-- Whether a size that is asked for is addressable. -/
def Call.Admissible : Call → Prop
  | .feed _ => True
  | .resize cols rows => Addressable cols rows

instance : DecidablePred Call.Admissible := fun c => by
  unfold Call.Admissible; split <;> infer_instance

/-- A session, and what its screen showed at the end of the last feed that left synchronized updates
off. -/
structure Watch where
  session : Session
  drawn : Option (List Cells) := none

namespace Watch

/-- A session that has not been fed. -/
def new (id : Nat) (options : Options) : Watch := { session := .new id options }

/-- What is left by a feed. -/
def fed (w : Watch) (s : Session) : Watch where
  session := s
  drawn := if s.terminal.has .synchronizedUpdate then w.drawn else some s.terminal.shownCells

/-- Does what the owner does. -/
def call (w : Watch) : Call → Except Fault Watch
  | .feed bytes => return w.fed (← w.session.feed bytes).1
  | .resize cols rows => .ok { w with session := w.session.resize cols rows }

/-- Does one call after another. -/
def run (w : Watch) (calls : List Call) : Except Fault Watch := calls.foldlM call w

/-- What all calls keep. -/
structure Sound (w : Watch) : Prop where
  faithful : w.session.notifier.Faithful
  held : w.session.terminal.HeldByMode
  tracked : w.session.terminal.Tracked
  settled : w.session.terminal.Settled w.drawn

end Watch

/-- A feed interprets a text and then tells the owner. -/
theorem exists_of_feed {s s' : Session} {bytes : List UInt8} {replies : List Reply}
    (h : s.feed bytes = .ok (s', replies)) :
    ∃ t, s.terminal.operate (.feed s.parser (s.decoder.decode bytes).1) = .ok t ∧
      s'.notifier = (s.notifier.notify t).1 ∧ s'.terminal = t.takeRenderRequest.2 := by
  obtain ⟨⟨i, more⟩, htext, hend⟩ := Terminal.exists_of_bind_eq_ok h
  obtain rfl := congrArg Prod.fst (Except.ok.inj hend)
  exact ⟨i.terminal, Terminal.operate_feed htext, rfl, rfl⟩

namespace Watch.Sound

variable {w : Watch}

/-- At the start nothing has been drawn, and all is to be. -/
theorem new (id : Nat) (options : Options) : (Watch.new id options).Sound where
  faithful := ⟨rfl, List.isChain_singleton _⟩
  held := Terminal.heldByMode_new _ _ _
  tracked := Terminal.Tracked.new _ _ _
  settled := .inl rfl

/-- A new size leaves everything to be drawn. -/
theorem resize (h : w.Sound) (cols rows : Nat) :
    Sound { w with session := w.session.resize cols rows } where
  faithful := h.faithful
  held := Terminal.lasting_heldByMode.resize h.held cols rows
  tracked := Terminal.lasting_tracked.resize h.tracked cols rows
  settled := ((Terminal.lasting_settled w.drawn).resize ⟨h.tracked, h.settled⟩ cols rows).2

/-- The terminal that a feed tells of. -/
theorem exists_told (h : w.Sound) {s : Session} {bytes : List UInt8} {replies : List Reply}
    (hfeed : w.session.feed bytes = .ok (s, replies)) :
    ∃ t : Terminal, t.HeldByMode ∧ t.Tracked ∧ t.Settled w.drawn ∧
      s.notifier = (w.session.notifier.notify t).1 ∧ s.terminal = t.takeRenderRequest.2 := by
  obtain ⟨t, htext, hnotifier, hterminal⟩ := exists_of_feed hfeed
  have hlasts : ∀ {P : Terminal → Prop}, Terminal.Lasting P → P w.session.terminal → P t :=
    fun hP hw => hP.operate hw htext nofun nofun
  exact ⟨t, hlasts Terminal.lasting_heldByMode h.held, hlasts Terminal.lasting_tracked h.tracked,
    (hlasts (Terminal.lasting_settled w.drawn) ⟨h.tracked, h.settled⟩).2, hnotifier, hterminal⟩

/-- **One feed.** -/
theorem fed (h : w.Sound) {s : Session} {bytes : List UInt8} {replies : List Reply}
    (hfeed : w.session.feed bytes = .ok (s, replies)) : (w.fed s).Sound := by
  obtain ⟨t, hheld, htracked, hsettled, hnotifier, hterminal⟩ := h.exists_told hfeed
  refine ⟨?_, ?_, ?_, ?_⟩
  · change s.notifier.Faithful
    rw [hnotifier]
    exact h.faithful.notify t
  · change s.terminal.HeldByMode
    rw [hterminal, Terminal.HeldByMode, Terminal.renderSuspended_takeRenderRequest, Terminal.has,
      Terminal.modes_takeRenderRequest]
    exact hheld
  · change s.terminal.Tracked
    rw [hterminal]
    exact htracked.takeRenderRequest
  · cases hon : s.terminal.has .synchronizedUpdate with
    | false => exact .inr (by simp [Watch.fed, hon])
    | true =>
        -- Nothing is forgotten while drawing is suspended.
        have hsuspended : t.renderSuspended = true := by
          rw [hheld, ← hon, hterminal, Terminal.has, Terminal.has, Terminal.modes_takeRenderRequest]
        have hsame : s.terminal = t := by
          rw [hterminal, Terminal.takeRenderRequest_of_suspended hsuspended]
        have hdrawn : (w.fed s).drawn = w.drawn := by simp [Watch.fed, hon]
        rw [hdrawn]
        change s.terminal.Settled w.drawn
        rw [hsame]
        exact hsettled

/-- One call. -/
theorem call (h : w.Sound) {c : Call} {w' : Watch} (hcall : w.call c = .ok w') : w'.Sound := by
  cases c with
  | feed bytes =>
      obtain ⟨⟨s, replies⟩, hfeed, hend⟩ := Terminal.exists_of_bind_eq_ok hcall
      obtain rfl := Except.ok.inj hend
      exact h.fed hfeed
  | resize cols rows =>
      obtain rfl := Except.ok.inj hcall
      exact h.resize cols rows

/-- Calls one after the other keep what was announced in step with what is shown. -/
theorem run (h : w.Sound) {calls : List Call} {w' : Watch} (hrun : w.run calls = .ok w') :
    w'.Sound :=
  Terminal.foldlM_induction (fun _ _ _ _ hbefore hcall => call hbefore hcall) h hrun

end Watch.Sound

/-! ## Calls go through -/

section WellFormed

variable {cols rows limit : Nat}

/-- Feeding a session never fails, on a size that can be counted. -/
theorem exists_feed {s : Session} (h : s.terminal.WellFormed cols rows limit)
    (bytes : List UInt8) :
    ∃ s' replies, s.feed bytes = .ok (s', replies) ∧ s'.terminal.WellFormed cols rows limit := by
  obtain ⟨i, replies, htext, hi⟩ := Terminal.WellFormed.exists_feedText
    (i := ⟨s.parser, s.terminal⟩) h (s.decoder.decode bytes).1
  rw [feed, htext]
  exact ⟨_, replies, rfl, hi.takeRenderRequest⟩

/-- No call fails, on a size that can be counted. -/
theorem Watch.exists_call {w : Watch} (h : w.session.terminal.WellFormed cols rows limit)
    {c : Call} (hc : c.Admissible) :
    ∃ w' cols' rows', w.call c = .ok w' ∧ w'.session.terminal.WellFormed cols' rows' limit := by
  cases c with
  | feed bytes =>
      obtain ⟨s, replies, hfeed, hs⟩ := exists_feed h bytes
      refine ⟨w.fed s, cols, rows, ?_, hs⟩
      rw [call, hfeed]
      rfl
  | resize newCols newRows => exact ⟨_, newCols, newRows, rfl, h.resize hc⟩

/-- Calls one after the other do not fail either. -/
theorem Watch.exists_run {w : Watch} (h : w.session.terminal.WellFormed cols rows limit)
    {calls : List Call} (hcalls : ∀ c ∈ calls, c.Admissible) :
    ∃ w' cols' rows', w.run calls = .ok w' ∧ w'.session.terminal.WellFormed cols' rows' limit := by
  induction calls generalizing w cols rows with
  | nil => exact ⟨w, cols, rows, rfl, h⟩
  | cons c rest ih =>
      obtain ⟨hc, hrest⟩ := List.forall_mem_cons.mp hcalls
      obtain ⟨middle, cols', rows', hcall, hmiddle⟩ := Watch.exists_call h hc
      obtain ⟨w', cols'', rows'', hrun, hw'⟩ := ih hmiddle hrest
      refine ⟨w', cols'', rows'', ?_, hw'⟩
      rw [run, List.foldlM_cons, hcall]
      exact hrun

end WellFormed

/-! ## What a feed tells -/

/-- Whether an event tells of something to be drawn. -/
theorem Watch.Sound.exists_draws {w : Watch} (h : w.Sound) {s : Session} {bytes : List UInt8}
    {replies : List Reply} (hfeed : w.session.feed bytes = .ok (s, replies)) :
    ∃ draws : Bool,
      s.notifier.events = w.session.notifier.events ++ (if draws then [.output] else []) ++
        (if w.session.notifier.lastTitle = s.title then [] else [.titleChanged s.title]) ∧
      (s.terminal.has .synchronizedUpdate = true → draws = false) ∧
      (s.terminal.has .synchronizedUpdate = false → w.drawn ≠ some s.terminal.shownCells →
        draws = true) := by
  obtain ⟨t, hheld, -, hsettled, hnotifier, hterminal⟩ := h.exists_told hfeed
  have htitle : s.title = t.title := by rw [title, hterminal, Terminal.title_takeRenderRequest]
  have hmode : s.terminal.has .synchronizedUpdate = t.renderSuspended := by
    rw [hheld, hterminal, Terminal.has, Terminal.has, Terminal.modes_takeRenderRequest]
  rw [hmode, hnotifier, Notifier.events_notify, h.faithful.last, htitle]
  refine ⟨t.takeRenderRequest.1, rfl, ?_, ?_⟩
  · intro hsuspended
    rw [Terminal.takeRenderRequest_of_suspended hsuspended]
  · intro hdraws hchanged
    rw [Terminal.takeRenderRequest_fst hdraws]
    refine hsettled.resolve_right fun hsame => hchanged ?_
    rw [hsame, hterminal, Terminal.shownCells_takeRenderRequest]

/-- **What an owner is told by a session that it feeds and resizes.**  After every feed the modes are
those of the terminal.  At most one event has been sent for what is to be drawn: none while
synchronized updates are on, and one if they are off and the cells are not those at the end of the
last feed that left them off.  Behind it one has been sent for the title, unless it is the one
announced last; the title announced last is then the terminal's, and none was announced twice in a
row.

On screens of addressable sizes all calls go through. -/
theorem notices_of_run (id : Nat) (options : Options) (calls : List Call) :
    (∀ w, (Watch.new id options).run calls = .ok w →
      ∀ bytes s replies, w.session.feed bytes = .ok (s, replies) →
        s.modes = s.terminal.modes ∧
        (∃ draws : Bool,
          s.notifier.events = w.session.notifier.events ++ (if draws then [.output] else []) ++
            (if w.session.notifier.lastTitle = s.title then [] else [.titleChanged s.title]) ∧
          (s.terminal.has .synchronizedUpdate = true → draws = false) ∧
          (s.terminal.has .synchronizedUpdate = false → w.drawn ≠ some s.terminal.shownCells →
            draws = true)) ∧
        s.notifier.lastTitle = s.title ∧
        List.IsChain (· ≠ ·) ("" :: s.notifier.titles)) ∧
    (Addressable options.cols options.rows → (∀ c ∈ calls, c.Admissible) →
      ∃ w, (Watch.new id options).run calls = .ok w ∧
        ∀ bytes, ∃ s replies, w.session.feed bytes = .ok (s, replies)) := by
  constructor
  · intro w hrun bytes s replies hfeed
    have hw := (Watch.Sound.new id options).run hrun
    obtain ⟨t, -, -, -, hnotifier, hterminal⟩ := hw.exists_told hfeed
    have hfaithful : s.notifier.Faithful := (hw.fed hfeed).faithful
    refine ⟨?_, hw.exists_draws hfeed, ?_, hfaithful.chain⟩
    · rw [modes, hnotifier, Notifier.snapshot_notify, hterminal, Terminal.modes_takeRenderRequest]
    · rw [hfaithful.last, hnotifier, Notifier.title_notify, title, hterminal,
        Terminal.title_takeRenderRequest]
  · intro hsize hcalls
    have hnew := Terminal.WellFormed.new hsize options.scrollbackLimit
    obtain ⟨w, cols, rows, hrun, hw⟩ := @Watch.exists_run _ _ _ (.new id options) hnew calls hcalls
    refine ⟨w, hrun, fun bytes => ?_⟩
    obtain ⟨s, replies, hfeed, -⟩ := exists_feed hw bytes
    exact ⟨s, replies, hfeed⟩

/-- A title and a letter while synchronized updates are on, and a change of size. -/
def heldBack : List Call := [.feed (Text.Utf8.encode "\x1b[?2026h\x1b]2;t\x07a".toList), .resize 2 1]

/-- What is to be drawn is told when they are switched off, and the title is not told again. -/
theorem notices_of_run_heldBack :
    ∃ w s replies, (Watch.new 0 { cols := 3, rows := 1 }).run heldBack = .ok w ∧
      w.session.feed (Text.Utf8.encode "\x1b[?2026l".toList) = .ok (s, replies) ∧
      s.notifier.events = w.session.notifier.events ++ [.output] ∧
      w.session.notifier.events = [.titleChanged "t"] := by
  obtain ⟨htold, hgoes⟩ := notices_of_run 0 { cols := 3, rows := 1 } heldBack
  have hfacts : ((Watch.new 0 { cols := 3, rows := 1 }).run heldBack).toOption.map
      (fun w => (w.drawn, w.session.notifier.events,
        (w.session.feed (Text.Utf8.encode "\x1b[?2026l".toList)).toOption.map
          fun out => (out.1.title, out.1.terminal.has .synchronizedUpdate))) =
      some (none, [.titleChanged "t"], some ("t", false)) := by decide +kernel
  obtain ⟨w, hrun, hfeeds⟩ := hgoes (by decide) (by decide)
  obtain ⟨s, replies, hfeed⟩ := hfeeds (Text.Utf8.encode "\x1b[?2026l".toList)
  rw [hrun, Except.toOption, Option.map_some, hfeed, Except.toOption, Option.map_some] at hfacts
  simp only [Option.some.injEq, Prod.mk.injEq] at hfacts
  obtain ⟨hdrawn, hevents, htitle, hon⟩ := hfacts
  obtain ⟨-, ⟨draws, hsent, -, hyes⟩, -, -⟩ := htold w hrun _ s replies hfeed
  refine ⟨w, s, replies, hrun, hfeed, ?_, hevents⟩
  have hlast : w.session.notifier.lastTitle = s.title := by
    rw [Notifier.lastTitle, Notifier.titles, hevents, htitle]
    rfl
  rw [hsent, hyes hon (by simp [hdrawn]), if_pos hlast, List.append_nil]
  rfl

end Session

end VideoTerminal
