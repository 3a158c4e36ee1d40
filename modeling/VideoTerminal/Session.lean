import VideoTerminal.Control.Run
import VideoTerminal.Text.Utf8

/-!
# Sessions

A session owns a terminal and tells its owner about it: events for what is to be drawn and for a new
title, and a published copy of the modes.  `Notifier.notify` is the only place where this happens.

Here a session is fed by hand; `VideoTerminal.Session.Live` reads and interprets at the same time.
-/

namespace VideoTerminal

/-- What a session tells its owner. -/
inductive Event
  /-- The screen has changed since the last time it was to be drawn. -/
  | output
  /-- The program's output has ended, and all of it has been interpreted. -/
  | exited
  | titleChanged (title : String)
  deriving DecidableEq, Repr

/-- The owner's view of a terminal. -/
structure Notifier where
  shared : SharedModes
  /-- Events sent, the oldest first. -/
  events : List Event := []
  /-- The title last announced. -/
  title : String := ""
  deriving DecidableEq, Repr

namespace Notifier

/-- Publishes the modes of a terminal. -/
def publish (n : Notifier) (t : Terminal) : Notifier :=
  { n with shared := n.shared.publish t.modes }

/-- Sends an event. -/
def send (n : Notifier) (e : Event) : Notifier := { n with events := n.events ++ [e] }

/-- Announces a title, unless it is the one announced last. -/
def announceTitle (n : Notifier) (title : String) : Notifier :=
  if n.title = title then n else { n with title := title }.send (.titleChanged title)

/-- Publishes the modes, and tells of output that is to be drawn and of a new title.  The terminal
then counts as drawn. -/
def notify (n : Notifier) (t : Terminal) : Notifier × Terminal :=
  let published := n.publish t
  let drawn := if t.takeRenderRequest.1 then published.send .output else published
  (drawn.announceTitle t.title, t.takeRenderRequest.2)

/-- What a pipe's reader causes: the modes are published after each buffer, and before a wait the
owner hears of everything. -/
def hear (n : Notifier) (t : Terminal) : Hook → Notifier × Terminal
  | .chunkEnd => (n.publish t, t)
  | .beforeWait => n.notify t
  | .appended _ => (n, t)
  | .chunkStart => (n, t)

/-- What several calls cause, in order. -/
def hearAll (n : Notifier) (t : Terminal) : List Hook → Notifier × Terminal
  | [] => (n, t)
  | hook :: rest => (n.hear t hook).1.hearAll (n.hear t hook).2 rest

/-- The modes last published are the terminal's. -/
@[simp] theorem snapshot_notify (n : Notifier) (t : Terminal) :
    (n.notify t).1.shared.snapshot = t.modes := by
  unfold notify announceTitle
  simp only
  repeat' split
  all_goals rfl

/-- The title that is announced is the one that counts as announced. -/
@[simp] theorem title_announceTitle (n : Notifier) (title : String) :
    (n.announceTitle title).title = title := by
  unfold announceTitle
  split
  · assumption
  · rfl

/-- The title last announced is the terminal's. -/
@[simp] theorem title_notify (n : Notifier) (t : Terminal) : (n.notify t).1.title = t.title :=
  title_announceTitle ..

end Notifier

/-- A terminal and its owner's view of it. -/
structure Session where
  id : Nat
  terminal : Terminal
  notifier : Notifier
  /-- A program's output is being read. -/
  running : Bool := false
  decoder : Text.Utf8.Decoder := {}
  parser : Parser := {}
  deriving DecidableEq

namespace Session

/-- What a session starts with. -/
structure Options where
  cols : Nat := 80
  rows : Nat := 24
  pacing : Pacing := .balanced
  compactionThreshold : Nat := Pipe.defaultCompactionThreshold
  scrollbackLimit : Nat := Terminal.defaultScrollbackLimit
  deriving DecidableEq, Repr

/-- A session with a fresh terminal. -/
def new (id : Nat) (options : Options) : Session :=
  let terminal := Terminal.new options.cols options.rows options.scrollbackLimit
  { id := id, terminal := terminal, notifier := { shared := ⟨terminal.modes⟩ } }

/-- Interprets bytes at once, and then tells the owner.  Bytes that begin a character wait for the
rest of it. -/
def feed (s : Session) (bytes : List UInt8) : Except Fault (Session × List Reply) := do
  let decoded := s.decoder.decode bytes
  let fed ← (Interpreter.mk s.parser s.terminal).feedText decoded.1
  let told := s.notifier.notify fed.1.terminal
  return (
    { s with
      decoder := decoded.2
      parser := fed.1.parser
      notifier := told.1
      terminal := told.2 },
    fed.2)

/-- Changes the size of the terminal. -/
def resize (s : Session) (cols rows : Nat) : Session :=
  { s with terminal := s.terminal.resize cols rows }

/-- The modes last published. -/
def modes (s : Session) : ModeSet := s.notifier.shared.snapshot

/-- The title of the terminal. -/
def title (s : Session) : String := s.terminal.title

/-- Takes the oldest event. -/
def nextEvent? (s : Session) : Option Event × Session :=
  match s.notifier.events with
  | [] => (none, s)
  | e :: rest => (some e, { s with notifier := { s.notifier with events := rest } })

end Session

end VideoTerminal
