import VideoTerminal.Session

/-!
# Live sessions

Two sides work on a live session at the same time.  The reading side takes bytes from a source,
decodes them and appends the text to a pipe; the interpreting side takes the text from the pipe,
lets the terminal carry it out and writes the replies to a responder.  `Live.step` is one step of
one side, which touches what both sides share at most once, and `Live.follow` any interleaving of
steps.

The interpreting side ends when the pipe has; it then tells the owner a last time, marks the session
as no longer running and sends `Event.exited`, in this order.  `Live.complete` is the interleaving
in which all is read before anything is interpreted.
-/

namespace VideoTerminal

/-- What a source returns when it is read. -/
inductive Reading
  | bytes (bs : List UInt8)
  /-- Nothing was read, but reading again may help. -/
  | interrupted
  | failed
  deriving DecidableEq, Repr

/-- Where replies go. -/
structure Responder where
  sent : List UInt8 := []
  /-- Every write fails. -/
  broken : Bool := false
  deriving DecidableEq, Repr

/-- The bytes of a reply. -/
def Reply.bytes (reply : Reply) : List UInt8 := Text.Utf8.encode reply.text.toList

/-- Writes replies; what can not be written is lost. -/
def Responder.write (r : Responder) (replies : List Reply) : Responder :=
  if r.broken then r else { r with sent := r.sent ++ replies.flatMap Reply.bytes }

/-- What the reading side does next. -/
inductive ReadingPhase
  /-- Looks whether the session is running. -/
  | checking
  /-- Reads from the source and appends what has been read. -/
  | reading
  /-- Ends a burst. -/
  | flushing
  /-- Appends what was cut off at the end. -/
  | finishing
  /-- Queues what is held back at the end. -/
  | delivering
  | closing
  /-- Gives the writing end up. -/
  | dropping
  | done
  deriving DecidableEq, Repr

/-- What the interpreting side does next. -/
inductive InterpretingPhase
  /-- Fetches a piece of input, and interprets it when it has come. -/
  | fetching (stage : Stage)
  /-- Tells the owner a last time. -/
  | notifying
  /-- Marks the session as no longer running. -/
  | stopping
  /-- Sends `Event.exited`. -/
  | exiting
  | done
  deriving DecidableEq, Repr

/-- A session whose input is being read and interpreted. -/
structure Live where
  session : Session
  /-- What the source will return. -/
  source : List Reading
  reading : ReadingPhase := .checking
  interpreting : InterpretingPhase := .fetching (.char false)
  decoder : Text.Utf8.Decoder := {}
  pipe : Pipe
  parser : Parser := {}
  responder : Responder
  deriving DecidableEq

/-- A side of a live session. -/
inductive Side
  | reader | interpreter
  deriving DecidableEq, Repr

namespace Live

/-- Bytes taken from a source at most in one go. -/
def readSize : Nat := 4096

/-- A session that starts to read. -/
def spawn (id : Nat) (source : List Reading) (responder : Responder) (options : Session.Options) :
    Live where
  session := { Session.new id options with running := true }
  source := source
  pipe := Pipe.new options.pacing options.compactionThreshold
  responder := responder

/-- Puts a changed pipe into its place; the owner hears of the change. -/
def withPipe (l : Live) (changed : Pipe × List Hook) : Live :=
  let told := l.session.notifier.hearAll l.session.terminal changed.2
  { l with
    pipe := changed.1
    session := { l.session with notifier := told.1, terminal := told.2 } }

/-- Appends bytes that were read.  Fewer than were asked for end a burst, and none is held back. -/
def appendBytes (l : Live) (bs : List UInt8) : Live :=
  let decoded := l.decoder.decode bs
  { { l with decoder := decoded.2 }.withPipe (l.pipe.append decoded.1) with
    reading := if bs.length < readSize then .flushing else .checking }

/-- Takes a reading from the source. -/
def readSource (l : Live) : Live :=
  match l.source with
  | [] => { l with reading := .finishing }
  | .failed :: rest => { l with source := rest, reading := .finishing }
  | .interrupted :: rest => { l with source := rest, reading := .checking }
  | .bytes bs :: rest =>
    if bs.isEmpty then { l with source := rest, reading := .finishing }
    else if readSize < bs.length then
      { l with source := .bytes (bs.drop readSize) :: rest }.appendBytes (bs.take readSize)
    else { l with source := rest }.appendBytes bs

/-- A step of the reading side. -/
def stepReader (l : Live) : Live :=
  match l.reading with
  | .checking => { l with reading := if l.session.running then .reading else .finishing }
  | .reading => l.readSource
  | .flushing => { l.withPipe l.pipe.flush with reading := .checking }
  | .finishing =>
    let last := l.decoder.finish
    { { l with decoder := last.2 }.withPipe (l.pipe.append last.1) with reading := .delivering }
  | .delivering => { l.withPipe l.pipe.flush with reading := .closing }
  | .closing => { l.withPipe l.pipe.close with reading := .dropping }
  | .dropping => { l.withPipe l.pipe.dropWriter with reading := .done }
  | .done => l

/-- The interpreter of a session. -/
def interpreter (l : Live) : Interpreter := ⟨l.parser, l.session.terminal⟩

/-- Puts back the interpreter, and writes its replies. -/
def withInterpreter (l : Live) (i : Interpreter) (replies : List Reply) : Live :=
  { l with
    parser := i.parser
    session := { l.session with terminal := i.terminal }
    responder := l.responder.write replies }

/-- Fetches a piece of input, and interprets it when it has come. -/
def fetch (l : Live) (stage : Stage) : Except Fault Live :=
  let fetched := l.pipe.fetchStep l.interpreter.betweenSequences stage
  let heard := l.withPipe fetched.2
  match fetched.1 with
  | .onward stage => .ok { heard with interpreting := .fetching stage }
  | .ended => .ok { heard with interpreting := .notifying }
  | .got input =>
    match heard.interpreter.take input with
    | .ok (i, replies) =>
      .ok { heard.withInterpreter i replies with interpreting := .fetching (.char false) }
    | .error fault => .error fault

/-- Tells the owner. -/
def notify (l : Live) : Live :=
  let told := l.session.notifier.notify l.session.terminal
  { l with session := { l.session with notifier := told.1, terminal := told.2 } }

/-- A step of the interpreting side. -/
def stepInterpreter (l : Live) : Except Fault Live :=
  match l.interpreting with
  | .fetching stage => l.fetch stage
  | .notifying => .ok { l.notify with interpreting := .stopping }
  | .stopping =>
    .ok { l with
      session := { l.session with running := false }
      interpreting := .exiting }
  | .exiting =>
    .ok { l with
      session := { l.session with notifier := l.session.notifier.send .exited }
      interpreting := .done }
  | .done => .ok l

/-- A step of one side. -/
def step (l : Live) : Side → Except Fault Live
  | .reader => .ok l.stepReader
  | .interpreter => l.stepInterpreter

/-- The steps of an interleaving, in order. -/
def follow (l : Live) (sides : List Side) : Except Fault Live := sides.foldlM step l

/-- Steps in which a reading is taken from the source and appended. -/
def stepsOf : Reading → Nat
  | .bytes bs => 3 * (bs.length / readSize + 1)
  | .interrupted => 2
  | .failed => 2

/-- Steps in which the source is read to its end and the pipe is closed. -/
def readerSteps (l : Live) : Nat := l.source.foldl (fun n reading => n + stepsOf reading) 6

/-- Steps in which the pipe is interpreted to its end: after those that fetch, one finds the end,
and three take leave of the owner. -/
def interpreterSteps (l : Live) : Nat := l.pipe.stepsLeft (.char false) + 4

/-- Reads everything and then interprets it. -/
def complete (l : Live) : Except Fault Live := do
  let l ← l.follow (List.replicate l.readerSteps .reader)
  l.follow (List.replicate l.interpreterSteps .interpreter)

end Live

end VideoTerminal
