/-!
# The channel between writer and reader

Chunks travel through a queue, and a counter tells how many are on their way.  The writer counts a
chunk before it sends it, and the reader uncounts it after it has received it, so the counter is
never too small.
-/

namespace VideoTerminal

/-- What travels through a channel. -/
inductive Message
  | chunk (text : List Char)
  /-- Nothing more will come. -/
  | close
  deriving DecidableEq, Repr

namespace Message

/-- The text that a message carries. -/
def text : Message → List Char
  | .chunk t => t
  | .close => []

/-- Whether a message is the last one. -/
def isClose : Message → Bool
  | .chunk _ => false
  | .close => true

end Message

/-- A queue of messages and what both ends know of each other. -/
structure Channel where
  /-- Messages sent and not yet received, the oldest first. -/
  messages : List Message := []
  /-- Chunks counted and not yet uncounted. -/
  pending : Nat := 0
  /-- The writer has sent its last message. -/
  closed : Bool := false
  hasWriter : Bool := true
  hasReader : Bool := true
  deriving DecidableEq, Repr

namespace Channel

/-- The text on its way. -/
def queued (ch : Channel) : List Char := ch.messages.flatMap Message.text

/-- Counts a chunk that is about to be sent. -/
def announce (ch : Channel) : Channel := { ch with pending := ch.pending + 1 }

/-- Takes a chunk off the count. -/
def settle (ch : Channel) : Channel := { ch with pending := ch.pending - 1 }

/-- Sends a message; without a reader it is lost. -/
def send (ch : Channel) (m : Message) : Channel :=
  if ch.hasReader then { ch with messages := ch.messages ++ [m] } else ch

/-- Counts a chunk and sends it.  One that finds no reader is taken off the count again. -/
def sendChunk (ch : Channel) (text : List Char) : Channel :=
  let sent := ch.announce.send (.chunk text)
  if ch.hasReader then sent else sent.settle

/-- Receives the oldest message. -/
def receive? (ch : Channel) : Option (Message × Channel) :=
  match ch.messages with
  | [] => none
  | m :: rest => some (m, { ch with messages := rest })

/-- Receives every message and takes the chunks among them off the count. -/
def receiveAll (ch : Channel) : List Message × Channel :=
  (ch.messages,
    { ch with
      messages := []
      pending := ch.pending - (ch.messages.filter fun m => !m.isClose).length })

/-- Receiving all leaves no message behind. -/
@[simp] theorem messages_receiveAll (ch : Channel) : ch.receiveAll.2.messages = [] := rfl

/-- What is sent to a reader is queued behind what is there. -/
theorem queued_sendChunk (ch : Channel) (text : List Char) (h : ch.hasReader = true) :
    (ch.sendChunk text).queued = ch.queued ++ text := by
  simp [sendChunk, send, announce, queued, h, Message.text]

/-- A notice of closing carries no text. -/
theorem queued_send_close (ch : Channel) : (ch.send .close).queued = ch.queued := by
  unfold send
  split <;> simp [queued, Message.text]

end Channel

end VideoTerminal
