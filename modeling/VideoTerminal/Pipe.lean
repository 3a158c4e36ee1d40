import VideoTerminal.Pipe.Channel
import VideoTerminal.Pipe.Pacing
import VideoTerminal.Text.Cluster

/-!
# Pipes of characters

A pipe carries a program's output to the interpreter.  The writing end cuts it into chunks and never
waits; it holds the last cluster back, since more of it may come, unless a control has ended it. 
The reading end hands out single characters or runs without controls, and takes characters back.

`Pipe.contents` is what the reader will read if the writer adds nothing: characters pushed back, the
rest of the buffer, the chunks on their way.  This module has both ends and what the writer does;
`VideoTerminal.Pipe.Reading` has what the reader does.
-/

namespace VideoTerminal

/-- What an observer of a pipe hears of. -/
inductive Hook
  /-- A chunk has been queued. -/
  | appended (text : List Char)
  /-- The reader has begun to hand out a new buffer. -/
  | chunkStart
  /-- The reader has handed out its buffer. -/
  | chunkEnd
  /-- The reader is about to wait. -/
  | beforeWait
  deriving DecidableEq, Repr

/-- The reading end. -/
structure Reader where
  /-- Characters pushed back, the next one first. -/
  pushback : List Char := []
  /-- The part of the buffer that has been handed out and is still kept, the latest first. -/
  spent : List Char := []
  /-- The part of the buffer that has not been handed out. -/
  unread : List Char := []
  /-- Nothing more will come. -/
  ended : Bool := false
  /-- The buffer's start has been announced and its end has not. -/
  inChunk : Bool := false
  pacing : Pacing := .balanced
  /-- Spent characters are given up when they take at least this many bytes. -/
  compactionThreshold : Nat
  deriving DecidableEq, Repr

namespace Reader

/-- The buffer with the part of it that has been handed out. -/
def buffer (r : Reader) : List Char := r.spent.reverse ++ r.unread

/-- The byte of the buffer at which the unread part begins. -/
def position (r : Reader) : Nat := r.spent.foldr (fun c bytes => c.utf8Size + bytes) 0

end Reader

/-- A pipe: both ends and the channel between them. -/
structure Pipe where
  /-- The cluster that the writer holds back. -/
  held : List Char := []
  channel : Channel := {}
  reader : Reader
  deriving DecidableEq, Repr

namespace Pipe

/-- Spent bytes that are kept unless another threshold is asked for. -/
def defaultCompactionThreshold : Nat := 4096

/-- An open pipe. -/
def new (pacing : Pacing) (compactionThreshold : Nat := defaultCompactionThreshold) : Pipe where
  reader := { pacing := pacing, compactionThreshold := compactionThreshold }

/-- What can be read without the writer. -/
def contents (p : Pipe) : List Char :=
  p.reader.pushback ++ p.reader.unread ++ p.channel.queued

/-! ## Writing -/

/-- Cuts a text before its last cluster; one that ends in a control is complete as it is. -/
def cutComplete (text : List Char) : List Char × List Char :=
  let cut := Text.splitLastCluster text
  if cut.2.getLast?.any Text.isControl7 then (text, []) else cut

/-- Queues a chunk. -/
def sendChunk (p : Pipe) (text : List Char) : Pipe × List Hook :=
  ({ p with channel := p.channel.sendChunk text }, [.appended text])

/-- Adds text, and holds its last cluster back.  After the end nothing is added. -/
def append (p : Pipe) (chunk : List Char) : Pipe × List Hook :=
  if p.channel.closed || chunk.isEmpty then (p, [])
  else
    let cut := cutComplete (p.held ++ chunk)
    let q := { p with held := cut.2 }
    if cut.1.isEmpty then (q, []) else q.sendChunk cut.1

/-- Queues what is held back. -/
def flush (p : Pipe) : Pipe × List Hook :=
  if p.channel.closed || p.held.isEmpty then (p, [])
  else { p with held := [] }.sendChunk p.held

/-- Queues what is held back and ends the text.  Only the first time counts. -/
def close (p : Pipe) : Pipe × List Hook :=
  if p.channel.closed then (p, [])
  else
    let q := p.flush.1
    ({ q with channel := { q.channel with closed := true }.send .close }, p.flush.2)

/-- Gives the writing end up, which ends the text. -/
def dropWriter (p : Pipe) : Pipe × List Hook :=
  let q := p.close.1
  ({ q with channel := { q.channel with hasWriter := false } }, p.close.2)

/-- Gives the reading end up; messages on their way are lost. -/
def dropReader (p : Pipe) : Pipe :=
  { p with channel := { p.channel with hasReader := false, messages := [] } }

/-- Cutting a text loses nothing. -/
theorem cutComplete_append (text : List Char) :
    (cutComplete text).1 ++ (cutComplete text).2 = text := by
  unfold cutComplete
  dsimp only
  split
  · exact List.append_nil text
  · exact Text.splitLastCluster_append text

end Pipe

end VideoTerminal
