import VideoTerminal.Proofs.Pipe.Reading

/-!
# Sound pipes

What both ends of a pipe know of each other agrees, however the operations of the writer and the
steps of a reading are mixed: `Pipe.Sound` is kept by every operation of the writer (`Sound.append`,
`Sound.flush`, `Sound.close`, `Sound.dropWriter`) and by everything a reading does
(`Sound.of_readsTo`).

The writer's operations move text towards the reader and lose none (`moves_append` and those that
follow it).
-/

namespace VideoTerminal.Pipe

/-- **What both ends of a pipe agree on**, as long as there is a reader. -/
structure Sound (p : Pipe) : Prop where
  hasReader : p.channel.hasReader = true
  /-- The end of the text is known to the reader, or it is on its way. -/
  closed : p.channel.closed = (p.reader.ended || p.channel.messages.any Message.isClose)
  hasWriter : p.channel.hasWriter = false → p.channel.closed = true
  held : p.channel.closed = true → p.held = []
  pending : p.channel.pending = (p.channel.messages.filter fun m => !m.isClose).length
  /-- No chunk on its way is empty. -/
  chunks : ∀ m ∈ p.channel.messages, m.isClose = false → m.text ≠ []

/-- A new pipe is sound. -/
theorem sound_new (pacing : Pacing) (threshold : Nat) : (Pipe.new pacing threshold).Sound where
  hasReader := rfl
  closed := rfl
  hasWriter := by simp [Pipe.new]
  held := by simp [Pipe.new]
  pending := rfl
  chunks := by simp [Pipe.new]

namespace Sound

variable {p q : Pipe}

/-- Soundness is about what is held back, the channel, and what the reader knows of the end. -/
theorem of_same (h : p.Sound) (hheld : q.held = p.held) (hchannel : q.channel = p.channel)
    (hended : q.reader.ended = p.reader.ended) : q.Sound := by
  constructor
  · rw [hchannel]
    exact h.hasReader
  · rw [hchannel, hended]
    exact h.closed
  · rw [hchannel]
    exact h.hasWriter
  · rw [hchannel, hheld]
    exact h.held
  · rw [hchannel]
    exact h.pending
  · rw [hchannel]
    exact h.chunks

/-- A reading keeps a pipe sound. -/
theorem of_readsTo (h : p.Sound) (hreads : p.ReadsTo q) : q.Sound := by
  obtain ⟨hheld, ⟨hchannel, hended⟩ | ⟨hchannel, hended⟩⟩ := hreads
  · exact h.of_same hheld hchannel hended
  · have hclosed : q.channel.closed = p.channel.closed := by
      rw [hchannel]
      rfl
    constructor
    · rw [hchannel]
      exact h.hasReader
    · rw [hclosed, hended, h.closed, hchannel]
      cases hw : p.channel.hasWriter with
      | true => simp
      | false =>
        have := h.closed
        rw [h.hasWriter hw] at this
        simp [← this]
    · rw [hclosed, hchannel]
      exact h.hasWriter
    · rw [hclosed, hheld]
      exact h.held
    · rw [hchannel]
      simp [Channel.receiveAll, h.pending]
    · rw [hchannel]
      simp

/-- The reader of an exhausted pipe knows whether the writer has ended the text. -/
theorem closed_of_exhausted {ended : Bool} (h : p.Sound) (hend : p.Exhausted ended) :
    p.channel.closed = ended := by
  rw [h.closed, hend.ended, hend.messages]
  simp

/-- As long as the text has not ended, the reader does not know of an end. -/
theorem not_exhausted (h : p.Sound) (hopen : p.channel.closed = false) : ¬ p.Exhausted true := by
  intro hend
  have hclosed := h.closed_of_exhausted hend
  simp [hopen] at hclosed

/-- Nothing is at hand or on its way exactly when there is nothing to be read. -/
theorem isEmpty_eq (h : p.Sound) : p.isEmpty = p.contents.isEmpty := by
  have hqueued : (p.channel.pending == 0) = p.channel.queued.isEmpty := by
    rw [h.pending, Bool.eq_iff_iff]
    simp only [beq_iff_eq, List.length_eq_zero_iff, List.filter_eq_nil_iff, List.isEmpty_iff,
      Channel.queued, List.flatMap_eq_nil_iff]
    constructor
    · intro hclose m hm
      cases m with
      | chunk text => exact absurd rfl (hclose _ hm)
      | close => rfl
    · intro hnil m hm hchunk
      exact h.chunks m hm (by simpa using hchunk) (hnil m hm)
  unfold isEmpty contents
  rw [hqueued]
  cases p.reader.pushback <;> cases p.reader.unread <;> simp

end Sound

/-! ## What the writer does -/

/-- Text moves from the writer to the channel: with `added` text the pipe comes to `q`, and the
reader is not disturbed. -/
structure Moves (p : Pipe) (added : List Char) (q : Pipe) : Prop where
  reader : q.reader = p.reader
  text : q.contents ++ q.held = p.contents ++ p.held ++ added
  /-- What could be read can still be read first. -/
  ahead : p.contents <+: q.contents

theorem Moves.refl (p : Pipe) : p.Moves [] p := ⟨rfl, by simp, List.prefix_refl _⟩

/-- The writer holds back at most what it held back and what was added. -/
theorem Moves.length_held_le {p q : Pipe} {added : List Char} (h : p.Moves added q) :
    q.held.length ≤ p.held.length + added.length := by
  have htext := congrArg List.length h.text
  have hahead := h.ahead.length_le
  simp only [List.length_append] at htext
  omega

section Writer

variable {p : Pipe}

/-- While the text has not ended, the writer may hold back what it wants. -/
theorem Sound.setHeld (h : p.Sound) (hopen : p.channel.closed = false) (held : List Char) :
    Sound { p with held := held } :=
  { h with held := fun hclosed => by simp [hopen] at hclosed }

/-- A chunk that is sent comes behind the text that is there. -/
theorem contents_sendChunk (h : p.Sound) (text : List Char) :
    (p.sendChunk text).1.contents = p.contents ++ text := by
  unfold contents
  change p.reader.pushback ++ p.reader.unread ++ (p.channel.sendChunk text).queued = _
  rw [Channel.queued_sendChunk _ _ h.hasReader, List.append_assoc, List.append_assoc,
    List.append_assoc]

/-- A pipe stays sound when a chunk is sent that is not empty. -/
theorem Sound.sendChunk (h : p.Sound) {text : List Char}
    (htext : text ≠ []) : (p.sendChunk text).1.Sound := by
  have hchannel : (p.sendChunk text).1.channel =
      { p.channel with
        messages := p.channel.messages ++ [.chunk text]
        pending := p.channel.pending + 1 } := by
    simp [Pipe.sendChunk, Channel.sendChunk, Channel.send, Channel.announce, h.hasReader]
  constructor
  · rw [hchannel]
    exact h.hasReader
  · rw [hchannel]
    change p.channel.closed = (p.reader.ended || _)
    rw [h.closed]
    simp [Message.isClose]
  · rw [hchannel]
    exact h.hasWriter
  · rw [hchannel]
    exact h.held
  · rw [hchannel]
    simp [h.pending, Message.isClose]
  · rw [hchannel]
    intro m hm hchunk
    rcases List.mem_append.1 hm with hm | hm
    · exact h.chunks m hm hchunk
    · obtain rfl := List.mem_singleton.1 hm
      exact htext

/-- **Appending** before the end adds the chunk and nothing else. -/
theorem Sound.append (h : p.Sound) (hopen : p.channel.closed = false) (chunk : List Char) :
    (p.append chunk).1.Sound ∧ p.Moves chunk (p.append chunk).1 ∧
      (p.append chunk).1.channel.closed = false := by
  unfold Pipe.append
  split
  · next hnone =>
    obtain rfl : chunk = [] := by simpa [hopen] using hnone
    exact ⟨h, Moves.refl p, hopen⟩
  · have hcut := cutComplete_append (p.held ++ chunk)
    dsimp only
    generalize cutComplete (p.held ++ chunk) = cut at hcut ⊢
    have hheld := h.setHeld hopen cut.2
    split
    · next hnil =>
      have hnil : cut.1 = [] := by simpa using hnil
      refine ⟨hheld, ⟨rfl, ?_, List.prefix_refl _⟩, hopen⟩
      rw [hnil, List.nil_append] at hcut
      simp [contents, hcut]
    · next hne =>
      have hne : cut.1 ≠ [] := by simpa using hne
      have hcontents := contents_sendChunk hheld cut.1
      refine ⟨hheld.sendChunk hne, ⟨rfl, ?_, ?_⟩, ?_⟩
      · rw [hcontents, List.append_assoc, List.append_assoc, ← hcut]
        rfl
      · rw [hcontents]
        exact List.prefix_append _ _
      · simpa [Pipe.sendChunk, Channel.sendChunk, Channel.send, Channel.announce, h.hasReader]
          using hopen

/-- After the end nothing is added. -/
theorem append_of_closed (hclosed : p.channel.closed = true) (chunk : List Char) :
    (p.append chunk).1 = p := by
  simp [Pipe.append, hclosed]

/-- **Flushing** leaves nothing held back, and the text as it is. -/
theorem Sound.flush (h : p.Sound) :
    p.flush.1.Sound ∧ p.Moves [] p.flush.1 ∧ p.flush.1.held = [] ∧
      p.flush.1.channel.closed = p.channel.closed := by
  unfold Pipe.flush
  split
  · next hnone =>
    refine ⟨h, Moves.refl p, ?_, rfl⟩
    rcases (Bool.or_eq_true_iff.1 hnone) with hclosed | hnil
    · exact h.held hclosed
    · simpa using hnil
  · next hsome =>
    obtain ⟨hopen, hne⟩ : p.channel.closed = false ∧ p.held ≠ [] := by simpa using hsome
    have hnone := h.setHeld hopen []
    have hcontents := contents_sendChunk hnone p.held
    refine ⟨hnone.sendChunk hne, ⟨rfl, ?_, ?_⟩, rfl, ?_⟩
    · rw [hcontents]
      simp [contents, Pipe.sendChunk]
    · rw [hcontents]
      exact List.prefix_append _ _
    · simp [Pipe.sendChunk, Channel.sendChunk, Channel.send, Channel.announce, h.hasReader]

/-- **Closing** ends the text and leaves it as it is. -/
theorem Sound.close (h : p.Sound) :
    p.close.1.Sound ∧ p.Moves [] p.close.1 ∧ p.close.1.held = [] ∧
      p.close.1.channel.closed = true := by
  unfold Pipe.close
  split
  · next hclosed => exact ⟨h, Moves.refl p, h.held hclosed, hclosed⟩
  · next hopen =>
    have hopen : p.channel.closed = false := by simpa using hopen
    obtain ⟨hf, hmoves, hheld, hfopen⟩ := h.flush
    rw [hopen] at hfopen
    generalize p.flush.1 = q at hf hmoves hheld hfopen
    have hchannel : { q.channel with closed := true }.send .close =
        { q.channel with closed := true, messages := q.channel.messages ++ [.close] } := by
      simp [Channel.send, hf.hasReader]
    dsimp only
    rw [hchannel]
    refine ⟨?_, ⟨hmoves.reader, ?_, ?_⟩, hheld, rfl⟩
    · constructor
      · exact hf.hasReader
      · simp [Message.isClose]
      · intro _
        rfl
      · intro _
        exact hheld
      · simp [hf.pending, Message.isClose]
      · intro m hm hchunk
        rcases List.mem_append.1 hm with hm | hm
        · exact hf.chunks m hm hchunk
        · obtain rfl := List.mem_singleton.1 hm
          simp [Message.isClose] at hchunk
    · rw [← hmoves.text]
      simp [contents, Channel.queued, Message.text]
    · refine hmoves.ahead.trans ?_
      simp [contents, Channel.queued, Message.text]

/-- **Dropping the writer** ends the text and leaves it as it is. -/
theorem Sound.dropWriter (h : p.Sound) :
    p.dropWriter.1.Sound ∧ p.Moves [] p.dropWriter.1 ∧ p.dropWriter.1.held = [] ∧
      p.dropWriter.1.channel.closed = true := by
  obtain ⟨hc, hmoves, hheld, hclosed⟩ := h.close
  unfold Pipe.dropWriter
  dsimp only
  generalize p.close.1 = q at hc hmoves hheld hclosed
  exact ⟨{ hc with hasWriter := fun _ => hclosed }, ⟨hmoves.reader, hmoves.text, hmoves.ahead⟩,
    hheld, hclosed⟩

/-- After the end, dropping the writer tells the reader nothing new. -/
theorem dropWriter_of_closed (hclosed : p.channel.closed = true) :
    p.dropWriter = ({ p with channel := { p.channel with hasWriter := false } }, []) := by
  simp [Pipe.dropWriter, Pipe.close, hclosed]

end Writer

end VideoTerminal.Pipe
