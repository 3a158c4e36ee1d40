import Mathlib.Data.List.Basic
import VideoTerminal.Pipe
import VideoTerminal.Proofs.Text.Cluster

/-!
# Where a pipe cuts

The writing end sees no more of a text than what it holds back and the piece that comes next.  That
is enough to cut the text between clusters only (`isCut_chunks`): what it holds back is at any time
the last cluster of the whole text so far, or nothing behind a control, and with what comes next
that cluster is cut as in the whole text.

The exception is a piece that ends between a carriage return and its line feed.  The carriage return
is not held back, so the two become parts of different chunks although they are one cluster.
-/

namespace VideoTerminal

/-- The texts that have been queued, in order. -/
def Hook.chunks (hooks : List Hook) : List (List Char) :=
  hooks.filterMap fun
    | .appended text => some text
    | _ => none

/-- The chunks of hooks are those of the first and then those of the second. -/
@[simp] theorem Hook.chunks_append (hooks more : List Hook) :
    chunks (hooks ++ more) = chunks hooks ++ chunks more := by
  simp [chunks]

namespace Pipe

open Text

/-- Adds one piece of text after another. -/
def appendAll (p : Pipe) (pieces : List (List Char)) : Pipe × List Hook :=
  pieces.foldl (fun done piece => ((done.1.append piece).1, done.2 ++ (done.1.append piece).2))
    (p, [])

/-- A place between clusters, or between a carriage return and a line feed. -/
def IsCut (front back : List Char) : Prop :=
  IsBoundary front back ∨ (front.getLast? = some '\r' ∧ back.head? = some '\n')

/-- What has to be held back of a text: its last cluster, unless a control ends that. -/
def heldBack (text : List Char) : List Char :=
  if text.getLast?.any isControl7 then [] else (clusters text).getLast?.getD []

/-- Behind a control nothing is held back. -/
theorem heldBack_of_any {text : List Char} (h : text.getLast?.any isControl7 = true) :
    heldBack text = [] := if_pos h

/-- Otherwise the last cluster is held back, as it may go on. -/
theorem heldBack_eq_of_any {text : List Char} (h : text.getLast?.any isControl7 = false) :
    heldBack text = (splitLastCluster text).2 := by
  rw [heldBack, if_neg (by simp [h])]
  by_cases hne : text = []
  · subst hne
    rfl
  · rw [getLast?_clusters hne]
    rfl

/-- Cutting a text holds back what has to be. -/
theorem cutComplete_snd (text : List Char) : (cutComplete text).2 = heldBack text := by
  by_cases hne : text = []
  · subst hne
    rfl
  have hlast : (splitLastCluster text).2.getLast? = text.getLast? := by
    conv => rhs; rw [← splitLastCluster_append text]
    rw [List.getLast?_append_of_ne_nil _ (splitLastCluster_snd_ne_nil hne)]
  unfold cutComplete
  dsimp only
  rw [hlast]
  by_cases hany : text.getLast?.any isControl7 = true
  · rw [if_pos hany, heldBack_of_any hany]
  · rw [if_neg hany, heldBack_eq_of_any (Bool.eq_false_iff.mpr hany)]

/-- Of a text that has grown, as much is to be held back as of what was held back with what has been
added. -/
theorem heldBack_append (text : List Char) {piece : List Char} (hne : piece ≠ []) :
    heldBack (text ++ piece) = heldBack (heldBack text ++ piece) := by
  have hlast (front : List Char) : (front ++ piece).getLast? = piece.getLast? :=
    List.getLast?_append_of_ne_nil front hne
  by_cases hpiece : piece.getLast?.any isControl7 = true
  · rw [heldBack_of_any (hlast text ▸ hpiece), heldBack_of_any (hlast (heldBack text) ▸ hpiece)]
  · have hpiece := Bool.eq_false_iff.mpr hpiece
    rw [heldBack_eq_of_any (hlast text ▸ hpiece), heldBack_eq_of_any (hlast _ ▸ hpiece)]
    by_cases htext : text.getLast?.any isControl7 = true
    · obtain ⟨c, hc, hcontrol⟩ := (Option.any_eq_true _ _).mp htext
      rw [heldBack_of_any htext, List.nil_append]
      exact splitLastCluster_snd_append_of_isControl7 hc hcontrol hne hpiece
    · rw [heldBack_eq_of_any (Bool.eq_false_iff.mpr htext)]
      by_cases hnil : text = []
      · subst hnil
        rfl
      · exact splitLastCluster_snd_append hnil piece

/-- The text before what is held back ends at a place to cut, whatever comes next. -/
theorem isCut_heldBack {front text : List Char} (h : front ++ heldBack text = text)
    (more : List Char) : IsCut front (heldBack text ++ more) := by
  by_cases htext : text.getLast?.any isControl7 = true
  · obtain ⟨c, hc, hcontrol⟩ := (Option.any_eq_true _ _).mp htext
    rw [heldBack_of_any htext, List.append_nil] at h
    rw [heldBack_of_any htext, List.nil_append, h]
    cases more with
    | nil => exact .inl (isBoundary_end text)
    | cons d more =>
        by_cases hfeed : c = '\r' ∧ d = '\n'
        · obtain ⟨rfl, rfl⟩ := hfeed
          exact .inr ⟨hc, rfl⟩
        · exact .inl (isBoundary_of_isControl7 hc hcontrol hfeed)
  · rw [heldBack_eq_of_any (Bool.eq_false_iff.mpr htext)] at h ⊢
    left
    by_cases hnil : text = []
    · subst hnil
      obtain ⟨rfl, -⟩ := List.append_eq_nil_iff.mp h
      exact ⟨[], _, rfl, rfl⟩
    · obtain ⟨left, hleft, -, hclusters⟩ := exists_clusters_append hnil
      have hfront : front = (splitLastCluster text).1 := by
        have := splitLastCluster_append text
        exact List.append_cancel_right (h.trans this.symm)
      refine ⟨left, clusters ((splitLastCluster text).2 ++ more), ?_, hleft.trans hfront.symm⟩
      rw [← hclusters more, ← List.append_assoc, h]

/-- What is known of a text that has been added piece by piece. -/
structure Written (text : List Char) (sent : List (List Char)) (held : List Char) : Prop where
  flatten_sent : sent.flatten ++ held = text
  held_eq : held = heldBack text
  /-- Whatever comes next, the chunks meet at places to cut. -/
  isCut : ∀ before after, sent = before ++ after →
    ∀ more, IsCut before.flatten (after.flatten ++ (held ++ more))

/-- At first nothing is written, and nothing is held back. -/
theorem Written.nil : Written [] [] [] where
  flatten_sent := rfl
  held_eq := rfl
  isCut := by
    intro before after h more
    obtain ⟨rfl, rfl⟩ := List.append_eq_nil_iff.mp h.symm
    exact .inl ⟨[], _, rfl, rfl⟩

/-- Another piece, of which a part is sent. -/
theorem Written.append {text held : List Char} {sent : List (List Char)} (h : Written text sent held)
    {piece : List Char} (hne : piece ≠ []) (now : List (List Char))
    (hnow : now.flatten = (cutComplete (held ++ piece)).1) (hone : now.length ≤ 1) :
    Written (text ++ piece) (sent ++ now) (cutComplete (held ++ piece)).2 := by
  have hflatten : (sent ++ now).flatten ++ (cutComplete (held ++ piece)).2 = text ++ piece := by
    rw [List.flatten_append, hnow, List.append_assoc, cutComplete_append, ← List.append_assoc,
      h.flatten_sent]
  have hheld : (cutComplete (held ++ piece)).2 = heldBack (text ++ piece) := by
    rw [cutComplete_snd, heldBack_append text hne, ← h.held_eq]
  refine ⟨hflatten, hheld, ?_⟩
  intro before after hsplit more
  -- Between chunks that were sent before, nothing has changed but what comes next.
  have hold : ∀ late, sent = before ++ late → after = late ++ now →
      IsCut before.flatten (after.flatten ++ ((cutComplete (held ++ piece)).2 ++ more)) := by
    rintro late hsent rfl
    have hcut := h.isCut before late hsent (piece ++ more)
    rwa [← List.append_assoc held, ← cutComplete_append (held ++ piece), ← hnow,
      List.append_assoc, ← List.append_assoc late.flatten, ← List.flatten_append] at hcut
  rcases List.append_eq_append_iff.mp hsplit with ⟨early, rfl, hnew⟩ | ⟨late, hsent, hafter⟩
  · cases early with
    | nil => exact hold [] (by simp) (by simpa using hnew.symm)
    | cons chunk early =>
        -- The one new chunk ends where holding back begins.
        obtain ⟨rfl, rfl⟩ : early = [] ∧ after = [] := by
          rw [hnew] at hone
          simpa using hone
        rw [hnew, List.append_nil] at hflatten
        rw [hheld] at hflatten ⊢
        exact isCut_heldBack hflatten more
  · exact hold late hsent hafter

/-- What a writer has sent and holds back after it has added some text. -/
structure Adds (text : List Char) (done : Pipe × List Hook) : Prop where
  open_eq : done.1.channel.closed = false
  written : Written text (Hook.chunks done.2) done.1.held

/-- A new pipe has been given nothing. -/
theorem Adds.new (pacing : Pacing) (threshold : Nat) : Adds [] (Pipe.new pacing threshold, []) where
  open_eq := rfl
  written := Written.nil

/-- Sending a chunk closes nothing. -/
theorem closed_sendChunk (p : Pipe) (chunk : List Char) :
    (p.sendChunk chunk).1.channel.closed = p.channel.closed := by
  unfold sendChunk Channel.sendChunk Channel.send
  cases h : p.channel.hasReader <;> simp [Channel.announce, Channel.settle, h]

/-- One piece of text more is added to what was. -/
theorem Adds.append {text : List Char} {done : Pipe × List Hook} (h : Adds text done)
    (piece : List Char) :
    Adds (text ++ piece) ((done.1.append piece).1, done.2 ++ (done.1.append piece).2) := by
  by_cases hne : piece = []
  · subst hne
    simpa [Pipe.append] using h
  · have hstep : (done.1.channel.closed || piece.isEmpty) = false := by simp [h.open_eq, hne]
    unfold Pipe.append
    simp only [hstep, if_false, Bool.false_eq_true]
    by_cases hsent : (cutComplete (done.1.held ++ piece)).1 = []
    · have hwritten := h.written.append hne [] hsent.symm (Nat.zero_le 1)
      rw [List.append_nil] at hwritten
      simp only [hsent, List.isEmpty_nil, if_true, List.append_nil]
      exact ⟨h.open_eq, hwritten⟩
    · have hwritten := h.written.append hne [_] List.flatten_singleton (Nat.le_refl 1)
      simp only [List.isEmpty_iff, hsent, if_false]
      refine ⟨(closed_sendChunk _ _).trans h.open_eq, ?_⟩
      rw [Hook.chunks_append]
      exact hwritten

/-- After each piece the writer has sent and holds back what is to be sent and held back of the text
so far. -/
theorem adds_appendAll (pacing : Pacing) (threshold : Nat) (pieces : List (List Char)) :
    Adds pieces.flatten ((Pipe.new pacing threshold).appendAll pieces) := by
  induction pieces using List.reverseRecOn with
  | nil => exact Adds.new pacing threshold
  | append_singleton pieces piece ih =>
      rw [appendAll, List.foldl_append, ← appendAll, List.flatten_append]
      simpa using ih.append piece

/-- Closing sends what is held back. -/
theorem flatten_chunks_close {p : Pipe} (hopen : p.channel.closed = false) :
    (Hook.chunks p.close.2).flatten = p.held ∧ (Hook.chunks p.close.2).length ≤ 1 := by
  simp only [Pipe.close, Pipe.flush, hopen, Bool.false_or, if_false, Bool.false_eq_true]
  by_cases hnil : p.held = []
  · simp [hnil, Hook.chunks]
  · simp [hnil, Hook.chunks, sendChunk]

/-- The chunks of a text that is complete meet at places to cut. -/
theorem Written.isCut_close {text held : List Char} {sent : List (List Char)}
    (h : Written text sent held) {last : List (List Char)} (hlast : last.flatten = held)
    (hone : last.length ≤ 1) {before after : List (List Char)}
    (hsplit : sent ++ last = before ++ after) : IsCut before.flatten after.flatten := by
  rcases List.append_eq_append_iff.mp hsplit with ⟨early, rfl, hnew⟩ | ⟨late, hsent, rfl⟩
  · cases after with
    | nil => exact .inl (isBoundary_end _)
    | cons chunk after =>
        -- What was held back is the one chunk after all others.
        obtain ⟨rfl, rfl⟩ : early = [] ∧ after = [] := by
          rw [hnew, List.length_append, List.length_cons] at hone
          exact ⟨List.eq_nil_of_length_eq_zero (by omega), List.eq_nil_of_length_eq_zero (by omega)⟩
        have hcut := h.isCut sent [] (List.append_nil sent).symm []
        rw [List.append_nil, ← hlast, hnew] at hcut
        rw [List.append_nil]
        exact hcut
  · have hcut := h.isCut before late hsent []
    rwa [List.append_nil, ← hlast, ← List.flatten_append] at hcut

/-- **Chunks and clusters.**  A text is added to a new pipe piece by piece, and the pipe is closed.
After any number of pieces the writer holds back the last cluster of the text so far, or nothing if
a control ends the text.  The chunks that it queues make up the text, and each of them begins and
ends between two clusters of the text, or between a carriage return and its line feed. -/
theorem isCut_chunks (pacing : Pacing) (threshold : Nat) (pieces : List (List Char)) :
    let written := (Pipe.new pacing threshold).appendAll pieces
    let chunks := Hook.chunks (written.2 ++ written.1.close.2)
    (∀ n, ((Pipe.new pacing threshold).appendAll (pieces.take n)).1.held =
        heldBack (pieces.take n).flatten) ∧
      chunks.flatten = pieces.flatten ∧
      ∀ before chunk after, chunks = before ++ chunk :: after →
        IsCut before.flatten (chunk ++ after.flatten) ∧
          IsCut (before.flatten ++ chunk) after.flatten := by
  intro written chunks
  have hadds : Adds pieces.flatten written := adds_appendAll pacing threshold pieces
  obtain ⟨hlast, hone⟩ := flatten_chunks_close hadds.open_eq
  have hchunks : chunks = Hook.chunks written.2 ++ Hook.chunks written.1.close.2 :=
    Hook.chunks_append _ _
  refine ⟨?_, ?_, ?_⟩
  · intro n
    exact (adds_appendAll pacing threshold (pieces.take n)).written.held_eq
  · rw [hchunks, List.flatten_append, hlast, hadds.written.flatten_sent]
  · intro before chunk after hsplit
    rw [hchunks] at hsplit
    have hbegin := hadds.written.isCut_close hlast hone hsplit
    have hend := hadds.written.isCut_close hlast hone
      (hsplit.trans (List.append_cons before chunk after))
    rw [List.flatten_append, List.flatten_singleton] at hend
    exact ⟨hbegin, hend⟩

end Pipe

end VideoTerminal
