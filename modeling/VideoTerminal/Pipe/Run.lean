import VideoTerminal.Text.Class

/-!
# Runs of a text

A run is a text without controls.  `Pipe.takeRun` takes the longest run that a text begins with and
that is not too long, and `takeRun_append_of_stops` tells a run by what follows it.
-/

namespace VideoTerminal

/-- No text is plain text. -/
theorem Text.plain_nil : ∀ c ∈ ([] : List Char), isControl7 c = false := by simp

/-- A run of at most `max` characters that is being read. -/
structure PartialRun (max : Nat) where
  /-- Characters that have been taken. -/
  text : List Char := []
  /-- The reader waits for the channel. -/
  waiting : Bool := false
  length_le : text.length ≤ max := by exact Nat.zero_le _
  plain : ∀ c ∈ text, Text.isControl7 c = false := by exact Text.plain_nil
  deriving DecidableEq, Repr

/-- Whether the writer is needed: nothing has been taken, and the reader waits. -/
def PartialRun.needsWriter {max : Nat} (s : PartialRun max) : Bool := s.waiting && s.text.isEmpty

namespace Pipe

/-- The longest beginning of a text without controls, at most `max` characters, and the rest. -/
def takeRun : Nat → List Char → List Char × List Char
  | 0, cs => ([], cs)
  | _ + 1, [] => ([], [])
  | max + 1, c :: cs =>
    if Text.isControl7 c then ([], c :: cs) else (c :: (takeRun max cs).1, (takeRun max cs).2)

/-- `rest` goes on with a control, or it is nothing. -/
def Stops (rest : List Char) : Prop := ∀ c ∈ rest.head?, Text.isControl7 c = true

/-- A run and what is left of the text make up the text. -/
theorem takeRun_append (max : Nat) (cs : List Char) :
    (takeRun max cs).1 ++ (takeRun max cs).2 = cs := by
  fun_induction takeRun max cs <;> simp_all

/-- A run is no longer than its limit. -/
theorem length_takeRun_le (max : Nat) (cs : List Char) : (takeRun max cs).1.length ≤ max := by
  fun_induction takeRun max cs <;> simp_all

/-- A run ends in front of the first control. -/
theorem not_isControl7_of_mem_takeRun {max : Nat} {cs : List Char} {c : Char}
    (hc : c ∈ (takeRun max cs).1) : Text.isControl7 c = false := by
  fun_induction takeRun max cs with
  | case1 => simp at hc
  | case2 => simp at hc
  | case3 => simp at hc
  | case4 max d cs hd ih =>
      rcases List.mem_cons.1 hc with rfl | hc
      · simpa using hd
      · exact ih hc

/-- A run that could be longer is followed by a control or by nothing. -/
theorem stops_takeRun {max : Nat} {cs : List Char} (h : (takeRun max cs).1.length < max) :
    Stops (takeRun max cs).2 := by
  fun_induction takeRun max cs with
  | case1 => simp at h
  | case2 => simp [Stops]
  | case3 max c cs hc => simpa [Stops] using hc
  | case4 max c cs hc ih =>
      apply ih
      simp only [List.length_cons] at h
      omega

/-- **The longest beginning.**  A text without controls is the run, whatever comes after it, if it
is as long as a run may be or if a control or nothing follows. -/
theorem takeRun_append_of_stops {max : Nat} {run rest : List Char}
    (hrun : ∀ c ∈ run, Text.isControl7 c = false) (hlength : run.length ≤ max)
    (hstops : run.length < max → Stops rest) : takeRun max (run ++ rest) = (run, rest) := by
  induction run generalizing max with
  | nil =>
      cases max with
      | zero => rfl
      | succ max =>
        cases rest with
        | nil => rfl
        | cons c rest =>
          have hc : Text.isControl7 c = true := hstops (by simp) c (by simp)
          simp [takeRun, hc]
  | cons c run ih =>
      obtain ⟨max, rfl⟩ : ∃ m, max = m + 1 := by
        cases max with
        | zero => simp at hlength
        | succ m => exact ⟨m, rfl⟩
      have hc : Text.isControl7 c = false := hrun c (by simp)
      have hrest : takeRun max (run ++ rest) = (run, rest) := by
        apply ih
        · intro d hd
          exact hrun d (by simp [hd])
        · simpa using hlength
        · intro h
          exact hstops (by simpa using h)
      simp [takeRun, hc, hrest]

/-- A run ends at the end of a text only if all of it is the run; else what follows is no matter. -/
theorem takeRun_append_left {max : Nat} {cs more : List Char}
    (h : (takeRun max cs).2 ≠ [] ∨ (takeRun max cs).1.length = max) :
    takeRun max (cs ++ more) = ((takeRun max cs).1, (takeRun max cs).2 ++ more) := by
  have hcs := takeRun_append max cs
  have hstops : (takeRun max cs).1.length < max → Stops ((takeRun max cs).2 ++ more) := by
    intro hlt
    have hs := stops_takeRun hlt
    rcases h with h | h
    · unfold Stops at hs ⊢
      cases hr : (takeRun max cs).2 with
      | nil => exact absurd hr h
      | cons c rest => simpa [hr] using hs
    · omega
  rw [← takeRun_append_of_stops (fun _ => not_isControl7_of_mem_takeRun) (length_takeRun_le max cs)
    hstops, ← List.append_assoc, hcs]

/-- Where all of a text is the run, the run goes on in what follows. -/
theorem takeRun_append_right {max : Nat} {cs more : List Char} (h : (takeRun max cs).2 = []) :
    takeRun max (cs ++ more) =
      (cs ++ (takeRun (max - cs.length) more).1, (takeRun (max - cs.length) more).2) := by
  have hcs : (takeRun max cs).1 = cs := by
    have := takeRun_append max cs
    rwa [h, List.append_nil] at this
  have hmore := takeRun_append (max - cs.length) more
  have hlength := length_takeRun_le max cs
  rw [hcs] at hlength
  have hmoreLength := length_takeRun_le (max - cs.length) more
  have htext : cs ++ more =
      cs ++ (takeRun (max - cs.length) more).1 ++ (takeRun (max - cs.length) more).2 := by
    rw [List.append_assoc, hmore]
  rw [htext]
  apply takeRun_append_of_stops
  · intro c hc
    rcases List.mem_append.1 hc with hc | hc
    · exact not_isControl7_of_mem_takeRun (hcs ▸ hc)
    · exact not_isControl7_of_mem_takeRun hc
  · rw [List.length_append]
    omega
  · intro hlt
    apply stops_takeRun
    rw [List.length_append] at hlt
    omega

end Pipe

end VideoTerminal
