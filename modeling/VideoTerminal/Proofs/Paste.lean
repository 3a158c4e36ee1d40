import Mathlib.Data.List.Infix
import VideoTerminal.Paste
import VideoTerminal.Proofs.Text.Encoding

/-!
# What a paste contains

The closing marker tells a program where a pasted text ends, so a text that contains it could end
its own paste early.  `Paste.text` takes the markers out that it finds, but does not look again at
what is joined by that: two halves of a marker around a whole one become a marker
(`not_sealed_halves`).

That is the only way.  In the bytes of a paste the closing marker is at the end and nowhere else
exactly if none is left in the text; and none is left unless the text has a marker right behind the
beginning of another (`encode_text_sealed_iff`).
-/

namespace VideoTerminal

namespace Text

/-- The beginning of a marker stands right before a whole one. -/
def Interrupted (marker text : List Char) : Prop :=
  ∃ k, 0 < k ∧ k < marker.length ∧ marker.take k ++ marker <:+: text

instance (marker text : List Char) : Decidable (Interrupted marker text) :=
  decidable_of_iff (∃ k < marker.length, 0 < k ∧ marker.take k ++ marker <:+: text)
    ⟨fun ⟨k, hlt, hpos, hin⟩ => ⟨k, hpos, hlt, hin⟩, fun ⟨k, hpos, hlt, hin⟩ => ⟨k, hlt, hpos, hin⟩⟩

/-- What interrupts a marker in the end of a text does so in the text. -/
theorem Interrupted.of_suffix {marker text rest : List Char} (hrest : rest <:+ text)
    (h : Interrupted marker rest) : Interrupted marker text := by
  obtain ⟨k, hpos, hlt, hin⟩ := h
  exact ⟨k, hpos, hlt, hin.trans hrest.isInfix⟩

/-- What goes on with a marker after the others have been taken out went on with it before. -/
theorem drop_isPrefix_of_without {marker text : List Char} {k : Nat} (hk : 0 < k)
    (hmark : ¬ Interrupted marker (marker.take k ++ text))
    (h : marker.drop k <+: without marker text) : marker.drop k <+: text := by
  by_cases hend : marker.length ≤ k
  · rw [List.drop_eq_nil_of_le hend]
    exact List.nil_prefix
  · have hlt : k < marker.length := Nat.not_le.mp hend
    fun_induction without marker text generalizing k with
    | case1 => exact h
    | case2 c rest hfound ih =>
        -- A whole marker would stand right behind the first `k` characters of one.
        obtain ⟨tail, htail⟩ := List.isPrefixOf_iff_prefix.mp hfound
        exact absurd ⟨k, hk, hlt, [], tail, by rw [List.nil_append, List.append_assoc, htail]⟩ hmark
    | case3 c rest hnone ih =>
        rw [List.drop_eq_getElem_cons hlt] at h ⊢
        obtain ⟨rfl, hnext⟩ := List.cons_prefix_cons.mp h
        refine List.cons_prefix_cons.mpr ⟨rfl, ?_⟩
        by_cases hlast : marker.length ≤ k + 1
        · rw [List.drop_eq_nil_of_le hlast]
          exact List.nil_prefix
        · refine ih (Nat.succ_pos k) ?_ hnext hlast (Nat.not_le.mp hlast)
          rw [List.take_add_one, List.getElem?_eq_getElem hlt, List.append_assoc]
          exact hmark

/-- Unless a marker interrupts another, none is left at the start. -/
theorem not_isPrefix_without {marker text : List Char} (hne : marker ≠ [])
    (hmark : ¬ Interrupted marker text) : ¬ marker <+: without marker text := by
  fun_induction without marker text with
  | case1 => exact fun h => hne (List.prefix_nil.mp h)
  | case2 c rest hfound ih =>
      refine ih fun h => hmark (h.of_suffix ?_)
      exact (List.drop_suffix _ _).trans (List.suffix_cons c rest)
  | case3 c rest hnone ih =>
      intro h
      obtain ⟨first, more, rfl⟩ := List.exists_cons_of_ne_nil hne
      obtain ⟨rfl, hmore⟩ := List.cons_prefix_cons.mp h
      have hleft := drop_isPrefix_of_without Nat.one_pos hmark hmore
      exact hnone (List.isPrefixOf_iff_prefix.mpr (List.cons_prefix_cons.mpr ⟨rfl, hleft⟩))

/-- Unless a marker interrupts another, none is left anywhere. -/
theorem not_isInfix_without {marker text : List Char} (hne : marker ≠ [])
    (hmark : ¬ Interrupted marker text) : ¬ marker <:+: without marker text := by
  fun_induction without marker text with
  | case1 => exact fun h => hne (List.infix_nil.mp h)
  | case2 c rest hfound ih =>
      refine ih fun h => hmark (h.of_suffix ?_)
      exact (List.drop_suffix _ _).trans (List.suffix_cons c rest)
  | case3 c rest hnone ih =>
      have hfirst := not_isPrefix_without hne hmark
      rw [without, if_neg hnone] at hfirst
      intro h
      rcases List.infix_cons_iff.mp h with h | h
      · exact hfirst h
      · exact ih (fun hrest => hmark (hrest.of_suffix (List.suffix_cons c rest))) h

end Text

namespace Paste

open Text.Utf8

/-- The closing marker is at the end of the bytes, and nowhere else in them. -/
def Sealed (bytes : List UInt8) : Prop :=
  encode closing <:+ bytes ∧
    ∀ before after, bytes = before ++ encode closing ++ after → after = []

/-- The start of a paste, character by character. -/
theorem opening_eq : opening = ['\x1b', '[', '2', '0', '0', '~'] := rfl

/-- The end of a paste, character by character. -/
theorem closing_eq : closing = ['\x1b', '[', '2', '0', '1', '~'] := rfl

/-- No closing marker begins in the opening one: only its first character is an escape. -/
theorem isInfix_of_opening_append {body : List Char} (h : closing <:+: opening ++ body) :
    closing <:+: body := by
  rw [opening_eq, closing_eq] at *
  simpa [List.infix_cons_iff] using h

/-- No closing marker ends in the last one but that itself: only its last character is a tilde. -/
theorem eq_nil_or_isInfix_of_append_closing {body before after : List Char}
    (h : body ++ closing = before ++ closing ++ after) : after = [] ∨ closing <:+: body := by
  have hreverse : closing.reverse ++ body.reverse =
      after.reverse ++ (closing.reverse ++ before.reverse) := by
    simpa using congrArg List.reverse h
  cases hafter : after.reverse with
  | nil => exact .inl (List.reverse_eq_nil_iff.mp hafter)
  | cons c rest =>
      refine .inr (List.reverse_infix.mp ?_)
      have hin : closing.reverse <:+: (closing.reverse ++ body.reverse).tail := by
        rw [hreverse, hafter]
        exact ⟨rest, before.reverse, by simp⟩
      rw [closing_eq] at *
      simpa [List.infix_cons_iff] using hin

/-- The bytes of a paste are sealed exactly if no closing marker is left in the text. -/
theorem sealed_iff (body : List Char) :
    Sealed (encode (opening ++ body ++ closing)) ↔ ¬ closing <:+: body := by
  constructor
  · rintro ⟨-, honly⟩ ⟨front, back, rfl⟩
    have hend := honly (encode (opening ++ front)) (encode (back ++ closing)) (by simp)
    simp [closing_eq] at hend
  · intro hfree
    refine ⟨⟨encode (opening ++ body), by simp⟩, ?_⟩
    intro before after h
    obtain ⟨front, back, hchars, rfl⟩ :=
      eq_append_append_of_encode_eq (by decide) (by simp [closing_eq]) h
    rcases eq_nil_or_isInfix_of_append_closing hchars with rfl | hin
    · exact encode_nil
    · exact absurd (isInfix_of_opening_append hin) hfree

/-- **Pasting under bracketed paste.**  A program receives the opening marker, the text without the
closing markers that are found in it, and the closing marker.  That marker occurs at the end only
exactly if none is left in the text; and none is left if no marker in the pasted text stands right
behind the beginning of another. -/
theorem encode_text_sealed_iff (pasted : List Char) {modes : ModeSet}
    (h : modes.contains .bracketedPasteMode = true) :
    encode (text pasted modes) =
        encode opening ++ encode (Text.without closing pasted) ++ encode closing ∧
      (Sealed (encode (text pasted modes)) ↔ ¬ closing <:+: Text.without closing pasted) ∧
      (¬ Text.Interrupted closing pasted → Sealed (encode (text pasted modes))) := by
  have htext : text pasted modes = opening ++ Text.without closing pasted ++ closing := if_pos h
  have hiff := sealed_iff (Text.without closing pasted)
  rw [htext]
  refine ⟨by simp only [encode_append], hiff, ?_⟩
  intro hmark
  exact hiff.mpr (Text.not_isInfix_without (by decide) hmark)

/-- Whole markers side by side are all taken out. -/
theorem encode_text_sealed_iff_markers :
    (ModeSet.empty.set .bracketedPasteMode true).contains .bracketedPasteMode = true ∧
      Sealed (encode (text "a\x1b[201~\x1b[201~b".toList
        (ModeSet.empty.set .bracketedPasteMode true))) :=
  ⟨by decide, (encode_text_sealed_iff _ (by decide)).2.2 (by decide)⟩

/-- Two halves of a marker around a whole one leave a marker in the text. -/
theorem not_sealed_halves :
    ¬ ∀ (pasted : List Char) (modes : ModeSet), modes.contains .bracketedPasteMode = true →
      Sealed (encode (text pasted modes)) := by
  intro hall
  have hsealed := hall "\x1b[201\x1b[201~~".toList (.set .empty .bracketedPasteMode true) (by decide)
  have hleft : Text.without closing "\x1b[201\x1b[201~~".toList = closing := by decide +kernel
  have htext : text "\x1b[201\x1b[201~~".toList (.set .empty .bracketedPasteMode true) =
      opening ++ closing ++ closing := by
    rw [text, if_pos (by decide), hleft]
  rw [htext, sealed_iff] at hsealed
  exact hsealed List.infix_rfl

end Paste

end VideoTerminal
