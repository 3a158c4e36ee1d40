import VideoTerminal.Text.Utf8

/-!
# A text in pieces decodes as the whole

Reading one character is prefix-stable: what follows a character that is complete, or bytes that
begin none, does not change it (`head_append`).  So the bytes may be read up to any point first
(`scan_append`), which is what a `Decoder` does.  It keeps bytes that are not conclusive yet, and
what it still has to say is `decodeLossy` of them and of what follows (`Decoder.decode_append`,
`Decoder.finish_eq`).
-/

namespace VideoTerminal.Text.Utf8

/-- A head that does not depend on what follows, with the bytes after it extended. -/
def Head.extend (more : List UInt8) : Head → Head
  | .char c rest => .char c (rest ++ more)
  | .malformed rest => .malformed (rest ++ more)
  | .truncated => .truncated

/-- What has been decided is not changed by more bytes. -/
theorem headMultibyte_append {b low high : UInt8} {n : Nat} {bytes : List UInt8}
    (h : headMultibyte b n low high bytes ≠ .truncated) (more : List UInt8) :
    headMultibyte b n low high (bytes ++ more) =
      (headMultibyte b n low high bytes).extend more := by
  rcases bytes with _ | ⟨c, _ | ⟨d, _ | ⟨e, rest⟩⟩⟩
  · exact absurd rfl h
  all_goals
    simp only [headMultibyte, List.cons_append, List.nil_append] at h ⊢
    repeat' split
    all_goals simp_all [Head.extend]

/-- **What is read does not depend on what follows it**, unless it is cut off. -/
theorem head_append {b : UInt8} {bytes : List UInt8} (h : head b bytes ≠ .truncated)
    (more : List UInt8) : head b (bytes ++ more) = (head b bytes).extend more := by
  unfold head at h ⊢
  split
  · rfl
  · split
    · rfl
    · exact headMultibyte_append (by simp_all) more

section Scan

variable {b : UInt8} {c : Char} {bytes more : List UInt8} (text : List Char)

/-- A character is read, and the scan goes on behind it. -/
theorem scan_char (h : head b bytes = .char c more) :
    scan text (b :: bytes) = scan (c :: text) more := by
  rw [scan]
  split <;> simp_all

/-- For a mistake stands a replacement, and the scan goes on behind it. -/
theorem scan_malformed (h : head b bytes = .malformed more) :
    scan text (b :: bytes) = scan (replacement :: text) more := by
  rw [scan]
  split <;> simp_all

/-- What is cut off ends the scan. -/
theorem scan_truncated (h : head b bytes = .truncated) :
    scan text (b :: bytes) = (text, b :: bytes) := by
  rw [scan]
  split <;> simp_all

end Scan

/-- What has been decoded before stays behind what is decoded now. -/
theorem scan_text_append (decoded text : List Char) (bytes : List UInt8) :
    scan (decoded ++ text) bytes = ((scan decoded bytes).1 ++ text, (scan decoded bytes).2) := by
  fun_induction scan decoded bytes with
  | case1 decoded => rw [scan]
  | case2 decoded b rest c more h ih => rw [scan_char _ h, ← ih, List.cons_append]
  | case3 decoded b rest more h ih => rw [scan_malformed _ h, ← ih, List.cons_append]
  | case4 decoded b rest h => rw [scan_truncated _ h]

/-- **The bytes may be read up to any point first**, and then from what was left on. -/
theorem scan_append (text : List Char) (bytes more : List UInt8) :
    scan text (bytes ++ more) = scan (scan text bytes).1 ((scan text bytes).2 ++ more) := by
  fun_induction scan text bytes with
  | case1 text => rfl
  -- what is complete in `bytes` is read in the same way when `more` follows
  | case2 text b rest c after h ih =>
      have hcomplete : head b rest ≠ .truncated := by simp [h]
      have hhead := head_append hcomplete more
      rw [h] at hhead
      rw [List.cons_append, scan_char _ hhead, ih]
  | case3 text b rest after h ih =>
      have hcomplete : head b rest ≠ .truncated := by simp [h]
      have hhead := head_append hcomplete more
      rw [h] at hhead
      rw [List.cons_append, scan_malformed _ hhead, ih]
  | case4 text b rest h => rfl

/-- Nothing can be read of what is left. -/
theorem scan_left (text : List Char) (bytes : List UInt8) :
    scan [] (scan text bytes).2 = ([], (scan text bytes).2) := by
  fun_induction scan text bytes with
  | case1 text => rw [scan]
  | case2 text b rest c more h ih => exact ih
  | case3 text b rest more h ih => exact ih
  | case4 text b rest h => exact scan_truncated [] h

/-- Decoding at once is decoding up to any point, and then what was left and what follows. -/
theorem decodeLossy_append (bytes more : List UInt8) :
    decodeLossy (bytes ++ more) =
      (scan [] bytes).1.reverse ++ decodeLossy ((scan [] bytes).2 ++ more) := by
  have hscan : scan [] (bytes ++ more) =
      ((scan [] ((scan [] bytes).2 ++ more)).1 ++ (scan [] bytes).1,
        (scan [] ((scan [] bytes).2 ++ more)).2) := by
    rw [scan_append, ← scan_text_append, List.nil_append]
  unfold decodeLossy
  rw [hscan]
  rcases scan [] ((scan [] bytes).2 ++ more) with ⟨text, _ | ⟨b, rest⟩⟩ <;> simp

namespace Decoder

/-- The bytes that a decoder keeps begin a character and do not finish it. -/
def Inconclusive (d : Decoder) : Prop := scan [] d.pending = ([], d.pending)

/-- At first a decoder keeps nothing. -/
theorem inconclusive_new : Inconclusive {} := by
  unfold Inconclusive
  rw [scan]

/-- What a decoder keeps begins a character and does not finish it. -/
theorem inconclusive_decode (d : Decoder) (bytes : List UInt8) :
    (d.decode bytes).2.Inconclusive :=
  scan_left [] (d.pending ++ bytes)

/-- **What a decoder says now and what it still has to say** are one text. -/
theorem decode_append (d : Decoder) (bytes more : List UInt8) :
    decodeLossy (d.pending ++ (bytes ++ more)) =
      (d.decode bytes).1 ++ decodeLossy ((d.decode bytes).2.pending ++ more) := by
  rw [← List.append_assoc]
  exact decodeLossy_append (d.pending ++ bytes) more

/-- At the end it has to say what decoding the bytes kept gives. -/
theorem finish_eq {d : Decoder} (h : d.Inconclusive) : d.finish.1 = decodeLossy d.pending := by
  unfold finish decodeLossy
  rw [h]
  cases d.pending <;> rfl

end Decoder

end VideoTerminal.Text.Utf8
