import VideoTerminal.Text.Utf8

/-!
# Encoding UTF-8

The bytes of a text are those of its characters, one after the other.  A seven-bit character is one
byte, and no byte of another character is a seven-bit one.  So the bytes of a seven-bit text are
found in those of another only where the text itself is (`eq_append_append_of_encode_eq`).
-/

namespace VideoTerminal.Text.Utf8

/-- Bytes are listed from where the listing stands. -/
theorem toList_loop (bytes : ByteArray) (i : Nat) (read : List UInt8) :
    ByteArray.toList.loop bytes i read = read.reverse ++ bytes.data.toList.drop i := by
  fun_induction ByteArray.toList.loop bytes i read with
  | case1 i read h ih =>
      have hlt : i < bytes.data.toList.length := h
      have hget : bytes.get! i = bytes.data.toList[i] := by
        obtain ⟨⟨bytes⟩⟩ := bytes
        exact getElem!_pos (c := (⟨bytes⟩ : Array UInt8)) i h
      rw [ih, List.drop_eq_getElem_cons hlt, hget, List.reverse_cons, List.append_assoc,
        List.singleton_append]
  | case2 i read h =>
      have hle : bytes.data.toList.length ≤ i := Nat.not_lt.mp h
      rw [List.drop_eq_nil_of_le hle, List.append_nil]

/-- A text is encoded scalar by scalar. -/
theorem encode_eq_flatMap (text : List Char) : encode text = text.flatMap String.utf8EncodeChar := by
  simp [encode, List.utf8Encode, ByteArray.toList, toList_loop]

@[simp] theorem encode_nil : encode [] = [] := by
  simp [encode_eq_flatMap]

/-- A text is encoded as its first scalar and the rest. -/
@[simp] theorem encode_cons (c : Char) (rest : List Char) :
    encode (c :: rest) = String.utf8EncodeChar c ++ encode rest := by
  simp [encode_eq_flatMap]

/-- A text in two parts is encoded one part after the other. -/
@[simp] theorem encode_append (front back : List Char) :
    encode (front ++ back) = encode front ++ encode back := by
  simp [encode_eq_flatMap]

/-- Only the empty text takes no bytes. -/
@[simp] theorem encode_eq_nil_iff {text : List Char} : encode text = [] ↔ text = [] := by
  cases text <;> simp

/-- A seven-bit character is one byte. -/
theorem utf8EncodeChar_of_lt {c : Char} (h : c.toNat < 128) :
    String.utf8EncodeChar c = [UInt8.ofNat c.toNat] := by
  have hle : c.val.toNat ≤ 127 := Nat.le_of_lt_succ h
  rw [String.utf8EncodeChar, if_pos hle]
  rfl

/-- No byte of another character is a seven-bit one. -/
theorem le_toNat_of_mem_utf8EncodeChar {c : Char} (h : 128 ≤ c.toNat) {b : UInt8}
    (hb : b ∈ String.utf8EncodeChar c) : 128 ≤ b.toNat := by
  have hgt : ¬ c.val.toNat ≤ 127 := Nat.not_le.mpr h
  rw [String.utf8EncodeChar, if_neg hgt] at hb
  revert b
  split
  · simp; omega
  · split
    · simp; omega
    · simp; omega

/-- A seven-bit text whose bytes come first is what comes first. -/
theorem eq_append_of_encode_eq {marker text : List Char} {after : List UInt8}
    (hascii : ∀ c ∈ marker, c.toNat < 128) (h : encode text = encode marker ++ after) :
    ∃ back, text = marker ++ back ∧ after = encode back := by
  induction marker generalizing text with
  | nil => exact ⟨text, rfl, by simpa using h.symm⟩
  | cons c marker ih =>
      obtain ⟨hc, hmarker⟩ := List.forall_mem_cons.mp hascii
      have hbyte : (UInt8.ofNat c.toNat).toNat = c.toNat :=
        UInt8.toNat_ofNat_of_lt' (by simp only [UInt8.size]; omega)
      rw [encode_cons, utf8EncodeChar_of_lt hc] at h
      cases text with
      | nil => simp at h
      | cons d text =>
          rw [encode_cons] at h
          rcases Nat.lt_or_ge d.toNat 128 with hd | hd
          · rw [utf8EncodeChar_of_lt hd] at h
            simp only [List.cons_append, List.nil_append, List.cons.injEq] at h
            obtain ⟨back, rfl, rfl⟩ := ih hmarker h.2
            have hsame := congrArg UInt8.toNat h.1
            rw [hbyte, UInt8.toNat_ofNat_of_lt' (by simp only [UInt8.size]; omega)] at hsame
            exact ⟨back, by rw [Char.toNat_inj.mp hsame]; rfl, rfl⟩
          · obtain ⟨b, bytes, hbytes⟩ := List.exists_cons_of_ne_nil (String.utf8EncodeChar_ne_nil (c := d))
            have hhigh := le_toNat_of_mem_utf8EncodeChar hd (b := b) (by simp [hbytes])
            rw [hbytes] at h
            simp only [List.cons_append, List.nil_append, List.cons.injEq] at h
            rw [h.1, hbyte] at hhigh
            omega

/-- A seven-bit text whose bytes are found in those of another is found there itself: its bytes are
no part of a longer character's. -/
theorem eq_append_append_of_encode_eq {marker text : List Char} {before after : List UInt8}
    (hne : marker ≠ []) (hascii : ∀ c ∈ marker, c.toNat < 128)
    (h : encode text = before ++ encode marker ++ after) :
    ∃ front back, text = front ++ marker ++ back ∧ after = encode back := by
  induction text generalizing before with
  | nil => simp_all
  | cons d text ih =>
      rw [encode_cons, List.append_assoc] at h
      rcases List.append_eq_append_iff.mp h with ⟨rest, rfl, hrest⟩ | ⟨part, hpart, hrest⟩
      · -- The marker begins after the first character.
        rw [← List.append_assoc] at hrest
        obtain ⟨front, back, rfl, hafter⟩ := ih hrest
        exact ⟨d :: front, back, by simp, hafter⟩
      · cases part with
        | nil =>
            have hnext : encode text = [] ++ encode marker ++ after := hrest.symm
            obtain ⟨front, back, rfl, hafter⟩ := ih hnext
            exact ⟨d :: front, back, by simp, hafter⟩
        | cons b part =>
            -- It begins among the bytes of that character, which then is a seven-bit one.
            have hd : d.toNat < 128 := by
              obtain ⟨c, marker, rfl⟩ := List.exists_cons_of_ne_nil hne
              have hc := hascii c List.mem_cons_self
              rw [encode_cons, utf8EncodeChar_of_lt hc] at hrest
              simp only [List.cons_append, List.nil_append, List.cons.injEq] at hrest
              refine Nat.not_le.mp fun hhigh => ?_
              have hle := le_toNat_of_mem_utf8EncodeChar hhigh (b := b)
                (by simp [hpart])
              rw [← hrest.1, UInt8.toNat_ofNat_of_lt' (by simp only [UInt8.size]; omega)] at hle
              omega
            have hbefore : before = [] := by
              rw [utf8EncodeChar_of_lt hd] at hpart
              simp_all [List.cons_eq_append_iff]
            subst hbefore
            have hfirst : encode (d :: text) = encode marker ++ after := (encode_cons d text).trans h
            obtain ⟨back, hback, hafter⟩ := eq_append_of_encode_eq hascii hfirst
            exact ⟨[], back, hback, hafter⟩

end VideoTerminal.Text.Utf8
