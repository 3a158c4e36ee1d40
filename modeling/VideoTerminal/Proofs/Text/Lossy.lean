import VideoTerminal.Proofs.Text.Heads

/-!
# Decoding what is not UTF-8

A text in which some bytes are not UTF-8 is decoded with one `U+FFFD` for each maximal subpart:
where no character is encoded, for the longest bytes there that could begin one, or for one byte.
`Lossy` says this by the encodings of characters alone, and leaves no choice; `decodeLossy` is the
decoding that it describes (`lossy_iff`).

A decoder that is given the bytes in pieces says the same (`Decoder.decodeAll_eq`).  What it keeps
after each piece is what cuts the bytes off at their end (`scan_snd_iff`).
-/

namespace VideoTerminal.Text.Utf8

/-! ## Maximal subparts -/

/-- Bytes in front of others for which there is to be one `U+FFFD`. -/
structure Subpart (part rest : List UInt8) : Prop where
  /-- No character is encoded there. -/
  no_char : ∀ c, ¬ String.utf8EncodeChar c <+: part ++ rest
  begins : CutOff part ∨ part.length = 1
  longest : ∀ front, front <+: part ++ rest → CutOff front → front.length ≤ part.length

/-- A text and the bytes that decode to it. -/
inductive Lossy : List UInt8 → List Char → Prop
  | nil : Lossy [] []
  | char (c : Char) {rest : List UInt8} {text : List Char} (h : Lossy rest text) :
      Lossy (String.utf8EncodeChar c ++ rest) (c :: text)
  | subpart {part rest : List UInt8} {text : List Char} (hpart : Subpart part rest)
      (h : Lossy rest text) : Lossy (part ++ rest) (replacement :: text)

/-- What is cut off has a byte at least. -/
theorem CutOff.length_pos {bytes : List UInt8} (h : CutOff bytes) : 0 < bytes.length :=
  List.length_pos_iff.mpr h.1

/-- What is cut off has three bytes at most. -/
theorem CutOff.length_le {bytes : List UInt8} (h : CutOff bytes) : bytes.length ≤ 3 := by
  obtain ⟨-, c, more, hmore, henc⟩ := h
  have hlen := congrArg List.length henc
  have hmax := c.utf8Size_le_four
  have hpos := List.length_pos_iff.mpr hmore
  rw [String.length_utf8EncodeChar, List.length_append] at hlen
  omega

namespace Subpart

variable {part rest part' rest' : List UInt8}

/-- A maximal subpart has a byte at least. -/
theorem length_pos (h : Subpart part rest) : 0 < part.length := by
  rcases h.begins with hcut | hone
  · exact hcut.length_pos
  · omega

/-- No subpart at the same place is longer than another. -/
theorem length_le (h : Subpart part rest) (h' : Subpart part' rest')
    (hsame : part ++ rest = part' ++ rest') : part.length ≤ part'.length := by
  rcases h.begins with hcut | hone
  · exact h'.longest part (hsame ▸ List.prefix_append part rest) hcut
  · exact hone ▸ h'.length_pos

/-- Bytes have one maximal subpart at most. -/
theorem unique (h : Subpart part rest) (h' : Subpart part' rest')
    (hsame : part ++ rest = part' ++ rest') : part = part' ∧ rest = rest' :=
  List.append_inj hsame (Nat.le_antisymm (h.length_le h' hsame) (h'.length_le h hsame.symm))

end Subpart

section Head

variable {b : UInt8} {bytes more : List UInt8}

/-- Bytes that encode a character are read as one. -/
theorem exists_head_eq_char {c : Char} (h : String.utf8EncodeChar c <+: b :: bytes) :
    ∃ more, head b bytes = .char c more ∧ b :: bytes = String.utf8EncodeChar c ++ more := by
  obtain ⟨more, hmore⟩ := h
  have hencodes := exists_encodes c
  obtain ⟨first, tails, hfirst⟩ := List.exists_cons_of_ne_nil (String.utf8EncodeChar_ne_nil (c := c))
  rw [hfirst, List.cons_append] at hmore
  obtain ⟨rfl, rfl⟩ := List.cons.inj hmore
  rw [hfirst] at hencodes ⊢
  exact ⟨more, head_of_encodes hencodes more, rfl⟩

/-- Where a character is read, its encoding stands. -/
theorem eq_append_of_head_eq_char {c : Char} (h : head b bytes = .char c more) :
    b :: bytes = String.utf8EncodeChar c ++ more := by
  have hreads := reads_head b bytes
  rw [h] at hreads
  cases hreads with
  | char hencodes =>
      rw [hencodes.utf8EncodeChar_eq]
      rfl

/-- What is read as malformed is a maximal subpart. -/
theorem exists_subpart_of_head (h : head b bytes = .malformed more) :
    ∃ part, b :: bytes = part ++ more ∧ Subpart part more := by
  have hchar : ∀ c, ¬ String.utf8EncodeChar c <+: b :: bytes := by
    intro c hc
    obtain ⟨more, hhead, -⟩ := exists_head_eq_char hc
    rw [h] at hhead
    cases hhead
  have hreads := reads_head b bytes
  rw [h] at hreads
  cases hreads with
  | invalid hinvalid =>
      refine ⟨[b], rfl, hchar, .inr rfl, ?_⟩
      intro front hfront hcut
      obtain ⟨first, front, rfl⟩ := List.exists_cons_of_ne_nil hcut.1
      obtain ⟨rfl, -⟩ := List.cons_prefix_cons.mp hfront
      have hhead := hcut.head_eq
      rw [hinvalid] at hhead
      cases hhead
  | @refused part c hpart hrefused rest =>
      refine ⟨b :: part, rfl, hchar, .inl hpart, ?_⟩
      intro front hfront hcut
      refine Nat.not_lt.mp fun hlonger => ?_
      obtain ⟨back, rfl⟩ := List.prefix_of_prefix_length_le (List.prefix_append _ _) hfront
        (Nat.le_of_lt hlonger)
      cases back with
      | nil => simp at hlonger
      | cons d back =>
          obtain ⟨rfl, -⟩ : d = c ∧ back <+: rest := by
            rw [List.prefix_append_right_inj] at hfront
            exact List.cons_prefix_cons.mp hfront
          have hhead : head b (part ++ d :: back) = .truncated := CutOff.head_eq hcut
          rw [hrefused] at hhead
          cases hhead

/-- Bytes that are cut off are one maximal subpart. -/
theorem CutOff.subpart (h : CutOff (b :: bytes)) : Subpart (b :: bytes) [] where
  no_char c hc := by
    rw [List.append_nil] at hc
    obtain ⟨more, hhead, -⟩ := exists_head_eq_char hc
    rw [h.head_eq] at hhead
    cases hhead
  begins := .inl h
  longest front hfront _ := by
    rw [List.append_nil] at hfront
    exact hfront.length_le

end Head

/-! ## The decoding -/

section Decoding

variable {b : UInt8} {bytes more : List UInt8}

/-- What is read first is decoded first. -/
theorem decodeLossy_of_scan {c : Char} (h : scan [] bytes = scan [c] more) :
    decodeLossy bytes = c :: decodeLossy more := by
  have hscan : scan [c] more = ((scan [] more).1 ++ [c], (scan [] more).2) :=
    scan_text_append [] [c] more
  unfold decodeLossy
  rw [h, hscan]
  rcases scan [] more with ⟨text, _ | ⟨d, rest⟩⟩ <;> simp

/-- A character is decoded as itself. -/
theorem decodeLossy_char {c : Char} (h : head b bytes = .char c more) :
    decodeLossy (b :: bytes) = c :: decodeLossy more :=
  decodeLossy_of_scan (scan_char [] h)

/-- A mistake is decoded as one replacement. -/
theorem decodeLossy_malformed (h : head b bytes = .malformed more) :
    decodeLossy (b :: bytes) = replacement :: decodeLossy more :=
  decodeLossy_of_scan (scan_malformed [] h)

/-- What is cut off at the end is decoded as one replacement. -/
theorem decodeLossy_truncated (h : head b bytes = .truncated) :
    decodeLossy (b :: bytes) = [replacement] := by
  rw [decodeLossy, scan_truncated [] h]
  rfl

@[simp] theorem decodeLossy_nil : decodeLossy [] = [] := by
  rw [decodeLossy, scan]
  rfl

end Decoding

/-- The decoding is as described. -/
theorem lossy_of_scan (text : List Char) (bytes : List UInt8) : Lossy bytes (decodeLossy bytes) := by
  fun_induction scan text bytes with
  | case1 text =>
      rw [decodeLossy_nil]
      exact .nil
  | case2 text b rest c more h ih =>
      rw [decodeLossy_char h, eq_append_of_head_eq_char h]
      exact .char c ih
  | case3 text b rest more h ih =>
      obtain ⟨part, hpart, hsubpart⟩ := exists_subpart_of_head h
      rw [decodeLossy_malformed h, hpart]
      exact .subpart hsubpart ih
  | case4 text b rest h =>
      rw [decodeLossy_truncated h, ← List.append_nil (b :: rest)]
      exact .subpart (cutOff_iff.mpr h).subpart .nil

/-- No other text is. -/
theorem Lossy.eq_decodeLossy {bytes : List UInt8} {text : List Char} (h : Lossy bytes text) :
    text = decodeLossy bytes := by
  induction h with
  | nil => rw [decodeLossy_nil]
  | @char c rest text _ ih =>
      obtain ⟨b, tails, hfirst⟩ := List.exists_cons_of_ne_nil (String.utf8EncodeChar_ne_nil (c := c))
      have hencodes := exists_encodes c
      rw [hfirst] at hencodes ⊢
      rw [List.cons_append, decodeLossy_char (head_of_encodes hencodes rest), ih]
  | @subpart part rest text hpart _ ih =>
      obtain ⟨b, bytes, hbytes⟩ := List.exists_cons_of_ne_nil
        (List.append_ne_nil_of_left_ne_nil (List.ne_nil_of_length_pos hpart.length_pos) rest)
      rw [hbytes, ih]
      cases hhead : head b bytes with
      | char c more =>
          have hchar := eq_append_of_head_eq_char hhead
          exact absurd ⟨more, (hbytes.trans hchar).symm⟩ (hpart.no_char c)
      | malformed more =>
          obtain ⟨part', hpart', hsubpart⟩ := exists_subpart_of_head hhead
          obtain ⟨rfl, rfl⟩ := hpart.unique hsubpart (hbytes.trans hpart')
          rw [decodeLossy_malformed hhead]
      | truncated =>
          have hcut := (cutOff_iff.mpr hhead).subpart
          obtain ⟨rfl, rfl⟩ := hpart.unique hcut (hbytes.trans (List.append_nil _).symm)
          rw [decodeLossy_truncated hhead, decodeLossy_nil]

/-- **The decoding is the one described.** -/
theorem lossy_iff {bytes : List UInt8} {text : List Char} :
    Lossy bytes text ↔ text = decodeLossy bytes :=
  ⟨Lossy.eq_decodeLossy, fun h => h ▸ lossy_of_scan [] bytes⟩

/-! ## What is left -/

section Left

variable {b : UInt8} {part bytes more : List UInt8}

/-- What begins behind a first byte that is not cut off begins behind what is read with it. -/
theorem suffix_of_head (hhead : head b bytes ≠ .truncated)
    (htails : ∃ tails, bytes = tails ++ more ∧ ∀ d ∈ tails, Tail d) (hcut : CutOff part)
    (h : part <:+ b :: bytes) : part <:+ more := by
  obtain ⟨tails, rfl, htails⟩ := htails
  rcases List.suffix_cons_iff.mp h with rfl | h
  · exact absurd hcut.head_eq hhead
  · rcases List.suffix_or_suffix_of_suffix h (List.suffix_append tails more) with h | ⟨front, rfl⟩
    · exact h
    · cases front with
      | nil => exact List.suffix_refl more
      | cons d front =>
          have hmem : d :: front <:+ tails := List.suffix_append_self_iff.mp h
          exact absurd (htails d (hmem.subset List.mem_cons_self)) (CutOff.tails hcut).1

variable (text : List Char)

/-- What is kept for later are the last bytes. -/
theorem scan_snd_suffix (bytes : List UInt8) : (scan text bytes).2 <:+ bytes := by
  fun_induction scan text bytes with
  | case1 text => exact List.suffix_refl []
  | case2 text b rest c more h ih =>
      obtain ⟨tails, rfl, -⟩ := exists_tails_of_head_eq_char h
      exact (ih.trans (List.suffix_append tails more)).trans (List.suffix_cons b _)
  | case3 text b rest more h ih =>
      obtain ⟨tails, rfl, -⟩ := exists_tails_of_head_eq_malformed h
      exact (ih.trans (List.suffix_append tails more)).trans (List.suffix_cons b _)
  | case4 text b rest h => exact List.suffix_refl _

/-- What is kept for later begins a character. -/
theorem scan_snd_cutOff (bytes : List UInt8) :
    (scan text bytes).2 = [] ∨ CutOff (scan text bytes).2 := by
  fun_induction scan text bytes with
  | case1 text => exact .inl rfl
  | case2 text b rest c more h ih => exact ih
  | case3 text b rest more h ih => exact ih
  | case4 text b rest h => exact .inr (cutOff_iff.mpr h)

/-- Bytes at the end that begin a character are kept for later. -/
theorem suffix_scan_snd (hcut : CutOff part) (h : part <:+ bytes) :
    part <:+ (scan text bytes).2 := by
  fun_induction scan text bytes with
  | case1 text => exact h
  | case2 text b rest c more hhead ih =>
      exact ih (suffix_of_head (by simp [hhead]) (exists_tails_of_head_eq_char hhead) hcut h)
  | case3 text b rest more hhead ih =>
      exact ih (suffix_of_head (by simp [hhead]) (exists_tails_of_head_eq_malformed hhead) hcut h)
  | case4 text b rest hhead => exact h

/-- **What is left are the bytes that are cut off at the end**, if any are. -/
theorem scan_snd_iff (bytes : List UInt8) :
    part ≠ [] ∧ part = (scan text bytes).2 ↔ CutOff part ∧ part <:+ bytes := by
  constructor
  · rintro ⟨hne, rfl⟩
    exact ⟨(scan_snd_cutOff text bytes).resolve_left hne, scan_snd_suffix text bytes⟩
  · rintro ⟨hcut, h⟩
    have hsuffix := suffix_scan_snd text hcut h
    refine ⟨hcut.1, ?_⟩
    rcases scan_snd_cutOff text bytes with hnil | hleft
    · rw [hnil] at hsuffix ⊢
      exact List.suffix_nil.mp hsuffix
    · generalize (scan text bytes).2 = left at hleft hsuffix
      obtain ⟨b, rest, rfl⟩ := List.exists_cons_of_ne_nil hleft.1
      obtain ⟨d, part, rfl⟩ := List.exists_cons_of_ne_nil hcut.1
      refine (List.suffix_cons_iff.mp hsuffix).resolve_right fun hlater => ?_
      exact hcut.tails.1 (hleft.tails.2 d (hlater.subset List.mem_cons_self))

/-- Every character takes a byte at least. -/
theorem length_scan_le (bytes : List UInt8) :
    (scan text bytes).1.length + (scan text bytes).2.length ≤ text.length + bytes.length := by
  fun_induction scan text bytes with
  | case1 text => exact Nat.le_refl _
  | case2 text b rest c more h ih =>
      have hmore := length_head_char h
      simp only [List.length_cons] at ih ⊢
      omega
  | case3 text b rest more h ih =>
      have hmore := length_head_malformed h
      simp only [List.length_cons] at ih ⊢
      omega
  | case4 text b rest h => exact Nat.le_refl _

end Left

/-! ## In pieces -/

namespace Decoder

/-- Decodes one piece after another. -/
def decodeAll (d : Decoder) : List (List UInt8) → List Char × Decoder
  | [] => ([], d)
  | piece :: rest =>
    ((d.decode piece).1 ++ ((d.decode piece).2.decodeAll rest).1,
      ((d.decode piece).2.decodeAll rest).2)

/-- Without more bytes nothing more is decoded. -/
theorem decode_nil {d : Decoder} (h : d.Inconclusive) : d.decode [] = ([], d) := by
  rw [decode, List.append_nil, h]
  rfl

/-- Two pieces that are put together decode as one after the other. -/
theorem decode_decode (d : Decoder) (piece more : List UInt8) :
    d.decode (piece ++ more) =
      ((d.decode piece).1 ++ ((d.decode piece).2.decode more).1,
        ((d.decode piece).2.decode more).2) := by
  unfold decode
  rw [← List.append_assoc, scan_append]
  generalize scan [] (d.pending ++ piece) = read
  obtain ⟨text, left⟩ := read
  have htext : scan text (left ++ more) =
      ((scan [] (left ++ more)).1 ++ text, (scan [] (left ++ more)).2) :=
    scan_text_append [] text (left ++ more)
  simp only [htext, List.reverse_append]

/-- **The pieces do not matter**, as long as what is kept at the beginning is not conclusive. -/
theorem decodeAll_eq {d : Decoder} (h : d.Inconclusive) (pieces : List (List UInt8)) :
    d.decodeAll pieces = d.decode pieces.flatten := by
  induction pieces generalizing d with
  | nil => exact (decode_nil h).symm
  | cons piece rest ih =>
      rw [decodeAll, ih (d.inconclusive_decode piece), List.flatten_cons, decode_decode]

end Decoder

end VideoTerminal.Text.Utf8
