import VideoTerminal.Proofs.Text.Encoding
import VideoTerminal.Proofs.Text.Utf8

/-!
# What is read from bytes

`head` reads by a table of first bytes and of the bytes that may come behind them.  Here it is shown
what the table is for: the bytes that are read as a character are those that encode it
(`Encodes.utf8EncodeChar_eq`, `exists_encodes`), and what is read as cut off is a part of such bytes
(`cutOff_iff`).  `Reads` says what `head` comes to on any bytes (`reads_head`).
-/

namespace VideoTerminal.Text.Utf8

/-! ## The bytes of a character -/

theorem toNat_ofNat {n : Nat} (h : n.isValidChar) : (Char.ofNat n).toNat = n := by
  rw [Char.ofNat, dif_pos h]
  rfl

/-- A byte that may stand behind the first one. -/
structure Tail (b : UInt8) : Prop where
  ge : 128 ≤ b.toNat
  le : b.toNat ≤ 191

/-- A byte is tested for a tail by its bits. -/
theorem isTail_iff {b : UInt8} : isTail b = true ↔ Tail b := by
  simp only [isTail, Bool.and_eq_true, decide_eq_true_eq, UInt8.le_iff_toNat_le]
  exact ⟨fun h => ⟨h.1, h.2⟩, fun h => ⟨h.ge, h.le⟩⟩

/-- A byte that may come second: behind four first bytes some would encode a number that has a
shorter encoding, a surrogate, or none that is a character. -/
structure Second (b c : UInt8) : Prop extends Tail c where
  shortest_three : b.toNat = 224 → 160 ≤ c.toNat
  no_surrogate : b.toNat = 237 → c.toNat ≤ 159
  shortest_four : b.toNat = 240 → 144 ≤ c.toNat
  in_range : b.toNat = 244 → c.toNat ≤ 143

/-- What holds of each number below 256 holds of each byte. -/
theorem forall_byte {P : UInt8 → Prop} (h : ∀ k : Fin 256, P (.ofNat k)) (b : UInt8) : P b := by
  have hb := h ⟨b.toNat, b.toNat_lt⟩
  rwa [UInt8.ofNat_toNat] at hb

/-- The first bytes of longer characters, and what they announce. -/
theorem lead?_eq : ∀ b : UInt8, lead? b =
    if 194 ≤ b.toNat ∧ b.toNat ≤ 244 then
      some (if b.toNat < 224 then 2 else if b.toNat < 240 then 3 else 4,
        .ofNat (if b.toNat = 224 then 160 else if b.toNat = 240 then 144 else 128),
        .ofNat (if b.toNat = 237 then 159 else if b.toNat = 244 then 143 else 191))
    else none :=
  forall_byte (by decide +kernel)

/-- A lead says how many bytes follow, and between which bounds the first of them lies. -/
theorem lead?_spec {b low high : UInt8} {n : Nat} (h : lead? b = some (n, low, high)) :
    194 ≤ b.toNat ∧ b.toNat ≤ 244 ∧
      n = (if b.toNat < 224 then 2 else if b.toNat < 240 then 3 else 4) ∧
      low.toNat = (if b.toNat = 224 then 160 else if b.toNat = 240 then 144 else 128) ∧
      high.toNat = (if b.toNat = 237 then 159 else if b.toNat = 244 then 143 else 191) := by
  rw [lead?_eq] at h
  split at h
  · next hb =>
    obtain ⟨rfl, rfl, rfl⟩ := by simpa only [Option.some.injEq, Prod.mk.injEq] using h
    refine ⟨hb.1, hb.2, rfl, ?_, ?_⟩
    all_goals
      repeat' split
      all_goals rfl
  · cases h

/-- The bytes that are announced to come second. -/
theorem second_iff {b low high : UInt8} {n : Nat} (h : lead? b = some (n, low, high)) (c : UInt8) :
    (c < low || high < c) = false ↔ Second b c := by
  obtain ⟨-, -, -, hlow, hhigh⟩ := lead?_spec h
  simp only [Bool.or_eq_false_iff, decide_eq_false_iff_not, UInt8.lt_iff_toNat_lt, hlow, hhigh]
  constructor
  · rintro ⟨hge, hle⟩
    have hleast : 128 ≤ c.toNat ∧ (b.toNat = 224 → 160 ≤ c.toNat) ∧
        (b.toNat = 240 → 144 ≤ c.toNat) := by
      repeat' split at hge
      all_goals omega
    have hgreatest : c.toNat ≤ 191 ∧ (b.toNat = 237 → c.toNat ≤ 159) ∧
        (b.toNat = 244 → c.toNat ≤ 143) := by
      repeat' split at hle
      all_goals omega
    exact ⟨⟨hleast.1, hgreatest.1⟩, hleast.2.1, hgreatest.2.1, hleast.2.2, hgreatest.2.2⟩
  · rintro ⟨⟨hge, hle⟩, hthree, hsurrogate, hfour, hrange⟩
    constructor
    · repeat' split
      all_goals omega
    · repeat' split
      all_goals omega

/-- The bytes of a character, by their number. -/
inductive Encodes : Char → List UInt8 → Prop
  | one {b : UInt8} (hb : b.toNat < 128) : Encodes (.ofNat b.toNat) [b]
  | two {b c : UInt8} (hb : 194 ≤ b.toNat) (hb' : b.toNat < 224) (hc : Second b c) :
      Encodes (assemble b [c]) [b, c]
  | three {b c d : UInt8} (hb : 224 ≤ b.toNat) (hb' : b.toNat < 240) (hc : Second b c)
      (hd : Tail d) : Encodes (assemble b [c, d]) [b, c, d]
  | four {b c d e : UInt8} (hb : 240 ≤ b.toNat) (hb' : b.toNat ≤ 244) (hc : Second b c)
      (hd : Tail d) (he : Tail e) : Encodes (assemble b [c, d, e]) [b, c, d, e]

section Assembled

variable {b c d e : UInt8}

/-- Two bytes make a scalar of eleven bits. -/
theorem toNat_assemble_two (b c : UInt8) :
    (assemble b [c]).toNat = b.toNat % 32 * 64 + c.toNat % 64 :=
  toNat_ofNat (.inl (by simp only [tailBits]; omega))

/-- Three bytes make a scalar of sixteen bits. -/
theorem toNat_assemble_three (hb : 224 ≤ b.toNat) (hb' : b.toNat < 240) (hc : Second b c) :
    (assemble b [c, d]).toNat = (b.toNat % 16 * 64 + c.toNat % 64) * 64 + d.toNat % 64 := by
  obtain ⟨⟨hge, hle⟩, -, hsurrogate, -, -⟩ := hc
  exact toNat_ofNat (by simp only [tailBits, Nat.isValidChar]; omega)

/-- Four bytes make a scalar of twenty-one bits. -/
theorem toNat_assemble_four (hb : 240 ≤ b.toNat) (hb' : b.toNat ≤ 244) (hc : Second b c) :
    (assemble b [c, d, e]).toNat =
      ((b.toNat % 8 * 64 + c.toNat % 64) * 64 + d.toNat % 64) * 64 + e.toNat % 64 := by
  obtain ⟨⟨hge, hle⟩, -, -, hshortest, hrange⟩ := hc
  exact toNat_ofNat (by simp only [tailBits, Nat.isValidChar]; omega)

end Assembled

/-- The bytes are those of the encoding. -/
theorem Encodes.utf8EncodeChar_eq {c : Char} {bytes : List UInt8} (h : Encodes c bytes) :
    String.utf8EncodeChar c = bytes := by
  cases h with
  | @one b hb =>
      have hv : (Char.ofNat b.toNat).toNat = b.toNat := toNat_ofNat (.inl (by omega))
      rw [utf8EncodeChar_of_lt (by omega), hv, UInt8.ofNat_toNat]
  | @two b c hb hb' hc =>
      have hv := toNat_assemble_two b c
      obtain ⟨⟨hge, hle⟩, -, -, -, -⟩ := hc
      rw [String.utf8EncodeChar, Char.toNat_val, hv, if_neg (by omega), if_pos (by omega)]
      simp only [List.cons.injEq, ← UInt8.toNat_inj, UInt8.toNat_ofNat', and_true]
      omega
  | @three b c d hb hb' hc hd =>
      have hv := toNat_assemble_three (d := d) hb hb' hc
      obtain ⟨⟨hge, hle⟩, hshortest, -, -, -⟩ := hc
      obtain ⟨hge', hle'⟩ := hd
      rw [String.utf8EncodeChar, Char.toNat_val, hv, if_neg (by omega), if_neg (by omega),
        if_pos (by omega)]
      simp only [List.cons.injEq, ← UInt8.toNat_inj, UInt8.toNat_ofNat', and_true]
      omega
  | @four b c d e hb hb' hc hd he =>
      have hv := toNat_assemble_four (d := d) (e := e) hb hb' hc
      obtain ⟨⟨hge, hle⟩, -, -, hshortest, hrange⟩ := hc
      obtain ⟨hge', hle'⟩ := hd
      obtain ⟨hge'', hle''⟩ := he
      rw [String.utf8EncodeChar, Char.toNat_val, hv, if_neg (by omega), if_neg (by omega),
        if_neg (by omega)]
      simp only [List.cons.injEq, ← UInt8.toNat_inj, UInt8.toNat_ofNat', and_true]
      omega

/-- Scalars of the same number have the same bytes. -/
theorem Encodes.of_toNat_eq {c d : Char} {bytes : List UInt8} (h : Encodes d bytes)
    (hsame : d.toNat = c.toNat) : Encodes c bytes :=
  Char.toNat_inj.mp hsame ▸ h

theorem toNat_byte {n : Nat} (h : n < 256) : (UInt8.ofNat n).toNat = n :=
  UInt8.toNat_ofNat_of_lt' h

/-- Six bits make a tail. -/
theorem tail_byte (v : Nat) : Tail (.ofNat (v % 64 + 128)) := by
  have hbyte := toNat_byte (n := v % 64 + 128) (by omega)
  exact ⟨by omega, by omega⟩

/-- Every character has such bytes. -/
theorem exists_encodes (c : Char) : Encodes c (String.utf8EncodeChar c) := by
  have hvalid : c.toNat < 55296 ∨ 57343 < c.toNat ∧ c.toNat < 1114112 := c.valid
  rw [String.utf8EncodeChar, Char.toNat_val]
  split
  · have hb := toNat_byte (n := c.toNat) (by omega)
    refine .of_toNat_eq (.one (by omega)) ?_
    rw [hb, Char.ofNat_toNat]
  · split
    · have hb := toNat_byte (n := c.toNat / 64 % 32 + 192) (by omega)
      have hc := toNat_byte (n := c.toNat % 64 + 128) (by omega)
      refine .of_toNat_eq (.two (by omega) (by omega)
        ⟨tail_byte _, by omega, by omega, by omega, by omega⟩) ?_
      rw [toNat_assemble_two]
      omega
    · split
      · have hb := toNat_byte (n := c.toNat / 4096 % 16 + 224) (by omega)
        have hc := toNat_byte (n := c.toNat / 64 % 64 + 128) (by omega)
        have hd := toNat_byte (n := c.toNat % 64 + 128) (by omega)
        have hsecond : Second (.ofNat (c.toNat / 4096 % 16 + 224))
            (.ofNat (c.toNat / 64 % 64 + 128)) :=
          ⟨tail_byte _, by omega, by omega, by omega, by omega⟩
        refine .of_toNat_eq (.three (by omega) (by omega) hsecond (tail_byte _)) ?_
        rw [toNat_assemble_three (by omega) (by omega) hsecond]
        omega
      · have hb := toNat_byte (n := c.toNat / 262144 % 8 + 240) (by omega)
        have hc := toNat_byte (n := c.toNat / 4096 % 64 + 128) (by omega)
        have hd := toNat_byte (n := c.toNat / 64 % 64 + 128) (by omega)
        have he := toNat_byte (n := c.toNat % 64 + 128) (by omega)
        have hsecond : Second (.ofNat (c.toNat / 262144 % 8 + 240))
            (.ofNat (c.toNat / 4096 % 64 + 128)) :=
          ⟨tail_byte _, by omega, by omega, by omega, by omega⟩
        refine .of_toNat_eq (.four (by omega) (by omega) hsecond (tail_byte _) (tail_byte _)) ?_
        rw [toNat_assemble_four (by omega) (by omega) hsecond]
        omega

/-- Only the first byte of a character is none that may stand behind it. -/
theorem Encodes.tails {c : Char} {b : UInt8} {bytes : List UInt8} (h : Encodes c (b :: bytes)) :
    ¬ Tail b ∧ ∀ d ∈ bytes, Tail d := by
  have hlead : b.toNat < 128 ∨ 194 ≤ b.toNat → ¬ Tail b := fun hb hb' => by
    have hge := hb'.ge
    have hle := hb'.le
    omega
  cases h with
  | one hb => exact ⟨hlead (.inl hb), by simp⟩
  | two hb hb' hc => exact ⟨hlead (.inr hb), by simpa using hc.toTail⟩
  | three hb hb' hc hd => exact ⟨hlead (.inr (by omega)), by simpa using ⟨hc.toTail, hd⟩⟩
  | four hb hb' hc hd he =>
      exact ⟨hlead (.inr (by omega)), by simpa using ⟨hc.toTail, hd, he⟩⟩

/-! ## What is read -/

section Read

variable {b low high : UInt8} {n : Nat}

/-- Every first byte announces something. -/
theorem exists_lead? (hb : 194 ≤ b.toNat) (hb' : b.toNat ≤ 244) :
    ∃ low high, lead? b =
      some (if b.toNat < 224 then 2 else if b.toNat < 240 then 3 else 4, low, high) :=
  ⟨_, _, (lead?_eq b).trans (if_pos ⟨hb, hb'⟩)⟩

/-- Behind a lead several bytes are read. -/
theorem head_of_lead? (hlead : lead? b = some (n, low, high)) (bytes : List UInt8) :
    head b bytes = headMultibyte b n low high bytes := by
  have hb := (lead?_spec hlead).1
  rw [head, if_neg (by rw [UInt8.lt_iff_toNat_lt]; simp; omega), hlead]

/-- The bytes of a character are read as that character. -/
theorem head_of_encodes {c : Char} {tails : List UInt8} (h : Encodes c (b :: tails))
    (more : List UInt8) : head b (tails ++ more) = .char c more := by
  cases h with
  | one hb => rw [head, if_pos (UInt8.lt_iff_toNat_lt.mpr hb), List.nil_append]
  | two hb hb' hc =>
      obtain ⟨low, high, hlead⟩ := exists_lead? hb (by omega)
      rw [if_pos (by omega)] at hlead
      rw [head_of_lead? hlead]
      simp [headMultibyte, (second_iff hlead _).mpr hc]
  | three hb hb' hc hd =>
      obtain ⟨low, high, hlead⟩ := exists_lead? (by omega : 194 ≤ b.toNat) (by omega)
      rw [if_neg (by omega), if_pos (by omega)] at hlead
      rw [head_of_lead? hlead]
      simp [headMultibyte, (second_iff hlead _).mpr hc, isTail_iff.mpr hd]
  | four hb hb' hc hd he =>
      obtain ⟨low, high, hlead⟩ := exists_lead? (by omega : 194 ≤ b.toNat) hb'
      rw [if_neg (by omega), if_neg (by omega)] at hlead
      rw [head_of_lead? hlead]
      simp [headMultibyte, (second_iff hlead _).mpr hc, isTail_iff.mpr hd, isTail_iff.mpr he]

end Read

/-! ## Bytes that are cut off -/

/-- Bytes that begin a character and do not finish it. -/
def CutOff (bytes : List UInt8) : Prop :=
  bytes ≠ [] ∧ ∃ c more, more ≠ [] ∧ String.utf8EncodeChar c = bytes ++ more

/-- The first bytes of a scalar are cut off if some of them are missing. -/
theorem cutOff_of_encodes {b : UInt8} {bytes more : List UInt8} {c : Char}
    (h : Encodes c (b :: bytes ++ more)) (hmore : more ≠ []) : CutOff (b :: bytes) :=
  ⟨List.cons_ne_nil b bytes, c, more, hmore, h.utf8EncodeChar_eq⟩

/-- There is a tail. -/
theorem tail_least : Tail 0x80 := ⟨by decide, by decide⟩

/-- Behind each byte some second byte may stand. -/
theorem exists_second (b : UInt8) : ∃ c, Second b c := by
  by_cases h : b.toNat = 237 ∨ b.toNat = 244
  · exact ⟨0x80, tail_least, by omega, fun _ => by decide, by omega, fun _ => by decide⟩
  · exact ⟨0xA0, ⟨by decide, by decide⟩, fun _ => by decide, by omega, fun _ => by decide, by omega⟩

section CutOff

variable {b c d : UInt8}

/-- A lead on its own is cut off. -/
theorem cutOff_one (hb : 194 ≤ b.toNat) (hb' : b.toNat ≤ 244) : CutOff [b] := by
  obtain ⟨c, hc⟩ := exists_second b
  rcases Nat.lt_or_ge b.toNat 224 with htwo | htwo
  · exact cutOff_of_encodes (.two hb htwo hc) (by simp)
  · rcases Nat.lt_or_ge b.toNat 240 with hthree | hthree
    · exact cutOff_of_encodes (.three htwo hthree hc tail_least) (by simp)
    · exact cutOff_of_encodes (.four hthree hb' hc tail_least tail_least) (by simp)

/-- Two bytes of three or four are cut off. -/
theorem cutOff_two (hb : 224 ≤ b.toNat) (hb' : b.toNat ≤ 244) (hc : Second b c) :
    CutOff [b, c] := by
  rcases Nat.lt_or_ge b.toNat 240 with hthree | hthree
  · exact cutOff_of_encodes (.three hb hthree hc tail_least) (by simp)
  · exact cutOff_of_encodes (.four hthree hb' hc tail_least tail_least) (by simp)

theorem cutOff_three (hb : 240 ≤ b.toNat) (hb' : b.toNat ≤ 244) (hc : Second b c) (hd : Tail d) :
    CutOff [b, c, d] :=
  cutOff_of_encodes (.four hb hb' hc hd tail_least) (by simp)

end CutOff

/-- What reading may come to. -/
inductive Reads (b : UInt8) : List UInt8 → Head → Prop
  /-- The bytes of a character. -/
  | char {c : Char} {tails : List UInt8} (h : Encodes c (b :: tails)) (more : List UInt8) :
      Reads b (tails ++ more) (.char c more)
  /-- A byte with which no character begins. -/
  | invalid (h : ∀ bytes, head b bytes = .malformed bytes) (more : List UInt8) :
      Reads b more (.malformed more)
  /-- The beginning of a character, and a byte with which it does not go on. -/
  | refused {part : List UInt8} {c : UInt8} (hpart : CutOff (b :: part))
      (hc : ∀ bytes, head b (part ++ c :: bytes) = .malformed (c :: bytes)) (more : List UInt8) :
      Reads b (part ++ c :: more) (.malformed (c :: more))
  /-- The beginning of a character, and nothing more. -/
  | cut {bytes : List UInt8} (h : CutOff (b :: bytes)) : Reads b bytes .truncated

section Multibyte

variable {b low high : UInt8} {n : Nat}

/-- Where a byte is refused, those before it are one mistake. -/
theorem Reads.of_refused (hlead : lead? b = some (n, low, high)) (part : List UInt8) {c : UInt8}
    (hpart : CutOff (b :: part))
    (hc : ∀ bytes, headMultibyte b n low high (part ++ c :: bytes) = .malformed (c :: bytes))
    (bytes : List UInt8) :
    Reads b (part ++ c :: bytes) (headMultibyte b n low high (part ++ c :: bytes)) := by
  rw [hc]
  exact .refused hpart (fun bytes => (head_of_lead? hlead _).trans (hc bytes)) bytes

/-- The fourth byte. -/
theorem reads_fourth (hlead : lead? b = some (n, low, high)) (hb : 240 ≤ b.toNat) {c d : UInt8}
    (hc : (c < low || high < c) = false) (hd : isTail d = true) (bytes : List UInt8) :
    Reads b (c :: d :: bytes) (headMultibyte b n low high (c :: d :: bytes)) := by
  obtain ⟨-, hb', hn, -, -⟩ := lead?_spec hlead
  rw [if_neg (by omega), if_neg (by omega)] at hn
  have hsecond := (second_iff hlead c).mp hc
  have hthird := isTail_iff.mp hd
  rcases bytes with _ | ⟨e, bytes⟩
  · have hcut : headMultibyte b n low high [c, d] = .truncated := by
      simp [headMultibyte, hc, hn, hd]
    rw [hcut]
    exact .cut (cutOff_three hb hb' hsecond hthird)
  · cases he : isTail e with
    | false =>
        exact .of_refused hlead [c, d] (cutOff_three hb hb' hsecond hthird)
          (fun _ => by simp [headMultibyte, hc, hn, hd, he]) bytes
    | true =>
        have hchar : headMultibyte b n low high (c :: d :: e :: bytes) =
            .char (assemble b [c, d, e]) bytes := by
          simp [headMultibyte, hc, hn, hd, he]
        rw [hchar]
        exact .char (.four hb hb' hsecond hthird (isTail_iff.mp he)) bytes

/-- The third byte. -/
theorem reads_third (hlead : lead? b = some (n, low, high)) (hb : 224 ≤ b.toNat) {c : UInt8}
    (hc : (c < low || high < c) = false) (bytes : List UInt8) :
    Reads b (c :: bytes) (headMultibyte b n low high (c :: bytes)) := by
  obtain ⟨-, hb', hn, -, -⟩ := lead?_spec hlead
  rw [if_neg (by omega)] at hn
  have hmore : (n == 2) = false := by split at hn <;> simp [hn]
  have hsecond := (second_iff hlead c).mp hc
  rcases bytes with _ | ⟨d, bytes⟩
  · have hcut : headMultibyte b n low high [c] = .truncated := by simp [headMultibyte, hc, hmore]
    rw [hcut]
    exact .cut (cutOff_two hb hb' hsecond)
  · cases hd : isTail d with
    | false =>
        exact .of_refused hlead [c] (cutOff_two hb hb' hsecond)
          (fun _ => by simp [headMultibyte, hc, hmore, hd]) bytes
    | true =>
        rcases Nat.lt_or_ge b.toNat 240 with hthree | hfour
        · rw [if_pos hthree] at hn
          have hchar : headMultibyte b n low high (c :: d :: bytes) =
              .char (assemble b [c, d]) bytes := by
            simp [headMultibyte, hc, hn, hd]
          rw [hchar]
          exact .char (.three hb hthree hsecond (isTail_iff.mp hd)) bytes
        · exact reads_fourth hlead hfour hc hd bytes

/-- Several bytes are read as the encoding says. -/
theorem reads_headMultibyte (hlead : lead? b = some (n, low, high)) (bytes : List UInt8) :
    Reads b bytes (headMultibyte b n low high bytes) := by
  obtain ⟨hb, hb', hn, -, -⟩ := lead?_spec hlead
  rcases bytes with _ | ⟨c, bytes⟩
  · exact .cut (cutOff_one hb hb')
  · cases hc : (c < low || high < c) with
    | true =>
        exact .of_refused hlead [] (cutOff_one hb hb') (fun _ => by simp [headMultibyte, hc]) bytes
    | false =>
        rcases Nat.lt_or_ge b.toNat 224 with htwo | hmore
        · rw [if_pos htwo] at hn
          have hchar : headMultibyte b n low high (c :: bytes) = .char (assemble b [c]) bytes := by
            simp [headMultibyte, hc, hn]
          rw [hchar]
          exact .char (.two hb htwo ((second_iff hlead c).mp hc)) bytes
        · exact reads_third hlead hmore hc bytes

end Multibyte

/-- **What reading comes to.** -/
theorem reads_head (b : UInt8) (bytes : List UInt8) : Reads b bytes (head b bytes) := by
  by_cases hb : b < 0x80
  · rw [head, if_pos hb]
    exact .char (.one (UInt8.lt_iff_toNat_lt.mp hb)) bytes
  · cases hlead : lead? b with
    | none =>
        have hinvalid : ∀ bytes, head b bytes = .malformed bytes := by
          intro bytes
          rw [head, if_neg hb, hlead]
        rw [hinvalid]
        exact .invalid hinvalid bytes
    | some announced =>
        obtain ⟨n, low, high⟩ := announced
        rw [head_of_lead? hlead]
        exact reads_headMultibyte hlead bytes

section CutOff

variable {b : UInt8} {bytes more : List UInt8}

/-- What is cut off can be gone on with. -/
theorem CutOff.exists_encodes (h : CutOff (b :: bytes)) :
    ∃ c more, more ≠ [] ∧ Encodes c (b :: (bytes ++ more)) := by
  obtain ⟨-, c, more, hmore, henc⟩ := h
  have hencodes := Utf8.exists_encodes c
  rw [henc] at hencodes
  exact ⟨c, more, hmore, hencodes⟩

/-- What is cut off is a lead with tails behind it. -/
theorem CutOff.tails (h : CutOff (b :: bytes)) : ¬ Tail b ∧ ∀ d ∈ bytes, Tail d := by
  obtain ⟨c, more, -, hencodes⟩ := h.exists_encodes
  exact ⟨hencodes.tails.1, fun d hd => hencodes.tails.2 d (List.mem_append_left more hd)⟩

/-- What is cut off is read as that. -/
theorem CutOff.head_eq (h : CutOff (b :: bytes)) : head b bytes = .truncated := by
  obtain ⟨c, more, hmore, hencodes⟩ := h.exists_encodes
  have hread := head_of_encodes hencodes []
  rw [List.append_nil] at hread
  refine Decidable.byContradiction fun hne => ?_
  rw [head_append hne more] at hread
  cases hhead : head b bytes with
  | char d rest =>
      rw [hhead] at hread
      exact hmore (List.append_eq_nil_iff.mp (Head.char.inj hread).2).2
  | malformed rest =>
      rw [hhead] at hread
      cases hread
  | truncated => exact hne hhead

/-- Bytes are cut off exactly if reading comes to their end. -/
theorem cutOff_iff : CutOff (b :: bytes) ↔ head b bytes = .truncated := by
  refine ⟨CutOff.head_eq, fun h => ?_⟩
  have hreads := reads_head b bytes
  rw [h] at hreads
  cases hreads with
  | cut hcut => exact hcut

/-- No first byte of another character is read over. -/
theorem exists_tails_of_head_eq_char {c : Char} (h : head b bytes = .char c more) :
    ∃ tails, bytes = tails ++ more ∧ ∀ d ∈ tails, Tail d := by
  have hreads := reads_head b bytes
  rw [h] at hreads
  cases hreads with
  | char hencodes => exact ⟨_, rfl, hencodes.tails.2⟩

/-- Only tails are part of a mistake. -/
theorem exists_tails_of_head_eq_malformed (h : head b bytes = .malformed more) :
    ∃ tails, bytes = tails ++ more ∧ ∀ d ∈ tails, Tail d := by
  have hreads := reads_head b bytes
  rw [h] at hreads
  cases hreads with
  | invalid => exact ⟨[], rfl, by simp⟩
  | refused hpart => exact ⟨_, rfl, hpart.tails.2⟩

end CutOff

end VideoTerminal.Text.Utf8
