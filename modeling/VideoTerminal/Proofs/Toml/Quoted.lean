import VideoTerminal.Toml.Quoted

/-!
# Quoted text is read as it was written

Four kinds of quotes are written and read by one function each, so what stands between them is
described once: `Quotes.Encodes q run written text` says that `written` stands for `text` between
the quotes `q`, behind `run` marks that stand for themselves.  Whatever encodes a text is read as
that text (`Quotes.body_of_encodes`), with the closing marks told from the marks before them, and a
text is always written as something that encodes it (`Quotes.encodes_inside`).

Together a text in quotes is read back, whatever it holds and whichever quotes were chosen
(`quotedText_quote`).
-/

namespace VideoTerminal.Toml

/-! ## Marks -/

/-- A mark of quotes. -/
def isMark (c : Char) : Bool := c == '"' || c == '\''

/-- The text does not go on with a mark. -/
def NoMark (rest : List Char) : Prop := ∀ c ∈ rest.head?, isMark c = false

/-- One mark more is counted. -/
@[simp] theorem markCount_cons_self (mark : Char) (cs : List Char) :
    markCount mark (mark :: cs) = markCount mark cs + 1 := by
  simp [markCount]

/-- What is no mark ends the count. -/
theorem markCount_cons_of_ne {mark c : Char} (h : c ≠ mark) (cs : List Char) :
    markCount mark (c :: cs) = 0 := by
  simp [markCount, h]

/-- Characters differ if a test tells them apart. -/
theorem ne_of_test {test : Char → Bool} {c d : Char} (hc : test c = true) (hd : test d = false) :
    c ≠ d := by
  rintro rfl
  rw [hc] at hd
  cases hd

theorem markCount_of_noMark {mark : Char} (hmark : isMark mark = true) {rest : List Char}
    (h : NoMark rest) : markCount mark rest = 0 := by
  cases rest with
  | nil => rfl
  | cons c cs => exact markCount_cons_of_ne (ne_of_test hmark (h c rfl)).symm cs

/-! ## Escapes -/

/-- The number that a digit to the base sixteen stands for is read from it. -/
theorem hexValue?_hexDigit {n : Nat} (h : n < 16) : hexValue? (hexDigit n) = some n := by
  have hall : ∀ k : Fin 16, hexValue? (hexDigit k) = some k.val := by decide
  exact hall ⟨n, h⟩

/-- A scalar is found by its number. -/
theorem charOf?_toNat (c : Char) : charOf? c.toNat = some c := by
  have hvalid : c.toNat.isValidChar := c.valid
  simp [charOf?, hvalid]

/-- What needs a code is a control of the seven-bit alphabet. -/
theorem needsCode_lt {c : Char} (h : needsCode c = true) : c.toNat < 128 := by
  simp only [needsCode, isPlain, Bool.and_eq_true, Bool.not_eq_true', Bool.or_eq_false_iff,
    Bool.and_eq_false_iff, decide_eq_false_iff_not, bne_eq_false_iff_eq] at h
  rcases h.1.2 with hlow | rfl
  · omega
  · decide

/-- The escape of a character that has one: it is read as the character, and its backslash does not
end a line. -/
theorem escapeText_spec {c : Char} (h : c.toNat < 128) :
    ∃ behind, escapeText c = '\\' :: behind
      ∧ ∀ rest, escape (behind ++ rest) = some (c, rest)
          ∧ continuation? (behind ++ rest) = none := by
  unfold escapeText
  split
  · next e he =>
    have hmem := List.mem_of_find?_eq_some he
    have hc : e.2 = c := by simpa using List.find?_some he
    subst hc
    refine ⟨[e.1], rfl, fun rest => ?_⟩
    simp only [shortEscapes, List.mem_cons, List.not_mem_nil, or_false] at hmem
    rcases hmem with rfl | rfl | rfl | rfl | rfl | rfl | rfl <;> exact ⟨rfl, rfl⟩
  · refine ⟨_, rfl, fun rest => ⟨?_, rfl⟩⟩
    have hhigh := hexValue?_hexDigit (n := c.toNat / 16) (by omega)
    have hlow := hexValue?_hexDigit (n := c.toNat % 16) (by omega)
    have hnumber : hexNumber 4 0 ('0' :: '0' :: hexDigit (c.toNat / 16) :: hexDigit (c.toNat % 16)
        :: rest) = some (c.toNat, rest) := by
      have hzero : hexValue? '0' = some 0 := rfl
      simp only [hexNumber, hzero, hhigh, hlow, Option.bind_eq_bind, Option.bind_some]
      congr 2
      omega
    simp [escape, hexChar, hnumber, charOf?_toNat]

/-! ## What stands between quotes -/

namespace Quotes

/-- `written` stands for `text` between the quotes `q`, behind `run` marks in a row that stand for
themselves. -/
inductive Encodes (q : Quotes) : Nat → List Char → List Char → Prop
  | nil {run : Nat} : Encodes q run [] []
  /-- A mark stands for itself between tripled quotes, at most two in a row. -/
  | mark {run : Nat} {written text : List Char} (htripled : q.tripled = true) (hrun : run < 2)
      (behind : Encodes q (run + 1) written text) :
      Encodes q run (q.mark :: written) (q.mark :: text)
  | plain {run : Nat} {c : Char} {written text : List Char} (hmark : c ≠ q.mark)
      (hplain : isPlain c = true) (hescape : q.escapes = true → c ≠ '\\')
      (behind : Encodes q 0 written text) : Encodes q run (c :: written) (c :: text)
  | newline {run : Nat} {written text : List Char} (htripled : q.tripled = true)
      (behind : Encodes q 0 written text) : Encodes q run ('\n' :: written) ('\n' :: text)
  | escape {run : Nat} {c : Char} {letters written text : List Char} (hescapes : q.escapes = true)
      (hread : ∀ rest, escape (letters ++ rest) = some (c, rest)
        ∧ continuation? (letters ++ rest) = none)
      (behind : Encodes q 0 written text) :
      Encodes q run ('\\' :: letters ++ written) (c :: text)

variable {q : Quotes}

/-! ### Reading one character -/

/-- One or two marks are part of a tripled text. -/
theorem body_mark (htripled : q.tripled = true) {cs : List Char} (h : markCount q.mark cs < 2) :
    q.body (q.mark :: cs) = prepend q.mark (q.body cs) := by
  rw [body]
  simp [htripled, h]

/-- Three marks close a tripled text, and up to two more are part of it. -/
theorem body_close (htripled : q.tripled = true) {cs : List Char} (h : 2 ≤ markCount q.mark cs) :
    q.body (q.mark :: cs) = some (List.replicate (min (markCount q.mark cs - 2) 2) q.mark,
      cs.drop (min (markCount q.mark cs - 2) 2 + 2)) := by
  rw [body]
  simp [htripled, Nat.not_lt.mpr h]

/-- One mark closes a text that is not tripled. -/
theorem body_close_single (hsingle : q.tripled = false) (cs : List Char) :
    q.body (q.mark :: cs) = some ([], cs) := by
  rw [body]
  simp [hsingle]

/-- A plain character is part of the text. -/
theorem body_plain {c : Char} (hmark : c ≠ q.mark) (hplain : isPlain c = true)
    (hescape : q.escapes = true → c ≠ '\\') (cs : List Char) :
    q.body (c :: cs) = prepend c (q.body cs) := by
  rw [body]
  have hnot : ¬ ((q.escapes && c == '\\') = true) := by simpa using hescape
  simp [hmark, hnot, hplain]

/-- In a tripled text lines may end. -/
theorem body_newline (hmark : isMark q.mark = true) (htripled : q.tripled = true)
    (cs : List Char) : q.body ('\n' :: cs) = prepend '\n' (q.body cs) := by
  rw [body]
  have hne : '\n' ≠ q.mark := (ne_of_test hmark rfl).symm
  have hplain : isPlain '\n' = false := rfl
  simp only [hne, htripled, hplain, show ('\n' == '\\') = false from rfl, Bool.and_false,
    Bool.false_eq_true, if_false, if_true]
  rfl

/-- An escape stands for its character. -/
theorem body_escape (hmark : isMark q.mark = true) (hescapes : q.escapes = true) {c : Char}
    {cs rest : List Char} (hread : Toml.escape cs = some (c, rest))
    (hline : continuation? cs = none) : q.body ('\\' :: cs) = prepend c (q.body rest) := by
  rw [body]
  have hne : '\\' ≠ q.mark := (ne_of_test hmark rfl).symm
  simp only [hne, hescapes, Bool.true_and, beq_self_eq_true, if_true, if_false]
  split
  · next h => simp [hline] at h
  · split
    · next h =>
      rw [hread] at h
      cases h
      rfl
    · next h => simp [hread] at h

/-! ### Reading all of it -/

/-- A tripled text stands between three marks. -/
theorem delimiter_tripled (htripled : q.tripled = true) :
    q.delimiter = [q.mark, q.mark, q.mark] := by
  simp [delimiter, htripled, List.replicate]

theorem delimiter_single (hsingle : q.tripled = false) : q.delimiter = [q.mark] := by
  simp [delimiter, hsingle]

/-- A delimiter begins with its mark. -/
theorem exists_delimiter_cons (q : Quotes) : ∃ more, q.delimiter = q.mark :: more := by
  cases htripled : q.tripled with
  | false => exact ⟨[], delimiter_single htripled⟩
  | true => exact ⟨[q.mark, q.mark], delimiter_tripled htripled⟩

/-- Behind a mark that stands for itself, the text ends after one more such mark at most, or there
are too few marks to close the quotes. -/
theorem Encodes.marks_behind (hmark : isMark q.mark = true) {run : Nat} {written text : List Char}
    (h : q.Encodes (run + 1) written text) (rest : List Char) :
    markCount q.mark (written ++ rest) < 2 ∨ (written = [] ∧ text = [])
      ∨ (written = [q.mark] ∧ text = [q.mark]) := by
  have hnewline : '\n' ≠ q.mark := (ne_of_test hmark rfl).symm
  have hslash : '\\' ≠ q.mark := (ne_of_test hmark rfl).symm
  cases h with
  | nil => exact .inr (.inl ⟨rfl, rfl⟩)
  | plain hne => simp [markCount_cons_of_ne hne]
  | newline => simp [markCount_cons_of_ne hnewline]
  | escape => simp [markCount_cons_of_ne hslash]
  | mark htripled hrun behind =>
    cases behind with
    | nil => exact .inr (.inr ⟨rfl, rfl⟩)
    | mark _ hrun' => omega
    | plain hne => simp [markCount_cons_of_ne hne]
    | newline => simp [markCount_cons_of_ne hnewline]
    | escape => simp [markCount_cons_of_ne hslash]

/-- **Reading between quotes** gives the text that is encoded, and leaves what stands behind the
closing marks. -/
theorem body_of_encodes (hmark : isMark q.mark = true) {run : Nat} {written text rest : List Char}
    (h : q.Encodes run written text) (hrest : NoMark rest) :
    q.body (written ++ (q.delimiter ++ rest)) = some (text, rest) := by
  have hcount : markCount q.mark rest = 0 := markCount_of_noMark hmark hrest
  induction h with
  | nil =>
    cases htripled : q.tripled with
    | false => simp [delimiter_single htripled, body_close_single htripled]
    | true =>
      have htwo : markCount q.mark (q.mark :: q.mark :: rest) = 2 := by simp [hcount]
      simp [delimiter_tripled htripled, body_close htripled (Nat.le_of_eq htwo.symm), htwo]
  | mark htripled hrun behind ih =>
    rcases behind.marks_behind hmark (q.delimiter ++ rest) with hfew | ⟨rfl, rfl⟩ | ⟨rfl, rfl⟩
    · rw [List.cons_append, body_mark htripled hfew, ih]
      rfl
    -- The marks at the end stand before the closing ones, and all of them are counted together.
    · have hthree : markCount q.mark (q.mark :: q.mark :: q.mark :: rest) = 3 := by simp [hcount]
      have hclose := body_close htripled (Nat.le_of_lt (Nat.le_of_eq hthree.symm))
      rw [hthree] at hclose
      simpa [delimiter_tripled htripled] using hclose
    · have hfour : markCount q.mark (q.mark :: q.mark :: q.mark :: q.mark :: rest) = 4 := by
        simp [hcount]
      have hclose := body_close htripled (Nat.le_trans (by decide) (Nat.le_of_eq hfour.symm))
      rw [hfour] at hclose
      simpa [delimiter_tripled htripled] using hclose
  | plain hne hplain hescape behind ih =>
    rw [List.cons_append, body_plain hne hplain hescape, ih]
    rfl
  | newline htripled behind ih =>
    rw [List.cons_append, body_newline hmark htripled, ih]
    rfl
  | @escape run c letters written text hescapes hread behind ih =>
    obtain ⟨hread, hline⟩ := hread (written ++ (q.delimiter ++ rest))
    rw [List.cons_append, List.cons_append, List.append_assoc,
      body_escape hmark hescapes hread hline, ih]
    rfl

/-! ### Writing -/

/-- A character is written as its escape. -/
theorem encodes_escapeText (hescapes : q.escapes = true) {run : Nat} {c : Char}
    (hc : c.toNat < 128) {written text : List Char} (behind : q.Encodes 0 written text) :
    q.Encodes run (escapeText c ++ written) (c :: text) := by
  obtain ⟨letters, hletters, hread⟩ := escapeText_spec hc
  rw [hletters]
  exact .escape hescapes hread behind

/-- A text with escapes encodes the text. -/
theorem encodes_escaped (hbasic : q.mark = '"') (run : Nat) (text : List Char) :
    q.Encodes run (q.escaped run text) text := by
  have hescapes : q.escapes = true := by simp [escapes, hbasic]
  fun_induction q.escaped run text with
  | case1 => exact .nil
  | case2 run c cs hmark hrun ih =>
    have hc : c = q.mark := by simpa [hbasic] using hmark
    have htripled : q.tripled = true := by
      cases h : q.tripled with
      | true => rfl
      | false => simp [h] at hrun
    rw [htripled, if_pos rfl] at hrun
    rw [hc]
    exact .mark htripled hrun ih
  | case3 run c cs hmark _ ih =>
    have hc : c = '"' := by simpa using hmark
    exact encodes_escapeText hescapes (by rw [hc]; decide) ih
  | case4 run c cs _ hnewline ih =>
    simp only [Bool.and_eq_true, beq_iff_eq] at hnewline
    obtain ⟨rfl, htripled⟩ := hnewline
    exact .newline htripled ih
  | case5 run c cs _ _ hcode ih =>
    refine encodes_escapeText hescapes ?_ ih
    simp only [Bool.or_eq_true, beq_iff_eq] at hcode
    rcases hcode with ((rfl | rfl) | rfl) | hcode
    · decide
    · decide
    · decide
    · exact needsCode_lt hcode
  | case6 run c cs hmark _ hcode ih =>
    simp only [Bool.or_eq_true, beq_iff_eq, not_or, needsCode, Bool.and_eq_true,
      Bool.not_eq_true', bne_iff_ne, not_and] at hcode
    obtain ⟨⟨⟨_, hnewline⟩, hslash⟩, hplain⟩ := hcode
    refine .plain ?_ ?_ (fun _ => hslash) ih
    · simpa [hbasic] using hmark
    · cases h : isPlain c with
      | true => rfl
      | false => exact absurd hnewline (hplain h)

/-- The longest run is no shorter than the one that is going on. -/
theorem le_longestRun (mark : Char) (run : Nat) (text : List Char) :
    run ≤ longestRun mark run text := by
  induction text generalizing run with
  | nil => exact Nat.le_refl run
  | cons c cs ih =>
    unfold longestRun
    split
    · exact Nat.le_trans (Nat.le_succ run) (ih (run + 1))
    · exact Nat.le_max_left _ _

/-- A text that can stand between quotes as it is encodes itself there, if they know no escapes. -/
theorem encodes_self (hliteral : q.escapes = false) {run : Nat} {text : List Char}
    (hcode : text.any needsCode = false)
    (hrun : longestRun q.mark run text ≤ if q.tripled then 2 else 0)
    (hlines : q.tripled = true ∨ '\n' ∉ text) : q.Encodes run text text := by
  induction text generalizing run with
  | nil => exact .nil
  | cons c cs ih =>
    simp only [List.any_cons, Bool.or_eq_false_iff] at hcode
    have hlines' : q.tripled = true ∨ '\n' ∉ cs := hlines.imp_right fun h hmem =>
      h (List.mem_cons_of_mem c hmem)
    unfold longestRun at hrun
    split at hrun
    · next hmark =>
      have hlt : run < if q.tripled then 2 else 0 :=
        Nat.lt_of_lt_of_le (le_longestRun q.mark (run + 1) cs) hrun
      have htripled : q.tripled = true := by
        cases h : q.tripled with
        | true => rfl
        | false => simp [h] at hlt
      have hrun' := hrun
      rw [htripled, if_pos rfl] at hlt
      rw [beq_iff_eq.mp hmark]
      exact .mark htripled hlt (ih hcode.2 hrun hlines')
    · next hmark =>
      have behind := ih hcode.2 (Nat.le_trans (Nat.le_max_right _ _) hrun) hlines'
      by_cases hc : c = '\n'
      · subst hc
        exact .newline (hlines.resolve_right (by simp)) behind
      · refine .plain (by simpa using hmark) ?_ (by simp [hliteral]) behind
        simpa [needsCode, hc] using hcode.1

/-- What is written for a text between the quotes. -/
def inside (q : Quotes) (text : List Char) : List Char :=
  if q.escapes then q.escaped 0 text else text

/-- What the quotes hold is written between them as it is. -/
theorem encodes_inside_of_holds {text : List Char}
    (h : q.holds text = true) : q.Encodes 0 (q.inside text) text := by
  unfold inside
  split
  · next hescapes => exact encodes_escaped (by simpa [escapes] using hescapes) 0 text
  · next hescapes =>
    simp only [holds, Bool.and_eq_true, Bool.not_eq_true', decide_eq_true_eq, Bool.or_eq_true] at h
    obtain ⟨⟨⟨hcode, -⟩, hrun⟩, hlines⟩ := h
    exact encodes_self (Bool.not_eq_true _ ▸ hescapes) hcode hrun
      (hlines.imp_right fun h hmem => by simp [hmem] at h)

/-- **Writing between the quotes of a text** encodes the text. -/
theorem encodes_inside (text : List Char) :
    isMark (Quotes.for text).mark = true
      ∧ (Quotes.for text).Encodes 0 ((Quotes.for text).inside text) text := by
  unfold Quotes.for
  split
  · next q hfind =>
    have hmark : isMark q.mark = true := by
      have hmem := List.mem_of_find?_eq_some hfind
      simp only [List.mem_cons, List.not_mem_nil, or_false] at hmem
      rcases hmem with rfl | rfl | rfl | rfl <;> rfl
    have hholds : q.holds text = true :=
      List.find?_some (p := fun q : Quotes => q.holds text) hfind
    exact ⟨hmark, encodes_inside_of_holds hholds⟩
  · split
    · exact ⟨rfl, encodes_escaped rfl 0 text⟩
    · exact ⟨rfl, encodes_escaped rfl 0 text⟩

/-! ### The front -/

/-- What does not begin the end of a line is none. -/
theorem newline?_cons_of_ne {c : Char} (hnewline : c ≠ '\n') (hreturn : c ≠ '\r')
    (cs : List Char) : newline? (c :: cs) = none := by
  unfold newline?
  split
  · next h => cases h; exact absurd rfl hnewline
  · next h => cases h; exact absurd rfl hreturn
  · rfl

/-- A delimiter is not the end of a line. -/
theorem newline?_delimiter (hmark : isMark q.mark = true) (rest : List Char) :
    newline? (q.delimiter ++ rest) = none := by
  obtain ⟨more, hmore⟩ := exists_delimiter_cons q
  rw [hmore]
  exact newline?_cons_of_ne (ne_of_test hmark rfl) (ne_of_test hmark rfl) _

/-- What encodes a text without line ends does not begin with one. -/
theorem Encodes.newline?_eq_none (hmark : isMark q.mark = true) {run : Nat}
    {written text : List Char} (h : q.Encodes run written text) (htext : '\n' ∉ text)
    (rest : List Char) : newline? (written ++ (q.delimiter ++ rest)) = none := by
  cases h with
  | nil => exact newline?_delimiter hmark rest
  | mark =>
    exact newline?_cons_of_ne (ne_of_test hmark rfl) (ne_of_test hmark rfl) _
  | plain _ hplain =>
    refine newline?_cons_of_ne ?_ ?_ _ <;> rintro rfl <;> cases hplain
  | newline => simp at htext
  | escape => exact newline?_cons_of_ne (by decide) (by decide) _

/-- Between quotes of one mark, there is no mark in front of the closing one. -/
theorem Encodes.markCount_lt (hmark : isMark q.mark = true) (hsingle : q.tripled = false)
    {written text rest : List Char} (h : q.Encodes 0 written text) (hrest : NoMark rest) :
    markCount q.mark (written ++ (q.delimiter ++ rest)) < 2 := by
  have hslash : '\\' ≠ q.mark := (ne_of_test hmark rfl).symm
  cases h with
  | nil => simp [delimiter_single hsingle, markCount_of_noMark hmark hrest]
  | mark htripled => simp [hsingle] at htripled
  | plain hne => simp [markCount_cons_of_ne hne]
  | newline htripled => simp [hsingle] at htripled
  | escape => simp [markCount_cons_of_ne hslash]

end Quotes

/-- A line end in front of the text between tripled quotes is dropped, and one is put there where
the text has any. -/
theorem dropNewline_front {q : Quotes} (hmark : isMark q.mark = true) (htripled : q.tripled = true)
    {written text : List Char} (h : q.Encodes 0 written text) (rest : List Char) :
    dropNewline ((if q.tripled && text.contains '\n' then ['\n'] else [])
      ++ (written ++ (q.delimiter ++ rest))) = written ++ (q.delimiter ++ rest) := by
  by_cases hline : '\n' ∈ text
  · simp [htripled, hline, dropNewline, newline?]
  · simp [hline, dropNewline, h.newline?_eq_none hmark hline]

theorem quotedText_single {q : Quotes} (hmark : isMark q.mark = true) (hsingle : q.tripled = false)
    {cs : List Char} (hfew : markCount q.mark cs < 2) :
    quotedText (q.delimiter ++ cs) = q.body cs := by
  have hismark : (q.mark == '"' || q.mark == '\'') = true := hmark
  have hq : (⟨q.mark, false⟩ : Quotes) = q := by rw [← hsingle]
  simp only [Quotes.delimiter_single hsingle, List.singleton_append, quotedText, hismark, if_true,
    if_neg (Nat.not_le.mpr hfew), hq]

/-- Behind three marks the text begins, and a line break there is dropped. -/
theorem quotedText_tripled {q : Quotes} (hmark : isMark q.mark = true) (htripled : q.tripled = true)
    (cs : List Char) : quotedText (q.delimiter ++ cs) = q.body (dropNewline cs) := by
  have hismark : (q.mark == '"' || q.mark == '\'') = true := hmark
  have hq : (⟨q.mark, true⟩ : Quotes) = q := by rw [← htripled]
  have htwo : 2 ≤ markCount q.mark (q.mark :: q.mark :: cs) := by simp
  simp only [Quotes.delimiter_tripled htripled, List.cons_append, List.nil_append, quotedText,
    hismark, if_true, if_pos htwo, hq, List.drop_succ_cons, List.drop_zero]

/-- A text in quotes begins with a mark. -/
theorem exists_quote_cons (text : List Char) :
    ∃ mark more, quote text = mark :: more ∧ isMark mark = true := by
  obtain ⟨hmark, -⟩ := Quotes.encodes_inside text
  obtain ⟨more, hmore⟩ := Quotes.exists_delimiter_cons (Quotes.for text)
  simp only [quote, hmore]
  exact ⟨_, _, rfl, hmark⟩

/-- **Quoted text** is read as it was written, whatever it holds. -/
theorem quotedText_quote (text : List Char) {rest : List Char} (hrest : NoMark rest) :
    quotedText (quote text ++ rest) = some (text, rest) := by
  obtain ⟨hmark, h⟩ := Quotes.encodes_inside text
  have hquote : quote text = (Quotes.for text).delimiter
      ++ (if (Quotes.for text).tripled && text.contains '\n' then ['\n'] else [])
      ++ (Quotes.for text).inside text ++ (Quotes.for text).delimiter := rfl
  generalize Quotes.for text = q at hmark h hquote
  have hread := Quotes.body_of_encodes hmark h hrest
  rw [hquote]
  simp only [List.append_assoc]
  cases htripled : q.tripled with
  | false =>
    rw [quotedText_single hmark htripled (by simpa using h.markCount_lt hmark htripled hrest)]
    simpa using hread
  | true =>
    have hfront := dropNewline_front hmark htripled h rest
    rw [htripled] at hfront
    rw [quotedText_tripled hmark htripled, hfront, hread]

end VideoTerminal.Toml
