import VideoTerminal.Proofs.Control.Sequence

/-!
# The fields of a control sequence

Behind its private markers a control sequence has fields, with a semicolon or a colon between them.
A field holds a number in decimal, or nothing where the number is omitted.

* `Parser.exists_read_fields` — what the parser has made of the fields where they end.  An omitted
  number counts as zero, but not at the end (`counted`); a number that is too great counts as the
  greatest one; and what comes behind the first `maxParams` numbers does not count;
* `Interpreter.feedText_sequence` — a sequence that is written out (`Sequence.text`) is read back:
  feeding it carries out its action.
-/

namespace VideoTerminal

/-- A number as it is written.  Leading zeros are allowed. -/
structure Numeral where
  digits : List Char
  ne_nil : digits ≠ []
  isDigit : ∀ c ∈ digits, c.isDigit = true
  deriving DecidableEq

namespace Numeral

def value (n : Numeral) : Nat := Nat.ofDigitChars 10 n.digits 0

/-- What the number counts as. -/
def param (n : Numeral) : Nat := min n.value Parser.maxNumber

def zero : Numeral := ⟨['0'], by decide, by simp⟩

end Numeral

/-- What stands between two fields. -/
inductive Separator
  | semicolon | colon

def Separator.char : Separator → Char
  | .semicolon => ';'
  | .colon => ':'

/-- The fields of a control sequence, each a number or omitted.  A sequence without numbers has one
field, which is omitted. -/
structure Fields where
  first : Option Numeral
  rest : List (Separator × Option Numeral)

namespace Fields

/-- The fields without what stands between them. -/
def all (f : Fields) : List (Option Numeral) := f.first :: f.rest.map Prod.snd

/-- A field as it is written. -/
def written (n : Option Numeral) : List Char := (n.map Numeral.digits).getD []

/-- Fields behind the first one as they are written. -/
def continuation (rest : List (Separator × Option Numeral)) : List Char :=
  rest.flatMap fun field => field.1.char :: written field.2

/-- The fields as they are written. -/
def text (f : Fields) : List Char := written f.first ++ continuation f.rest

/-- A whole sequence as it is written. -/
def sequence (f : Fields) (markers : List Char) (final : Char) : List Char :=
  '\x1b' :: '[' :: (markers ++ f.text ++ [final])

/-- The numbers, with zero for those that are omitted. -/
def values (f : Fields) : List Nat := f.all.map fun n => (n.map Numeral.value).getD 0

end Fields

/-- The numbers that count: an omitted one is zero, and at the end it is none. -/
def counted : List (Option Nat) → List Nat
  | [] => []
  | [n] => n.toList
  | n :: m :: rest => n.getD 0 :: counted (m :: rest)

/-- Where the last number is there, all count. -/
theorem counted_eq_map {ns : List (Option Nat)} (h : ns.getLast? ≠ some none) :
    counted ns = ns.map fun n => n.getD 0 := by
  fun_induction counted ns with
  | case1 => rfl
  | case2 n =>
      cases n with
      | none => exact absurd rfl h
      | some n => rfl
  | case3 n m rest ih =>
      rw [List.getLast?_cons_cons] at h
      exact congrArg (n.getD 0 :: ·) (ih h)

/-- Where the last one is omitted, its zero does not count. -/
theorem counted_concat_zero {ns : List (Option Nat)} (h : ns.getLast? = some none) :
    counted ns ++ [0] = ns.map fun n => n.getD 0 := by
  fun_induction counted ns with
  | case1 => cases h
  | case2 n =>
      obtain rfl : n = none := by simpa using h
      rfl
  | case3 n m rest ih =>
      rw [List.getLast?_cons_cons] at h
      exact congrArg (n.getD 0 :: ·) (ih h)

namespace Fields

/-- The numbers of a sequence as far as they count. -/
def params (f : Fields) : List Nat := counted (f.all.map fun n => n.map Numeral.param)

/-- The numbers with zero for those that are omitted, none of them too great. -/
theorem map_all_eq (f : Fields) :
    ((f.all.map fun n => n.map Numeral.param).map fun n => n.getD 0) =
      f.values.map fun n => min n Parser.maxNumber := by
  rw [values, List.map_map, List.map_map]
  refine List.map_congr_left fun n _ => ?_
  cases n with
  | none => rfl
  | some n => rfl

/-- Whether the last number is omitted. -/
def EndsOmitted (f : Fields) : Prop := f.all.getLast? = some none

instance (f : Fields) : Decidable f.EndsOmitted := by
  unfold EndsOmitted
  infer_instance

/-- Where nothing is omitted, the last number is not. -/
theorem not_endsOmitted {f : Fields} (h : ∀ n ∈ f.all, n ≠ none) : ¬ f.EndsOmitted :=
  fun hlast => h none (List.mem_of_getLast? hlast) rfl

/-- The last number is omitted exactly if it is among the numbers that are written, and empty. -/
theorem endsOmitted_iff (f : Fields) :
    f.EndsOmitted ↔ (f.all.map fun n => n.map Numeral.param).getLast? = some none := by
  rw [EndsOmitted, List.getLast?_map]
  cases f.all.getLast? with
  | none => simp
  | some n => cases n <;> simp

/-- Unless the last number is omitted, the parser has all of them, the greatest ones cut. -/
theorem params_of_not_endsOmitted {f : Fields} (h : ¬ f.EndsOmitted) :
    f.params = f.values.map fun n => min n Parser.maxNumber := by
  rw [params, counted_eq_map (mt f.endsOmitted_iff.mpr h), map_all_eq]

/-- If the last number is omitted, the parser has all the others. -/
theorem params_of_endsOmitted {f : Fields} (h : f.EndsOmitted) :
    f.params ++ [0] = f.values.map fun n => min n Parser.maxNumber := by
  rw [params, counted_concat_zero (f.endsOmitted_iff.mp h), map_all_eq]

/-- The parser has no more numbers than there are fields. -/
theorem length_params_le (f : Fields) : f.params.length ≤ f.all.length := by
  have hvalues : (f.values.map fun n => min n Parser.maxNumber).length = f.all.length := by
    simp [values]
  by_cases h : f.EndsOmitted
  · rw [← params_of_endsOmitted h, List.length_append] at hvalues
    omega
  · rw [params_of_not_endsOmitted h, hvalues]

end Fields

namespace Parser

/-- Among the numbers of a control sequence.  At its beginning no number is being read. -/
def AmongNumbers (p : Parser) : Prop :=
  p.state = .sequenceEntry ∧ p.number = none ∨ p.state = .sequenceParam

section Numbers

variable {p : Parser}

/-- Reading a number that is too great comes to the greatest one, whatever its digits. -/
theorem number_pushDigit {a : Nat} (h : p.number.getD 0 = min a maxNumber) (c : Char) :
    (p.pushDigit c).number = some (min (10 * a + (c.toNat - '0'.toNat)) maxNumber) := by
  simp only [pushDigit, h]
  congr 1
  omega

/-- Digits count up one number, cut where it exceeds the greatest. -/
theorem read_digits (h : p.state = .sequenceEntry ∨ p.state = .sequenceParam)
    {a : Nat} (hnumber : p.number.getD 0 = min a maxNumber) {digits : List Char}
    (hdigits : ∀ c ∈ digits, c.isDigit = true) (hne : digits ≠ []) :
    p.read digits = ({ p with
      state := .sequenceParam,
      number := some (min (Nat.ofDigitChars 10 digits a) maxNumber) }, []) := by
  induction digits generalizing p a with
  | nil => exact absurd rfl hne
  | cons c digits ih =>
      have hnext := number_pushDigit (p := { p with state := .sequenceParam }) hnumber c
      rw [read_cons_of_silent (step_digit h (hdigits c List.mem_cons_self)), Nat.ofDigitChars_cons]
      cases digits with
      | nil =>
          simp only [read, Nat.ofDigitChars_nil]
          rw [← hnext]
          rfl
      | cons d digits =>
          rw [ih (.inr rfl) (by rw [hnext]; rfl)
            (fun e he => hdigits e (List.mem_cons_of_mem c he)) (List.cons_ne_nil d digits)]
          rfl

/-- Among the numbers the parser takes a digit for one. -/
theorem AmongNumbers.state (h : p.AmongNumbers) :
    p.state = .sequenceEntry ∨ p.state = .sequenceParam :=
  h.imp_left And.left

/-- Among the numbers, a final character ends the number that is being read and the sequence. -/
theorem AmongNumbers.step_final (h : p.AmongNumbers) {c : Char} (hc : isFinal c = true) :
    p.step c = p.endNumber.dispatch c := by
  rcases h with ⟨h, hnumber⟩ | h
  · rw [step_final_of_entry h hc, endNumber, hnumber]
    rfl
  · exact step_final_of_param h hc

/-- A number that is ended joins the others, as long as there is room. -/
theorem pushParam_eq (h : p.params.length ≤ maxParams) :
    p.pushParam = { p with
      params := (p.params ++ [p.number.getD 0]).take maxParams
      number := none } := by
  unfold pushParam
  split
  next hlt => rw [List.take_of_length_le (by rw [List.length_append]; exact hlt)]
  next hfull =>
    have hlen : p.params.length = maxParams := by omega
    rw [← hlen, List.take_left]

/-- A number that has been begun is ended in the same way. -/
theorem endNumber_eq (h : p.params.length ≤ maxParams) :
    p.endNumber = { p with
      params := (p.params ++ p.number.toList).take maxParams
      number := none } := by
  unfold endNumber
  cases hnumber : p.number with
  | none =>
      rw [if_neg (by simp), Option.toList_none, List.append_nil, List.take_of_length_le h,
        ← hnumber]
  | some n =>
      rw [if_pos (by simp), pushParam_eq h, hnumber]
      rfl

/-- A field is read to its end. -/
theorem exists_read_written (h : p.AmongNumbers) (hnumber : p.number = none)
    (n : Option Numeral) :
    ∃ q, p.read (Fields.written n) = (q, []) ∧ q.AmongNumbers ∧
      q = { p with state := q.state, number := n.map Numeral.param } := by
  cases n with
  | none => exact ⟨p, rfl, h, by rw [Option.map_none, ← hnumber]⟩
  | some n =>
      exact ⟨_, read_digits h.state (a := 0) (by rw [hnumber]; rfl) n.isDigit n.ne_nil, .inr rfl,
        rfl⟩

/-- Only the first numbers are kept, whether the others come now or later. -/
theorem take_take_append (front back : List Nat) (count : Nat) :
    (front.take count ++ back).take count = (front ++ back).take count := by
  rw [List.take_append, List.take_append, List.take_take, Nat.min_self, List.length_take]
  congr 2
  omega

/-- The fields behind a number that is being read. -/
theorem exists_read_continuation (h : p.AmongNumbers) (hlen : p.params.length ≤ maxParams)
    (rest : List (Separator × Option Numeral)) :
    ∃ q, p.read (Fields.continuation rest) = (q, []) ∧ q.AmongNumbers ∧
      q.endNumber = { p with
        state := q.state
        params := (p.params ++
          counted (p.number :: rest.map fun field => field.2.map Numeral.param)).take maxParams
        number := none } := by
  induction rest generalizing p with
  | nil => exact ⟨p, rfl, h, endNumber_eq hlen⟩
  | cons field rest ih =>
      obtain ⟨separator, n⟩ := field
      have hstep : p.step separator.char = _ :=
        step_separator h.state (by cases separator <;> simp [Separator.char])
      rw [pushParam_eq (p := { p with state := .sequenceParam }) hlen] at hstep
      -- The number is ended; the next field is read, and then what is behind it.
      obtain ⟨q, hread, hq, hqp⟩ := exists_read_written (p := { p with
        state := .sequenceParam
        params := (p.params ++ [p.number.getD 0]).take maxParams
        number := none }) (.inr rfl) rfl n
      obtain ⟨r, hmore, hr, hend⟩ := ih hq (by rw [hqp]; exact List.length_take_le ..)
      refine ⟨r, ?_, hr, ?_⟩
      · rw [Fields.continuation, List.flatMap_cons, List.cons_append,
          read_cons_of_silent hstep, read_append_of_silent hread]
        exact hmore
      · rw [hend, hqp]
        dsimp only
        rw [take_take_append, List.append_assoc]
        rfl

/-- **The fields of a control sequence are read** as the numbers that count. -/
theorem exists_read_fields (p : Parser) {markers : List Char}
    (hmarkers : ∀ c ∈ markers, isMarker c = true) (f : Fields) :
    ∃ q, p.enterEscape.read ('[' :: (markers ++ f.text)) = (q, []) ∧ q.AmongNumbers ∧
      q.endNumber = { p with
        state := q.state
        params := f.params.take maxParams
        marks := markers
        number := none } := by
  obtain ⟨q, hfirst, hq, hqp⟩ := exists_read_written (p := { p.enterEscape with
    state := .sequenceEntry, marks := p.enterEscape.marks ++ markers }) (.inl ⟨rfl, rfl⟩) rfl
    f.first
  obtain ⟨r, hrest, hr, hend⟩ := exists_read_continuation hq (by rw [hqp]; simp [enterEscape])
    f.rest
  refine ⟨r, ?_, hr, ?_⟩
  · rw [read_cons_of_silent (step_bracket p), read_append_of_silent (read_markers rfl hmarkers),
      Fields.text, read_append_of_silent hfirst]
    exact hrest
  · rw [hend, hqp]
    simp [enterEscape, Fields.params, Fields.all, Function.comp_def]

/-- A sequence of not too many fields is read to its end. -/
theorem read_fields (h : p.state = .ground) {markers : List Char}
    (hmarkers : ∀ c ∈ markers, isMarker c = true) {f : Fields} (hlen : f.all.length ≤ maxParams)
    {final : Char} (hfinal : isFinal final = true) :
    p.read (f.sequence markers final) =
      ({ p with state := .ground, params := f.params, marks := markers, number := none },
        (Action.ofSequence? ⟨markers, f.params, final⟩).toList) := by
  obtain ⟨q, hread, hq, hend⟩ := exists_read_fields p hmarkers f
  have hparams : f.params.take maxParams = f.params :=
    List.take_of_length_le (Nat.le_trans f.length_params_le hlen)
  rw [hparams] at hend
  rw [Fields.sequence, read_cons_of_silent (step_escape h), ← List.cons_append,
    read_append_of_silent hread, read_singleton, hq.step_final hfinal, hend]
  rfl

end Numbers

end Parser

/-! ## Written sequences -/

namespace Sequence

/-- Numbers as they are written, with a semicolon between them. -/
def numbers : List Nat → List Char
  | [] => []
  | [n] => (toString n).toList
  | n :: m :: rest => (toString n).toList ++ ';' :: numbers (m :: rest)

/-- A sequence as it is written, if all its marks are private markers. -/
def text (s : Sequence) : List Char := '\x1b' :: '[' :: (s.marks ++ (numbers s.params ++ [s.final]))

example : text ⟨['?'], [25, 1049], 'h'⟩ = "\x1b[?25;1049h".toList := by decide

/-- A sequence of private markers, not too many numbers, none of them too great, and a final
character. -/
structure Writable (s : Sequence) : Prop where
  marks : ∀ c ∈ s.marks, Parser.isMarker c = true
  params_le : ∀ n ∈ s.params, n ≤ Parser.maxNumber
  length_params : s.params.length ≤ Parser.maxParams
  final : Parser.isFinal s.final = true

end Sequence

namespace Numeral

/-- A number without leading zeros. -/
def ofNat (n : Nat) : Numeral where
  digits := Nat.toDigits 10 n
  ne_nil := by simp
  isDigit _ hc := Nat.isDigit_of_mem_toDigits (by decide) (by decide) hc

/-- A numeral stands for the number it was made from. -/
theorem value_ofNat (n : Nat) : (ofNat n).value = n :=
  Nat.ofDigitChars_toDigits (by decide) (by decide)

end Numeral

namespace Fields

/-- Numbers with a semicolon between them. -/
def ofList : List Nat → Fields
  | [] => ⟨none, []⟩
  | n :: rest => ⟨some (.ofNat n), rest.map fun m => (.semicolon, some (.ofNat m))⟩

/-- Numbers are written with semicolons between them. -/
theorem text_ofList (ns : List Nat) : (ofList ns).text = Sequence.numbers ns := by
  have hdigits : ∀ n : Nat, (toString n).toList = Nat.toDigits 10 n := fun _ => Nat.toList_repr
  fun_induction Sequence.numbers ns with
  | case1 => rfl
  | case2 n =>
      rw [hdigits]
      exact List.append_nil _
  | case3 n m rest ih =>
      rw [hdigits, ← ih]
      rfl

/-- None of the numbers of a list is omitted. -/
theorem all_ofList_cons (n : Nat) (rest : List Nat) :
    (ofList (n :: rest)).all = (n :: rest).map fun m => some (.ofNat m) := by
  simp [ofList, all, Function.comp_def]

/-- Numbers that can be read are read back. -/
theorem params_ofList {ns : List Nat} (h : ∀ n ∈ ns, n ≤ Parser.maxNumber) :
    (ofList ns).params = ns := by
  cases ns with
  | nil => rfl
  | cons n rest =>
      have hall : ∀ k ∈ (ofList (n :: rest)).all, k ≠ none := by
        rw [all_ofList_cons]
        simp
      rw [params_of_not_endsOmitted (not_endsOmitted hall), values, all_ofList_cons,
        List.map_map, List.map_map]
      refine (List.map_congr_left fun m hm => ?_).trans (List.map_id _)
      exact (congrArg (min · Parser.maxNumber) (Numeral.value_ofNat m)).trans
        (Nat.min_eq_left (h m hm))

/-- There is a field for each number, and room for it. -/
theorem length_all_ofList_le {ns : List Nat} (h : ns.length ≤ Parser.maxParams) :
    (ofList ns).all.length ≤ Parser.maxParams := by
  cases ns with
  | nil => decide
  | cons n rest =>
      rw [all_ofList_cons, List.length_map]
      exact h

end Fields

/-- A sequence is read as it is written. -/
theorem Parser.read_sequence {p : Parser} (h : p.state = .ground) {s : Sequence}
    (hs : s.Writable) :
    p.read s.text =
      ({ p with state := .ground, params := s.params, marks := s.marks, number := none },
        (Action.ofSequence? s).toList) := by
  have hread := read_fields h hs.marks (Fields.length_all_ofList_le hs.length_params) hs.final
  rw [Fields.params_ofList hs.params_le, Fields.sequence, Fields.text_ofList,
    List.append_assoc] at hread
  exact hread

/-- **Feeding a written sequence** carries out its action. -/
theorem Interpreter.feedText_sequence {i : Interpreter} (h : i.parser.state = .ground)
    {s : Sequence} (hs : s.Writable) :
    i.feedText s.text = (i.terminal.performAll (Action.ofSequence? s).toList).map fun out =>
      (⟨{ i.parser with state := .ground, params := s.params, marks := s.marks, number := none },
        out.1⟩, out.2) := by
  rw [feedText_eq, Parser.read_sequence h hs]

end VideoTerminal
