import Mathlib.Data.List.Infix
import Mathlib.Data.List.TakeWhile
import VideoTerminal.Proofs.Control.Interpreter

/-!
# Reading control sequences

Between `ESC [` and its final character a control sequence has parameter characters, then
intermediate ones.  This file follows the parser through them.

`Interpreter.takesSequence_iff` says that the parser stays inside the sequence up to the final
character exactly if no private marker stands behind a number or a separator.  At such a marker it
gives up, and what comes after that is text.
-/

namespace VideoTerminal

namespace Parser

/-- Characters between `ESC [` and the intermediates: digits, separators and private markers. -/
def isParameter (c : Char) : Bool := 0x30 ≤ c.toNat && c.toNat ≤ 0x3F

/-- Private markers: `<`, `=`, `>` and `?`. -/
def isMarker (c : Char) : Bool := 0x3C ≤ c.toNat && c.toNat ≤ 0x3F

/-- Inside a control sequence, behind `ESC [`. -/
def InSequence (p : Parser) : Prop :=
  p.state = .sequenceEntry ∨ p.state = .sequenceParam ∨ p.state = .sequenceIntermediate

/-- Inside a sequence the parser is not between sequences. -/
theorem InSequence.ne_ground {p : Parser} (h : p.InSequence) : p.state ≠ .ground := by
  intro hground
  rcases h with h | h | h <;> simp [hground] at h

/-! ## Single characters -/

/-- From the space on there are no controls of the first thirty-two. -/
theorem isC0_eq_false {c : Char} (h : 0x20 ≤ c.toNat) : Text.isC0 c = false := by
  simpa [Text.isC0] using h

/-- There are four markers. -/
theorem eq_of_isMarker {c : Char} (h : isMarker c = true) :
    c = '<' ∨ c = '=' ∨ c = '>' ∨ c = '?' := by
  simp only [isMarker, Bool.and_eq_true, decide_eq_true_eq] at h
  simp only [← Char.toNat_inj, Char.reduceToNat]
  omega

/-- The other parameter characters are digits and separators. -/
theorem isDigit_or_eq_of_isParameter {c : Char} (h : isParameter c = true)
    (hmarker : isMarker c = false) : c.isDigit = true ∨ c = ';' ∨ c = ':' := by
  simp only [isParameter, isMarker, Bool.and_eq_true, decide_eq_true_eq, Bool.and_eq_false_imp,
    decide_eq_false_iff_not] at h hmarker
  simp only [← Char.toNat_inj, Char.reduceToNat, Char.isDigit_iff_toNat]
  omega

/-- At the start of a sequence each character but a control is one of the sequence. -/
theorem step_of_entry {p : Parser} (h : p.state = .sequenceEntry) {c : Char}
    (hc : Text.isC0 c = false) : p.step c = p.stepEntry c := by
  simp [step, h, hc]

theorem step_of_param {p : Parser} (h : p.state = .sequenceParam) {c : Char}
    (hc : Text.isC0 c = false) : p.step c = p.stepParam c := by
  simp [step, h, hc]

theorem step_of_intermediate {p : Parser} (h : p.state = .sequenceIntermediate) {c : Char}
    (hc : Text.isC0 c = false) : p.step c = p.stepIntermediate c := by
  simp [step, h, hc]

/-- The start of a control sequence, from any state between sequences. -/
theorem step_escape {p : Parser} (h : p.state = .ground) : p.step '\x1b' = (p.enterEscape, []) := by
  simp [step, h, Text.isC0, stepControl]

/-- ESC and a bracket begin a control sequence. -/
theorem step_bracket (p : Parser) :
    p.enterEscape.step '[' = ({ p.enterEscape with state := .sequenceEntry }, []) := by
  simp [step, enterEscape, Text.isC0, stepEscape]

/-- Markers are kept where the sequence begins. -/
theorem step_marker {p : Parser} (h : p.state = .sequenceEntry) {c : Char}
    (hc : isMarker c = true) : p.step c = ({ p with marks := p.marks ++ [c] }, []) := by
  rcases eq_of_isMarker hc with rfl | rfl | rfl | rfl
  all_goals
    rw [step_of_entry h (by decide)]
    simp [stepEntry]

/-- Among the numbers a marker ends the sequence early. -/
theorem step_marker_of_param {p : Parser} (h : p.state = .sequenceParam) {c : Char}
    (hc : isMarker c = true) : p.step c = ({ p with state := .ground }, []) := by
  rcases eq_of_isMarker hc with rfl | rfl | rfl | rfl
  all_goals
    rw [step_of_param h (by decide)]
    simp [stepParam, isIntermediate, isFinal]

/-- A digit is added to the number that is being read. -/
theorem step_digit {p : Parser} (h : p.state = .sequenceEntry ∨ p.state = .sequenceParam)
    {c : Char} (hc : c.isDigit = true) :
    p.step c = ({ p with state := .sequenceParam }.pushDigit c, []) := by
  have hrange := Char.isDigit_iff_toNat.mp hc
  simp only [Char.reduceToNat] at hrange
  have hc0 : Text.isC0 c = false := isC0_eq_false (by omega)
  rcases h with h | h
  · rw [step_of_entry h hc0]
    simp [stepEntry, stepParam, hc]
  · rw [step_of_param h hc0, stepParam, if_pos hc, ← h]

/-- A semicolon or a colon ends the number before it. -/
theorem step_separator {p : Parser} (h : p.state = .sequenceEntry ∨ p.state = .sequenceParam)
    {c : Char} (hc : c = ';' ∨ c = ':') :
    p.step c = ({ p with state := .sequenceParam }.pushParam, []) := by
  have hdigit : c.isDigit = false := by rcases hc with rfl | rfl <;> rfl
  have hc0 : Text.isC0 c = false := by rcases hc with rfl | rfl <;> rfl
  rcases h with h | h
  · rw [step_of_entry h hc0]
    rcases hc with rfl | rfl <;> simp [stepEntry, stepParam]
  · rw [step_of_param h hc0, stepParam, if_neg (by simp [hdigit]), if_pos hc, ← h]

/-- Numbers and separators are read to the next. -/
theorem exists_step_numeric {p : Parser} (h : p.state = .sequenceEntry ∨ p.state = .sequenceParam)
    {c : Char} (hc : isParameter c = true) (hmarker : isMarker c = false) :
    ∃ q, p.step c = (q, []) ∧ q.state = .sequenceParam := by
  rcases isDigit_or_eq_of_isParameter hc hmarker with hdigit | hseparator
  · exact ⟨_, step_digit h hdigit, rfl⟩
  · exact ⟨_, step_separator h hseparator, rfl⟩

/-- Intermediates are read anywhere in the sequence. -/
theorem InSequence.exists_step_intermediate {p : Parser} (h : p.InSequence) {c : Char}
    (hc : isIntermediate c = true) : ∃ q, p.step c = (q, []) ∧ q.InSequence := by
  have hrange := hc
  simp only [isIntermediate, Bool.and_eq_true, decide_eq_true_eq] at hrange
  have hc0 : Text.isC0 c = false := isC0_eq_false hrange.1
  have hne : ∀ d : Char, 0x30 ≤ d.toNat → c ≠ d := by
    rintro d hd rfl
    omega
  have hdigit : c.isDigit = false := by
    rw [Bool.eq_false_iff, ne_eq, Char.isDigit_iff_toNat]
    simp only [Char.reduceToNat]
    omega
  rcases h with h | h | h
  · rw [step_of_entry h hc0, stepEntry]
    have hsemicolon : (c == ';') = false := by simpa using hne ';' (by decide)
    have hcolon : (c == ':') = false := by simpa using hne ':' (by decide)
    rw [hdigit, hsemicolon, hcolon, if_neg (by simp)]
    split
    · exact ⟨_, rfl, .inl h⟩
    · exact ⟨_, rfl, .inr (.inr rfl)⟩
  · have hseparator : ¬ (c = ';' ∨ c = ':') := by
      rintro (rfl | rfl)
      · exact hne _ (by decide) rfl
      · exact hne _ (by decide) rfl
    rw [step_of_param h hc0, stepParam, if_neg (by simp [hdigit]), if_neg hseparator, if_pos hc]
    exact ⟨_, rfl, .inr (.inr rfl)⟩
  · rw [step_of_intermediate h hc0, stepIntermediate, if_pos hc]
    exact ⟨_, rfl, .inr (.inr h)⟩

/-- What a final character is not. -/
theorem of_isFinal {c : Char} (hc : isFinal c = true) :
    Text.isC0 c = false ∧ c.isDigit = false ∧ isIntermediate c = false ∧
      ∀ d ∈ [';', ':', '?', '>', '!', '=', '<'], c ≠ d := by
  simp only [isFinal, Bool.and_eq_true, decide_eq_true_eq] at hc
  refine ⟨isC0_eq_false (by omega), ?_, ?_, ?_⟩
  · rw [Bool.eq_false_iff, ne_eq, Char.isDigit_iff_toNat]
    simp only [Char.reduceToNat]
    omega
  · rw [isIntermediate, Bool.and_eq_false_imp, decide_eq_false_iff_not]
    omega
  · rintro d hd rfl
    have hlt : ∀ e ∈ [';', ':', '?', '>', '!', '=', '<'], decide (e.toNat < 0x40) = true :=
      List.all_eq_true.mp (by decide)
    have hlt := of_decide_eq_true (hlt c hd)
    omega

/-- A final character may come at once. -/
theorem step_final_of_entry {p : Parser} (h : p.state = .sequenceEntry) {c : Char}
    (hc : isFinal c = true) : p.step c = p.dispatch c := by
  obtain ⟨hc0, hdigit, hintermediate, hne⟩ := of_isFinal hc
  simp only [List.mem_cons, List.not_mem_nil, or_false, forall_eq_or_imp, forall_eq] at hne
  rw [step_of_entry h hc0]
  simp [stepEntry, hdigit, hne, hintermediate, hc]

/-- The number that is being read counts. -/
theorem step_final_of_param {p : Parser} (h : p.state = .sequenceParam) {c : Char}
    (hc : isFinal c = true) : p.step c = p.endNumber.dispatch c := by
  obtain ⟨hc0, hdigit, hintermediate, hne⟩ := of_isFinal hc
  simp only [List.mem_cons, List.not_mem_nil, or_false, forall_eq_or_imp, forall_eq] at hne
  rw [step_of_param h hc0]
  simp [stepParam, hdigit, hne, hintermediate, hc]

theorem step_final_of_intermediate {p : Parser} (h : p.state = .sequenceIntermediate) {c : Char}
    (hc : isFinal c = true) : p.step c = p.dispatch c := by
  obtain ⟨hc0, -, hintermediate, -⟩ := of_isFinal hc
  rw [step_of_intermediate h hc0]
  simp [stepIntermediate, hintermediate, hc]

/-- A final character ends the sequence, wherever it has got to. -/
theorem InSequence.exists_step_final {p : Parser} (h : p.InSequence) {c : Char}
    (hc : isFinal c = true) : ∃ q : Parser, p.step c = q.dispatch c := by
  rcases h with h | h | h
  · exact ⟨p, step_final_of_entry h hc⟩
  · exact ⟨p.endNumber, step_final_of_param h hc⟩
  · exact ⟨p, step_final_of_intermediate h hc⟩

/-! ## The parts of a sequence -/

/-- Markers are collected, and nothing else happens. -/
theorem read_markers {p : Parser} (h : p.state = .sequenceEntry) {markers : List Char}
    (hmarkers : ∀ c ∈ markers, isMarker c = true) :
    p.read markers = ({ p with marks := p.marks ++ markers }, []) := by
  induction markers generalizing p with
  | nil => simp [read]
  | cons c markers ih =>
      have hc := hmarkers c List.mem_cons_self
      have hrest : ∀ d ∈ markers, isMarker d = true :=
        fun d hd => hmarkers d (List.mem_cons_of_mem c hd)
      rw [read_cons_of_silent (step_marker h hc)]
      simpa using @ih { p with marks := p.marks ++ [c] } h hrest

/-- Numbers and what separates them ask for nothing. -/
theorem exists_read_numeric {p : Parser} (h : p.state = .sequenceEntry ∨ p.state = .sequenceParam)
    {numeric : List Char} (hnumeric : ∀ c ∈ numeric, isParameter c = true ∧ isMarker c = false) :
    ∃ q, p.read numeric = (q, []) ∧ (q.state = .sequenceEntry ∨ q.state = .sequenceParam) ∧
      (numeric ≠ [] → q.state = .sequenceParam) := by
  induction numeric generalizing p with
  | nil => exact ⟨p, rfl, h, fun hne => absurd rfl hne⟩
  | cons c numeric ih =>
      obtain ⟨hc, hmarker⟩ := hnumeric c List.mem_cons_self
      obtain ⟨q, hstep, hq⟩ := exists_step_numeric h hc hmarker
      obtain ⟨r, hread, hr, hparam⟩ :=
        ih (.inr hq) fun d hd => hnumeric d (List.mem_cons_of_mem c hd)
      refine ⟨r, by rw [read_cons_of_silent hstep, hread], hr, fun _ => ?_⟩
      cases numeric with
      | nil =>
          obtain rfl : q = r := congrArg Prod.fst hread
          exact hq
      | cons d numeric => exact hparam (List.cons_ne_nil d numeric)

/-- Intermediates ask for nothing, and the sequence goes on. -/
theorem InSequence.exists_read_intermediates {p : Parser} (h : p.InSequence)
    {intermediates : List Char} (hin : ∀ c ∈ intermediates, isIntermediate c = true) :
    ∃ q, p.read intermediates = (q, []) ∧ q.InSequence := by
  induction intermediates generalizing p with
  | nil => exact ⟨p, rfl, h⟩
  | cons c intermediates ih =>
      obtain ⟨q, hstep, hq⟩ := h.exists_step_intermediate (hin c List.mem_cons_self)
      obtain ⟨r, hread, hr⟩ := ih hq fun d hd => hin d (List.mem_cons_of_mem c hd)
      exact ⟨r, by rw [read_cons_of_silent hstep, hread], hr⟩

/-- Whether all private markers of a text come first. -/
def MarkersFirst (params : List Char) : Prop := ∀ c ∈ params.dropWhile isMarker, isMarker c = false

instance (params : List Char) : Decidable (MarkersFirst params) :=
  List.decidableBAll (fun c => isMarker c = false) _

/-- Markers, then numbers and separators. -/
theorem MarkersFirst.exists_append {params : List Char} (h : MarkersFirst params)
    (hparams : ∀ c ∈ params, isParameter c = true) :
    ∃ markers numeric, params = markers ++ numeric ∧ (∀ c ∈ markers, isMarker c = true) ∧
      ∀ c ∈ numeric, isParameter c = true ∧ isMarker c = false := by
  refine ⟨params.takeWhile isMarker, params.dropWhile isMarker, ?_, ?_, ?_⟩
  · exact (List.takeWhile_append_dropWhile).symm
  · intro c hc
    exact List.mem_takeWhile_imp hc
  · intro c hc
    exact ⟨hparams c ((List.dropWhile_suffix _).subset hc), h c hc⟩

/-- Otherwise some marker stands right behind numbers and separators. -/
theorem exists_append_of_not_markersFirst {params : List Char} (h : ¬ MarkersFirst params)
    (hparams : ∀ c ∈ params, isParameter c = true) :
    ∃ markers numeric marker rest, params = markers ++ (numeric ++ marker :: rest) ∧
      (∀ c ∈ markers, isMarker c = true) ∧ numeric ≠ [] ∧
      (∀ c ∈ numeric, isParameter c = true ∧ isMarker c = false) ∧ isMarker marker = true := by
  simp only [MarkersFirst, not_forall, Bool.not_eq_false] at h
  obtain ⟨found, hfound, hmarker⟩ := h
  obtain ⟨back, hback⟩ : ∃ back, params.dropWhile isMarker = back := ⟨_, rfl⟩
  have hfirst := List.head?_dropWhile_not isMarker params
  have hsplit : params = params.takeWhile isMarker ++ back := by
    rw [← hback, List.takeWhile_append_dropWhile]
  rw [hback] at hfound hfirst
  -- The numbers behind the first markers, and what ends them.
  obtain ⟨marker, rest, hrest⟩ :
      ∃ marker rest, back.dropWhile (fun c => !isMarker c) = marker :: rest := by
    refine List.exists_cons_of_ne_nil fun hnil => ?_
    have hnone := List.dropWhile_eq_nil_iff.mp hnil found hfound
    simp [hmarker] at hnone
  have hend := List.head?_dropWhile_not (fun c => !isMarker c) back
  rw [hrest] at hend
  refine ⟨params.takeWhile isMarker, back.takeWhile fun c => !isMarker c, marker, rest, ?_, ?_, ?_,
    ?_, by simpa using hend⟩
  · rw [← hrest, List.takeWhile_append_dropWhile]
    exact hsplit
  · intro c hc
    exact List.mem_takeWhile_imp hc
  · intro hnil
    cases back with
    | nil => cases hfound
    | cons c back =>
        have hc : isMarker c = false := hfirst
        rw [List.takeWhile_cons_of_pos (by simp [hc])] at hnil
        cases hnil
  · intro c hc
    refine ⟨hparams c ?_, by simpa using List.mem_takeWhile_imp hc⟩
    rw [hsplit]
    exact List.mem_append_right _ ((List.takeWhile_prefix _).subset hc)

/-- Up to its final character a sequence asks for nothing. -/
theorem exists_read_sequence {p : Parser} (h : p.state = .ground)
    {markers numeric intermediates : List Char} (hmarkers : ∀ c ∈ markers, isMarker c = true)
    (hnumeric : ∀ c ∈ numeric, isParameter c = true ∧ isMarker c = false)
    (hin : ∀ c ∈ intermediates, isIntermediate c = true) :
    ∃ q, p.read ('\x1b' :: '[' :: (markers ++ (numeric ++ intermediates))) = (q, []) ∧
      q.InSequence := by
  rw [read_cons_of_silent (step_escape h), read_cons_of_silent (step_bracket p),
    read_append_of_silent (read_markers rfl hmarkers)]
  obtain ⟨q, hread, hq, -⟩ := exists_read_numeric (p := { p.enterEscape with
    state := .sequenceEntry, marks := p.enterEscape.marks ++ markers }) (.inl rfl) hnumeric
  rw [read_append_of_silent hread]
  have hinside : q.InSequence := by
    rcases hq with hq | hq
    · exact .inl hq
    · exact .inr (.inl hq)
  exact hinside.exists_read_intermediates hin

/-- Behind a number or a separator a private marker ends the sequence. -/
theorem exists_read_late_marker {p : Parser} (h : p.state = .ground)
    {markers numeric : List Char} {marker : Char} (hmarkers : ∀ c ∈ markers, isMarker c = true)
    (hne : numeric ≠ []) (hnumeric : ∀ c ∈ numeric, isParameter c = true ∧ isMarker c = false)
    (hmarker : isMarker marker = true) :
    ∃ q, p.read ('\x1b' :: '[' :: (markers ++ (numeric ++ [marker]))) = (q, []) ∧
      q.state = .ground := by
  rw [read_cons_of_silent (step_escape h), read_cons_of_silent (step_bracket p),
    read_append_of_silent (read_markers rfl hmarkers)]
  obtain ⟨q, hread, -, hparam⟩ := exists_read_numeric (p := { p.enterEscape with
    state := .sequenceEntry, marks := p.enterEscape.marks ++ markers }) (.inl rfl) hnumeric
  rw [read_append_of_silent hread, read_singleton, step_marker_of_param (hparam hne) hmarker]
  exact ⟨_, rfl, rfl⟩

end Parser

/-! ## Whole sequences -/

/-- No sequence prints. -/
theorem Action.ofSequence?_ne_print (s : Sequence) (c : Char) :
    Action.ofSequence? s ≠ some (.print c) := by
  unfold Action.ofSequence? Action.ofPlainSequence?
  repeat' split
  all_goals simp

namespace Interpreter

/-- A text is taken as the inside of a control sequence that `final` ends: up to there the parser
stays inside and the terminal as it is, and nothing of the sequence is printed. -/
structure TakesSequence (i : Interpreter) (body : List Char) (final : Char) : Prop where
  inside : ∀ front, front <+: '[' :: body → ∃ j, i.feedText ('\x1b' :: front) = .ok (j, []) ∧
    j.parser.state ≠ .ground ∧ j.terminal = i.terminal
  ends : (i.parser.read ('\x1b' :: '[' :: (body ++ [final]))).1.state = .ground
  unprinted : ∀ c, .print c ∉ (i.parser.read ('\x1b' :: '[' :: (body ++ [final]))).2

/-- **Reading a control sequence.**  Its parameter characters, its intermediates and its final
character are read as one sequence exactly if no private marker stands behind a number or a
separator.  Behind such a marker the parser takes the rest for text. -/
theorem takesSequence_iff {i : Interpreter} (hground : i.parser.state = .ground)
    {params intermediates : List Char} {final : Char}
    (hparams : ∀ c ∈ params, Parser.isParameter c = true)
    (hin : ∀ c ∈ intermediates, Parser.isIntermediate c = true)
    (hfinal : Parser.isFinal final = true) :
    i.TakesSequence (params ++ intermediates) final ↔ Parser.MarkersFirst params := by
  constructor
  · intro htakes
    by_contra hlate
    obtain ⟨markers, numeric, marker, rest, rfl, hmarkers, hne, hnumeric, hmarker⟩ :=
      Parser.exists_append_of_not_markersFirst hlate hparams
    -- Up to the marker nothing is asked for, and there the parser is between sequences again.
    obtain ⟨q, hread, hq⟩ := Parser.exists_read_late_marker hground hmarkers hne hnumeric hmarker
    obtain ⟨j, hfeed, hj, -⟩ := htakes.inside ('[' :: (markers ++ (numeric ++ [marker])))
      ⟨rest ++ intermediates, by simp⟩
    rw [feedText_of_silent hread] at hfeed
    obtain rfl := congrArg Prod.fst (Except.ok.inj hfeed)
    exact hj hq
  · intro hfirst
    obtain ⟨markers, numeric, rfl, hmarkers, hnumeric⟩ := hfirst.exists_append hparams
    rw [List.append_assoc]
    obtain ⟨q, hread, hq⟩ := Parser.exists_read_sequence hground hmarkers hnumeric hin
    obtain ⟨r, hstep⟩ := hq.exists_step_final hfinal
    have hwhole : i.parser.read ('\x1b' :: '[' ::
        (markers ++ (numeric ++ intermediates) ++ [final])) = r.dispatch final := by
      have := Parser.read_append_of_silent hread [final]
      rw [Parser.read_singleton, hstep] at this
      exact this
    refine ⟨?_, ?_, ?_⟩
    · intro front hfront
      cases front with
      | nil =>
          exact ⟨_, feedText_of_silent (Parser.read_cons_of_silent (Parser.step_escape hground) []),
            by simp [Parser.enterEscape], rfl⟩
      | cons c front =>
          obtain ⟨rfl, hrest⟩ := List.cons_prefix_cons.mp hfront
          -- The beginning of a sequence is a shorter sequence.
          rw [List.prefix_iff_eq_take.mp hrest, List.take_append, List.take_append]
          obtain ⟨q, hread, hq⟩ := Parser.exists_read_sequence hground
            (fun c hc => hmarkers c (List.mem_of_mem_take hc))
            (fun c hc => hnumeric c (List.mem_of_mem_take hc))
            (fun c hc => hin c (List.mem_of_mem_take hc))
          exact ⟨_, feedText_of_silent hread, hq.ne_ground, rfl⟩
    · rw [hwhole]
      rfl
    · intro c hc
      rw [hwhole] at hc
      exact Action.ofSequence?_ne_print _ c (Option.mem_toList.mp hc)

/-- Several markers, two numbers and two intermediates. -/
theorem takesSequence_iff_marked :
    (∀ c ∈ ['?', '>', '1', ';', '2'], Parser.isParameter c = true) ∧
      (∀ c ∈ ['!', '$'], Parser.isIntermediate c = true) ∧ Parser.isFinal 'p' = true ∧
      (Interpreter.mk {} (Terminal.new 5 1 0)).TakesSequence
        (['?', '>', '1', ';', '2'] ++ ['!', '$']) 'p' :=
  ⟨List.all_eq_true.mp (by decide), List.all_eq_true.mp (by decide), by decide,
    (takesSequence_iff rfl (List.all_eq_true.mp (by decide)) (List.all_eq_true.mp (by decide))
      (by decide)).mpr (by decide)⟩

/-- The end of a sequence with a marker behind its number is printed. -/
theorem not_takesSequence_late_marker :
    ¬ ∀ (i : Interpreter) (params intermediates : List Char) (final : Char),
      i.parser.state = .ground → (∀ c ∈ params, Parser.isParameter c = true) →
        (∀ c ∈ intermediates, Parser.isIntermediate c = true) → Parser.isFinal final = true →
          i.TakesSequence (params ++ intermediates) final := by
  intro hall
  have htakes := hall ⟨{}, Terminal.new 5 1 0⟩ ['1', '?'] [] 'h' rfl
    (List.all_eq_true.mp (by decide)) (List.all_eq_true.mp (by decide)) (by decide)
  exact htakes.unprinted 'h' (by decide)

end Interpreter

end VideoTerminal
