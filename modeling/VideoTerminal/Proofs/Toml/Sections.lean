import VideoTerminal.Proofs.Toml.Number
import VideoTerminal.Proofs.Toml.Quoted
import VideoTerminal.Toml.Writer

/-!
# Settings are read as they were written

Each part of a document has a lemma that reads it off the front of the text: a value
(`value_toText`), the names of a key (`keyNames_append`), a line (`statement_pair`,
`statement_header`) and a section (`Settings.statements_append`).  A document is then read line by
line, and the lines are divided into the sections that were written (`sections?_settingsText`).

The names of keys and headers have to be plain, and integers have to have 64 bits (`Settings.Fits`).
Texts may be any.
-/

namespace VideoTerminal.Toml

/-! ## Values -/

/-- What ends a value is no mark. -/
theorem noMark_of_endsValue {c : Char} (hc : endsValue c = true) (rest : List Char) :
    NoMark (c :: rest) := by
  intro x hx
  obtain rfl : c = x := Option.some.inj hx
  rcases endsValue_iff.mp hc with rfl | rfl | rfl <;> rfl

/-- What begins with no bracket and no brace is a single value. -/
theorem value_eq_scalar {first : Char} (hbracket : first ≠ '[') (hbrace : first ≠ '\x7b')
    (levels : Nat) (more : List Char) : value levels (first :: more) = scalar (first :: more) := by
  unfold value
  split
  · next heq => exact absurd (List.cons.inj heq).1 hbracket
  · next heq => exact absurd (List.cons.inj heq).1 hbrace
  · rfl

/-- **A text is read back** from its quotes. -/
theorem value_quote (levels : Nat) (text : List Char) {c : Char} (hc : endsValue c = true)
    (rest : List Char) :
    value levels (quote text ++ c :: rest) = some (.string (String.ofList text), c :: rest) := by
  have hread := quotedText_quote text (noMark_of_endsValue hc rest)
  obtain ⟨mark, more, hcons, hmark⟩ := exists_quote_cons text
  have hismark : (mark == '"' || mark == '\'') = true := hmark
  rw [hcons, List.cons_append] at hread ⊢
  rw [value_eq_scalar (ne_of_test hmark rfl) (ne_of_test hmark rfl)]
  simp only [scalar, hismark, if_true, hread, Option.map_some]

/-- An integer begins like one. -/
theorem exists_toString_cons (n : Int) :
    ∃ first more, (toString n).toList = first :: more ∧ beginsInteger first = true := by
  rw [toList_toString]
  exact exists_signed_cons _ (isNumeral_toDigits _)

/-- **An integer is read back.** -/
theorem value_integer (levels : Nat) {n : Int} (hn : isInt64 n = true) {c : Char}
    (hc : endsValue c = true) (rest : List Char) :
    value levels ((toString n).toList ++ c :: rest) = some (.integer n, c :: rest) := by
  have hread := scalar_integer hn hc rest
  obtain ⟨first, more, hcons, hfirst⟩ := exists_toString_cons n
  rw [hcons, List.cons_append] at hread ⊢
  rw [value_eq_scalar (ne_of_test hfirst rfl) (ne_of_test hfirst rfl), hread]

/-! ### Arrays -/

theorem isSpace_eq_false {c : Char} (hblank : c ≠ ' ') (htab : c ≠ '\t') : isSpace c = false := by
  simp [isSpace, hblank, htab]

/-- In front of an integer there is nothing to skip. -/
theorem skipFiller?_integer (n : Int) (rest : List Char) :
    skipFiller? false ((toString n).toList ++ rest) = some ((toString n).toList ++ rest) := by
  obtain ⟨first, more, hcons, hfirst⟩ := exists_toString_cons n
  have hnewline : first ≠ '\n' := ne_of_test hfirst rfl
  have hreturn : first ≠ '\r' := ne_of_test hfirst rfl
  have hhash : first ≠ '#' := ne_of_test hfirst rfl
  have hspace := isSpace_eq_false (ne_of_test hfirst rfl) (ne_of_test hfirst rfl)
  rw [hcons, List.cons_append]
  simp [skipFiller?, hspace, hnewline, hreturn, hhash]

section

variable {element : Reader Value} {cs start left : List Char} {v : Value}

/-- One more element, and a comma behind it. -/
theorem elements_comma (hstart : skipFiller? false cs = some start)
    (hopen : ∀ rest, start ≠ ']' :: rest) (hv : element start = some (v, ',' :: left))
    (hlt : left.length < cs.length) :
    elements element cs = (elements element left).map fun (vs, rest) => (v :: vs, rest) := by
  have hcomma : skipFiller? false (',' :: left) = some (',' :: left) := rfl
  rw [elements, hstart]
  split
  · next heq => cases heq
  · next heq => exact absurd (Option.some.inj heq) (hopen _)
  · next heq =>
    cases heq
    simp only [hv, hcomma, if_pos hlt]

/-- The last element, with no comma behind it. -/
theorem elements_last (hstart : skipFiller? false cs = some start)
    (hopen : ∀ rest, start ≠ ']' :: rest) (hv : element start = some (v, ']' :: left)) :
    elements element cs = some ([v], left) := by
  have hbracket : skipFiller? false (']' :: left) = some (']' :: left) := rfl
  rw [elements, hstart]
  split
  · next heq => cases heq
  · next heq => exact absurd (Option.some.inj heq) (hopen _)
  · next heq =>
    cases heq
    simp only [hv, hbracket]

end

/-- An integer does not begin with a closing bracket. -/
theorem toString_ne_bracket (n : Int) (behind rest : List Char) :
    (toString n).toList ++ behind ≠ ']' :: rest := by
  obtain ⟨first, more, hcons, hfirst⟩ := exists_toString_cons n
  rw [hcons, List.cons_append]
  exact fun heq => ne_of_test hfirst rfl (List.cons.inj heq).1

/-- An integer on a line of an array. -/
def itemText (n : Int) : List Char :=
  ' ' :: ' ' :: ' ' :: ' ' :: ((toString n).toList ++ [',', '\n'])

/-- The lines of an array are read as its integers. -/
theorem elements_items (levels : Nat) {ns : List Int} (hns : ∀ n ∈ ns, isInt64 n = true)
    (rest : List Char) :
    elements (value levels) ('\n' :: (ns.flatMap itemText ++ ']' :: rest))
      = some (ns.map .integer, rest) := by
  induction ns with
  | nil => rw [elements]; rfl
  | cons n ns ih =>
    let behind := ',' :: '\n' :: (ns.flatMap itemText ++ ']' :: rest)
    let cs := '\n' :: ' ' :: ' ' :: ' ' :: ' ' :: ((toString n).toList ++ behind)
    have htext : '\n' :: ((n :: ns).flatMap itemText ++ ']' :: rest) = cs := by
      simp [itemText, cs, behind]
    have hskip : skipFiller? false cs = some ((toString n).toList ++ behind) :=
      skipFiller?_integer n behind
    have hread : value levels ((toString n).toList ++ behind) = some (.integer n, behind) :=
      value_integer levels (hns n (List.mem_cons_self ..)) rfl _
    have hlt : ('\n' :: (ns.flatMap itemText ++ ']' :: rest)).length < cs.length := by
      simp only [cs, behind, List.length_cons, List.length_append]
      omega
    rw [htext, elements_comma hskip (toString_ne_bracket n behind) hread hlt,
      ih fun k hk => hns k (List.mem_cons_of_mem n hk)]
    rfl

namespace Setting

/-- Every integer has 64 bits. -/
def Fits : Setting → Prop
  | .text _ => True
  | .number n => isInt64 n = true
  | .numbers ns => ∀ n ∈ ns, isInt64 n = true

/-- A list of one number is that number in brackets. -/
theorem toList_toText_singleton (n : Int) :
    (numbers [n]).toText.toList = '[' :: ((toString n).toList ++ [']']) := by
  simp only [toText, String.toList_append]
  rfl

/-- An array with more than one element stands on several lines. -/
theorem toList_toText_numbers (n m : Int) (ns : List Int) :
    (numbers (n :: m :: ns)).toText.toList
      = '[' :: '\n' :: ((n :: m :: ns).flatMap itemText ++ [']']) := by
  have hitem (k : Int) : ("    " ++ toString k ++ ",\n").toList = itemText k := by
    simp only [String.toList_append]
    rfl
  simp only [toText, String.toList_append, String.toList_join, List.flatMap_map, hitem]
  rfl

/-- **A value** is read as it was written. -/
theorem value_toText {v : Setting} (hv : v.Fits) (levels : Nat) (rest : List Char) :
    value (levels + 1) (v.toText.toList ++ '\n' :: rest) = some (v.toValue, '\n' :: rest) := by
  match v with
  | .text s =>
    have hread := value_quote (levels + 1) s.toList (c := '\n') rfl rest
    simpa [toText, toValue] using hread
  | .number n => exact value_integer (levels + 1) hv rfl rest
  | .numbers [] =>
    have hread : elements (value levels) (']' :: '\n' :: rest) = some ([], '\n' :: rest) := by
      rw [elements]
      rfl
    simp [toText, toValue, value, hread]
  | .numbers [n] =>
    have hn : isInt64 n = true := hv n (List.mem_cons_self ..)
    have hread := elements_last (skipFiller?_integer n (']' :: '\n' :: rest))
      (toString_ne_bracket n _) (value_integer levels hn (c := ']') rfl ('\n' :: rest))
    rw [toList_toText_singleton, List.cons_append, List.append_assoc]
    simp only [value, List.singleton_append, hread, Option.map_some]
    rfl
  | .numbers (n :: m :: ns) =>
    have hread := elements_items levels hv ('\n' :: rest)
    rw [toList_toText_numbers, List.cons_append, List.cons_append, List.append_assoc]
    simp only [value, List.singleton_append, hread, Option.map_some]
    rfl

end Setting

/-! ## Keys -/

/-- A name that stands in a key without quotes. -/
def isBareName (name : String) : Bool := !name.toList.isEmpty && name.toList.all isBareKeyChar

/-- A bare name begins with a character of one. -/
theorem exists_bareName_cons {name : String} (h : isBareName name = true) :
    ∃ first more, name.toList = first :: more ∧ isBareKeyChar first = true := by
  simp only [isBareName, Bool.and_eq_true, Bool.not_eq_true', List.isEmpty_eq_false_iff,
    List.all_eq_true] at h
  obtain ⟨first, more, hcons⟩ := List.exists_cons_of_ne_nil h.1
  exact ⟨first, more, hcons, h.2 first (hcons ▸ List.mem_cons_self ..)⟩

/-- Where no space comes there is none to skip. -/
theorem skipSpaces_cons {c : Char} (hc : isSpace c = false) (cs : List Char) :
    skipSpaces (c :: cs) = c :: cs := by
  simp [skipSpaces, hc]

/-- A bare name has no spaces. -/
theorem isSpace_of_isBareKeyChar {c : Char} (hc : isBareKeyChar c = true) : isSpace c = false :=
  isSpace_eq_false (ne_of_test hc rfl) (ne_of_test hc rfl)

/-- A bare name is read up to its end. -/
theorem keyName_append {name : String} (h : isBareName name = true) {c : Char}
    (hc : isBareKeyChar c = false) (rest : List Char) :
    keyName (name.toList ++ c :: rest) = some (name, c :: rest) := by
  obtain ⟨first, more, hcons, hfirst⟩ := exists_bareName_cons h
  have hall : ∀ x ∈ name.toList, isBareKeyChar x = true := by
    simp only [isBareName, Bool.and_eq_true, List.all_eq_true] at h
    exact h.2
  have htake : (name.toList ++ c :: rest).takeWhile isBareKeyChar = name.toList := by
    rw [List.takeWhile_append_of_pos hall, List.takeWhile_cons_of_neg (by simp [hc]),
      List.append_nil]
  have hdrop : (name.toList ++ c :: rest).drop name.toList.length = c :: rest := List.drop_left
  have hbasic : first ≠ '"' := ne_of_test hfirst rfl
  have hliteral : first ≠ '\'' := ne_of_test hfirst rfl
  rw [hcons] at htake hdrop ⊢
  rw [List.cons_append] at htake hdrop ⊢
  simp only [keyName, beq_iff_eq, hbasic, hliteral, Bool.or_eq_true, or_self, if_false, htake,
    List.isEmpty_cons, Bool.false_eq_true, hdrop]
  rw [← hcons, String.ofList_toList]

/-- The names of a key, with dots between them. -/
def dotted (names : List String) : List Char :=
  List.intercalate ['.'] (names.map String.toList)

theorem dotted_singleton (name : String) : dotted [name] = name.toList :=
  List.intercalate_singleton ..

/-- Names are written with dots between them. -/
theorem dotted_cons (name next : String) (names : List String) :
    dotted (name :: next :: names) = name.toList ++ '.' :: dotted (next :: names) := by
  simp only [dotted, List.map_cons]
  rw [List.intercalate_cons_of_ne_nil (by simp)]
  simp

/-- A dotted name begins with a character of a bare one. -/
theorem exists_dotted_cons {names : List String} (h : ∀ name ∈ names, isBareName name = true)
    (hne : names ≠ []) :
    ∃ first more, dotted names = first :: more ∧ isBareKeyChar first = true := by
  match names, hne with
  | [name], _ =>
    obtain ⟨first, more, hcons, hfirst⟩ := exists_bareName_cons (h name (List.mem_cons_self ..))
    exact ⟨first, more, by rw [dotted_singleton, hcons], hfirst⟩
  | name :: next :: names, _ =>
    obtain ⟨first, more, hcons, hfirst⟩ := exists_bareName_cons (h name (List.mem_cons_self ..))
    exact ⟨first, _, by rw [dotted_cons, hcons, List.cons_append], hfirst⟩

/-- **The names of a key** are read up to a character that is not part of one. -/
theorem keyNames_append {names : List String} (h : ∀ name ∈ names, isBareName name = true)
    (hne : names ≠ []) {n : Nat} (hn : names.length ≤ n) {c : Char}
    (hc : isBareKeyChar c = false) {rest stop : List Char} (hstop : skipSpaces (c :: rest) = stop)
    (hdot : ∀ more, stop ≠ '.' :: more) :
    keyNames n (dotted names ++ c :: rest) = some (names, stop) := by
  induction names generalizing n with
  | nil => exact absurd rfl hne
  | cons name names ih =>
    obtain ⟨n, rfl⟩ : ∃ k, n = k + 1 := ⟨n - 1, by simp only [List.length_cons] at hn; omega⟩
    have hname := h name (List.mem_cons_self ..)
    have hnames : ∀ name ∈ names, isBareName name = true :=
      fun x hx => h x (List.mem_cons_of_mem name hx)
    obtain ⟨first, more, hcons, hfirst⟩ := exists_bareName_cons hname
    have hskip (behind : List Char) :
        skipSpaces (name.toList ++ behind) = name.toList ++ behind := by
      rw [hcons, List.cons_append, skipSpaces_cons (isSpace_of_isBareKeyChar hfirst)]
    match names with
    | [] =>
      rw [dotted_singleton, keyNames, hskip, keyName_append hname hc]
      simp only [Option.bind_eq_bind, Option.bind_some, hstop]
    | next :: names =>
      have hread := ih hnames (by simp) (n := n)
        (by simp only [List.length_cons] at hn ⊢; omega)
      have hspaces (behind : List Char) : skipSpaces ('.' :: behind) = '.' :: behind := rfl
      rw [dotted_cons, List.append_assoc, keyNames, hskip, List.cons_append,
        keyName_append hname (c := '.') rfl]
      simp only [Option.bind_eq_bind, Option.bind_some, hspaces, hread]

/-- A dotted name is read up to its end. -/
theorem key_append {names : List String} (h : ∀ name ∈ names, isBareName name = true)
    (hn : names.length ≤ maxKeyNames) {path : Path} (hpath : Path.ofNames? names = some path)
    {c : Char} (hc : isBareKeyChar c = false) {rest stop : List Char}
    (hstop : skipSpaces (c :: rest) = stop) (hdot : ∀ more, stop ≠ '.' :: more) :
    key (dotted names ++ c :: rest) = some (path, stop) := by
  have hne : names ≠ [] := by rintro rfl; cases hpath
  simp [key, keyNames_append h hne hn hc hstop hdot, hpath]

/-! ## Lines -/

/-- A line break ends the line. -/
theorem endLine?_newline (rest : List Char) : endLine? ('\n' :: rest) = some rest := rfl

/-- An empty line is a blank statement. -/
theorem statement_blank (rest : List Char) : statement ('\n' :: rest) = some (.blank, rest) := rfl

/-- **A header** is read as it was written. -/
theorem statement_header {names : List String} (h : ∀ name ∈ names, isBareName name = true)
    (hn : names.length ≤ maxKeyNames) {path : Path} (hpath : Path.ofNames? names = some path)
    (rest : List Char) :
    statement ('[' :: (dotted names ++ ']' :: '\n' :: rest))
      = some (.header (.table path), rest) := by
  have hne : names ≠ [] := by rintro rfl; cases hpath
  have hread : key (dotted names ++ ']' :: '\n' :: rest) = some (path, ']' :: '\n' :: rest) :=
    key_append h hn hpath rfl rfl (by simp)
  obtain ⟨first, more, hcons, hfirst⟩ := exists_dotted_cons h hne
  have hbracket : first ≠ '[' := ne_of_test hfirst rfl
  have hskip (behind : List Char) : skipSpaces ('[' :: behind) = '[' :: behind := rfl
  unfold statement
  rw [hskip]
  rw [hcons, List.cons_append] at hread ⊢
  split
  · next heq =>
    cases heq
    exact absurd rfl hbracket
  · next heq =>
    cases heq
    simp only [hread, endLine?_newline, Option.map_some]
  · next hsingle => exact absurd rfl (hsingle _)

/-- A value does not begin with a space. -/
theorem Setting.exists_toText_cons (v : Setting) :
    ∃ first more, v.toText.toList = first :: more ∧ isSpace first = false := by
  match v with
  | .text s =>
    obtain ⟨mark, more, hcons, hmark⟩ := exists_quote_cons s.toList
    exact ⟨mark, more, by rw [toText, String.toList_ofList, hcons],
      isSpace_eq_false (ne_of_test hmark rfl) (ne_of_test hmark rfl)⟩
  | .number n =>
    obtain ⟨first, more, hcons, hfirst⟩ := exists_toString_cons n
    exact ⟨first, more, hcons,
      isSpace_eq_false (ne_of_test hfirst rfl) (ne_of_test hfirst rfl)⟩
  | .numbers [] => exact ⟨'[', [']'], rfl, rfl⟩
  | .numbers [n] => exact ⟨'[', _, toList_toText_singleton n, rfl⟩
  | .numbers (n :: m :: ns) => exact ⟨'[', _, toList_toText_numbers n m ns, rfl⟩

/-- A value begins right behind the blank after the equals sign. -/
theorem Setting.skipSpaces_toText (v : Setting) (rest : List Char) :
    skipSpaces (' ' :: (v.toText.toList ++ rest)) = v.toText.toList ++ rest := by
  obtain ⟨first, more, hcons, hfirst⟩ := v.exists_toText_cons
  have hblank (cs : List Char) : skipSpaces (' ' :: cs) = skipSpaces cs := by
    simp [skipSpaces, isSpace]
  rw [hblank, hcons, List.cons_append, skipSpaces_cons hfirst]

/-- A line that begins with a name is not empty. -/
theorem endLine?_eq_none {first : Char} (hfirst : isBareKeyChar first = true)
    (more : List Char) : endLine? (first :: more) = none := by
  unfold endLine?
  rw [skipSpaces_cons (isSpace_of_isBareKeyChar hfirst)]
  split
  · next heq => exact absurd (List.cons.inj heq).1 (ne_of_test hfirst rfl)
  · exact Quotes.newline?_cons_of_ne (ne_of_test hfirst rfl) (ne_of_test hfirst rfl) more

/-- **A key and its value** are read as they were written. -/
theorem statement_pair {name : String} (h : isBareName name = true) {v : Setting} (hv : v.Fits)
    (rest : List Char) :
    statement (name.toList ++ ' ' :: '=' :: ' ' :: (v.toText.toList ++ '\n' :: rest))
      = some (.pair ⟨[], name⟩ v.toValue, rest) := by
  have hkey : key (name.toList ++ ' ' :: '=' :: ' ' :: (v.toText.toList ++ '\n' :: rest))
      = some (⟨[], name⟩, '=' :: ' ' :: (v.toText.toList ++ '\n' :: rest)) := by
    rw [← dotted_singleton]
    have hnames : ∀ other ∈ [name], isBareName other = true := by simpa using h
    exact key_append hnames (Nat.le_add_left 1 78) rfl rfl rfl (by simp)
  have hvalue := v.value_toText hv 78 rest
  obtain ⟨first, more, hcons, hfirst⟩ := exists_bareName_cons h
  have hskip (behind : List Char) : skipSpaces (first :: behind) = first :: behind :=
    skipSpaces_cons (isSpace_of_isBareKeyChar hfirst) behind
  have hbracket : first ≠ '[' := ne_of_test hfirst rfl
  rw [hcons, List.cons_append] at hkey ⊢
  unfold statement
  rw [hskip]
  split
  · next heq => exact absurd (List.cons.inj heq).1 hbracket
  · next heq => exact absurd (List.cons.inj heq).1 hbracket
  · rw [endLine?_eq_none hfirst]
    simp only [pair, hkey, Setting.skipSpaces_toText, maxLevels, hvalue]
    rfl

/-! ## Sections -/

namespace Settings

/-- Names are plain and not too many, and integers have 64 bits. -/
structure Fits (s : Settings) : Prop where
  names : ∀ name ∈ s.names, isBareName name = true
  length_names : s.names.length ≤ maxKeyNames
  pairs : ∀ pair ∈ s.pairs, isBareName pair.1 = true ∧ pair.2.Fits

/-- The lines of a section below its header. -/
def pairLines (pairs : List (String × Setting)) : List Statement :=
  pairs.map fun (name, v) => .pair ⟨[], name⟩ v.toValue

/-- The lines of a section. -/
def lines (s : Settings) : List Statement :=
  ((Path.ofNames? s.names).elim [] fun path => [.blank, .header (.table path)])
    ++ pairLines s.pairs

/-- Statements are read one after the other. -/
theorem statements_of_statement {cs rest : List Char} {l : Statement}
    (h : statement cs = some (l, rest)) (hlt : rest.length < cs.length) :
    Toml.statements cs = (Toml.statements rest).map (l :: ·) := by
  have hne : cs.isEmpty = false := by
    cases cs with
    | nil => cases hlt
    | cons => rfl
  rw [Toml.statements]
  simp only [hne, h, hlt, if_true, Bool.false_eq_true, if_false]

/-- The lines of a section are read off the front of a text. -/
theorem statements_pairs {pairs : List (String × Setting)}
    (h : ∀ pair ∈ pairs, isBareName pair.1 = true ∧ pair.2.Fits) (rest : List Char) :
    Toml.statements ((pairsText ⟨[], pairs⟩).toList ++ rest)
      = (Toml.statements rest).map (pairLines pairs ++ ·) := by
  induction pairs with
  | nil => simp [pairsText, pairLines]
  | cons pair pairs ih =>
    obtain ⟨name, v⟩ := pair
    obtain ⟨hname, hv⟩ := h (name, v) (List.mem_cons_self ..)
    have htext : (pairsText ⟨[], (name, v) :: pairs⟩).toList ++ rest
        = name.toList ++ ' ' :: '=' :: ' ' :: (v.toText.toList ++ '\n' ::
          ((pairsText ⟨[], pairs⟩).toList ++ rest)) := by
      simp [pairsText, String.toList_append]
    rw [htext, statements_of_statement (statement_pair hname hv _)
      (by simp only [List.length_append, List.length_cons]; omega),
      ih fun other hother => h other (List.mem_cons_of_mem _ hother), Option.map_map]
    rfl

/-- One name or more are a path. -/
theorem exists_path {names : List String} (h : names ≠ []) :
    ∃ path, Path.ofNames? names = some path := by
  simp [Path.ofNames?, List.getLast?_eq_some_getLast h]

/-- **A section** is read off the front of a text, line by line. -/
theorem statements_append {s : Settings} (h : s.Fits) (rest : List Char) :
    Toml.statements (s.toText.toList ++ rest) = (Toml.statements rest).map (s.lines ++ ·) := by
  have hpairs := statements_pairs h.pairs rest
  by_cases hnames : s.names = []
  · have htext : s.toText = pairsText ⟨[], s.pairs⟩ := by simp [toText, hnames, pairsText]
    have hlines : s.lines = pairLines s.pairs := by simp [lines, hnames, Path.ofNames?]
    rw [htext, hlines, hpairs]
  · obtain ⟨path, hpath⟩ := exists_path hnames
    have htext : s.toText.toList ++ rest
        = '\n' :: '[' :: (dotted s.names ++ ']' :: '\n' ::
          ((pairsText ⟨[], s.pairs⟩).toList ++ rest)) := by
      simp [toText, hnames, pairsText, dotted, String.toList_intercalate]
    have hlines : s.lines = .blank :: .header (.table path) :: pairLines s.pairs := by
      simp [lines, hpath]
    rw [htext, statements_of_statement (statement_blank _) (Nat.lt_succ_self _),
      statements_of_statement (statement_header h.names h.length_names hpath _)
        (by simp only [List.length_append, List.length_cons]; omega),
      hpairs, hlines, Option.map_map, Option.map_map]
    rfl

/-- A document is read line by line. -/
theorem statements_settingsText {sections : List Settings} (h : ∀ s ∈ sections, s.Fits) :
    Toml.statements (settingsText sections).toList = some (sections.flatMap lines) := by
  induction sections with
  | nil => rw [Toml.statements]; rfl
  | cons s sections ih =>
    have htext : (settingsText (s :: sections)).toList
        = s.toText.toList ++ (settingsText sections).toList := by
      simp [settingsText]
    rw [htext, statements_append (h s (List.mem_cons_self ..)),
      ih fun other hother => h other (List.mem_cons_of_mem s hother)]
    rfl

/-! ### Dividing lines into sections -/

/-- Pairs in front of the first heading are at the top. -/
theorem divide_pairLines (pairs : List (String × Setting)) (ls : List Statement) :
    divide (pairLines pairs ++ ls)
      = (pairs.map (fun (name, v) => (⟨[], name⟩, v.toValue)) ++ (divide ls).1, (divide ls).2) := by
  induction pairs with
  | nil => rfl
  | cons pair pairs ih =>
    rw [pairLines, List.map_cons, List.cons_append, divide]
    rw [pairLines] at ih
    rw [ih]
    rfl

/-- Pairs behind a heading belong to it. -/
theorem divide_lines {sections : List Settings} (h : ∀ s ∈ sections, s.names ≠ []) :
    divide (sections.flatMap lines) = ([], sections.map toSection) := by
  induction sections with
  | nil => rfl
  | cons s sections ih =>
    obtain ⟨path, hpath⟩ := exists_path (h s (List.mem_cons_self ..))
    have hlines : s.lines = .blank :: .header (.table path) :: pairLines s.pairs := by
      simp [lines, hpath]
    rw [List.flatMap_cons, hlines, List.cons_append, List.cons_append, divide, divide,
      divide_pairLines, ih fun other hother => h other (List.mem_cons_of_mem s hother)]
    simp [toSection, hpath]

end Settings

/-- A document does not begin with a byte order mark. -/
theorem head?_settingsText {sections : List Settings} (h : ∀ s ∈ sections, s.Fits) :
    (settingsText sections).toList.head? ≠ some '\uFEFF' := by
  induction sections with
  | nil => simp [settingsText]
  | cons s sections ih =>
    have ih := ih fun other hother => h other (List.mem_cons_of_mem s hother)
    obtain ⟨names, pairs⟩ := s
    match names, pairs with
    | [], [] => simpa [settingsText, Settings.toText, Settings.pairsText] using ih
    | [], (name, v) :: pairs =>
      obtain ⟨hname, -⟩ := (h _ (List.mem_cons_self ..)).pairs (name, v) (List.mem_cons_self ..)
      obtain ⟨first, more, hcons, hfirst⟩ := exists_bareName_cons hname
      have hne : first ≠ '\uFEFF' := ne_of_test hfirst rfl
      simp [settingsText, Settings.toText, Settings.pairsText, hcons, hne]
    | _ :: _, _ => simp [settingsText, Settings.toText]

/-- Statements are divided at the headings. -/
theorem sections?_of_statements {cs : List Char} (hmark : cs.head? ≠ some '\uFEFF')
    {ls : List Statement} (hread : statements cs = some ls) :
    sections? cs = some (⟨.top, (divide ls).1⟩ :: (divide ls).2) := by
  cases cs with
  | nil => simp [sections?, hread]
  | cons c cs =>
    have hne : c ≠ '\uFEFF' := fun hc => hmark (congrArg some hc)
    simp [sections?, hne, hread]

/-- **A document is read as the sections that were written.** -/
theorem sections?_settingsText {first : Settings} {others : List Settings}
    (hfirst : first.names = []) (hothers : ∀ s ∈ others, s.names ≠ [])
    (h : ∀ s ∈ first :: others, s.Fits) :
    sections? (settingsText (first :: others)).toList
      = some ((first :: others).map Settings.toSection) := by
  have hlines : first.lines = Settings.pairLines first.pairs := by
    simp [Settings.lines, hfirst, Path.ofNames?]
  rw [sections?_of_statements (head?_settingsText h) (Settings.statements_settingsText h),
    List.flatMap_cons, hlines, Settings.divide_pairLines, Settings.divide_lines hothers]
  simp [Settings.toSection, hfirst, Path.ofNames?]

end VideoTerminal.Toml
