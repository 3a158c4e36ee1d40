import VideoTerminal.Proofs.Style.Rendition
import VideoTerminal.Proofs.Terminal.Typeset
import VideoTerminal.Rendering

/-!
# Styles as a renderer asks for them

A renderer asks for a style by several sequences, each a list of numbers (`Renderer.styleCodes`).
The first one leaves nothing of the style before, so that what is read back depends on the style
alone (`Renderer.reread`).  By the palette its colors may be others.  Its attributes are the same if
they are among the seven that are written (`Renderer.attributes_reread`), and so they are as long as
no program asks for hidden text (`Style.Writable.select`).
-/

namespace VideoTerminal

/-! ## Attributes that are written -/

namespace Style

/-- The style is neither hidden nor protected, and has no attributes but those that are written. -/
def Writable (s : Style) : Prop := s.hasAttribute 7 = false ∧ s.hasAttribute 8 = false

variable {s : Style}

/-- The empty style can be written. -/
theorem writable_empty : Writable .empty := ⟨rfl, rfl⟩

/-- Whether a style can be written depends on its attributes. -/
theorem Writable.of_attributes_eq (h : s.Writable) {t : Style}
    (heq : t.attributes = s.attributes) : t.Writable := by
  unfold Writable hasAttribute at *
  rwa [heq]

/-- A style that has colors only can be written. -/
theorem writable_colorsOnly (s : Style) : s.colorsOnly.Writable :=
  writable_empty.of_attributes_eq rfl

/-- To have an attribute is to have its bit. -/
theorem has_eq_hasAttribute {a : Attributes} {i : Nat} (ha : a.bits = BitVec.twoPow 9 i)
    (hi : i < 9) (s : Style) : s.has a = s.hasAttribute i := by
  have hzero : ∀ i < 9, (0#9 == BitVec.twoPow 9 i) = false := by decide
  unfold has Attributes.contains hasAttribute
  rw [ha, BitVec.and_twoPow]
  cases s.attributes.bits.getLsbD i with
  | true => exact beq_self_eq_true _
  | false => exact hzero i hi

/-- A style that can be written does not hide. -/
theorem Writable.hidden (h : s.Writable) : s.has .hidden = false :=
  (has_eq_hasAttribute (by decide) (by decide) s).trans h.1

/-- A style that can be written still can, unless it is made to hide or to protect. -/
theorem Writable.setAttributes (h : s.Writable) {a : Attributes} {on : Bool}
    (ha : on = true → a.bits.getLsbD 7 = false ∧ a.bits.getLsbD 8 = false) :
    (s.setAttributes a on).Writable := by
  unfold Writable
  rw [hasAttribute_setAttributes, hasAttribute_setAttributes]
  cases on with
  | false => exact ⟨by rw [h.1, ite_self], by rw [h.2, ite_self]⟩
  | true =>
      rw [(ha rfl).1, (ha rfl).2]
      exact h

/-- Only an 8 hides. -/
theorem Writable.applyCode (h : s.Writable) {code : Nat} (hcode : code ≠ 8) :
    (s.applyCode code).Writable := by
  unfold Style.applyCode
  repeat' split
  all_goals with_reducible first
    | exact absurd rfl hcode
    | exact writable_empty
    | exact h.setAttributes (by decide)
    | exact h
    | exact h.of_attributes_eq rfl

/-- Choosing a color leaves the attributes. -/
theorem attributes_withColor (code : Nat) (s : Style) (color : Option Color) :
    (withColor code s color).attributes = s.attributes := by
  rcases withColor_cases code color with h | h | h <;> rw [h]

/-- What is left behind a color are parameters that were there. -/
theorem extendedColor_subset (params : List Nat) : (extendedColor params).2 ⊆ params := by
  unfold extendedColor
  split
  · exact List.Subset.refl _
  · exact List.nil_subset _
  · exact fun n hn => List.mem_cons_of_mem _ (List.mem_cons_of_mem _ hn)
  · exact fun n hn => List.mem_cons_of_mem _ (List.mem_of_mem_drop hn)
  · exact List.subset_cons_self _ _

/-- Without the eighth parameter, no rendition makes a style hide. -/
theorem Writable.applyCodes (h : s.Writable) {params : List Nat} (hparams : 8 ∉ params) :
    (s.applyCodes params).Writable := by
  induction hlen : params.length using Nat.strongRecOn generalizing s params with
  | ind n ih =>
      cases params with
      | nil => rwa [applyCodes_nil]
      | cons code rest =>
          rw [List.length_cons] at hlen
          rw [List.mem_cons, not_or] at hparams
          by_cases hcolor : code = 38 ∨ code = 48
          · have hrest := length_extendedColor_le rest
            rw [applyCodes_color hcolor]
            exact ih _ (by omega) (h.of_attributes_eq (attributes_withColor _ _ _))
              (fun hmem => hparams.2 (extendedColor_subset rest hmem)) rfl
          · rw [not_or] at hcolor
            rw [applyCodes_code hcolor.1 hcolor.2]
            exact ih _ (by omega) (h.applyCode (Ne.symm hparams.1)) hparams.2 rfl

/-- Without the eighth parameter, a style that can be written still can. -/
theorem Writable.select (h : s.Writable) {params : List Nat} (hparams : 8 ∉ params) :
    (s.select params).Writable := by
  unfold Style.select
  split
  · exact writable_empty
  · exact h.applyCodes hparams

/-- The parameter zero chooses the empty style. -/
theorem select_zero (s : Style) : s.select [0] = .empty := select_concat_zero .nil s

end Style

/-- The numbers that count are among those that are written. -/
theorem Fields.mem_values_of_mem_params {f : Fields} {n : Nat} (h : n ∈ f.params)
    (hn : n < Parser.maxNumber) : n ∈ f.values := by
  have hmem : n ∈ f.values.map fun m => min m Parser.maxNumber := by
    by_cases hend : f.EndsOmitted
    · rw [← params_of_endsOmitted hend]
      exact List.mem_append_left _ h
    · rwa [← params_of_not_endsOmitted hend]
  obtain ⟨m, hm, heq⟩ := List.mem_map.mp hmem
  rwa [← (by omega : m = n)]

/-! ## Lists of numbers as pieces -/

namespace Piece

/-- A request for a rendition by some numbers. -/
def codes (ns : List Nat) : Piece := rendition (.ofList ns)

/-- A rendition is written with its numbers. -/
theorem text_codes (ns : List Nat) :
    (codes ns).text = '\x1b' :: '[' :: (Sequence.numbers ns ++ ['m']) := by
  rw [codes, text, Fields.sequence, Fields.text_ofList, List.nil_append]

end Piece

/-- Few numbers, none of them large. -/
def Small (ns : List Nat) : Prop := ns.length ≤ 5 ∧ ∀ n ∈ ns, n ≤ 255

namespace Sheet

variable (cols : Nat) (s : Sheet)

/-- A rendition changes the style of the sheet and nothing else. -/
theorem step?_codes {ns : List Nat} (h : Small ns) :
    s.step? cols (.codes ns) = some { s with style := s.style.select ns } := by
  have hparams : (Fields.ofList ns).params = ns :=
    Fields.params_ofList fun n hn => Nat.le_trans (h.2 n hn) (by decide)
  rw [Piece.codes, step?, hparams, List.take_of_length_le (Nat.le_trans h.1 (by decide))]

/-- Renditions change the style one after the other. -/
theorem typeset?_codes {codes : List (List Nat)} (h : ∀ ns ∈ codes, Small ns) :
    s.typeset? cols (codes.map Piece.codes) =
      some { s with style := codes.foldl Style.select s.style } := by
  induction codes generalizing s with
  | nil => rfl
  | cons ns codes ih =>
      rw [List.map_cons, typeset?_cons, step?_codes cols s (h ns List.mem_cons_self),
        Option.bind_some, ih _ fun ms hms => h ms (List.mem_cons_of_mem _ hms)]
      rfl

end Sheet

/-! ## Styles -/

/-- The numbers that ask for an ink, behind 38 or 48. -/
def Ink.codes (kind : Nat) : Ink → List Nat
  | .reset => [kind + 1]
  | .ansi i => [kind, 5, i.toNat]
  | .rgb c => [kind, 2, c.r.toNat, c.g.toNat, c.b.toNat]

namespace Renderer

variable (r : Renderer)

/-- The numbers that ask for the attributes of a style. -/
def attributeCodes (s : Style) : List (List Nat) :=
  (attributeParameters.filter fun p => s.has p.1).map fun p => [p.2]

/-- The numbers that ask for a color. -/
def colorCodes (kind : Nat) (c : Option Color) : List (List Nat) :=
  (c.map fun c => (Ink.of r.depth r.palette c).codes kind).toList

/-- The numbers that ask for a style. -/
def styleCodes (s : Style) : List (List Nat) :=
  if r.plain then []
  else [[0], [0]] ++ attributeCodes s ++ r.colorCodes 38 s.foreground ++
    r.colorCodes 48 s.background

/-- The style that is read back. -/
def reread (s : Style) : Style := (r.styleCodes s).foldl Style.select .empty

variable {r}

/-- Plain rendering leaves no style to be read back. -/
theorem reread_of_plain (h : r.plain = true) (s : Style) : r.reread s = .empty := by
  rw [reread, styleCodes, if_pos h]
  rfl

/-- Whatever the style was before. -/
theorem foldl_styleCodes (s : Style) {before : Style} (h : r.plain = true → before = .empty) :
    (r.styleCodes s).foldl Style.select before = r.reread s := by
  unfold reread styleCodes
  by_cases hplain : r.plain = true
  · rw [h hplain]
  · rw [if_neg hplain]
    simp only [List.append_assoc, List.cons_append, List.foldl_cons, Style.select_zero]

/-- The numbers of an ink can be read. -/
theorem small_codes (ink : Ink) {kind : Nat} (h : kind < 255) : Small (ink.codes kind) := by
  cases ink with
  | reset => exact ⟨by simp [Ink.codes], by simp [Ink.codes]; omega⟩
  | ansi i =>
      have hi := i.toNat_lt
      simp only [Small, Ink.codes, List.length_cons, List.length_nil, List.forall_mem_cons]
      refine ⟨by decide, by omega, by decide, by omega, by simp⟩
  | rgb c =>
      have hr := c.r.toNat_lt
      have hg := c.g.toNat_lt
      have hb := c.b.toNat_lt
      simp only [Small, Ink.codes, List.length_cons, List.length_nil, List.forall_mem_cons]
      refine ⟨by decide, by omega, by decide, by omega, by omega, by omega, by simp⟩

theorem small_colorCodes {kind : Nat} (h : kind < 255) (c : Option Color) :
    ∀ ns ∈ r.colorCodes kind c, Small ns := by
  intro ns hns
  obtain ⟨color, -, rfl⟩ := Option.map_eq_some_iff.mp (Option.mem_toList.mp hns)
  exact small_codes _ h

/-- The numbers of the attributes can be read. -/
theorem small_attributeCodes (s : Style) : ∀ ns ∈ attributeCodes s, Small ns := by
  intro ns hns
  obtain ⟨p, hp, rfl⟩ := List.mem_map.mp hns
  have hall : ∀ p ∈ attributeParameters, p.2 ≤ 255 := by decide
  exact ⟨by simp, by simpa using hall p (List.mem_of_mem_filter hp)⟩

theorem small_styleCodes (s : Style) : ∀ ns ∈ r.styleCodes s, Small ns := by
  unfold styleCodes
  split
  · simp
  · intro ns hns
    rcases List.mem_append.mp hns with hns | hback
    · rcases List.mem_append.mp hns with hns | hfore
      · rcases List.mem_append.mp hns with hreset | hattribute
        · obtain rfl : ns = [0] := by simpa using hreset
          simp [Small]
        · exact small_attributeCodes s ns hattribute
      · exact small_colorCodes (by decide) _ ns hfore
    · exact small_colorCodes (by decide) _ ns hback

/-! ### The attributes are read back -/

/-- The parameter of an attribute sets it. -/
theorem select_attribute {p : Attributes × Nat} (hp : p ∈ attributeParameters) (s : Style) :
    s.select [p.2] = s.setAttributes p.1 true := by
  have hcode : p.2 ≠ 38 ∧ p.2 ≠ 48 := by
    have hall : ∀ p ∈ attributeParameters, p.2 ≠ 38 ∧ p.2 ≠ 48 := by decide
    exact hall p hp
  rw [Style.select_of_ne_nil (List.cons_ne_nil _ _), Style.applyCodes_code hcode.1 hcode.2,
    Style.applyCodes_nil]
  simp only [attributeParameters, List.mem_cons, List.not_mem_nil, or_false] at hp
  rcases hp with rfl | rfl | rfl | rfl | rfl | rfl | rfl <;> rfl

/-- Some parameters one after the other set their attributes and no others. -/
theorem hasAttribute_foldl_attributes {params : List (Attributes × Nat)}
    (hparams : params ⊆ attributeParameters) (s : Style) (i : Nat) :
    ((params.map fun p => [p.2]).foldl Style.select s).hasAttribute i =
      (s.hasAttribute i || params.any fun p => p.1.bits.getLsbD i) := by
  induction params generalizing s with
  | nil => simp
  | cons p params ih =>
      obtain ⟨hp, hrest⟩ := List.cons_subset.mp hparams
      rw [List.map_cons, List.foldl_cons, ih hrest, select_attribute hp,
        Style.hasAttribute_setAttributes, List.any_cons]
      cases p.1.bits.getLsbD i <;> simp

/-- The attributes that are written are the first seven. -/
theorem bits_attributeParameters :
    (∀ p ∈ attributeParameters, ∃ j < 7, p.1.bits = BitVec.twoPow 9 j) ∧
      ∀ j < 7, ∃ p ∈ attributeParameters, p.1.bits = BitVec.twoPow 9 j := by decide

/-- What is written says which attributes the style has. -/
theorem any_attributes {s : Style} (h : s.Writable) (i : Nat) :
    ((attributeParameters.filter fun p => s.has p.1).any fun p => p.1.bits.getLsbD i) =
      s.hasAttribute i := by
  rw [List.any_filter, Bool.eq_iff_iff, List.any_eq_true]
  constructor
  · rintro ⟨p, hp, hboth⟩
    obtain ⟨j, hj, hbits⟩ := bits_attributeParameters.1 p hp
    obtain ⟨hhas, hbit⟩ := Bool.and_eq_true_iff.mp hboth
    rw [hbits, BitVec.getLsbD_twoPow, Bool.and_eq_true_iff] at hbit
    rw [← of_decide_eq_true hbit.2, ← Style.has_eq_hasAttribute hbits (by omega)]
    exact hhas
  · intro hi
    have hlt : i < 7 := by
      have hnine : i < 9 := by
        by_contra hge
        rw [Style.hasAttribute, BitVec.getLsbD_of_ge _ i (Nat.le_of_not_lt hge)] at hi
        cases hi
      have hseven : i ≠ 7 := by
        rintro rfl
        exact Bool.false_ne_true (h.1 ▸ hi)
      have height : i ≠ 8 := by
        rintro rfl
        exact Bool.false_ne_true (h.2 ▸ hi)
      omega
    obtain ⟨p, hp, hbits⟩ := bits_attributeParameters.2 i hlt
    refine ⟨p, hp, ?_⟩
    rw [Style.has_eq_hasAttribute hbits (by omega), hi, hbits, BitVec.getLsbD_twoPow]
    simp
    omega

/-- Reading an ink leaves the attributes. -/
theorem attributes_select_codes {kind : Nat} (hkind : kind = 38 ∨ kind = 48) (ink : Ink)
    (s : Style) : (s.select (ink.codes kind)).attributes = s.attributes := by
  cases ink with
  | reset =>
      rw [Ink.codes, Style.select_of_ne_nil (List.cons_ne_nil _ _)]
      rcases hkind with rfl | rfl <;>
        rw [Style.applyCodes_code (by decide) (by decide), Style.applyCodes_nil] <;> rfl
  | ansi i =>
      rw [Ink.codes, Style.select_of_ne_nil (List.cons_ne_nil _ _), Style.applyCodes_color hkind]
      exact (congrArg _ (Style.applyCodes_nil _)).trans (Style.attributes_withColor _ _ _)
  | rgb c =>
      rw [Ink.codes, Style.select_of_ne_nil (List.cons_ne_nil _ _), Style.applyCodes_color hkind]
      exact (congrArg _ (Style.applyCodes_nil _)).trans (Style.attributes_withColor _ _ _)

theorem attributes_foldl_colorCodes {kind : Nat} (hkind : kind = 38 ∨ kind = 48)
    (c : Option Color) (s : Style) :
    ((r.colorCodes kind c).foldl Style.select s).attributes = s.attributes := by
  cases c with
  | none => rfl
  | some c => exact attributes_select_codes hkind _ s

/-- **The attributes are read back.** -/
theorem attributes_reread (hplain : r.plain = false) {s : Style} (h : s.Writable) :
    (r.reread s).attributes = s.attributes := by
  -- The colors come last and leave the attributes; the resets come first and leave nothing.
  rw [reread, styleCodes, if_neg (by simp [hplain]), List.foldl_append, List.foldl_append,
    List.foldl_append, attributes_foldl_colorCodes (.inr rfl),
    attributes_foldl_colorCodes (.inl rfl), List.foldl_cons, List.foldl_cons,
    Style.select_zero, List.foldl_nil]
  have hbits : ∀ i, (((attributeCodes s).foldl Style.select .empty).hasAttribute i) =
      s.hasAttribute i := by
    intro i
    rw [attributeCodes, hasAttribute_foldl_attributes (List.filter_subset_self _),
      any_attributes h]
    simp [Style.hasAttribute, Style.empty, Attributes.none]
  exact congrArg Attributes.mk (BitVec.eq_of_getLsbD_eq fun i _ => hbits i)

end Renderer

end VideoTerminal
