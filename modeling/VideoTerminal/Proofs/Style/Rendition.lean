import VideoTerminal.Control.Interpreter

/-!
# Renditions one after the other

A request for a rendition is a list of numbers, in which a 38 or a 48 takes the next ones along.
Two requests in a row come to one request with both lists, unless the first list ends in the middle
of a color: then that color reaches into the second (`Complete`).

A request that is repeated changes nothing.  The key fact is `overwrites_applyCodes`: each part of a
style, a color or a single attribute, is either kept by the list or given a value that does not
depend on the style it had before.

`renditions_compose` puts both together.
-/

namespace VideoTerminal.Style

/-! ## What a list of numbers overwrites -/

/-- Whether `f` treats one part of all styles alike: it keeps the part, or gives it a fixed
value. -/
def Overwrites {α : Type} (part : Style → α) (f : Style → Style) : Prop :=
  (∀ s, part (f s) = part s) ∨ ∃ a, ∀ s, part (f s) = a

namespace Overwrites

variable {α : Type} {part : Style → α} {f g : Style → Style}

/-- What two functions treat alike, one after the other does. -/
theorem comp (hf : Overwrites part f) (hg : Overwrites part g) :
    Overwrites part fun s => g (f s) := by
  rcases hg with hkeeps | ⟨a, hfixes⟩
  · rcases hf with hkept | ⟨b, hfixed⟩
    · exact .inl fun s => (hkeeps (f s)).trans (hkept s)
    · exact .inr ⟨b, fun s => (hkeeps (f s)).trans (hfixed s)⟩
  · exact .inr ⟨a, fun s => hfixes (f s)⟩

/-- What is overwritten twice is overwritten once. -/
theorem twice (h : Overwrites part f) (s : Style) : part (f (f s)) = part (f s) := by
  rcases h with hkeeps | ⟨a, hfixes⟩
  · exact hkeeps (f s)
  · rw [hfixes, hfixes]

end Overwrites

/-- A single attribute, by its place in the set. -/
def hasAttribute (i : Nat) (s : Style) : Bool := s.attributes.bits.getLsbD i

/-- A style is made of two colors and single attributes. -/
theorem eq_of_parts {s t : Style} (hforeground : s.foreground = t.foreground)
    (hbackground : s.background = t.background)
    (hattribute : ∀ i, s.hasAttribute i = t.hasAttribute i) : s = t := by
  obtain ⟨foreground, background, ⟨bits⟩⟩ := s
  obtain ⟨foreground', background', ⟨bits'⟩⟩ := t
  obtain rfl : foreground = foreground' := hforeground
  obtain rfl : background = background' := hbackground
  obtain rfl : bits = bits' := BitVec.eq_of_getLsbD_eq fun i _ => hattribute i
  rfl

/-- Some attributes are set, and the others are kept. -/
theorem hasAttribute_setAttributes (s : Style) (a : Attributes) (on : Bool) (i : Nat) :
    (s.setAttributes a on).hasAttribute i = if a.bits.getLsbD i then on else s.hasAttribute i := by
  unfold setAttributes hasAttribute Attributes.set
  cases on
  · rw [if_neg Bool.false_ne_true]
    simp only [Attributes.diff, BitVec.getLsbD_and, BitVec.getLsbD_not]
    by_cases hi : i < 9
    · cases a.bits.getLsbD i <;> simp [hi]
    · simp [BitVec.getLsbD_of_ge _ i (Nat.le_of_not_lt hi)]
  · rw [if_pos rfl]
    simp only [Attributes.union, BitVec.getLsbD_or]
    cases a.bits.getLsbD i <;> simp

/-- Setting attributes treats each of them alike in all styles. -/
theorem overwrites_setAttributes (i : Nat) (a : Attributes) (on : Bool) :
    Overwrites (hasAttribute i) fun s => s.setAttributes a on := by
  cases ha : a.bits.getLsbD i with
  | true => exact .inr ⟨on, fun s => by rw [hasAttribute_setAttributes, ha, if_pos rfl]⟩
  | false =>
      exact .inl fun s => by rw [hasAttribute_setAttributes, ha, if_neg Bool.false_ne_true]

/-- The style after a 38 or 48 and the color behind it, if there is one. -/
def withColor (code : Nat) (s : Style) (color : Option Color) : Style :=
  if code = 38 then s.withForeground color else s.withBackground color

theorem applyCodes_nil (s : Style) : s.applyCodes [] = s := by rw [applyCodes]

section Codes

variable {code : Nat} {rest : List Nat}

/-- A number that stands alone. -/
theorem applyCodes_code (hforeground : code ≠ 38) (hbackground : code ≠ 48) (s : Style) :
    s.applyCodes (code :: rest) = (s.applyCode code).applyCodes rest := by
  rw [applyCodes, if_neg hforeground, if_neg hbackground]

/-- A number that takes a color along. -/
theorem applyCodes_color (hcode : code = 38 ∨ code = 48) (s : Style) :
    s.applyCodes (code :: rest) =
      (s.withColor code (extendedColor rest).1).applyCodes (extendedColor rest).2 := by
  rw [applyCodes]
  rcases hcode with rfl | rfl <;> rfl

end Codes

/-- What a number does that stands alone. -/
theorem applyCode_cases (code : Nat) :
    (∀ s : Style, s.applyCode code = .empty) ∨
      (∃ a on, ∀ s : Style, s.applyCode code = s.setAttributes a on) ∨
      (∃ color, ∀ s : Style, s.applyCode code = { s with foreground := color }) ∨
      (∃ color, ∀ s : Style, s.applyCode code = { s with background := color }) ∨
      ∀ s : Style, s.applyCode code = s := by
  unfold applyCode
  repeat' split
  all_goals first
    | exact .inl fun _ => rfl
    | exact .inr (.inl ⟨_, _, fun _ => rfl⟩)
    | exact .inr (.inr (.inl ⟨_, fun _ => rfl⟩))
    | exact .inr (.inr (.inr (.inl ⟨_, fun _ => rfl⟩)))
    | exact .inr (.inr (.inr (.inr fun _ => rfl)))

/-- What a color does behind a 38 or 48. -/
theorem withColor_cases (code : Nat) (color : Option Color) :
    (∀ s, withColor code s color = { s with foreground := color }) ∨
      (∀ s, withColor code s color = { s with background := color }) ∨
      ∀ s, withColor code s color = s := by
  unfold withColor withForeground withBackground
  repeat' split
  all_goals first
    | exact .inl fun _ => rfl
    | exact .inr (.inl fun _ => rfl)
    | exact .inr (.inr fun _ => rfl)

section Parts

variable {α : Type} {part : Style → α}
  (hattributes : ∀ a on, Overwrites part fun s => s.setAttributes a on)
  (hforeground : ∀ color, Overwrites part fun s => { s with foreground := color })
  (hbackground : ∀ color, Overwrites part fun s => { s with background := color })

include hforeground hbackground

include hattributes in
/-- A code treats this part of all styles alike. -/
theorem overwrites_applyCode (code : Nat) : Overwrites part fun s => s.applyCode code := by
  rcases applyCode_cases code with h | ⟨a, on, h⟩ | ⟨color, h⟩ | ⟨color, h⟩ | h <;> simp only [h]
  · exact .inr ⟨_, fun _ => rfl⟩
  · exact hattributes a on
  · exact hforeground color
  · exact hbackground color
  · exact .inl fun _ => rfl

/-- A color treats this part of all styles alike. -/
theorem overwrites_withColor (code : Nat) (color : Option Color) :
    Overwrites part fun s => withColor code s color := by
  rcases withColor_cases code color with h | h | h <;> simp only [h]
  · exact hforeground color
  · exact hbackground color
  · exact .inl fun _ => rfl

include hattributes in
/-- A part that each single change overwrites is overwritten by every list of numbers. -/
theorem overwrites_applyCodes (params : List Nat) :
    Overwrites part fun s => s.applyCodes params := by
  induction hlen : params.length using Nat.strongRecOn generalizing params with
  | ind n ih =>
      cases params with
      | nil => exact .inl fun s => congrArg part s.applyCodes_nil
      | cons code rest =>
          rw [List.length_cons] at hlen
          -- A color takes numbers along, so what is left is shorter by more than one.
          by_cases hbegins : code = 38 ∨ code = 48
          · have hshorter := length_extendedColor_le rest
            simp only [applyCodes_color hbegins]
            exact (overwrites_withColor hforeground hbackground code _).comp
              (ih _ (by omega) _ rfl)
          · rw [not_or] at hbegins
            simp only [applyCodes_code hbegins.1 hbegins.2]
            exact (overwrites_applyCode hattributes hforeground hbackground code).comp
              (ih _ (by omega) rest rfl)

end Parts

/-- Codes give the foreground a fixed color, or keep it. -/
theorem overwrites_foreground (params : List Nat) :
    Overwrites foreground fun s => s.applyCodes params :=
  overwrites_applyCodes (fun _ _ => .inl fun _ => rfl)
    (fun color => .inr ⟨color, fun _ => rfl⟩) (fun _ => .inl fun _ => rfl) params

theorem overwrites_background (params : List Nat) :
    Overwrites background fun s => s.applyCodes params :=
  overwrites_applyCodes (fun _ _ => .inl fun _ => rfl) (fun _ => .inl fun _ => rfl)
    (fun color => .inr ⟨color, fun _ => rfl⟩) params

/-- Codes set an attribute, reset it, or keep it. -/
theorem overwrites_hasAttribute (i : Nat) (params : List Nat) :
    Overwrites (hasAttribute i) fun s => s.applyCodes params :=
  overwrites_applyCodes (overwrites_setAttributes i) (fun _ => .inl fun _ => rfl)
    (fun _ => .inl fun _ => rfl) params

/-- **A list of numbers that is repeated changes nothing.** -/
theorem applyCodes_applyCodes (s : Style) (params : List Nat) :
    (s.applyCodes params).applyCodes params = s.applyCodes params :=
  eq_of_parts ((overwrites_foreground params).twice s) ((overwrites_background params).twice s)
    fun i => (overwrites_hasAttribute i params).twice s

/-! ## Where a list may be cut -/

/-- The numbers of a color, behind a 38 or 48. -/
inductive ColorGroup : List Nat → Prop
  | index (n : Nat) : ColorGroup [5, n]
  | value (r g b : Nat) : ColorGroup [2, r, g, b]
  /-- A number that begins no color is dropped. -/
  | unknown {kind : Nat} (hindex : kind ≠ 5) (hvalue : kind ≠ 2) : ColorGroup [kind]

/-- The numbers of a color that the end of the list cuts off. -/
inductive CutOff : List Nat → Prop
  | kind : CutOff []
  | index : CutOff [5]
  | value {channels : List Nat} (h : channels.length < 3) : CutOff (2 :: channels)

/-- Numbers that stand alone and whole colors: the list does not end in the middle of a color. -/
inductive Complete : List Nat → Prop
  | nil : Complete []
  | code {code : Nat} {rest : List Nat} (hforeground : code ≠ 38) (hbackground : code ≠ 48)
      (hrest : Complete rest) : Complete (code :: rest)
  | color {code : Nat} {group rest : List Nat} (hcode : code = 38 ∨ code = 48)
      (hgroup : ColorGroup group) (hrest : Complete rest) : Complete (code :: (group ++ rest))

/-- The group of a color is read without what stands behind it. -/
theorem extendedColor_append {group : List Nat} (h : ColorGroup group) (rest : List Nat) :
    extendedColor (group ++ rest) = ((extendedColor group).1, rest) := by
  cases h with
  | index n => rfl
  | value r g b => rfl
  | unknown hindex hvalue => simp [extendedColor, hindex]

/-- Behind a complete list the next one begins afresh. -/
theorem applyCodes_append {front : List Nat} (h : Complete front) (s : Style) (back : List Nat) :
    s.applyCodes (front ++ back) = (s.applyCodes front).applyCodes back := by
  induction h generalizing s with
  | nil => rw [List.nil_append, applyCodes_nil]
  | code hforeground hbackground _ ih =>
      rw [List.cons_append, applyCodes_code hforeground hbackground,
        applyCodes_code hforeground hbackground, ih]
  | color hcode hgroup _ ih =>
      rw [List.cons_append, List.append_assoc, applyCodes_color hcode, applyCodes_color hcode,
        extendedColor_append hgroup, extendedColor_append hgroup]
      exact ih _

/-- What follows a 38 or 48 begins with a color, or is cut off. -/
theorem exists_colorGroup_or_cutOff (params : List Nat) :
    (∃ group rest, params = group ++ rest ∧ ColorGroup group) ∨ CutOff params := by
  cases params with
  | nil => exact .inr .kind
  | cons kind rest =>
      by_cases hindex : kind = 5
      · subst hindex
        cases rest with
        | nil => exact .inr .index
        | cons n rest => exact .inl ⟨[5, n], rest, rfl, .index n⟩
      · by_cases hvalue : kind = 2
        · subst hvalue
          match rest with
          | r :: g :: b :: rest => exact .inl ⟨[2, r, g, b], rest, rfl, .value r g b⟩
          | [] | [_] | [_, _] => exact .inr (.value (by simp))
        · exact .inl ⟨[kind], rest, rfl, .unknown hindex hvalue⟩

/-- A list that ends in the middle of a color. -/
inductive EndsInColor : List Nat → Prop
  | cut {code : Nat} {group : List Nat} (hcode : code = 38 ∨ code = 48) (hcut : CutOff group) :
      EndsInColor (code :: group)
  | code {code : Nat} {rest : List Nat} (hforeground : code ≠ 38) (hbackground : code ≠ 48)
      (hrest : EndsInColor rest) : EndsInColor (code :: rest)
  | color {code : Nat} {group rest : List Nat} (hcode : code = 38 ∨ code = 48)
      (hgroup : ColorGroup group) (hrest : EndsInColor rest) : EndsInColor (code :: (group ++ rest))

/-- Any list is complete or ends in the middle of a color. -/
theorem complete_or_endsInColor (params : List Nat) : Complete params ∨ EndsInColor params := by
  induction hlen : params.length using Nat.strongRecOn generalizing params with
  | ind n ih =>
      cases params with
      | nil => exact .inl .nil
      | cons code rest =>
          rw [List.length_cons] at hlen
          by_cases hbegins : code = 38 ∨ code = 48
          · rcases exists_colorGroup_or_cutOff rest with ⟨group, rest, rfl, hgroup⟩ | hcut
            · rw [List.length_append] at hlen
              exact (ih _ (by omega) rest rfl).imp (.color hbegins hgroup) (.color hbegins hgroup)
            · exact .inr (.cut hbegins hcut)
          · rw [not_or] at hbegins
            exact (ih _ (by omega) rest rfl).imp (.code hbegins.1 hbegins.2)
              (.code hbegins.1 hbegins.2)

/-! ## Requests one after the other -/

/-- A style with a color is not empty. -/
theorem withColor_ne_empty (code : Nat) (s : Style) (color : Color) :
    withColor code s (some color) ≠ .empty := by
  intro h
  unfold withColor at h
  split at h
  · exact Option.some_ne_none color (congrArg foreground h)
  · exact Option.some_ne_none color (congrArg background h)

/-- A zero is a reset. -/
theorem applyCodes_zero (s : Style) : s.applyCodes [0] = .empty := by
  rw [applyCodes_code (by decide) (by decide), applyCodes_nil]
  rfl

/-- Some numbers finish a color that has been cut off, and leave the empty style where they stand
alone. -/
theorem CutOff.exists_finish {group : List Nat} (h : CutOff group) :
    ∃ back color, back ≠ [] ∧ extendedColor (group ++ back) = (some color, []) ∧
      ∀ s : Style, s.applyCodes back = .empty := by
  cases h with
  | kind =>
      refine ⟨[5, 0], _, List.cons_ne_nil 5 [0], rfl, fun s => ?_⟩
      rw [applyCodes_code (by decide) (by decide), applyCodes_zero]
  | index => exact ⟨[0], _, List.cons_ne_nil 0 [], rfl, applyCodes_zero⟩
  | @value channels hlen =>
      have hshort : (channels ++ [0]).length ≤ 3 := by
        rw [List.length_append]
        exact hlen
      exact ⟨[0], _, List.cons_ne_nil 0 [], Prod.ext rfl (List.drop_eq_nil_of_le hshort),
        applyCodes_zero⟩

/-- Behind a list that ends in the middle of a color, some numbers finish the color that alone are a
reset. -/
theorem EndsInColor.exists_finish {params : List Nat} (h : EndsInColor params) :
    ∃ back, back ≠ [] ∧ (∀ s : Style, s.applyCodes back = .empty) ∧
      ∀ s : Style, s.applyCodes (params ++ back) ≠ .empty := by
  induction h with
  | cut hcode hcut =>
      obtain ⟨back, color, hback, hfinish, hreset⟩ := hcut.exists_finish
      refine ⟨back, hback, hreset, fun s => ?_⟩
      rw [List.cons_append, applyCodes_color hcode, hfinish, applyCodes_nil]
      exact withColor_ne_empty _ s color
  | code hforeground hbackground _ ih =>
      obtain ⟨back, hback, hreset, hcolored⟩ := ih
      refine ⟨back, hback, hreset, fun s => ?_⟩
      rw [List.cons_append, applyCodes_code hforeground hbackground]
      exact hcolored _
  | color hcode hgroup _ ih =>
      obtain ⟨back, hback, hreset, hcolored⟩ := ih
      refine ⟨back, hback, hreset, fun s => ?_⟩
      rw [List.cons_append, List.append_assoc, applyCodes_color hcode, extendedColor_append hgroup]
      exact hcolored _

/-- Codes that are there are applied one after the other. -/
theorem select_of_ne_nil {params : List Nat} (h : params ≠ []) (s : Style) :
    s.select params = s.applyCodes params := by
  rw [select, List.isEmpty_eq_false_iff.mpr h, if_neg Bool.false_ne_true]

/-- Behind complete numbers a zero is a reset. -/
theorem select_concat_zero {params : List Nat} (h : Complete params) (s : Style) :
    s.select (params ++ [0]) = .empty := by
  rw [select_of_ne_nil (List.append_ne_nil_of_right_ne_nil params (List.cons_ne_nil 0 [])),
    applyCodes_append h, applyCodes_zero]

/-- **Selecting twice is selecting once.** -/
theorem select_select (s : Style) (params : List Nat) :
    (s.select params).select params = s.select params := by
  by_cases hparams : params = []
  · subst hparams
    rfl
  · rw [select_of_ne_nil hparams, select_of_ne_nil hparams, applyCodes_applyCodes]

/-- **Renditions one after the other.**  A request can be cut in two exactly where it does not end
in the middle of a color; a request that is repeated changes nothing; and nothing but the style
changes. -/
theorem renditions_compose :
    (∀ front, front ≠ [] → (Complete front ↔ ∀ (s : Style) (back : List Nat), back ≠ [] →
        s.select (front ++ back) = (s.select front).select back)) ∧
      (∀ (s : Style) (params : List Nat), (s.select params).select params = s.select params) ∧
      ∀ (t : Terminal) (params : List Nat), t.perform (.selectRendition params) =
        .ok ({ t with style := t.style.select params }, []) := by
  refine ⟨?_, select_select, fun _ _ => rfl⟩
  intro front hfront
  have hne : ∀ back, front ++ back ≠ [] := List.append_ne_nil_of_left_ne_nil hfront
  constructor
  · intro hcomplete s back hback
    rw [select_of_ne_nil (hne back), select_of_ne_nil hfront, select_of_ne_nil hback,
      applyCodes_append hcomplete]
  · intro hall
    refine (complete_or_endsInColor front).resolve_right ?_
    intro hends
    -- What finishes the color resets the style if it is a request of its own.
    obtain ⟨back, hback, hreset, hcolored⟩ := hends.exists_finish
    have hsame := hall .empty back hback
    rw [select_of_ne_nil (hne back), select_of_ne_nil hback, hreset] at hsame
    exact hcolored _ hsame

/-- A color and an attribute, then a color that is no color and a reset. -/
theorem renditions_compose_colors :
    [38, 2, 10, 20, 30, 1] ≠ [] ∧ [48, 9, 0, 4] ≠ [] ∧ Complete [38, 2, 10, 20, 30, 1] ∧
      ∀ s : Style, s.select ([38, 2, 10, 20, 30, 1] ++ [48, 9, 0, 4]) =
        (s.select [38, 2, 10, 20, 30, 1]).select [48, 9, 0, 4] := by
  have hcomplete : Complete [38, 2, 10, 20, 30, 1] :=
    .color (.inl rfl) (.value 10 20 30) (.code (by decide) (by decide) .nil)
  exact ⟨by decide, by decide, hcomplete, fun s =>
    (renditions_compose.1 _ (by decide)).mp hcomplete s _ (by decide)⟩

end VideoTerminal.Style
