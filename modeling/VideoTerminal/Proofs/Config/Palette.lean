import VideoTerminal.Config

/-!
# The palette that is configured

A configuration names a scheme and may override the color of each role, by a value or by an index of
the scheme.  `Config.palette_outcome` says when there is such a palette and what it is, and which
complaint there is otherwise.

The overrides are put in one after the other, each under the palette that the ones before it have
left.  They do not meet: an override by index asks for one of the indexed colors, which no override
changes (`ColorSetting.value?_setRole`), and every role is overridden once.
-/

namespace VideoTerminal

/-! ## Schemes -/

namespace Scheme

/-- No spelling stands for two schemes. -/
theorem eq_of_mem_spellings {s t : Scheme} {name : String} (hs : name ∈ s.spellings)
    (ht : name ∈ t.spellings) : s = t := by
  have hdisjoint : ∀ s ∈ all, ∀ t ∈ all, ∀ name ∈ s.spellings, name ∈ t.spellings → s = t := by
    decide
  have hall (u : Scheme) : u ∈ all := by cases u <;> decide
  exact hdisjoint s (hall s) t (hall t) name hs ht

/-- A name in lower case. -/
def folded (name : String) : String := String.ofList (name.toList.map foldCase)

/-- A name is that of a scheme if in lower case it is one of its spellings. -/
theorem ofName?_eq_some_iff {name : String} {s : Scheme} :
    ofName? name = some s ↔ folded name ∈ s.spellings := by
  unfold ofName?
  constructor
  · intro h
    simpa [folded] using List.find?_some h
  · intro h
    cases hfind : all.find? fun t => t.spellings.contains (folded name) with
    | none =>
      have hnot := List.find?_eq_none.mp hfind s (by cases s <;> decide)
      simp [h] at hnot
    | some t =>
      have ht : folded name ∈ t.spellings := by simpa using List.find?_some hfind
      rw [eq_of_mem_spellings h ht]
      exact hfind

end Scheme

/-! ## One override -/

namespace ColorSetting

/-- Exactly one part is present, and an index is one of the 256. -/
def IsProper (c : ColorSetting) : Prop :=
  c.index.isSome ≠ c.rgb.isSome ∧ ∀ i ∈ c.index, 0 ≤ i ∧ i ≤ 255

instance (c : ColorSetting) : Decidable c.IsProper := by
  unfold IsProper
  infer_instance

/-- What is wrong with a setting that is not proper. -/
def fault (c : ColorSetting) : ColorSettingFault :=
  if c.index.isSome = c.rgb.isSome then .notOne else .outside (c.index.getD 0)

/-- The value that a setting gives, or that a palette has at its index. -/
def value? (c : ColorSetting) (palette : Palette) : Option Rgb :=
  c.rgb <|> c.index.bind palette.indexed?

/-- What a setting asks for is no role, so that giving a role another color does not change it. -/
theorem value?_setRole (c : ColorSetting) (palette : Palette) (role : ColorRole) (rgb : Rgb) :
    c.value? (palette.setRole role rgb) = c.value? palette := by
  unfold value?
  cases c.index with
  | none => rfl
  | some i => simp

/-- A setting that is not proper names no color, and says what is wrong. -/
theorem color_of_not_isProper {c : ColorSetting} (h : ¬ c.IsProper) : c.color = .error c.fault := by
  obtain ⟨index, rgb⟩ := c
  cases index <;> cases rgb <;> simp_all [IsProper, color, fault]

/-- A setting that passes its checks is proper. -/
theorem isProper_of_color {c : ColorSetting} {color : Color} (h : c.color = .ok color) :
    c.IsProper := by
  apply Decidable.byContradiction
  intro hnot
  rw [color_of_not_isProper hnot] at h
  cases h

/-- **A proper setting** has a color: the one of its parts, with a value under every palette. -/
theorem exists_color_of_isProper {c : ColorSetting} (h : c.IsProper) :
    ∃ color, c.color = .ok color ∧
      (∀ serial, (⟨c.index, c.rgb, none⟩ : ColorParts).color? serial = some color) ∧
      ∀ palette : Palette, ∃ value, palette.rgbOf? color = some value ∧
        c.value? palette = some value := by
  obtain ⟨index, rgb⟩ := c
  cases index with
  | none =>
    cases rgb with
    | none => simp [IsProper] at h
    | some value =>
      exact ⟨.explicit value, rfl, fun _ => rfl, fun _ => ⟨value, rfl, rfl⟩⟩
  | some i =>
    cases rgb with
    | none =>
      have hi : 0 ≤ i ∧ i ≤ 255 := by simpa [IsProper] using h
      refine ⟨.indexed i, by simp [color, hi], fun _ => rfl, fun palette => ?_⟩
      obtain ⟨value, hvalue⟩ :=
        Option.isSome_iff_exists.mp ((palette.indexed?_isSome_iff i).mpr hi)
      exact ⟨value, hvalue, by simpa [value?] using hvalue⟩
    | some value => simp [IsProper] at h

/-- A setting that is not proper has no color in any palette. -/
theorem resolve_of_not_isProper {c : ColorSetting} (h : ¬ c.IsProper) (palette : Palette) :
    c.resolve palette = .error c.fault := by
  unfold resolve
  rw [color_of_not_isProper h]
  rfl

/-- A proper setting has a color in any palette, and it is the one that the setting means. -/
theorem exists_resolve_of_isProper {c : ColorSetting} (h : c.IsProper) (palette : Palette) :
    ∃ value, c.resolve palette = .ok value ∧ c.value? palette = some value := by
  obtain ⟨color, hcolor, -, hvalues⟩ := exists_color_of_isProper h
  obtain ⟨value, hrgb, hvalue⟩ := hvalues palette
  refine ⟨value, ?_, hvalue⟩
  simp only [resolve, hcolor, bind, Except.bind, hrgb]

/-- A color that is named is always found. -/
theorem fault_ne_unresolved (c : ColorSetting) : c.fault ≠ .unresolved := by
  unfold fault
  split <;> simp

end ColorSetting

/-! ## All overrides -/

/-- The roles in the order of their fields. -/
def ColorRole.all : List ColorRole :=
  [.foreground, .background, .cursor, .selectionForeground, .selectionBackground]

/-- The field that overrides a role. -/
def ColorRole.field : ColorRole → String
  | .foreground => "foreground"
  | .background => "background"
  | .cursor => "cursor"
  | .selectionForeground => "selection_foreground"
  | .selectionBackground => "selection_background"

namespace ColorOverrides

/-- The override of a role. -/
def setting? (o : ColorOverrides) : ColorRole → Option ColorSetting
  | .foreground => o.foreground
  | .background => o.background
  | .cursor => o.cursor
  | .selectionForeground => o.selectionForeground
  | .selectionBackground => o.selectionBackground

/-- A role is the first whose override is not proper. -/
def FirstImproper (o : ColorOverrides) (role : ColorRole) (c : ColorSetting) : Prop :=
  o.setting? role = some c ∧ ¬ c.IsProper ∧
    ∃ before after, ColorRole.all = before ++ role :: after ∧
      ∀ earlier ∈ before, ∀ d ∈ o.setting? earlier, d.IsProper

/-- There is one first role at most. -/
theorem FirstImproper.unique {o : ColorOverrides} {role role' : ColorRole} {c c' : ColorSetting}
    (h : o.FirstImproper role c) (h' : o.FirstImproper role' c') : role = role' ∧ c = c' := by
  obtain ⟨hsome, himproper, before, after, hall, hproper⟩ := h
  obtain ⟨hsome', himproper', before', after', hall', hproper'⟩ := h'
  have hrole : role = role' := by
    rcases List.append_eq_append_iff.mp (hall.symm.trans hall') with
      ⟨between, rfl, hsplit⟩ | ⟨between, rfl, hsplit⟩
    · cases between with
      | nil => exact (List.cons.inj hsplit).1
      | cons r between =>
        obtain ⟨rfl, -⟩ := List.cons.inj hsplit
        exact absurd (hproper' role (by simp) c hsome) himproper
    · cases between with
      | nil => exact (List.cons.inj hsplit).1.symm
      | cons r between =>
        obtain ⟨rfl, -⟩ := List.cons.inj hsplit
        exact absurd (hproper role' (by simp) c' hsome') himproper'
  subst hrole
  exact ⟨rfl, Option.some.inj (hsome.symm.trans hsome')⟩

end ColorOverrides

namespace Config

/-- A role with its field and its override. -/
def entry (o : ColorOverrides) (role : ColorRole) : ColorRole × String × Option ColorSetting :=
  (role, role.field, o.setting? role)

/-- Each role is looked at, in the order of the roles. -/
theorem overriddenRoles_eq (o : ColorOverrides) :
    overriddenRoles o = ColorRole.all.map (entry o) := rfl

section Override

variable {o : ColorOverrides} {role : ColorRole} {p : Palette}

/-- A role without a setting keeps its color. -/
theorem override_of_none (h : o.setting? role = none) : override p (entry o role) = .ok p := by
  rw [entry, h]
  rfl

/-- A role with a setting that is not proper is reported, by its name and with what is wrong. -/
theorem override_of_not_isProper {c : ColorSetting} (h : o.setting? role = some c)
    (hc : ¬ c.IsProper) :
    override p (entry o role) = .error (.invalidColor role.field c.fault) := by
  simp [entry, override, h, c.resolve_of_not_isProper hc p]

/-- A role with a proper setting takes the color that is meant, and no other role changes. -/
theorem exists_override_of_isProper {c : ColorSetting} (h : o.setting? role = some c)
    (hc : c.IsProper) :
    ∃ value, override p (entry o role) = .ok (p.setRole role value) ∧ c.value? p = some value := by
  obtain ⟨value, hresolve, hvalue⟩ := c.exists_resolve_of_isProper hc p
  exact ⟨value, by simp [entry, override, h, hresolve], hvalue⟩

end Override

/-- What a palette has become when some roles have been overridden, each of them once. -/
structure Overridden (o : ColorOverrides) (roles : List ColorRole) (base p : Palette) : Prop where
  name : p.name = base.name
  ansi : p.ansi = base.ansi
  /-- What an override asks for has not changed. -/
  value : ∀ c : ColorSetting, c.value? p = c.value? base
  kept : ∀ role, role ∉ roles ∨ o.setting? role = none → p.role role = base.role role
  replaced : ∀ role ∈ roles, ∀ c ∈ o.setting? role,
    c.IsProper ∧ c.value? base = some (p.role role)

section Overridden

variable {o : ColorOverrides} {roles : List ColorRole} {base p : Palette} {role : ColorRole}

/-- Where no role has been looked at, the palette is the scheme's. -/
theorem Overridden.refl (o : ColorOverrides) (base : Palette) : Overridden o [] base base where
  name := rfl
  ansi := rfl
  value _ := rfl
  kept _ _ := rfl
  replaced _ h := by simp at h

/-- A role that is not overridden keeps its color. -/
theorem Overridden.skip (h : Overridden o roles base p) (hnone : o.setting? role = none) :
    Overridden o (roles ++ [role]) base p where
  name := h.name
  ansi := h.ansi
  value := h.value
  kept r hr := by
    apply h.kept
    rcases hr with hr | hr
    · exact .inl fun hmem => hr (by simp [hmem])
    · exact .inr hr
  replaced r hr c hc := by
    rcases List.mem_append.mp hr with hr | hr
    · exact h.replaced r hr c hc
    · obtain rfl := List.mem_singleton.mp hr
      simp [hnone] at hc

/-- A role that is overridden gets the color that its setting has under the first palette. -/
theorem Overridden.replace {c : ColorSetting} {value : Rgb} (h : Overridden o roles base p)
    (hnew : role ∉ roles) (hsome : o.setting? role = some c) (hc : c.IsProper)
    (hvalue : c.value? p = some value) :
    Overridden o (roles ++ [role]) base (p.setRole role value) where
  name := by rw [← h.name]; cases role <;> rfl
  ansi := by rw [← h.ansi]; cases role <;> rfl
  value d := (d.value?_setRole p role value).trans (h.value d)
  kept r hr := by
    have hne : r ≠ role := by
      rintro rfl
      simp [hsome] at hr
    rw [Palette.role_setRole_of_ne p value hne]
    exact h.kept r (hr.imp_left fun hr hmem => hr (by simp [hmem]))
  replaced r hr d hd := by
    by_cases heq : r = role
    · subst heq
      obtain rfl : c = d := Option.some.inj (hsome.symm.trans hd)
      rw [Palette.role_setRole_self, ← h.value, hvalue]
      exact ⟨hc, rfl⟩
    · rw [Palette.role_setRole_of_ne p value heq]
      refine h.replaced r ?_ d hd
      simpa [heq] using hr

/-- The overrides of some roles, behind those of others: they all go through, or the first that is
not proper stops them. -/
theorem foldlM_override_cases {before : List ColorRole} (h : Overridden o before base p)
    (hnodup : (before ++ roles).Nodup) :
    (∃ q, (roles.map (entry o)).foldlM override p = .ok q ∧
        Overridden o (before ++ roles) base q) ∨
      ∃ role c earlier later,
        (roles.map (entry o)).foldlM override p = .error (.invalidColor role.field c.fault) ∧
          before ++ roles = earlier ++ role :: later ∧ o.setting? role = some c ∧ ¬ c.IsProper ∧
          ∀ r ∈ earlier, ∀ d ∈ o.setting? r, d.IsProper := by
  induction roles generalizing before p with
  | nil => exact .inl ⟨p, rfl, by simpa using h⟩
  | cons role roles ih =>
    have hnew : role ∉ before := by
      intro hmem
      exact (List.nodup_append.mp hnodup).2.2 role hmem role (by simp) rfl
    have honward {q : Palette} (hq : override p (entry o role) = .ok q) :
        ((role :: roles).map (entry o)).foldlM override p =
          (roles.map (entry o)).foldlM override q := by
      rw [List.map_cons, List.foldlM_cons, hq]
      rfl
    rw [List.append_cons] at hnodup ⊢
    cases hsetting : o.setting? role with
    | none =>
      rw [honward (override_of_none hsetting)]
      exact ih (h.skip hsetting) hnodup
    | some c =>
      by_cases hc : c.IsProper
      · obtain ⟨value, hoverride, hvalue⟩ := exists_override_of_isProper (p := p) hsetting hc
        rw [honward hoverride]
        exact ih (h.replace hnew hsetting hc hvalue) hnodup
      · right
        refine ⟨role, c, before, roles, ?_, by simp, hsetting, hc,
          fun r hr d hd => (h.replaced r hr d hd).1⟩
        rw [List.map_cons, List.foldlM_cons, override_of_not_isProper hsetting hc]
        rfl

end Overridden

/-- **Everything that can come of a configured palette.** -/
theorem palette_cases (c : Config) :
    (Scheme.ofName? c.colorScheme = none ∧
        c.palette = .error (.color (.unknownScheme c.colorScheme))) ∨
      ∃ s, Scheme.ofName? c.colorScheme = some s ∧
        ((∃ p, c.palette = .ok p ∧ Overridden c.colors ColorRole.all s.palette p) ∨
          ∃ role setting, c.palette = .error (.invalidColor role.field setting.fault) ∧
            c.colors.FirstImproper role setting) := by
  unfold palette Palette.byName
  cases hscheme : Scheme.ofName? c.colorScheme with
  | none => exact .inl ⟨rfl, rfl⟩
  | some s =>
    refine .inr ⟨s, rfl, ?_⟩
    dsimp only
    rw [overriddenRoles_eq]
    rcases foldlM_override_cases (.refl c.colors s.palette) (by decide : ColorRole.all.Nodup) with
      hok | ⟨role, setting, earlier, later, herror, hsplit, hsome, himproper, hproper⟩
    · exact .inl hok
    · exact .inr ⟨role, setting, herror, hsome, himproper, earlier, later, hsplit, hproper⟩

theorem mem_all (role : ColorRole) : role ∈ ColorRole.all := by
  cases role <;> decide

/-- The scheme that is asked for exists, under one of its spellings. -/
def HasScheme (c : Config) : Prop := ∃ s : Scheme, Scheme.folded c.colorScheme ∈ s.spellings

section Outcome

variable {c : Config}

/-- A name that is found is the name of a scheme. -/
theorem hasScheme_of_ofName? {s : Scheme} (h : Scheme.ofName? c.colorScheme = some s) :
    c.HasScheme :=
  ⟨s, Scheme.ofName?_eq_some_iff.mp h⟩

/-- A name that is not found is the name of none. -/
theorem not_hasScheme_of_ofName? (h : Scheme.ofName? c.colorScheme = none) : ¬ c.HasScheme := by
  rintro ⟨s, hs⟩
  rw [Scheme.ofName?_eq_some_iff.mpr hs] at h
  cases h

/-- **A scheme is unknown** exactly if none has its name, whatever else is wrong. -/
theorem unknownScheme_iff :
    c.palette = .error (.color (.unknownScheme c.colorScheme)) ↔ ¬ c.HasScheme := by
  rcases palette_cases c with
    ⟨hnone, heq⟩ | ⟨s, hs, ⟨p, heq, -⟩ | ⟨role, setting, heq, -⟩⟩ <;> rw [heq]
  · simp [not_hasScheme_of_ofName? hnone]
  · simp [hasScheme_of_ofName? hs]
  · simp [hasScheme_of_ofName? hs]

/-- **There is a palette** exactly if the scheme is known and each setting is proper. -/
theorem exists_palette_iff :
    (∃ p, c.palette = .ok p) ↔
      c.HasScheme ∧ ∀ role, ∀ setting ∈ c.colors.setting? role, setting.IsProper := by
  rcases palette_cases c with
    ⟨hnone, heq⟩ | ⟨s, hs, ⟨p, heq, hp⟩ | ⟨role, setting, heq, hfirst⟩⟩ <;> rw [heq]
  · simp [not_hasScheme_of_ofName? hnone]
  · simp only [Except.ok.injEq, exists_eq', true_iff]
    exact ⟨hasScheme_of_ofName? hs,
      fun role setting hsetting => (hp.replaced role (mem_all role) setting hsetting).1⟩
  · simp only [reduceCtorEq, exists_false, false_iff, not_and]
    intro _ hproper
    exact hfirst.2.1 (hproper role setting hfirst.1)

/-- **A color is reported** exactly if it is the first that is not proper, under a known scheme. -/
theorem invalidColor_iff {field : String} {fault : ColorSettingFault} :
    c.palette = .error (.invalidColor field fault) ↔
      c.HasScheme ∧ ∃ role setting, c.colors.FirstImproper role setting ∧
        field = role.field ∧ fault = setting.fault := by
  rcases palette_cases c with
    ⟨hnone, heq⟩ | ⟨s, hs, ⟨p, heq, hp⟩ | ⟨role, setting, heq, hfirst⟩⟩ <;> rw [heq]
  · simp [not_hasScheme_of_ofName? hnone]
  · simp only [reduceCtorEq, false_iff, not_and, not_exists]
    intro _ role setting hfirst
    exact absurd (hp.replaced role (mem_all role) setting hfirst.1).1 hfirst.2.1
  · simp only [Except.error.injEq, ConfigError.invalidColor.injEq, hasScheme_of_ofName? hs,
      true_and]
    constructor
    · rintro ⟨rfl, rfl⟩
      exact ⟨role, setting, hfirst, rfl, rfl⟩
    · rintro ⟨role', setting', hfirst', rfl, rfl⟩
      obtain ⟨rfl, rfl⟩ := hfirst.unique hfirst'
      exact ⟨rfl, rfl⟩

end Outcome

/-- The color of a role under a scheme with overrides: the one of its own override, if it has one,
or the scheme's. -/
def roleColor? (s : Scheme) (o : ColorOverrides) (role : ColorRole) : Option Rgb :=
  match o.setting? role with
  | none => some (s.palette.role role)
  | some setting => setting.value? s.palette

/-- **The configured palette.**

* There is one exactly when the name of the scheme is known in lower case and every override has
  exactly one part, an index being between 0 and 255.
* Otherwise the complaint is about the name, if that is not known, and else about the first field
  that is not proper.
* The palette has the name and the sixteen colors of its scheme.  Each role has the color of its own
  override, by index under the scheme's own palette, or that of the scheme.
* A setting that passes its checks has exactly one part, and its color has a value under any
  palette. -/
theorem palette_outcome (c : Config) :
    ((∃ p, c.palette = .ok p) ↔
        c.HasScheme ∧ ∀ role, ∀ setting ∈ c.colors.setting? role, setting.IsProper) ∧
      (c.palette = .error (.color (.unknownScheme c.colorScheme)) ↔ ¬ c.HasScheme) ∧
      (∀ field fault, c.palette = .error (.invalidColor field fault) ↔
        c.HasScheme ∧ ∃ role setting, c.colors.FirstImproper role setting ∧
          field = role.field ∧ fault = setting.fault) ∧
      (∀ p, c.palette = .ok p →
        ∃ s : Scheme, Scheme.folded c.colorScheme ∈ s.spellings ∧ p.name = s.name ∧
          p.ansi = s.palette.ansi ∧
          ∀ role, roleColor? s c.colors role = some (p.role role)) ∧
      (∀ (setting : ColorSetting) (color : Color), setting.color = .ok color →
        (∀ serial, (⟨setting.index, setting.rgb, none⟩ : ColorParts).color? serial = some color) ∧
          ∀ palette : Palette, (palette.rgbOf? color).isSome = true) ∧
      ∀ field, c.palette ≠ .error (.invalidColor field .unresolved) := by
  refine ⟨exists_palette_iff, unknownScheme_iff, fun field fault => invalidColor_iff, ?_, ?_, ?_⟩
  · intro p hp
    rcases palette_cases c with
      ⟨-, heq⟩ | ⟨s, hs, ⟨q, heq, hq⟩ | ⟨role, setting, heq, -⟩⟩ <;> rw [heq] at hp
    · cases hp
    · obtain rfl : q = p := by simpa using hp
      refine ⟨s, Scheme.ofName?_eq_some_iff.mp hs, ?_, hq.ansi, ?_⟩
      · rw [hq.name]
        cases s <;> rfl
      · intro role
        unfold roleColor?
        cases hsetting : c.colors.setting? role with
        | none => exact congrArg some (hq.kept role (.inr hsetting)).symm
        | some setting => exact (hq.replaced role (mem_all role) setting hsetting).2
    · cases hp
  · intro setting color hcolor
    obtain ⟨color', hcolor', hparts, hvalues⟩ :=
      ColorSetting.exists_color_of_isProper (ColorSetting.isProper_of_color hcolor)
    obtain rfl : color' = color := Except.ok.inj (hcolor'.symm.trans hcolor)
    refine ⟨hparts, fun palette => ?_⟩
    obtain ⟨value, hvalue, -⟩ := hvalues palette
    exact Option.isSome_of_eq_some hvalue
  · intro field hunresolved
    obtain ⟨-, role, setting, -, -, hfault⟩ := invalidColor_iff.mp hunresolved
    exact setting.fault_ne_unresolved hfault.symm

end Config

end VideoTerminal
