import VideoTerminal.Config
import VideoTerminal.Proofs.Toml.Sections
import VideoTerminal.Proofs.Toml.Tables

/-!
# A saved configuration is read back

The numbers of a configuration that was read are within the ranges that were asked of them
(`Config.inRange_of_ofTable?`).  For such a configuration the table of its settings is known
(`Config.ofSections?_settings`), and taking that table apart gives every field again
(`Config.ofTable?_table`): every field is written, so that no default takes its place, and an
override that is absent stays absent.  With the settings read as they were written, the document of
a configuration gives the configuration (`Config.saved_reloads`).

The format allows any text, but the printer counts marks in a row in one byte and gives up where
there are more (`maxRunOfMarks`).  That it prints both texts is all that is asked of it
(`Config.TextsPrinted`): nothing else keeps a configuration from being written, and the document
would be read back all the same.
-/

namespace VideoTerminal

open Toml (Value Setting Settings Table)

/-! ## What is read is within range -/

/-- An index has 32 bits. -/
def ColorSetting.InRange (c : ColorSetting) : Prop :=
  ∀ n ∈ c.index, -2147483648 ≤ n ∧ n ≤ 2147483647

namespace Config

/-- Every number is one that a document can give. -/
structure InRange (c : Config) : Prop where
  compactionThreshold : c.compactionThreshold ≤ maxCount
  scrollbackLimit : c.scrollbackLimit ≤ maxCount
  cols : c.cols ≤ 65535
  rows : c.rows ≤ 65535
  colors : ∀ entry ∈ namedOverrides c.colors, ∀ setting ∈ entry.2, setting.InRange

/-- A field that may be left out has what its default has and what is read. -/
theorem of_fieldOr {α : Type} {P : α → Prop} {default : α} {decode : Value → Option α}
    {field : Option Value} {a : α} (h : fieldOr default decode field = some a)
    (hdefault : P default) (hdecode : ∀ v a, decode v = some a → P a) : P a := by
  cases field with
  | none => exact Option.some.inj h ▸ hdefault
  | some v => exact hdecode v a h

/-- An optional field has what is read, if it has anything. -/
theorem of_optionalField {α : Type} {P : α → Prop} {decode : Value → Option α}
    {field : Option Value} {r : Option α} (h : optionalField decode field = some r)
    (hdecode : ∀ v a, decode v = some a → P a) : ∀ a ∈ r, P a := by
  cases field with
  | none =>
    cases h
    exact fun a ha => nomatch ha
  | some v =>
    obtain ⟨b, hb, rfl⟩ := Option.map_eq_some_iff.mp h
    intro a ha
    cases ha
    exact hdecode v b hb

/-- An integer that is read lies in its range. -/
theorem of_integerIn? {least greatest n : Int} {v : Value}
    (h : v.integerIn? least greatest = some n) : least ≤ n ∧ n ≤ greatest := by
  unfold Value.integerIn? at h
  split at h
  · split at h
    · next hrange =>
      cases h
      exact hrange
    · cases h
  · cases h

/-- A number that is read does not exceed its greatest value. -/
theorem of_naturalTo? {greatest n : Nat} {v : Value} (h : v.naturalTo? greatest = some n) :
    n ≤ greatest := by
  obtain ⟨k, hk, rfl⟩ := Option.map_eq_some_iff.mp h
  have hrange := of_integerIn? hk
  omega

/-- A number that may be left out does not exceed its greatest value either. -/
theorem le_of_fieldOr {default greatest n : Nat} {field : Option Value}
    (h : fieldOr default (fun v => v.naturalTo? greatest) field = some n)
    (hdefault : default ≤ greatest) : n ≤ greatest :=
  of_fieldOr (P := fun n => n ≤ greatest) h hdefault fun _ _ => of_naturalTo?

/-- A color that is read lies in its range. -/
theorem inRange_of_colorSetting? {v : Value} {c : ColorSetting} (h : colorSetting? v = some c) :
    c.InRange := by
  simp only [colorSetting?, Option.bind_eq_bind, Option.bind_eq_some_iff] at h
  obtain ⟨fields, -, h⟩ := h
  split at h
  · simp only [Option.bind_eq_some_iff] at h
    obtain ⟨index, hindex, rgb, -, h⟩ := h
    cases h
    exact of_optionalField hindex fun v n hn => of_integerIn? hn
  · cases h

/-- All colors that are read lie in their range. -/
theorem inRange_of_overrides? {v : Value} {o : ColorOverrides} (h : overrides? v = some o) :
    ∀ entry ∈ namedOverrides o, ∀ setting ∈ entry.2, setting.InRange := by
  simp only [overrides?, Option.bind_eq_bind, Option.bind_eq_some_iff] at h
  obtain ⟨fields, -, h⟩ := h
  split at h
  · simp only [Option.bind_eq_some_iff] at h
    obtain ⟨foreground, hforeground, background, hbackground, cursor, hcursor, selectionForeground,
      hselectionForeground, selectionBackground, hselectionBackground, h⟩ := h
    cases h
    have hrange {field : Option Value} {r : Option ColorSetting}
        (h : optionalField colorSetting? field = some r) : ∀ c ∈ r, c.InRange :=
      of_optionalField h fun _ _ => inRange_of_colorSetting?
    simp only [namedOverrides, overrideNames, List.zip_cons_cons, List.zip_nil_right,
      List.forall_mem_cons]
    exact ⟨hrange hforeground, hrange hbackground, hrange hcursor, hrange hselectionForeground,
      hrange hselectionBackground, fun entry hentry => nomatch hentry⟩
  · cases h

/-- A size that is read can be counted. -/
theorem le_of_size? {v : Value} {size : Nat × Nat} (h : size? v = some size) :
    size.1 ≤ 65535 ∧ size.2 ≤ 65535 := by
  simp only [size?, Option.bind_eq_bind, Option.bind_eq_some_iff] at h
  obtain ⟨fields, -, h⟩ := h
  split at h
  · simp only [Option.bind_eq_some_iff] at h
    obtain ⟨cols, hcols, rows, hrows, h⟩ := h
    cases h
    exact ⟨le_of_fieldOr hcols (by decide), le_of_fieldOr hrows (by decide)⟩
  · cases h

/-- **Every number of a configuration that is read** is within its range. -/
theorem inRange_of_ofTable? {t : Table} {c : Config} (h : ofTable? t = some c) : c.InRange := by
  simp only [ofTable?, Option.bind_eq_bind, Option.bind_eq_some_iff] at h
  obtain ⟨pacing, -, threshold, hthreshold, limit, hlimit, logLevel, -, scheme, -, depth, -,
    ⟨cols, rows⟩, hsize, colors, hcolors, h⟩ := h
  cases h
  have hcells := of_fieldOr (P := fun size => size.1 ≤ 65535 ∧ size.2 ≤ 65535) hsize (by decide)
    fun _ _ => le_of_size?
  have hoverrides := of_fieldOr
    (P := fun o => ∀ entry ∈ namedOverrides o, ∀ setting ∈ entry.2, setting.InRange) hcolors
    (by simp [namedOverrides, overrideNames]) fun _ _ => inRange_of_overrides?
  exact {
    compactionThreshold := le_of_fieldOr hthreshold (by decide)
    scrollbackLimit := le_of_fieldOr hlimit (by decide)
    cols := hcells.1
    rows := hcells.2
    colors := hoverrides }

/-! ## The table of the settings -/

/-- The overrides that are present, with the settings of each. -/
def overrideGroups (o : ColorOverrides) : List (String × List (String × Setting)) :=
  (namedOverrides o).filterMap fun (name, c) => c.map fun c => (name, colorPairs c)

/-- A group that is written holds the color of a role that has one. -/
theorem mem_overrideGroups {o : ColorOverrides} {group : String × List (String × Setting)}
    (h : group ∈ overrideGroups o) :
    group.1 ∈ overrideNames ∧
      ∃ c, (group.1, some c) ∈ namedOverrides o ∧ group.2 = colorPairs c := by
  obtain ⟨⟨name, c⟩, hmem, hc⟩ := List.mem_filterMap.mp h
  obtain ⟨c, rfl, rfl⟩ := Option.map_eq_some_iff.mp hc
  exact ⟨(List.of_mem_zip hmem).1, c, hmem, rfl⟩

/-- The groups are written one by one, and an empty heading if there are none. -/
theorem overrideSettings_eq (o : ColorOverrides) :
    overrideSettings o =
      if (overrideGroups o).isEmpty then [⟨["colors"], []⟩]
      else (overrideGroups o).map fun (name, pairs) => ⟨["colors", name], pairs⟩ := by
  have hgroups : overrideGroups o
      = ((namedOverrides o).filterMap fun entry => entry.2.map fun c => (entry.1, c)).map
          fun entry => (entry.1, colorPairs entry.2) := by
    simp [overrideGroups, List.map_filterMap, Function.comp_def]
  simp only [overrideSettings, hgroups, List.isEmpty_map, List.map_map]
  rfl

/-- The settings of the first section. -/
def mainPairs (c : Config) : List (String × Setting) :=
  [("performance_mode", .text c.pacing.name),
    ("compaction_threshold", .number c.compactionThreshold),
    ("scrollback_limit", .number c.scrollbackLimit),
    ("log_level", .text c.logLevel),
    ("color_scheme", .text c.colorScheme),
    ("color_depth", .text (depthName c.colorDepth))]

/-- The settings of the terminal. -/
def sizePairs (c : Config) : List (String × Setting) :=
  [("cols", .number c.cols), ("rows", .number c.rows)]

/-- What is written has three parts, the fields at the top, the size and the colors. -/
theorem settings_eq (c : Config) :
    c.settings = ⟨[], c.mainPairs⟩ :: ⟨["terminal"], c.sizePairs⟩ :: overrideSettings c.colors :=
  rfl

/-- The table of the overrides. -/
def overrideTable (o : ColorOverrides) : Table :=
  (overrideGroups o).map fun (name, pairs) => (name, .table .header (Table.ofPairs pairs))

/-- The table of a configuration; the overrides may come from any kind of table. -/
def table (c : Config) (origin : Toml.Origin) : Table :=
  Table.ofPairs c.mainPairs
    ++ [("terminal", .table .header (Table.ofPairs c.sizePairs))]
    ++ [("colors", .table origin (overrideTable c.colors))]

/-- No two roles have the same name. -/
theorem nodup_namedOverrides (o : ColorOverrides) : ((namedOverrides o).map Prod.fst).Nodup := by
  have hnames : (namedOverrides o).map Prod.fst = overrideNames := rfl
  rw [hnames]
  decide

/-- No two groups have the same heading. -/
theorem nodup_overrideGroups (o : ColorOverrides) : ((overrideGroups o).map Prod.fst).Nodup := by
  have hsublist : ∀ l : List (String × Option ColorSetting),
      ((l.filterMap fun (name, c) => c.map fun c => (name, colorPairs c)).map Prod.fst).Sublist
        (l.map Prod.fst) := by
    intro l
    induction l with
    | nil => exact List.Sublist.slnil
    | cons entry l ih =>
      obtain ⟨name, c⟩ := entry
      cases c with
      | none => exact ih.cons name
      | some c => exact ih.cons_cons name
  exact (hsublist (namedOverrides o)).nodup (nodup_namedOverrides o)

theorem nodup_colorPairs (c : ColorSetting) : ((colorPairs c).map Prod.fst).Nodup := by
  obtain ⟨index, rgb⟩ := c
  cases index <;> cases rgb <;> simp [colorPairs]

/-- No name stands twice in a group. -/
theorem nodup_of_mem_overrideGroups {o : ColorOverrides} :
    ∀ group ∈ overrideGroups o, (group.2.map Prod.fst).Nodup := by
  intro group hgroup
  obtain ⟨-, c, -, hpairs⟩ := mem_overrideGroups hgroup
  rw [hpairs]
  exact nodup_colorPairs c

/-- The sections of the overrides make one table, however many there are. -/
theorem addSections_overrides {t : Table} (h : t.get? "colors" = none) (o : ColorOverrides) :
    ∃ origin, ((overrideSettings o).map Settings.toSection).foldlM Table.addSection t
      = some (t ++ [("colors", .table origin (overrideTable o))]) := by
  have hpairs := nodup_of_mem_overrideGroups (o := o)
  have hnodup := nodup_overrideGroups o
  rw [overrideSettings_eq, overrideTable]
  generalize overrideGroups o = groups at hpairs hnodup ⊢
  cases groups with
  | nil =>
    refine ⟨.header, ?_⟩
    have hempty : t.addSection (Settings.toSection ⟨["colors"], []⟩)
        = some (t ++ [("colors", .table .header [])]) := Table.addSection_table (by simp) h
    simp [hempty]
  | cons group groups =>
    obtain ⟨name, pairs⟩ := group
    obtain ⟨hfresh, hnodup⟩ := List.nodup_cons.mp hnodup
    have hfirst : t.addSection (Settings.toSection ⟨["colors", name], pairs⟩)
        = some (t ++ [("colors", .table .implied
            [(name, .table .header (Table.ofPairs pairs))])]) :=
      Table.addSection_inner_first (hpairs (name, pairs) (List.mem_cons_self ..)) h
    have hmore : ∀ group ∈ groups,
        Table.get? [(name, .table .header (Table.ofPairs pairs))] group.1 = none := by
      intro group hgroup
      refine Table.get?_singleton_ne ?_ _
      rintro rfl
      exact hfresh (List.mem_map.mpr ⟨group, hgroup, rfl⟩)
    have hrest := Table.addSections_inner h
      (fun other hother => hpairs other (List.mem_cons_of_mem _ hother)) hnodup hmore
    refine ⟨.implied, ?_⟩
    simp only [List.isEmpty_cons, Bool.false_eq_true, if_false, List.map_cons, List.map_map,
      List.foldlM_cons, hfirst, Option.bind_eq_bind, Option.bind_some]
    exact hrest

/-- **The table of the settings.** -/
theorem ofSections?_settings (c : Config) :
    ∃ origin, Table.ofSections? (c.settings.map Settings.toSection) = some (c.table origin) := by
  have hmain : Table.addSection [] (Settings.toSection ⟨[], c.mainPairs⟩)
      = some (Table.ofPairs c.mainPairs) := Table.addSection_top (by simp [mainPairs])
  have hterminal : Table.get? (Table.ofPairs c.mainPairs) "terminal" = none :=
    Table.get?_ofPairs_eq_none (by simp [mainPairs])
  have hsize : (Table.ofPairs c.mainPairs).addSection
      (Settings.toSection ⟨["terminal"], c.sizePairs⟩)
        = some (Table.ofPairs c.mainPairs
          ++ [("terminal", .table .header (Table.ofPairs c.sizePairs))]) :=
    Table.addSection_table (by simp [sizePairs]) hterminal
  have hcolors : Table.get? (Table.ofPairs c.mainPairs
      ++ [("terminal", .table .header (Table.ofPairs c.sizePairs))]) "colors" = none := by
    rw [Table.get?_append, Table.get?_ofPairs_eq_none (by simp [mainPairs]),
      Table.get?_singleton_ne (by decide)]
    rfl
  obtain ⟨origin, hoverrides⟩ := addSections_overrides hcolors c.colors
  refine ⟨origin, ?_⟩
  rw [settings_eq, Table.ofSections?, List.map_cons, List.map_cons, List.foldlM_cons, hmain]
  simp only [Option.bind_eq_bind, Option.bind_some, List.foldlM_cons, hsize]
  exact hoverrides

/-! ## Taking the table apart -/

/-- A number within its bound is read back. -/
theorem naturalTo?_integer {n greatest : Nat} (h : n ≤ greatest) :
    (Value.integer n).naturalTo? greatest = some n := by
  have hrange : (0 : Int) ≤ n ∧ (n : Int) ≤ greatest := by omega
  simp [Value.naturalTo?, Value.integerIn?, hrange]

theorem integerIn?_integer {least greatest n : Int} (h : least ≤ n ∧ n ≤ greatest) :
    (Value.integer n).integerIn? least greatest = some n := by
  simp [Value.integerIn?, h]

/-- Three bytes are read back as the color they were. -/
theorem rgb?_numbers (c : Rgb) :
    rgb? (Setting.numbers [c.r.toNat, c.g.toNat, c.b.toNat]).toValue = some c := by
  have hle (channel : UInt8) : channel.toNat ≤ 255 := Nat.le_of_lt_succ channel.toNat_lt
  simp [Setting.toValue, rgb?, naturalTo?_integer (hle _)]

/-- An optional field is read from what stands for it. -/
theorem optionalField_map {α : Type} {decode : Value → Option α} {encode : α → Value}
    {field : Option α} (h : ∀ a ∈ field, decode (encode a) = some a) :
    optionalField decode (field.map encode) = some field := by
  cases field with
  | none => rfl
  | some a => exact (congrArg (Option.map some) (h a rfl)).trans rfl

/-- Of a table all fields that are named are looked up. -/
theorem fields?_table (names : List String) (origin : Toml.Origin) (t : Table) :
    (Value.table origin t).fields? names = some (names.map t.get?) := rfl

/-- A color is read from its settings, also one that has neither part. -/
theorem colorSetting?_colorPairs {c : ColorSetting} (h : c.InRange) (origin : Toml.Origin) :
    colorSetting? (.table origin (Table.ofPairs (colorPairs c))) = some c := by
  obtain ⟨index, rgb⟩ := c
  have hindex : Table.get? (Table.ofPairs (colorPairs ⟨index, rgb⟩)) "index"
      = index.map Value.integer := by
    cases index <;> cases rgb <;> rfl
  have hrgb : Table.get? (Table.ofPairs (colorPairs ⟨index, rgb⟩)) "rgb"
      = rgb.map fun c => (Setting.numbers [c.r.toNat, c.g.toNat, c.b.toNat]).toValue := by
    cases index <;> cases rgb <;> rfl
  simp only [colorSetting?, fields?_table, List.map_cons, List.map_nil, hindex, hrgb,
    Option.bind_eq_bind, Option.bind_some,
    optionalField_map fun n hn => integerIn?_integer (h n hn),
    optionalField_map fun c _ => rgb?_numbers c]

/-- The entries of the overrides that are present. -/
def present (l : List (String × Option ColorSetting)) : Table :=
  l.filterMap fun (name, c) =>
    c.map fun c => (name, .table .header (Table.ofPairs (colorPairs c)))

/-- The table of colors has those that are present, under their names. -/
theorem overrideTable_eq (o : ColorOverrides) : overrideTable o = present (namedOverrides o) := by
  simp [overrideTable, overrideGroups, present, List.map_filterMap, Function.comp_def]

/-- What has no name in the list is not in the table. -/
theorem get?_present_eq_none {l : List (String × Option ColorSetting)} {name : String}
    (h : name ∉ l.map Prod.fst) : (present l).get? name = none := by
  refine List.lookup_eq_none_iff.mpr fun e he => bne_iff_ne.mpr ?_
  obtain ⟨⟨other, c⟩, hmem, hc⟩ := List.mem_filterMap.mp he
  obtain ⟨c, -, rfl⟩ := Option.map_eq_some_iff.mp hc
  rintro rfl
  exact h (List.mem_map.mpr ⟨_, hmem, rfl⟩)

/-- Each override is found by its name, if it is present. -/
theorem get?_present {l : List (String × Option ColorSetting)} (hnodup : (l.map Prod.fst).Nodup)
    {name : String} {c : Option ColorSetting} (h : (name, c) ∈ l) :
    (present l).get? name = c.map fun c => .table .header (Table.ofPairs (colorPairs c)) := by
  induction l with
  | nil => cases h
  | cons entry l ih =>
    obtain ⟨other, d⟩ := entry
    obtain ⟨hfresh, hmore⟩ := List.nodup_cons.mp hnodup
    have hpresent : present ((other, d) :: l)
        = (d.map fun d => (other, .table .header (Table.ofPairs (colorPairs d)))).toList
          ++ present l := by
      cases d <;> rfl
    rw [hpresent, Table.get?_append]
    rcases List.mem_cons.mp h with heq | hmem
    · obtain ⟨rfl, rfl⟩ := Prod.mk.inj heq
      rw [get?_present_eq_none hfresh]
      cases c with
      | none => rfl
      | some c => exact congrArg (Option.or · none) (Table.get?_singleton_self ..)
    · have hne : name ≠ other := by
        rintro rfl
        exact hfresh (List.mem_map.mpr ⟨_, hmem, rfl⟩)
      rw [ih hmore hmem]
      cases d with
      | none => rfl
      | some d => exact congrArg (Option.or · _) (Table.get?_singleton_ne hne _)

/-- **The colors are read back** from their table. -/
theorem overrides?_overrideTable {o : ColorOverrides}
    (h : ∀ entry ∈ namedOverrides o, ∀ setting ∈ entry.2, setting.InRange) (origin : Toml.Origin) :
    overrides? (.table origin (overrideTable o)) = some o := by
  have hread {name : String} {c : Option ColorSetting} (hmem : (name, c) ∈ namedOverrides o) :
      optionalField colorSetting? (Table.get? (overrideTable o) name) = some c := by
    rw [overrideTable_eq, get?_present (nodup_namedOverrides o) hmem]
    exact optionalField_map fun setting hsetting =>
      colorSetting?_colorPairs (h _ hmem setting hsetting) .header
  simp only [namedOverrides, overrideNames, List.zip_cons_cons, List.zip_nil_right, List.mem_cons,
    List.not_mem_nil, or_false] at hread
  simp only [overrides?, fields?_table, overrideNames, List.map_cons, List.map_nil,
    Option.bind_eq_bind, Option.bind_some, hread (.inl rfl), hread (.inr (.inl rfl)),
    hread (.inr (.inr (.inl rfl))), hread (.inr (.inr (.inr (.inl rfl)))),
    hread (.inr (.inr (.inr (.inr rfl))))]

theorem size?_sizePairs {c : Config} (h : c.InRange) (origin : Toml.Origin) :
    size? (.table origin (Table.ofPairs c.sizePairs)) = some (c.cols, c.rows) := by
  have hcols : Table.get? (Table.ofPairs c.sizePairs) "cols" = some (.integer c.cols) := rfl
  have hrows : Table.get? (Table.ofPairs c.sizePairs) "rows" = some (.integer c.rows) := rfl
  simp only [size?, fields?_table, List.map_cons, List.map_nil, hcols, hrows, fieldOr,
    naturalTo?_integer h.cols, naturalTo?_integer h.rows, Option.bind_eq_bind, Option.bind_some]

/-- A pace is read back from its name. -/
theorem pacing?_name (p : Pacing) : pacing? (.string p.name) = some p := by
  cases p <;> rfl

theorem depth?_depthName (d : ColorDepth) : depth? (.string (depthName d)) = some d := by
  cases d <;> rfl

/-- **A table of settings** gives the configuration again. -/
theorem ofTable?_table {c : Config} (h : c.InRange) (origin : Toml.Origin) :
    ofTable? (c.table origin) = some c := by
  have hpacing : (c.table origin).get? "performance_mode" = some (.string c.pacing.name) := rfl
  have hthreshold : (c.table origin).get? "compaction_threshold"
      = some (.integer c.compactionThreshold) := rfl
  have hlimit : (c.table origin).get? "scrollback_limit" = some (.integer c.scrollbackLimit) := rfl
  have hlogLevel : (c.table origin).get? "log_level" = some (.string c.logLevel) := rfl
  have hscheme : (c.table origin).get? "color_scheme" = some (.string c.colorScheme) := rfl
  have hdepth : (c.table origin).get? "color_depth" = some (.string (depthName c.colorDepth)) := rfl
  have hterminal : (c.table origin).get? "terminal"
      = some (.table .header (Table.ofPairs c.sizePairs)) := rfl
  have hcolors : (c.table origin).get? "colors"
      = some (.table origin (overrideTable c.colors)) := rfl
  simp only [ofTable?, hpacing, hthreshold, hlimit, hlogLevel, hscheme, hdepth, hterminal, hcolors,
    fieldOr, pacing?_name, naturalTo?_integer h.compactionThreshold,
    naturalTo?_integer h.scrollbackLimit, Value.text?, depth?_depthName, size?_sizePairs h,
    overrides?_overrideTable h.colors, Option.bind_eq_bind, Option.bind_some]

/-! ## The document -/

/-- Counts are integers that can be written. -/
theorem isInt64_of_le {n : Nat} (h : n ≤ maxCount) : Toml.isInt64 (n : Int) = true := by
  simp only [maxCount] at h
  simp only [Toml.isInt64, Bool.and_eq_true, decide_eq_true_eq]
  omega

/-- The fields at the top can be written. -/
theorem fits_mainPairs {c : Config} (h : c.InRange) : Settings.Fits ⟨[], c.mainPairs⟩ where
  names _ hname := nomatch hname
  length_names := Nat.zero_le _
  pairs := by
    simp only [mainPairs, List.forall_mem_cons]
    refine ⟨⟨rfl, trivial⟩, ⟨rfl, isInt64_of_le h.compactionThreshold⟩,
      ⟨rfl, isInt64_of_le h.scrollbackLimit⟩, ⟨rfl, trivial⟩, ⟨rfl, trivial⟩, ⟨rfl, trivial⟩, ?_⟩
    exact fun pair hpair => nomatch hpair

/-- The size can be written. -/
theorem fits_sizePairs {c : Config} (h : c.InRange) :
    Settings.Fits ⟨["terminal"], c.sizePairs⟩ where
  names := by simp [show Toml.isBareName "terminal" = true from rfl]
  length_names := (by decide : 1 ≤ Toml.maxKeyNames)
  pairs := by
    have hcols : c.cols ≤ maxCount := Nat.le_trans h.cols (by decide)
    have hrows : c.rows ≤ maxCount := Nat.le_trans h.rows (by decide)
    simp only [sizePairs, List.forall_mem_cons]
    refine ⟨⟨rfl, isInt64_of_le hcols⟩, ⟨rfl, isInt64_of_le hrows⟩, ?_⟩
    exact fun pair hpair => nomatch hpair

/-- A color in its range can be written. -/
theorem fits_colorPairs {c : ColorSetting} (h : c.InRange) :
    ∀ pair ∈ colorPairs c, Toml.isBareName pair.1 = true ∧ pair.2.Fits := by
  intro pair hpair
  rcases List.mem_append.mp hpair with hindex | hrgb
  · obtain ⟨n, hn, rfl⟩ := Option.map_eq_some_iff.mp (Option.mem_toList.mp hindex)
    have hrange := h n hn
    refine ⟨(rfl : Toml.isBareName "index" = true), ?_⟩
    simp only [Setting.Fits, Toml.isInt64, Bool.and_eq_true, decide_eq_true_eq]
    omega
  · obtain ⟨rgb, -, rfl⟩ := Option.map_eq_some_iff.mp (Option.mem_toList.mp hrgb)
    have hchannel (channel : UInt8) : Toml.isInt64 (channel.toNat : Int) = true :=
      isInt64_of_le (Nat.le_trans (Nat.le_of_lt channel.toNat_lt) (by decide))
    refine ⟨(rfl : Toml.isBareName "rgb" = true), ?_⟩
    simp only [Setting.Fits, List.forall_mem_cons]
    exact ⟨hchannel _, hchannel _, hchannel _, fun n hn => nomatch hn⟩

/-- The sections of the overrides have headers. -/
theorem fits_overrideSettings {c : Config} (h : c.InRange) :
    ∀ s ∈ overrideSettings c.colors, s.Fits ∧ s.names ≠ [] := by
  have hcolors : Toml.isBareName "colors" = true := rfl
  have hnames : ∀ name ∈ overrideNames, Toml.isBareName name = true := by decide
  rw [overrideSettings_eq]
  split
  · intro s hs
    rw [List.mem_singleton.mp hs]
    exact ⟨⟨by simp [hcolors], (by decide : 1 ≤ Toml.maxKeyNames), fun _ h => nomatch h⟩, by simp⟩
  · intro s hs
    obtain ⟨⟨name, pairs⟩, hgroup, rfl⟩ := List.mem_map.mp hs
    obtain ⟨hname, setting, hmem, hpairs⟩ := mem_overrideGroups hgroup
    dsimp only at hname hmem hpairs
    rw [hpairs]
    refine ⟨⟨?_, (by decide : 2 ≤ Toml.maxKeyNames), fits_colorPairs (h.colors _ hmem _ rfl)⟩,
      by simp⟩
    simp [hcolors, hnames name hname]

/-- **The document of a configuration** gives the configuration again. -/
theorem read?_settingsText {c : Config} (h : c.InRange) :
    read? (Toml.settingsText c.settings) = some c := by
  have hothers : ∀ s ∈ (⟨["terminal"], c.sizePairs⟩ : Settings) :: overrideSettings c.colors,
      s.Fits ∧ s.names ≠ [] := by
    refine List.forall_mem_cons.mpr ⟨⟨fits_sizePairs h, by simp⟩, fits_overrideSettings h⟩
  have hsections : Toml.sections? (Toml.settingsText c.settings).toList
      = some (c.settings.map Settings.toSection) :=
    Toml.sections?_settingsText rfl (fun s hs => (hothers s hs).2)
      (List.forall_mem_cons.mpr ⟨fits_mainPairs h, fun s hs => (hothers s hs).1⟩)
  obtain ⟨origin, htable⟩ := c.ofSections?_settings
  simp only [read?, Toml.read?, hsections, htable, ofTable?_table h, Option.bind_eq_bind,
    Option.bind_some]

/-! ## Writing -/

/-- What is asked of the printer: that it prints both texts of the configuration, as the format
allows.  It prints those in which there are not too many marks in a row for it to count. -/
def TextsPrinted (c : Config) : Prop :=
  ∀ text ∈ [c.logLevel, c.colorScheme], Toml.canQuote text.toList = true

instance (c : Config) : Decidable c.TextsPrinted := by
  unfold TextsPrinted
  infer_instance

/-- The colors can be written, whichever are present. -/
theorem canWrite_overrideSettings (o : ColorOverrides) :
    (overrideSettings o).all Settings.canWrite = true := by
  rw [overrideSettings_eq]
  split
  · rfl
  · refine List.all_eq_true.mpr fun s hs => ?_
    obtain ⟨⟨name, pairs⟩, hgroup, rfl⟩ := List.mem_map.mp hs
    obtain ⟨-, setting, -, hpairs⟩ := mem_overrideGroups hgroup
    obtain ⟨index, rgb⟩ := setting
    dsimp only at hpairs
    rw [hpairs]
    cases index <;> cases rgb <;> rfl

/-- **A configuration is written** whenever the printer prints its texts: everything else in it can
be printed. -/
theorem write?_eq (c : Config) :
    c.write? = if c.TextsPrinted then some (Toml.settingsText c.settings) else none := by
  have hpacing : Toml.canQuote c.pacing.name.toList = true := by cases c.pacing <;> decide
  have hdepth : Toml.canQuote (depthName c.colorDepth).toList = true := by
    cases c.colorDepth <;> decide
  have hwrite : c.settings.all Settings.canWrite = true ↔ c.TextsPrinted := by
    rw [settings_eq, List.all_cons, List.all_cons, canWrite_overrideSettings]
    simp [Settings.canWrite, mainPairs, sizePairs, Setting.canWrite, hpacing, hdepth, TextsPrinted]
  simp only [write?, Toml.write?, hwrite]

/-- **A saved configuration is read back.**  Whatever document gave the configuration, the document
of its settings gives it again: every field, which overrides there are, and which parts each of them
has.  With a printer that prints the two texts, saving succeeds and writes this document. -/
theorem saved_reloads {text : String} {c : Config} (h : read? text = some c) :
    read? (Toml.settingsText c.settings) = some c ∧
      c.write? = if c.TextsPrinted then some (Toml.settingsText c.settings) else none := by
  simp only [read?, Option.bind_eq_bind, Option.bind_eq_some_iff] at h
  obtain ⟨t, -, ht⟩ := h
  exact ⟨read?_settingsText (inRange_of_ofTable? ht), c.write?_eq⟩

/-- Groups may be written as arrays.  An override that is present and empty stays one. -/
theorem saved_reloads_arrays :
    ∃ c saved, read? "log_level = 'a\"b'\ncolors = [[], [300]]\n" = some c ∧
      c.colors = { foreground := some {}, background := some { index := some 300 } } ∧
      c.write? = some saved ∧ read? saved = some c := by
  have hread : read? "log_level = 'a\"b'\ncolors = [[], [300]]\n" = some
      { logLevel := "a\"b",
        colors := { foreground := some {}, background := some { index := some 300 } } } := by
    decide +kernel
  obtain ⟨hreload, hwrite⟩ := saved_reloads hread
  exact ⟨_, _, hread, rfl, hwrite.trans (if_pos (by decide)), hreload⟩

end Config

end VideoTerminal
