import VideoTerminal.Toml.Writer

/-!
# The table of written settings

Sections are added to a table one after the other.  What a section of written settings adds is
stated for the headers that settings have: none, one name, or two names of which the first is shared
by several sections.  The table above such sections is only implied by them, and each of them adds
one more entry to it (`addSections_inner`).
-/

namespace VideoTerminal.Toml

namespace Table

/-! ## Entries -/

@[simp] theorem get?_nil (key : String) : get? [] key = none := rfl

/-- A table in two parts is looked through one after the other. -/
theorem get?_append (t u : Table) (key : String) :
    get? (t ++ u) key = (t.get? key).or (u.get? key) := List.lookup_append

/-- The only key is found. -/
theorem get?_singleton_self (key : String) (v : Value) : get? [(key, v)] key = some v := by
  simp [get?]

theorem get?_singleton_ne {key other : String} (h : key ≠ other) (v : Value) :
    get? [(other, v)] key = none := by
  simp [get?, h]

/-- A key that is new goes behind the others. -/
theorem put_new {t : Table} {key : String} (h : t.get? key = none) (v : Value) :
    t.put key v = t ++ [(key, v)] := by
  simp [put, h]

/-- The last key keeps its place. -/
theorem put_last {t : Table} {key : String} (h : t.get? key = none) (old v : Value) :
    put (t ++ [(key, old)]) key v = t ++ [(key, v)] := by
  have hfound : (get? (t ++ [(key, old)]) key).isSome = true := by
    rw [get?_append, h, get?_singleton_self]
    rfl
  have hsame : t.map (fun e => if e.1 == key then (key, v) else e) = t := by
    refine (List.map_congr_left fun e he => ?_).trans (List.map_id t)
    have hne := List.lookup_eq_none_iff.mp h e he
    simp only [bne_iff_ne] at hne
    simp [hne.symm]
  simp only [put, hfound, if_true, List.map_append, hsame, List.map_cons, beq_self_eq_true,
    List.map_nil]

/-! ## Keys of a section -/

/-- The entries of a section. -/
def ofPairs (pairs : List (String × Setting)) : Table :=
  pairs.map fun (name, v) => (name, v.toValue)

/-- A name that no pair has is not found. -/
theorem get?_ofPairs_eq_none {pairs : List (String × Setting)} {key : String}
    (h : key ∉ pairs.map Prod.fst) : get? (ofPairs pairs) key = none := by
  refine List.lookup_eq_none_iff.mpr fun e he => ?_
  obtain ⟨pair, hpair, rfl⟩ := List.mem_map.mp he
  exact bne_iff_ne.mpr fun heq => h (List.mem_map.mpr ⟨pair, hpair, heq.symm⟩)

/-- A new name is added at the end. -/
theorem add_new {t : Table} {origin : Origin} (horigin : origin ≠ .dotted) {name : String}
    (h : t.get? name = none) (v : Value) :
    t.add origin ⟨[], name⟩ v = some (t ++ [(name, v)]) := by
  simp [add, changeAt, h, horigin]

/-- **Keys that are new** are added one after the other. -/
theorem addAll_new {origin : Origin} (horigin : origin ≠ .dotted)
    {pairs : List (String × Setting)} (hnodup : (pairs.map Prod.fst).Nodup) {t : Table}
    (hnew : ∀ pair ∈ pairs, t.get? pair.1 = none) :
    t.addAll origin (pairs.map fun (name, v) => (⟨[], name⟩, v.toValue))
      = some (t ++ ofPairs pairs) := by
  induction pairs generalizing t with
  | nil => simp [addAll, ofPairs]
  | cons pair pairs ih =>
    obtain ⟨name, v⟩ := pair
    obtain ⟨hfresh, hnodup⟩ := List.nodup_cons.mp hnodup
    have hadd := add_new horigin (hnew (name, v) (List.mem_cons_self ..)) v.toValue
    have hmore : ∀ pair ∈ pairs, get? (t ++ [(name, v.toValue)]) pair.1 = none := by
      intro pair hpair
      have hne : pair.1 ≠ name := by
        rintro rfl
        exact hfresh (List.mem_map.mpr ⟨pair, hpair, rfl⟩)
      rw [get?_append, hnew pair (List.mem_cons_of_mem _ hpair), get?_singleton_ne hne]
      rfl
    have hrest := ih hnodup hmore
    unfold addAll at hrest ⊢
    rw [List.map_cons, List.foldlM_cons]
    simp only [hadd, Option.bind_eq_bind, Option.bind_some]
    rw [hrest]
    simp [ofPairs]

/-! ## Sections -/

section

variable {pairs : List (String × Setting)} (hnodup : (pairs.map Prod.fst).Nodup)

include hnodup

/-- The start of a document. -/
theorem addSection_top : addSection [] (Settings.toSection ⟨[], pairs⟩) = some (ofPairs pairs) :=
  addAll_new (by decide) hnodup fun _ _ => rfl

/-- A new heading is added with its pairs. -/
theorem openTable_new {t : Table} {name : String} (h : t.get? name = none) (header : Header) :
    addSection.openTable ⟨header, pairs.map fun (name, v) => (⟨[], name⟩, v.toValue)⟩ t name []
      = some (t ++ [(name, .table .header (ofPairs pairs))]) := by
  have hadd : addAll [] .header (pairs.map fun (name, v) => (⟨[], name⟩, v.toValue))
      = some (ofPairs pairs) := addAll_new (by decide) hnodup fun _ _ => rfl
  simp only [addSection.openTable, hadd, put_new h, Option.bind_eq_bind, Option.bind_some]

/-- A table with a header of one name. -/
theorem addSection_table {t : Table} {name : String} (h : t.get? name = none) :
    t.addSection (Settings.toSection ⟨[name], pairs⟩)
      = some (t ++ [(name, .table .header (ofPairs pairs))]) := by
  have hopen := openTable_new hnodup h (.table ⟨[], name⟩)
  have hsection : Settings.toSection ⟨[name], pairs⟩
      = ⟨.table ⟨[], name⟩, pairs.map fun (name, v) => (⟨[], name⟩, v.toValue)⟩ := rfl
  rw [hsection, addSection]
  simp only [changeAt, h]
  exact hopen

/-- The first table with a header of two names. -/
theorem addSection_inner_first {t : Table} {outer name : String} (h : t.get? outer = none) :
    t.addSection (Settings.toSection ⟨[outer, name], pairs⟩)
      = some (t ++ [(outer, .table .implied [(name, .table .header (ofPairs pairs))])]) := by
  have hopen := openTable_new hnodup (get?_nil name) (.table ⟨[outer], name⟩)
  have hsection : Settings.toSection ⟨[outer, name], pairs⟩
      = ⟨.table ⟨[outer], name⟩, pairs.map fun (name, v) => (⟨[], name⟩, v.toValue)⟩ := rfl
  rw [hsection, addSection]
  simp only [changeAt, h]
  simp [hopen, put_new h]

/-- One more table with a header of two names. -/
theorem addSection_inner {t inner : Table} {outer name : String} (h : t.get? outer = none)
    (hinner : inner.get? name = none) :
    addSection (t ++ [(outer, .table .implied inner)])
        (Settings.toSection ⟨[outer, name], pairs⟩)
      = some (t ++ [(outer,
          .table .implied (inner ++ [(name, .table .header (ofPairs pairs))]))]) := by
  have hopen := openTable_new hnodup hinner (.table ⟨[outer], name⟩)
  have hsection : Settings.toSection ⟨[outer, name], pairs⟩
      = ⟨.table ⟨[outer], name⟩, pairs.map fun (name, v) => (⟨[], name⟩, v.toValue)⟩ := rfl
  have hfound : get? (t ++ [(outer, .table .implied inner)]) outer
      = some (.table .implied inner) := by
    rw [get?_append, h, get?_singleton_self]
    rfl
  rw [hsection, addSection]
  simp only [changeAt, hfound]
  simp [hinner, hopen, put_last h]

end

/-- **Sections below one table** add their entries to it, one after the other. -/
theorem addSections_inner {t inner : Table} {outer : String} (h : t.get? outer = none)
    {groups : List (String × List (String × Setting))}
    (hpairs : ∀ group ∈ groups, (group.2.map Prod.fst).Nodup)
    (hnodup : (groups.map Prod.fst).Nodup)
    (hinner : ∀ group ∈ groups, inner.get? group.1 = none) :
    (groups.map fun (name, pairs) => Settings.toSection ⟨[outer, name], pairs⟩).foldlM addSection
        (t ++ [(outer, .table .implied inner)])
      = some (t ++ [(outer, .table .implied (inner ++ groups.map fun (name, pairs) =>
          (name, .table .header (ofPairs pairs))))]) := by
  induction groups generalizing inner with
  | nil => simp
  | cons group groups ih =>
    obtain ⟨name, pairs⟩ := group
    obtain ⟨hfresh, hnodup⟩ := List.nodup_cons.mp hnodup
    have hadd := addSection_inner (hpairs (name, pairs) (List.mem_cons_self ..)) h
      (hinner (name, pairs) (List.mem_cons_self ..))
    have hmore : ∀ group ∈ groups,
        get? (inner ++ [(name, .table .header (ofPairs pairs))]) group.1 = none := by
      intro group hgroup
      have hne : group.1 ≠ name := by
        rintro rfl
        exact hfresh (List.mem_map.mpr ⟨group, hgroup, rfl⟩)
      rw [get?_append, hinner group (List.mem_cons_of_mem _ hgroup), get?_singleton_ne hne]
      rfl
    rw [List.map_cons, List.foldlM_cons]
    simp only [hadd, Option.bind_eq_bind, Option.bind_some]
    rw [ih (fun other hother => hpairs other (List.mem_cons_of_mem _ hother)) hnodup hmore]
    simp

end Table

end VideoTerminal.Toml
