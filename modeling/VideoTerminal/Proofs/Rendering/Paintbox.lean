import Mathlib.Data.List.Basic
import VideoTerminal.Rendering.Ink

/-!
# The cache does not show

What a paintbox answers depends on its palettes only, not on what it has been asked before: the ink
of a color is the one that `Ink.Shows` gives it (`Paintbox.convert?_serveAll`).

`InkCache.Sound` says of a cache that what it remembers is right: each ink for its value, and the
indexed inks for the palette that they were built from.  These are found again by the place of the
palette alone, so that no two palettes may stand in one place (`Paintbox.Sound`).
-/

namespace VideoTerminal

/-! ## What is to be answered -/

namespace Ink

/-- The ink in which a screen of some depth shows a color under a palette. -/
inductive Shows (palette : Palette) : ColorDepth → Color → Ink → Prop
  /-- A screen that knows indices is told the index, and another one the color of the index. -/
  | ansiIndex {n : Nat} (h : n < 256) : Shows palette .ansi256 (.indexed n) (.ansi (.ofNat n))
  | trueIndex {i : Int} {rgb : Rgb} (h : palette.indexed? i = some rgb) :
      Shows palette .trueColor (.indexed i) (.rgb rgb)
  | noIndex (depth : ColorDepth) {i : Int} (h : i < 0 ∨ 255 < i) :
      Shows palette depth (.indexed i) .reset
  /-- The value of a color, or of its role, goes as it is or as the nearest index. -/
  | trueValue {color : Color} {rgb : Rgb} (h : palette.resolve color = .ok rgb) :
      Shows palette .trueColor color (.rgb rgb)
  | ansiValue {color : Color} {rgb : Rgb} (h : palette.resolve color = .ok rgb) :
      Shows palette .ansi256 color (.ansi rgb.nearestIndex)

/-- An indexed color is shown by the ink of its index. -/
theorem shows_ofIndex (depth : ColorDepth) (palette : Palette) {n : Nat} (h : n < 256) :
    Shows palette depth (.indexed n) (ofIndex depth palette n) := by
  cases depth with
  | ansi256 => exact .ansiIndex h
  | trueColor =>
      obtain ⟨rgb, hrgb⟩ := Option.isSome_iff_exists.mp
        ((palette.indexed?_isSome_iff n).mpr ⟨by omega, by omega⟩)
      rw [ofIndex, hrgb]
      exact .trueIndex hrgb

/-- A color that the palette knows has the ink of its components. -/
theorem of_eq_ofRgb (depth : ColorDepth) {palette : Palette} {color : Color} {rgb : Rgb}
    (h : palette.resolve color = .ok rgb) : of depth palette color = ofRgb depth rgb := by
  cases color with
  | indexed i => cases h
  | explicit value => exact congrArg (ofRgb depth) (Except.ok.inj h)
  | role r serial => exact congrArg (ofRgb depth) (Except.ok.inj h)

/-- A color that the palette knows is shown by that ink. -/
theorem shows_ofRgb (depth : ColorDepth) {palette : Palette} {color : Color} {rgb : Rgb}
    (h : palette.resolve color = .ok rgb) : Shows palette depth color (ofRgb depth rgb) := by
  cases depth with
  | ansi256 => exact .ansiValue h
  | trueColor => exact .trueValue h

/-- Every color is shown in some ink. -/
theorem shows_of (depth : ColorDepth) (palette : Palette) (color : Color) :
    Shows palette depth color (of depth palette color) := by
  cases color with
  | indexed i =>
      cases i with
      | ofNat n =>
          rw [of]
          split
          · next h => exact shows_ofIndex depth palette h
          · next h => exact .noIndex depth (.inr (by simp only [Int.ofNat_eq_natCast]; omega))
      | negSucc n => exact .noIndex depth (.inl (Int.negSucc_lt_zero n))
  | explicit rgb => exact shows_ofRgb depth rfl
  | role r serial => exact shows_ofRgb depth rfl

/-- No color is shown in two inks. -/
theorem Shows.eq_of {depth : ColorDepth} {palette : Palette} {color : Color} {ink : Ink}
    (h : Shows palette depth color ink) : ink = of depth palette color := by
  cases h with
  | ansiIndex h => exact (if_pos h).symm
  | @trueIndex i rgb h =>
      have hrange := (palette.indexed?_isSome_iff i).mp (by simp [h])
      obtain ⟨n, rfl⟩ := Int.eq_ofNat_of_zero_le hrange.1
      have hof : of .trueColor palette (.indexed n) = ofIndex .trueColor palette n :=
        if_pos (by omega)
      rw [hof, ofIndex, h]
      rfl
  | @noIndex _ i h =>
      cases i with
      | ofNat n => exact (if_neg (by simp only [Int.ofNat_eq_natCast] at h; omega)).symm
      | negSucc n => rfl
  | trueValue h => exact (of_eq_ofRgb .trueColor h).symm
  | ansiValue h => exact (of_eq_ofRgb .ansi256 h).symm

/-- `Ink.of` finds the ink. -/
theorem shows_iff {depth : ColorDepth} {palette : Palette} {color : Color} {ink : Ink} :
    Shows palette depth color ink ↔ ink = of depth palette color :=
  ⟨Shows.eq_of, fun h => h ▸ shows_of depth palette color⟩

end Ink

/-! ## What a cache remembers -/

namespace RecentInks

variable {recent recent' : RecentInks} {key : Nat} {ink : Ink}

/-- What is found has been remembered under its key, and nothing else comes to be remembered. -/
theorem of_find? (h : recent.find? key = some (ink, recent')) :
    (key, ink) ∈ recent.entries ∧ recent'.entries ⊆ recent.entries ∧
      recent'.entries.length ≤ recent.entries.length := by
  unfold find? at h
  split at h
  · next e he =>
    obtain ⟨rfl, rfl⟩ := Prod.mk.inj (Option.some.inj h)
    have hmem := List.mem_of_find?_eq_some he
    have hkey : e.1 = key := by simpa using List.find?_some he
    refine ⟨by rw [← hkey]; exact hmem, ?_, ?_⟩
    · exact List.cons_subset.mpr ⟨hmem, List.filter_subset_self _⟩
    · have hless := List.length_filter_lt_length_iff_exists (p := fun e => e.1 != key).mpr
        ⟨e, hmem, by simp [hkey]⟩
      exact hless
  · cases h

end RecentInks

namespace InkCache

/-- **What a cache remembers is right.** -/
structure Sound (cache : InkCache) : Prop where
  indexed : cache.indexed = .build cache.depth cache.indexed.source
  recent : ∀ e ∈ cache.recent.entries, ∃ c : Rgb, e = (c.packed, Ink.ofRgb cache.depth c)
  length_le : cache.recent.entries.length ≤ RecentInks.capacity

namespace Sound

variable {cache : InkCache}

/-- An empty cache is sound. -/
theorem new (depth : ColorDepth) : (InkCache.new depth).Sound where
  indexed := rfl
  recent := by simp [InkCache.new]
  length_le := Nat.zero_le _

/-- Other indexed inks, rightly built. -/
theorem rebuild (h : cache.Sound) (source : PaletteHandle) :
    Sound { cache with indexed := .build cache.depth source } where
  indexed := rfl
  recent := h.recent
  length_le := h.length_le

/-- The ink of a value is right, wherever it is found. -/
theorem convertRgb (h : cache.Sound) (c : Rgb) :
    (cache.convertRgb c).1 = Ink.ofRgb cache.depth c ∧ (cache.convertRgb c).2.Sound ∧
      (cache.convertRgb c).2.depth = cache.depth ∧
      (cache.convertRgb c).2.indexed = cache.indexed := by
  unfold InkCache.convertRgb
  split
  · next ink recent hfind =>
    obtain ⟨hmem, hsub, hlen⟩ := RecentInks.of_find? hfind
    have hsound : Sound { cache with recent := recent } :=
      ⟨h.indexed, fun e he => h.recent e (hsub he), Nat.le_trans hlen h.length_le⟩
    refine ⟨?_, hsound, rfl, rfl⟩
    -- The key tells the value.
    obtain ⟨d, hd⟩ := h.recent _ hmem
    obtain ⟨hkey, hink⟩ := Prod.mk.inj hd
    rw [hink, Rgb.packed_injective hkey]
  · refine ⟨rfl, ⟨h.indexed, ?_, RecentInks.length_insert_le _ _ _⟩, rfl, rfl⟩
    intro e he
    rcases List.mem_cons.mp he with rfl | he
    · exact ⟨c, rfl⟩
    · exact h.recent e (List.mem_of_mem_take he)

/-- The inks of a palette are those that would be built for it, kept or not. -/
theorem indexedFor (h : cache.Sound) {source : PaletteHandle}
    (hplace : cache.indexed.source.serial = source.serial → cache.indexed.source = source) :
    cache.indexedFor source = .build cache.depth source := by
  unfold InkCache.indexedFor
  split
  · next hserial => rw [h.indexed, hplace hserial]
  · rfl

end Sound

/-- What is built has the ink of each index. -/
theorem getD_build (depth : ColorDepth) (source : PaletteHandle) (n : Nat) :
    (IndexedInks.build depth source).inks.getD n .reset =
      Ink.of depth source.palette (.indexed n) := by
  change _ = if n < 256 then _ else _
  split
  · next h => simp [IndexedInks.build, Array.getD, h]
  · next h => simp [IndexedInks.build, Array.getD, h]

/-- **A conversion is right**, if the palette is the only one in its place. -/
theorem Sound.convert {cache : InkCache} (h : cache.Sound) {source : PaletteHandle}
    (hplace : cache.indexed.source.serial = source.serial → cache.indexed.source = source)
    (color : Color) :
    (cache.convert source color).1 = Ink.of cache.depth source.palette color ∧
      (cache.convert source color).2.Sound ∧
      (cache.convert source color).2.depth = cache.depth ∧
      ((cache.convert source color).2.indexed.source = cache.indexed.source ∨
        (cache.convert source color).2.indexed.source = source) := by
  cases color with
  | indexed i =>
      cases i with
      | negSucc n => exact ⟨rfl, h, rfl, .inl rfl⟩
      | ofNat n =>
          change ((cache.indexedFor source).inks.getD n .reset = _) ∧
            Sound { cache with indexed := cache.indexedFor source } ∧ _ ∧
            (_ ∨ (cache.indexedFor source).source = source)
          rw [h.indexedFor hplace]
          exact ⟨getD_build _ _ _, h.rebuild source, rfl, .inr rfl⟩
  | explicit c =>
      obtain ⟨hink, hsound, hdepth, hindexed⟩ := h.convertRgb c
      exact ⟨hink, hsound, hdepth, .inl (congrArg IndexedInks.source hindexed)⟩
  | role r serial =>
      obtain ⟨hink, hsound, hdepth, hindexed⟩ := h.convertRgb (source.palette.role r)
      exact ⟨hink, hsound, hdepth, .inl (congrArg IndexedInks.source hindexed)⟩

end InkCache

/-! ## What a paintbox answers -/

namespace Paintbox

/-- What a program may ask of a paintbox. -/
inductive Request (ε : Type)
  /-- A palette is put into a place of its own. -/
  | keep (palette : Palette)
  /-- A palette is made the current one, if it was found. -/
  | install (found : Except ε Palette)
  /-- The ink of a color is asked for, under one of the palettes. -/
  | convert (n : Nat) (color : Color)

variable {ε : Type}

/-- The palette that a request adds to the box: where one was looked for in vain, the standard
palette. -/
def Request.added? : Request ε → Option Palette
  | .keep palette => some palette
  | .install (.ok palette) => some palette
  | .install (.error _) => some .standard
  | .convert _ _ => none

/-- Does what is asked. -/
def serve (box : Paintbox) : Request ε → Paintbox
  | .keep palette => box.keep palette
  | .install found => box.install found
  | .convert n color => (box.convert? n color).2

/-- Does what is asked, one request after another. -/
def serveAll (box : Paintbox) (requests : List (Request ε)) : Paintbox :=
  requests.foldl serve box

/-- The cache is right, and the palette of its indexed inks is its own or stands in its place in the
box. -/
structure Sound (box : Paintbox) : Prop where
  cache : box.cache.Sound
  source : box.cache.indexed.source.serial = 0 ∨
    ∃ n, box.handle? n = some box.cache.indexed.source

variable {box : Paintbox}

/-- The palettes are numbered in the order in which they were kept. -/
theorem serial_of_handle? {n : Nat} {source : PaletteHandle} (h : box.handle? n = some source) :
    source.serial = n + 1 := by
  obtain ⟨palette, -, rfl⟩ := Option.map_eq_some_iff.mp h
  rfl

/-- No two palettes stand in one place. -/
theorem Sound.eq_of_serial (h : box.Sound) {n : Nat} {source : PaletteHandle}
    (hn : box.handle? n = some source)
    (hserial : box.cache.indexed.source.serial = source.serial) :
    box.cache.indexed.source = source := by
  have hplace := serial_of_handle? hn
  rcases h.source with hown | ⟨m, hm⟩
  · omega
  · have hplace' := serial_of_handle? hm
    obtain rfl : m = n := by omega
    exact Option.some.inj (hm.symm.trans hn)

/-- What has been kept stays in its place. -/
theorem handle?_keep {n : Nat} {source : PaletteHandle} (h : box.handle? n = some source)
    (palette : Palette) : (box.keep palette).handle? n = some source := by
  obtain ⟨kept, hkept, rfl⟩ := Option.map_eq_some_iff.mp h
  have hlt : n < box.palettes.length := (List.getElem?_eq_some_iff.mp hkept).1
  rw [handle?, keep, List.getElem?_append_left hlt, hkept]
  rfl

namespace Sound

theorem new (depth : ColorDepth) : (Paintbox.new depth).Sound := ⟨.new depth, .inl rfl⟩

/-- A further palette keeps the box sound. -/
theorem keep (h : box.Sound) (palette : Palette) : (box.keep palette).Sound :=
  ⟨h.cache, h.source.imp_right fun ⟨n, hn⟩ => ⟨n, handle?_keep hn palette⟩⟩

/-- A palette that is made the current one stands in the last place. -/
theorem install (h : box.Sound) (found : Except ε Palette) : (box.install found).Sound where
  cache := h.cache.rebuild _
  source := .inr ⟨box.palettes.length, by
    unfold handle? Paintbox.install Paintbox.keep
    rw [List.getElem?_append_right (Nat.le_refl _)]
    simp [InkCache.install, IndexedInks.build]⟩

/-- **An answer is right.** -/
theorem convert?_eq (h : box.Sound) (n : Nat) (color : Color) :
    (box.convert? n color).1 =
        box.palettes[n]?.map (fun palette => Ink.of box.cache.depth palette color) ∧
      (box.convert? n color).2.Sound ∧
      (box.convert? n color).2.palettes = box.palettes ∧
      (box.convert? n color).2.cache.depth = box.cache.depth := by
  unfold convert?
  split
  · next source hn =>
    obtain ⟨hink, hsound, hdepth, hsource⟩ := h.cache.convert (h.eq_of_serial hn) color
    refine ⟨?_, ⟨hsound, ?_⟩, rfl, hdepth⟩
    · obtain ⟨palette, hpalette, rfl⟩ := Option.map_eq_some_iff.mp hn
      rw [hpalette]
      exact congrArg some hink
    · rcases hsource with hsame | hnew
      · change (box.cache.convert source color).2.indexed.source.serial = 0 ∨
          ∃ m, box.handle? m = some (box.cache.convert source color).2.indexed.source
        rw [hsame]
        exact h.source
      · exact .inr ⟨n, hn.trans (congrArg some hnew.symm)⟩
  · next hn =>
    refine ⟨?_, h, rfl, rfl⟩
    rw [Option.map_eq_none_iff.mp hn]
    rfl

/-- One request. -/
theorem serve (h : box.Sound) (request : Request ε) :
    (box.serve request).Sound ∧ (box.serve request).cache.depth = box.cache.depth ∧
      (box.serve request).palettes = box.palettes ++ request.added?.toList := by
  cases request with
  | keep palette => exact ⟨h.keep palette, rfl, rfl⟩
  | install found =>
      refine ⟨h.install found, rfl, ?_⟩
      cases found <;> rfl
  | convert n color =>
      obtain ⟨-, hsound, hpalettes, hdepth⟩ := h.convert?_eq n color
      exact ⟨hsound, hdepth, hpalettes.trans (List.append_nil _).symm⟩

/-- Any requests. -/
theorem serveAll (h : box.Sound) (requests : List (Request ε)) :
    (box.serveAll requests).Sound ∧ (box.serveAll requests).cache.depth = box.cache.depth ∧
      (box.serveAll requests).palettes =
        box.palettes ++ requests.filterMap Request.added? := by
  induction requests generalizing box with
  | nil => exact ⟨h, rfl, (List.append_nil _).symm⟩
  | cons request requests ih =>
      obtain ⟨hsound, hdepth, hpalettes⟩ := h.serve request
      obtain ⟨hsound', hdepth', hpalettes'⟩ := ih hsound
      refine ⟨hsound', hdepth'.trans hdepth, hpalettes'.trans ?_⟩
      rw [hpalettes, List.append_assoc]
      cases hadded : request.added? <;> simp [hadded]

end Sound

/-- **The cache does not show.**  Whatever a paintbox has been asked before, it holds the palettes
that were put into it, a palette that was not found being the standard one, and converts every color
under each of them as without a cache.  Of values it remembers at most 512. -/
theorem convert?_serveAll (depth : ColorDepth) (requests : List (Request ε)) :
    let box := (new depth).serveAll requests
    box.palettes = requests.filterMap Request.added? ∧
      (∀ n palette color, box.palettes[n]? = some palette →
        (box.convert? n color).1 = some (Ink.of depth palette color) ∧
          ∀ ink, Ink.Shows palette depth color ink ↔ ink = Ink.of depth palette color) ∧
      box.cache.recent.entries.length ≤ 512 := by
  intro box
  obtain ⟨hsound, hdepth, hpalettes⟩ := (Sound.new depth).serveAll requests
  refine ⟨hpalettes, ?_, hsound.cache.length_le⟩
  intro n palette color hn
  refine ⟨?_, fun ink => Ink.shows_iff⟩
  rw [(hsound.convert?_eq n color).1, hdepth, hn]
  rfl

end Paintbox

end VideoTerminal
