import VideoTerminal.Palette.Nearest

/-!
# Inks

An ink is a color as a screen is told of it.  `Ink.of` finds it for a color; `InkCache.convert`
finds the same, and remembers: all 256 indexed inks of the palette used last, and the inks of the
last 512 values.

Palettes are large and seldom change, so that the cache tells them apart by the place they are kept
in: a `Paintbox` holds palettes in their places, with a cache.
-/

namespace VideoTerminal

/-- The colors that a screen can show. -/
inductive ColorDepth
  | trueColor | ansi256
  deriving DecidableEq, Repr

/-- The printed name of a depth. -/
def ColorDepth.name : ColorDepth → String
  | .trueColor => "TrueColor"
  | .ansi256 => "Ansi256"

/-- A color as a screen is told of it. -/
inductive Ink
  /-- The color that the screen uses by itself. -/
  | reset
  | ansi (index : UInt8)
  | rgb (value : Rgb)
  deriving DecidableEq, Repr

namespace Ink

/-- The ink of a value. -/
def ofRgb (depth : ColorDepth) (c : Rgb) : Ink :=
  match depth with
  | .trueColor => .rgb c
  | .ansi256 => .ansi c.nearestIndex

/-- The ink of an index from 0 to 255. -/
def ofIndex (depth : ColorDepth) (palette : Palette) (index : Nat) : Ink :=
  match depth with
  | .ansi256 => .ansi (.ofNat index)
  | .trueColor => (palette.indexed? index).elim .reset .rgb

/-- The ink of a color under a palette; an index outside 0 to 255 has none. -/
def of (depth : ColorDepth) (palette : Palette) (c : Color) : Ink :=
  match c with
  | .indexed (.ofNat n) => if n < 256 then ofIndex depth palette n else .reset
  | .indexed (.negSucc _) => .reset
  | .explicit v => ofRgb depth v
  | .role r _ => ofRgb depth (palette.role r)

/-- The parameters that ask for an ink, behind the 3 or 4 that says what for. -/
def parameters : Ink → String
  | .reset => "9"
  | .ansi i => "8;5;" ++ toString i.toNat
  | .rgb c =>
    "8;2;" ++ toString c.r.toNat ++ ";" ++ toString c.g.toNat ++ ";" ++ toString c.b.toNat

end Ink

/-- A palette as a program holds it: the palette and the serial number of the place it is kept in.
Copies share the place; palettes that are kept separately do not, even if they are equal. -/
structure PaletteHandle where
  palette : Palette
  serial : Nat
  deriving DecidableEq

/-- The inks of all indices under one palette. -/
structure IndexedInks where
  source : PaletteHandle
  inks : Array Ink
  deriving DecidableEq

/-- The inks of all indices. -/
def IndexedInks.build (depth : ColorDepth) (source : PaletteHandle) : IndexedInks where
  source := source
  inks := Array.ofFn fun i : Fin 256 => Ink.ofIndex depth source.palette i

/-- The inks found last, the latest first.  Each stands under its packed value. -/
structure RecentInks where
  entries : List (Nat × Ink) := []
  deriving DecidableEq, Repr

namespace RecentInks

/-- Inks that are remembered. -/
def capacity : Nat := 512

/-- Looks an ink up; if it is there, it is now the latest. -/
def find? (recent : RecentInks) (key : Nat) : Option (Ink × RecentInks) :=
  match recent.entries.find? fun e => e.1 == key with
  | some e => some (e.2, ⟨e :: recent.entries.filter fun e => e.1 != key⟩)
  | none => none

/-- Adds an ink; the one that was not used for longest is forgotten if there is no room. -/
def insert (recent : RecentInks) (key : Nat) (ink : Ink) : RecentInks :=
  ⟨(key, ink) :: recent.entries.take (capacity - 1)⟩

/-- However many inks are asked for, no more are kept than there is room for. -/
theorem length_insert_le (recent : RecentInks) (key : Nat) (ink : Ink) :
    (recent.insert key ink).entries.length ≤ capacity := by
  simp only [insert, capacity, List.length_cons, List.length_take]
  omega

end RecentInks

/-- Inks that have been found before. -/
structure InkCache where
  depth : ColorDepth
  indexed : IndexedInks
  recent : RecentInks := {}
  deriving DecidableEq

namespace InkCache

/-- An empty cache.  It begins with the standard palette, which it keeps in the place 0. -/
def new (depth : ColorDepth) : InkCache where
  depth := depth
  indexed := .build depth ⟨.standard, 0⟩

/-- Makes a palette the current one, in a new place; where it could not be found, the standard
one. -/
def install {ε : Type} (cache : InkCache) (serial : Nat) (found : Except ε Palette) :
    PaletteHandle × InkCache :=
  let source : PaletteHandle := ⟨found.toOption.getD .standard, serial⟩
  (source, { cache with indexed := .build cache.depth source })

/-- The indexed inks under a palette.  They are built anew unless it is the same object. -/
def indexedFor (cache : InkCache) (source : PaletteHandle) : IndexedInks :=
  if cache.indexed.source.serial = source.serial then cache.indexed
  else .build cache.depth source

/-- The ink of an index. -/
def convertIndexed (cache : InkCache) (source : PaletteHandle) (index : Int) : Ink × InkCache :=
  match index with
  | .negSucc _ => (.reset, cache)
  | .ofNat n =>
    let indexed := cache.indexedFor source
    (indexed.inks.getD n .reset, { cache with indexed := indexed })

/-- The ink of a value. -/
def convertRgb (cache : InkCache) (c : Rgb) : Ink × InkCache :=
  match cache.recent.find? c.packed with
  | some (ink, recent) => (ink, { cache with recent := recent })
  | none =>
    let ink := Ink.ofRgb cache.depth c
    (ink, { cache with recent := cache.recent.insert c.packed ink })

/-- The ink of a color under a palette. -/
def convert (cache : InkCache) (source : PaletteHandle) (c : Color) : Ink × InkCache :=
  match c with
  | .indexed i => cache.convertIndexed source i
  | .explicit v => cache.convertRgb v
  | .role r _ => cache.convertRgb (source.palette.role r)

end InkCache

/-- The palettes that a program keeps, each in a place of its own, and the cache that it asks. -/
structure Paintbox where
  palettes : List Palette := []
  cache : InkCache
  deriving DecidableEq

namespace Paintbox

/-- A box without palettes. -/
def new (depth : ColorDepth) : Paintbox where
  cache := .new depth

/-- A palette of the box.  Its place is counted from 1, since the place 0 is the cache's. -/
def handle? (box : Paintbox) (n : Nat) : Option PaletteHandle :=
  box.palettes[n]?.map fun palette => ⟨palette, n + 1⟩

/-- Keeps a palette, behind all others. -/
def keep (box : Paintbox) (palette : Palette) : Paintbox :=
  { box with palettes := box.palettes ++ [palette] }

/-- Makes a palette the current one, and keeps it. -/
def install {ε : Type} (box : Paintbox) (found : Except ε Palette) : Paintbox :=
  let (source, cache) := box.cache.install (box.palettes.length + 1) found
  { box with cache := cache }.keep source.palette

/-- The ink of a color under a palette of the box. -/
def convert? (box : Paintbox) (n : Nat) (c : Color) : Option Ink × Paintbox :=
  match box.handle? n with
  | some source =>
    let (ink, cache) := box.cache.convert source c
    (some ink, { box with cache := cache })
  | none => (none, box)

end Paintbox

end VideoTerminal
