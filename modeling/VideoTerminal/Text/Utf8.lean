/-!
# Decoding UTF-8

Bytes become characters, and what is not UTF-8 becomes `U+FFFD`: one for each longest run of bytes
that could begin a character but does not go on as one.  `head` reads one character or one such run,
`scan` reads as far as the bytes are conclusive and returns what is left, at most three bytes that
begin a character.  `Decoder` keeps these between calls, so that a text may arrive in pieces;
`decodeLossy` takes the whole text at once.
-/

namespace VideoTerminal.Text.Utf8

/-- Stands for bytes that are not UTF-8. -/
def replacement : Char := '\uFFFD'

/-- A byte that continues a character. -/
def isTail (b : UInt8) : Bool := 0x80 ≤ b && b ≤ 0xBF

/-- The length that a first byte announces, with the least and the greatest second byte; none where
no character begins so. -/
def lead? (b : UInt8) : Option (Nat × UInt8 × UInt8) :=
  if 0xC2 ≤ b && b ≤ 0xDF then some (2, 0x80, 0xBF)
  else if b == 0xE0 then some (3, 0xA0, 0xBF)
  else if b == 0xED then some (3, 0x80, 0x9F)
  else if 0xE1 ≤ b && b ≤ 0xEF then some (3, 0x80, 0xBF)
  else if b == 0xF0 then some (4, 0x90, 0xBF)
  else if 0xF1 ≤ b && b ≤ 0xF3 then some (4, 0x80, 0xBF)
  else if b == 0xF4 then some (4, 0x80, 0x8F)
  else none

/-- The low six bits of a continuing byte. -/
def tailBits (b : UInt8) : Nat := b.toNat % 64

/-- The character of a first byte and its tails. -/
def assemble (b : UInt8) : List UInt8 → Char
  | [c] => .ofNat (b.toNat % 32 * 64 + tailBits c)
  | [c, d] => .ofNat ((b.toNat % 16 * 64 + tailBits c) * 64 + tailBits d)
  | [c, d, e] => .ofNat (((b.toNat % 8 * 64 + tailBits c) * 64 + tailBits d) * 64 + tailBits e)
  | _ => .ofNat b.toNat

/-- What the bytes begin with. -/
inductive Head
  /-- A character, and the bytes after it. -/
  | char (c : Char) (rest : List UInt8)
  /-- Bytes that begin no character, and the bytes after them. -/
  | malformed (rest : List UInt8)
  /-- A character that is cut off by the end of the bytes. -/
  | truncated
  deriving DecidableEq, Repr

/-- Reads the bytes after a first byte `b` that announces `n` bytes in all. -/
def headMultibyte (b : UInt8) (n : Nat) (low high : UInt8) : List UInt8 → Head
  | [] => .truncated
  | c :: rest =>
    if c < low || high < c then .malformed (c :: rest)
    else if n == 2 then .char (assemble b [c]) rest
    else match rest with
      | [] => .truncated
      | d :: rest =>
        if !isTail d then .malformed (d :: rest)
        else if n == 3 then .char (assemble b [c, d]) rest
        else match rest with
          | [] => .truncated
          | e :: rest =>
            if !isTail e then .malformed (e :: rest)
            else .char (assemble b [c, d, e]) rest

/-- Reads one character, or the longest run of bytes that begins one and does not go on as one. -/
def head (b : UInt8) (rest : List UInt8) : Head :=
  if b < 0x80 then .char (.ofNat b.toNat) rest
  else match lead? b with
    | none => .malformed rest
    | some (n, low, high) => headMultibyte b n low high rest

/-- A character takes its first byte and those behind it. -/
theorem length_headMultibyte_char {b low high : UInt8} {n : Nat} {bytes rest : List UInt8} {c : Char}
    (h : headMultibyte b n low high bytes = .char c rest) : rest.length < bytes.length := by
  unfold headMultibyte at h
  repeat' split at h
  all_goals cases h
  all_goals simp only [List.length_cons]
  all_goals omega

/-- What is no character may end with the first byte. -/
theorem length_headMultibyte_malformed {b low high : UInt8} {n : Nat} {bytes rest : List UInt8}
    (h : headMultibyte b n low high bytes = .malformed rest) : rest.length ≤ bytes.length := by
  unfold headMultibyte at h
  repeat' split at h
  all_goals cases h
  all_goals simp only [List.length_cons]
  all_goals omega

/-- A character takes at least the byte that it begins with. -/
theorem length_head_char {b : UInt8} {bytes rest : List UInt8} {c : Char}
    (h : head b bytes = .char c rest) : rest.length ≤ bytes.length := by
  unfold head at h
  repeat' split at h
  · cases h; simp
  · cases h
  · exact Nat.le_of_lt (length_headMultibyte_char h)

/-- So does what begins no character. -/
theorem length_head_malformed {b : UInt8} {bytes rest : List UInt8}
    (h : head b bytes = .malformed rest) : rest.length ≤ bytes.length := by
  unfold head at h
  repeat' split at h
  · cases h
  · cases h; simp
  · exact length_headMultibyte_malformed h

/-- Decodes as far as the bytes are conclusive.  `text` holds what has been decoded, the latest
character first; the bytes left over begin a character that they do not finish. -/
def scan (text : List Char) (bytes : List UInt8) : List Char × List UInt8 :=
  match bytes with
  | [] => (text, [])
  | b :: rest =>
    match _h : head b rest with
    | .char c more => scan (c :: text) more
    | .malformed more => scan (replacement :: text) more
    | .truncated => (text, b :: rest)
termination_by bytes.length
decreasing_by
  · have := length_head_char _h; simp; omega
  · have := length_head_malformed _h; simp; omega

/-- Decodes all bytes at once; a character cut off at the end is one more `U+FFFD`. -/
def decodeLossy (bytes : List UInt8) : List Char :=
  match scan [] bytes with
  | (text, []) => text.reverse
  | (text, _ :: _) => (replacement :: text).reverse

/-- Decodes all bytes at once, or not at all where they are not UTF-8. -/
def decode? (bytes : List UInt8) : Option (List Char) :=
  go [] bytes
where
  /-- Reads character by character and gives up at the first fault. -/
  go (text : List Char) (bytes : List UInt8) : Option (List Char) :=
    match bytes with
    | [] => some text.reverse
    | b :: rest =>
      match _h : head b rest with
      | .char c more => go (c :: text) more
      | _ => none
  termination_by bytes.length
  decreasing_by
    have := length_head_char _h; simp; omega

/-- A decoder for a text that arrives in pieces: the bytes that begin a character and do not finish
it yet. -/
structure Decoder where
  pending : List UInt8 := []
  deriving DecidableEq, Repr

/-- The characters that `bytes` complete. -/
def Decoder.decode (d : Decoder) (bytes : List UInt8) : List Char × Decoder :=
  let (text, left) := scan [] (d.pending ++ bytes)
  (text.reverse, ⟨left⟩)

/-- At the end of the text, a character cut off decodes to `U+FFFD`. -/
def Decoder.finish (d : Decoder) : List Char × Decoder :=
  (if d.pending.isEmpty then [] else [replacement], {})

/-- The bytes of a character. -/
def encodeChar (c : Char) : List UInt8 := (String.singleton c).toUTF8.toList

/-- The bytes of a text. -/
def encode (text : List Char) : List UInt8 := (String.ofList text).toUTF8.toList

end VideoTerminal.Text.Utf8
