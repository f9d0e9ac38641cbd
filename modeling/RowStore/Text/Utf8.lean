/-!
Texts as bytes, in UTF-8.

1. `Utf8.encode` writes a text; `Utf8.decode?` reads bytes that are such a text and nothing else.
2. `Utf8.decodeLossy` reads any bytes.  Each longest run of bytes that begins a character but
   does not finish one becomes a single replacement character; a byte that begins none becomes
   one by itself.
3. `Utf8.clip n` is the longest beginning of a text that needs at most `n` bytes; it never cuts
   a character (`clip_prefix`, `size_clip_le`), and a text that fits is left alone
   (`clip_of_size_le`).
-/

namespace RowStore.Text.Utf8

/-! ## Writing -/

/-- The bytes of some characters. -/
def encodeChars (cs : List Char) : List UInt8 := cs.flatMap String.utf8EncodeChar

/-- The bytes of a text. -/
def encode (s : String) : List UInt8 := encodeChars s.toList

/-! ## Reading -/

/-- Stands for bytes that are no character. -/
def replacement : Char := '\uFFFD'

/-- Number of bytes of the character that `lead` begins, zero when it begins none. -/
def width (lead : UInt8) : Nat :=
  if lead < 0x80 then 1
  else if 0xC2 ≤ lead && lead ≤ 0xDF then 2
  else if 0xE0 ≤ lead && lead ≤ 0xEF then 3
  else if 0xF0 ≤ lead && lead ≤ 0xF4 then 4
  else 0

/-- Whether `b` can stand inside a character. -/
def isTail (b : UInt8) : Bool := 0x80 ≤ b && b ≤ 0xBF

/-- Whether `b` can follow `lead`.  Four leads allow only a part of the tail bytes, so that no
    character has a longer form than it needs, none is a surrogate and none is too large. -/
def isSecond (lead b : UInt8) : Bool :=
  if lead = 0xE0 then 0xA0 ≤ b && b ≤ 0xBF
  else if lead = 0xED then 0x80 ≤ b && b ≤ 0x9F
  else if lead = 0xF0 then 0x90 ≤ b && b ≤ 0xBF
  else if lead = 0xF4 then 0x80 ≤ b && b ≤ 0x8F
  else isTail b

/-- The six bits that a tail byte adds to a code point. -/
def extend (high : Nat) (b : UInt8) : Nat := high * 64 + b.toNat % 64

/-- Reads any bytes as a text. -/
def decodeLossy : List UInt8 → List Char
  | [] => []
  | a :: rest =>
    match width a with
    | 1 => Char.ofNat a.toNat :: decodeLossy rest
    | 2 =>
      match rest with
      | [] => [replacement]
      | b :: tail =>
        if isSecond a b then Char.ofNat (extend (a.toNat % 32) b) :: decodeLossy tail
        else replacement :: decodeLossy (b :: tail)
    | 3 =>
      match rest with
      | [] => [replacement]
      | b :: tail =>
        if isSecond a b then
          match tail with
          | [] => [replacement]
          | c :: tail =>
            if isTail c then
              Char.ofNat (extend (extend (a.toNat % 16) b) c) :: decodeLossy tail
            else replacement :: decodeLossy (c :: tail)
        else replacement :: decodeLossy (b :: tail)
    | 4 =>
      match rest with
      | [] => [replacement]
      | b :: tail =>
        if isSecond a b then
          match tail with
          | [] => [replacement]
          | c :: tail =>
            if isTail c then
              match tail with
              | [] => [replacement]
              | d :: tail =>
                if isTail d then
                  Char.ofNat (extend (extend (extend (a.toNat % 8) b) c) d) :: decodeLossy tail
                else replacement :: decodeLossy (d :: tail)
            else replacement :: decodeLossy (c :: tail)
        else replacement :: decodeLossy (b :: tail)
    | _ => replacement :: decodeLossy rest

/-- Reads bytes that are a text, and refuses all others: they are a text exactly when writing
    what was read gives them back. -/
def decode? (bytes : List UInt8) : Option String :=
  let cs := decodeLossy bytes
  if encodeChars cs = bytes then some (String.ofList cs) else none

/-! ## Clipping -/

/-- The longest beginning of `cs` that needs at most `n` bytes. -/
def clip (n : Nat) : List Char → List Char
  | [] => []
  | c :: cs => if c.utf8Size ≤ n then c :: clip (n - c.utf8Size) cs else []

/-- Number of bytes of some characters. -/
def size : List Char → Nat
  | [] => 0
  | c :: cs => c.utf8Size + size cs

theorem length_encodeChars (cs : List Char) : (encodeChars cs).length = size cs := by
  induction cs with
  | nil => rfl
  | cons c cs ih =>
    rw [size, ← ih]
    simp [encodeChars, String.length_utf8EncodeChar]

theorem clip_prefix (n : Nat) (cs : List Char) : clip n cs <+: cs := by
  induction cs generalizing n with
  | nil => simp [clip]
  | cons c cs ih =>
    unfold clip
    split
    · exact List.cons_prefix_cons.mpr ⟨rfl, ih _⟩
    · exact List.nil_prefix

theorem size_clip_le (n : Nat) (cs : List Char) : size (clip n cs) ≤ n := by
  induction cs generalizing n with
  | nil => simp [clip, size]
  | cons c cs ih =>
    unfold clip
    split
    · have := ih (n - c.utf8Size)
      simp only [size]
      omega
    · simp [size]

theorem clip_of_size_le {n : Nat} {cs : List Char} (h : size cs ≤ n) : clip n cs = cs := by
  induction cs generalizing n with
  | nil => rfl
  | cons c cs ih =>
    simp only [size] at h
    unfold clip
    rw [if_pos (by omega), ih (by omega)]

/-- Clipping again at the same width changes nothing. -/
theorem clip_clip (n : Nat) (cs : List Char) : clip n (clip n cs) = clip n cs :=
  clip_of_size_le (size_clip_le n cs)

example : decodeLossy [0x61, 0xC3, 0xA9, 0xE2, 0x82, 0x61] = ['a', 'é', replacement, 'a'] := by
  decide
example : decodeLossy [0xED, 0xA0, 0x80] = [replacement, replacement, replacement] := by decide
example : decodeLossy [0xF0, 0x9F, 0x98] = [replacement] := by decide
example : decode? [0xC3, 0xA9] = some "é" ∧ decode? [0xC3] = none := by decide
example : clip 3 ['é', 'é'] = ['é'] := by decide

end RowStore.Text.Utf8
