import RowStore.Text.Utf8

/-!
Texts that were written are read back.

A character is written as one to four bytes, according to its size.  The first byte says how many
follow (`width_ofNat`), those that follow are tail bytes, and the second one is among those that
the first allows (`isSecond_ofNat`): this is where it matters that a character is no surrogate and
not too large (`decodeLossy_three_bytes`, `decodeLossy_four_bytes`).  So reading goes on exactly after
the character, with the character itself (`decodeLossy_encodeChar_append`), and a text comes back as
it was (`decodeLossy_encodeChars`).
-/

namespace RowStore.Text.Utf8

theorem width_ofNat {n : Nat} (hn : n < 256) :
    width (UInt8.ofNat n) =
      if n < 0x80 then 1
      else if 0xC2 ≤ n ∧ n ≤ 0xDF then 2
      else if 0xE0 ≤ n ∧ n ≤ 0xEF then 3
      else if 0xF0 ≤ n ∧ n ≤ 0xF4 then 4
      else 0 := by
  have hmod : n % 256 = n := Nat.mod_eq_of_lt hn
  simp [width, UInt8.le_iff_toNat_le, UInt8.lt_iff_toNat_lt, hmod]

theorem isTail_ofNat {n : Nat} (hn : n < 256) :
    isTail (UInt8.ofNat n) = decide (0x80 ≤ n ∧ n ≤ 0xBF) := by
  have hmod : n % 256 = n := Nat.mod_eq_of_lt hn
  simp [isTail, UInt8.le_iff_toNat_le, hmod]

theorem isSecond_ofNat {m n : Nat} (hm : m < 256) (hn : n < 256) :
    isSecond (UInt8.ofNat m) (UInt8.ofNat n) =
      if m = 0xE0 then decide (0xA0 ≤ n ∧ n ≤ 0xBF)
      else if m = 0xED then decide (0x80 ≤ n ∧ n ≤ 0x9F)
      else if m = 0xF0 then decide (0x90 ≤ n ∧ n ≤ 0xBF)
      else if m = 0xF4 then decide (0x80 ≤ n ∧ n ≤ 0x8F)
      else decide (0x80 ≤ n ∧ n ≤ 0xBF) := by
  have hm' : m % 256 = m := Nat.mod_eq_of_lt hm
  have hn' : n % 256 = n := Nat.mod_eq_of_lt hn
  simp [isSecond, isTail, UInt8.le_iff_toNat_le, ← UInt8.toNat_inj, hm', hn']

theorem toNat_ofNat_of_lt {n : Nat} (hn : n < 256) : (UInt8.ofNat n).toNat = n := by
  simp [Nat.mod_eq_of_lt hn]

/-! ## Reading one character -/

section Reading

variable {a b c d : UInt8} {rest : List UInt8}

theorem decodeLossy_one (ha : width a = 1) :
    decodeLossy (a :: rest) = Char.ofNat a.toNat :: decodeLossy rest := by
  rw [decodeLossy.eq_def]
  simp only [ha]

theorem decodeLossy_two (ha : width a = 2) (hb : isSecond a b = true) :
    decodeLossy (a :: b :: rest) = Char.ofNat (extend (a.toNat % 32) b) :: decodeLossy rest := by
  rw [decodeLossy.eq_def]
  simp only [ha, hb, if_true]

theorem decodeLossy_three (ha : width a = 3) (hb : isSecond a b = true) (hc : isTail c = true) :
    decodeLossy (a :: b :: c :: rest) =
      Char.ofNat (extend (extend (a.toNat % 16) b) c) :: decodeLossy rest := by
  rw [decodeLossy.eq_def]
  simp only [ha, hb, hc, if_true]

theorem decodeLossy_four (ha : width a = 4) (hb : isSecond a b = true) (hc : isTail c = true)
    (hd : isTail d = true) :
    decodeLossy (a :: b :: c :: d :: rest) =
      Char.ofNat (extend (extend (extend (a.toNat % 8) b) c) d) :: decodeLossy rest := by
  rw [decodeLossy.eq_def]
  simp only [ha, hb, hc, hd, if_true]

end Reading

/-! ## Reading the bytes of a number

The four ways in which a number is written, each read back by the lemma above for its length. -/

section Written

variable {v : Nat} {rest : List UInt8}

theorem isTail_written (n : Nat) : isTail (UInt8.ofNat (n % 0x40 + 0x80)) = true := by
  rw [isTail_ofNat (by omega), decide_eq_true_eq]
  omega

theorem decodeLossy_one_byte (hv : v ≤ 0x7F) :
    decodeLossy (UInt8.ofNat v :: rest) = Char.ofNat v :: decodeLossy rest := by
  have hwidth : width (UInt8.ofNat v) = 1 := by
    rw [width_ofNat (by omega), if_pos (by omega)]
  rw [decodeLossy_one hwidth, toNat_ofNat_of_lt (by omega)]

theorem decodeLossy_two_bytes (hlow : 0x7F < v) (hhigh : v ≤ 0x7FF) :
    decodeLossy (UInt8.ofNat (v / 64 % 0x20 + 0xC0) :: UInt8.ofNat (v % 0x40 + 0x80) :: rest) =
      Char.ofNat v :: decodeLossy rest := by
  have hwidth : width (UInt8.ofNat (v / 64 % 0x20 + 0xC0)) = 2 := by
    rw [width_ofNat (by omega), if_neg (by omega), if_pos (by omega)]
  have hsecond : isSecond (UInt8.ofNat (v / 64 % 0x20 + 0xC0))
      (UInt8.ofNat (v % 0x40 + 0x80)) = true := by
    rw [isSecond_ofNat (by omega) (by omega), if_neg (by omega), if_neg (by omega),
      if_neg (by omega), if_neg (by omega), decide_eq_true_eq]
    omega
  have hvalue : extend ((UInt8.ofNat (v / 64 % 0x20 + 0xC0)).toNat % 32)
      (UInt8.ofNat (v % 0x40 + 0x80)) = v := by
    rw [extend, toNat_ofNat_of_lt (by omega), toNat_ofNat_of_lt (by omega)]
    omega
  rw [decodeLossy_two hwidth hsecond, hvalue]

theorem decodeLossy_three_bytes (hlow : 0x7FF < v) (hhigh : v ≤ 0xFFFF)
    (hsurrogate : v < 0xD800 ∨ 0xDFFF < v) :
    decodeLossy (UInt8.ofNat (v / 4096 % 0x10 + 0xE0) :: UInt8.ofNat (v / 64 % 0x40 + 0x80) ::
      UInt8.ofNat (v % 0x40 + 0x80) :: rest) = Char.ofNat v :: decodeLossy rest := by
  have hwidth : width (UInt8.ofNat (v / 4096 % 0x10 + 0xE0)) = 3 := by
    rw [width_ofNat (by omega), if_neg (by omega), if_neg (by omega), if_pos (by omega)]
  have hsecond : isSecond (UInt8.ofNat (v / 4096 % 0x10 + 0xE0))
      (UInt8.ofNat (v / 64 % 0x40 + 0x80)) = true := by
    rw [isSecond_ofNat (by omega) (by omega)]
    by_cases hE0 : v / 4096 % 0x10 + 0xE0 = 0xE0
    · rw [if_pos hE0, decide_eq_true_eq]
      omega
    by_cases hED : v / 4096 % 0x10 + 0xE0 = 0xED
    · -- a surrogate would have a larger second byte
      rw [if_neg hE0, if_pos hED, decide_eq_true_eq]
      omega
    rw [if_neg hE0, if_neg hED, if_neg (by omega), if_neg (by omega), decide_eq_true_eq]
    omega
  have hvalue : extend (extend ((UInt8.ofNat (v / 4096 % 0x10 + 0xE0)).toNat % 16)
      (UInt8.ofNat (v / 64 % 0x40 + 0x80))) (UInt8.ofNat (v % 0x40 + 0x80)) = v := by
    rw [extend, extend, toNat_ofNat_of_lt (by omega), toNat_ofNat_of_lt (by omega),
      toNat_ofNat_of_lt (by omega)]
    omega
  rw [decodeLossy_three hwidth hsecond (isTail_written v), hvalue]

theorem decodeLossy_four_bytes (hlow : 0xFFFF < v) (hhigh : v < 0x110000) :
    decodeLossy (UInt8.ofNat (v / 262144 % 0x08 + 0xF0) :: UInt8.ofNat (v / 4096 % 0x40 + 0x80) ::
      UInt8.ofNat (v / 64 % 0x40 + 0x80) :: UInt8.ofNat (v % 0x40 + 0x80) :: rest) =
        Char.ofNat v :: decodeLossy rest := by
  have hwidth : width (UInt8.ofNat (v / 262144 % 0x08 + 0xF0)) = 4 := by
    rw [width_ofNat (by omega), if_neg (by omega), if_neg (by omega), if_neg (by omega),
      if_pos (by omega)]
  have hsecond : isSecond (UInt8.ofNat (v / 262144 % 0x08 + 0xF0))
      (UInt8.ofNat (v / 4096 % 0x40 + 0x80)) = true := by
    rw [isSecond_ofNat (by omega) (by omega), if_neg (by omega), if_neg (by omega)]
    by_cases hF0 : v / 262144 % 0x08 + 0xF0 = 0xF0
    · rw [if_pos hF0, decide_eq_true_eq]
      omega
    by_cases hF4 : v / 262144 % 0x08 + 0xF0 = 0xF4
    · -- only a number that is too large has a larger second byte
      rw [if_neg hF0, if_pos hF4, decide_eq_true_eq]
      omega
    rw [if_neg hF0, if_neg hF4, decide_eq_true_eq]
    omega
  have hvalue : extend (extend (extend ((UInt8.ofNat (v / 262144 % 0x08 + 0xF0)).toNat % 8)
      (UInt8.ofNat (v / 4096 % 0x40 + 0x80))) (UInt8.ofNat (v / 64 % 0x40 + 0x80)))
      (UInt8.ofNat (v % 0x40 + 0x80)) = v := by
    rw [extend, extend, extend, toNat_ofNat_of_lt (by omega), toNat_ofNat_of_lt (by omega),
      toNat_ofNat_of_lt (by omega), toNat_ofNat_of_lt (by omega)]
    omega
  rw [decodeLossy_four hwidth hsecond (isTail_written (v / 64)) (isTail_written v), hvalue]

end Written

/-- Reading what begins with a character gives that character, and goes on after it. -/
theorem decodeLossy_encodeChar_append (c : Char) (rest : List UInt8) :
    decodeLossy (String.utf8EncodeChar c ++ rest) = c :: decodeLossy rest := by
  have hback : Char.ofNat c.val.toNat = c := Char.ofNat_toNat c
  have hvalid : c.val.toNat < 0xD800 ∨ (0xDFFF < c.val.toNat ∧ c.val.toNat < 0x110000) := c.valid
  unfold String.utf8EncodeChar
  simp only
  generalize c.val.toNat = v at hback hvalid ⊢
  subst hback
  by_cases h1 : v ≤ 0x7F
  · rw [if_pos h1]
    exact decodeLossy_one_byte h1
  rw [if_neg h1]
  by_cases h2 : v ≤ 0x7FF
  · rw [if_pos h2]
    exact decodeLossy_two_bytes (by omega) h2
  rw [if_neg h2]
  by_cases h3 : v ≤ 0xFFFF
  · rw [if_pos h3]
    exact decodeLossy_three_bytes (by omega) h3 (by omega)
  rw [if_neg h3]
  exact decodeLossy_four_bytes (by omega) (by omega)

/-- Texts that were written are read back. -/
theorem decodeLossy_encodeChars (cs : List Char) : decodeLossy (encodeChars cs) = cs := by
  induction cs with
  | nil => rfl
  | cons c cs ih =>
    have hsplit : encodeChars (c :: cs) = String.utf8EncodeChar c ++ encodeChars cs := rfl
    rw [hsplit, decodeLossy_encodeChar_append, ih]

end RowStore.Text.Utf8
