import RowStore.Proofs.Text.Utf8
import RowStore.Text.Cut

/-!
A text is cut where a character ends, as late as the width allows.

Crux.  In the bytes of a text, a character ends exactly after the bytes of a beginning of the text
(`isBoundary_encodeChars`), because the first byte of a character cannot stand inside one and all
the others can (`exists_encodeChar`).  The longest beginning that fits ends at the last such place
(`cutLength_encodeChars`), so looking for the place backwards and taking characters forwards come
to the same (`cutText_eq`).
-/

namespace RowStore.Text.Utf8

variable {n : Nat} {pre cs : List Char}

/-! ## The first byte of a character -/

/-- A character begins with a byte that stands inside no character, and only so. -/
theorem exists_encodeChar (c : Char) :
    ∃ b bs, String.utf8EncodeChar c = b :: bs ∧ isTail b = false ∧ ∀ x ∈ bs, isTail x = true := by
  have htail : ∀ m, isTail (UInt8.ofNat (m % 0x40 + 0x80)) = true := by
    intro m
    rw [isTail_ofNat (by omega), decide_eq_true_eq]
    omega
  have hfirst : ∀ m, m < 256 → ¬(0x80 ≤ m ∧ m ≤ 0xBF) → isTail (UInt8.ofNat m) = false := by
    intro m hm hout
    rw [isTail_ofNat hm]
    exact decide_eq_false hout
  have hvalid : c.val.toNat < 0xD800 ∨ (0xDFFF < c.val.toNat ∧ c.val.toNat < 0x110000) := c.valid
  unfold String.utf8EncodeChar
  simp only
  generalize c.val.toNat = v at hvalid
  by_cases h1 : v ≤ 0x7F
  · rw [if_pos h1]
    exact ⟨_, _, rfl, hfirst _ (by omega) (by omega), List.forall_mem_nil _⟩
  rw [if_neg h1]
  by_cases h2 : v ≤ 0x7FF
  · rw [if_pos h2]
    refine ⟨_, _, rfl, hfirst _ (by omega) (by omega), ?_⟩
    exact List.forall_mem_singleton.mpr (htail v)
  rw [if_neg h2]
  by_cases h3 : v ≤ 0xFFFF
  · rw [if_pos h3]
    refine ⟨_, _, rfl, hfirst _ (by omega) (by omega), ?_⟩
    exact List.forall_mem_cons.mpr ⟨htail (v / 64), List.forall_mem_singleton.mpr (htail v)⟩
  rw [if_neg h3]
  refine ⟨_, _, rfl, hfirst _ (by omega) (by omega), ?_⟩
  exact List.forall_mem_cons.mpr ⟨htail (v / 4096), List.forall_mem_cons.mpr
    ⟨htail (v / 64), List.forall_mem_singleton.mpr (htail v)⟩⟩

theorem encodeChars_append (as bs : List Char) :
    encodeChars (as ++ bs) = encodeChars as ++ encodeChars bs := by
  simp [encodeChars]

/-! ## Places where a character ends -/

theorem isBoundary_zero (bytes : List UInt8) : isBoundary bytes 0 = true := by
  cases bytes <;> simp [isBoundary]

/-- Inside a character no character ends. -/
theorem isBoundary_inside {c : Char} {rest : List UInt8} {k : Nat} (hpos : 0 < k)
    (hk : k < c.utf8Size) : isBoundary (String.utf8EncodeChar c ++ rest) k = false := by
  obtain ⟨b, bs, hchar, -, htails⟩ := exists_encodeChar c
  have hlength : bs.length + 1 = c.utf8Size := by
    rw [← String.length_utf8EncodeChar, hchar, List.length_cons]
  obtain ⟨k, rfl⟩ := Nat.exists_eq_succ_of_ne_zero (Nat.ne_of_gt hpos)
  have hlt : k < bs.length := by omega
  have hget : (String.utf8EncodeChar c ++ rest)[k + 1]? = some bs[k] := by
    rw [hchar, List.cons_append, List.getElem?_cons_succ,
      List.getElem?_append_left (by omega), List.getElem?_eq_getElem]
  unfold isBoundary
  rw [Nat.succ_eq_add_one, hget]
  simp [htails _ (List.getElem_mem _)]

/-- Behind a character, characters end where they end in what follows. -/
theorem isBoundary_behind (c : Char) (cs : List Char) (k : Nat) :
    isBoundary (String.utf8EncodeChar c ++ encodeChars cs) (c.utf8Size + k) =
      isBoundary (encodeChars cs) k := by
  have hlength := String.length_utf8EncodeChar c
  have hpos := c.utf8Size_pos
  unfold isBoundary
  rw [List.getElem?_append_right (by omega), hlength, Nat.add_sub_cancel_left]
  cases hget : (encodeChars cs)[k]? with
  | none => simp [hlength]
  | some x =>
    cases k with
    | succ k => simp
    | zero =>
      -- the text that follows begins with a character
      cases cs with
      | nil => simp [encodeChars] at hget
      | cons d cs =>
        obtain ⟨b, bs, hchar, hfirst, -⟩ := exists_encodeChar d
        have hx : b = x := by simpa [encodeChars, hchar] using hget
        simp [← hx, hfirst]

/-- In the bytes of a text, a character ends exactly after the bytes of a beginning of it. -/
theorem isBoundary_encodeChars {k : Nat} :
    isBoundary (encodeChars cs) k = true ↔ ∃ pre, pre <+: cs ∧ size pre = k := by
  induction cs generalizing k with
  | nil =>
    constructor
    · intro hk
      exact ⟨[], List.nil_prefix, by simpa [isBoundary, encodeChars, size, eq_comm] using hk⟩
    · rintro ⟨pre, hpre, rfl⟩
      rw [List.prefix_nil.mp hpre]
      exact isBoundary_zero _
  | cons c cs ih =>
    have hsplit : encodeChars (c :: cs) = String.utf8EncodeChar c ++ encodeChars cs := rfl
    have hpos := c.utf8Size_pos
    rw [hsplit]
    constructor
    · intro hk
      rcases Nat.eq_zero_or_pos k with rfl | hkpos
      · exact ⟨[], List.nil_prefix, rfl⟩
      · rcases Nat.lt_or_ge k c.utf8Size with hlt | hge
        · rw [isBoundary_inside hkpos hlt] at hk
          cases hk
        · obtain ⟨k, rfl⟩ := Nat.exists_eq_add_of_le hge
          rw [isBoundary_behind] at hk
          obtain ⟨pre, hpre, rfl⟩ := ih.mp hk
          exact ⟨c :: pre, List.cons_prefix_cons.mpr ⟨rfl, hpre⟩, rfl⟩
    · rintro ⟨pre, hpre, rfl⟩
      cases pre with
      | nil => exact isBoundary_zero _
      | cons d pre =>
        obtain ⟨rfl, hrest⟩ := List.cons_prefix_cons.mp hpre
        rw [size, isBoundary_behind]
        exact ih.mpr ⟨pre, hrest, rfl⟩

/-! ## The longest beginning -/

theorem size_append (as bs : List Char) : size (as ++ bs) = size as + size bs := by
  rw [← length_encodeChars, ← length_encodeChars, ← length_encodeChars, encodeChars_append,
    List.length_append]

theorem size_le_of_prefix (h : pre <+: cs) : size pre ≤ size cs := by
  obtain ⟨rest, rfl⟩ := h
  rw [size_append]
  omega

/-- Every beginning that fits is a beginning of the one that is kept. -/
theorem prefix_clip (hpre : pre <+: cs) (hsize : size pre ≤ n) : pre <+: clip n cs := by
  induction cs generalizing n pre with
  | nil => simpa [clip] using hpre
  | cons c cs ih =>
    cases pre with
    | nil => exact List.nil_prefix
    | cons d pre =>
      obtain ⟨rfl, hrest⟩ := List.cons_prefix_cons.mp hpre
      rw [size] at hsize
      rw [clip, if_pos (by omega)]
      exact List.cons_prefix_cons.mpr ⟨rfl, ih hrest (by omega)⟩

theorem encodeChars_clip (n : Nat) (cs : List Char) :
    encodeChars (clip n cs) = (encodeChars cs).take (size (clip n cs)) := by
  obtain ⟨rest, hrest⟩ := clip_prefix n cs
  have hall : encodeChars cs = encodeChars (clip n cs) ++ encodeChars rest := by
    rw [← encodeChars_append, hrest]
  rw [hall, List.take_left' (length_encodeChars _)]

/-! ## Looking for the place -/

theorem boundaryUpTo_le (bytes : List UInt8) (n : Nat) : boundaryUpTo bytes n ≤ n := by
  induction n with
  | zero => exact Nat.le_refl 0
  | succ n ih =>
    unfold boundaryUpTo
    split <;> omega

theorem isBoundary_boundaryUpTo (bytes : List UInt8) (n : Nat) :
    isBoundary bytes (boundaryUpTo bytes n) = true := by
  induction n with
  | zero => exact isBoundary_zero bytes
  | succ n ih =>
    unfold boundaryUpTo
    split
    · assumption
    · exact ih

theorem le_boundaryUpTo {bytes : List UInt8} {k : Nat} (hk : isBoundary bytes k = true)
    (hn : k ≤ n) : k ≤ boundaryUpTo bytes n := by
  induction n with
  | zero => exact hn
  | succ n ih =>
    unfold boundaryUpTo
    split
    · exact hn
    · rename_i hnot
      refine ih (Nat.le_of_lt_succ (Nat.lt_of_le_of_ne hn ?_))
      rintro rfl
      exact hnot hk

/-- The place that is found is the end of the longest beginning that fits. -/
theorem cutLength_encodeChars (n : Nat) (cs : List Char) :
    cutLength n (encodeChars cs) = size (clip n cs) := by
  unfold cutLength
  rw [length_encodeChars]
  split
  · rename_i hfits
    rw [clip_of_size_le hfits]
  · apply Nat.le_antisymm
    · obtain ⟨pre, hpre, hsize⟩ :=
        isBoundary_encodeChars.mp (isBoundary_boundaryUpTo (encodeChars cs) n)
      rw [← hsize]
      exact size_le_of_prefix (prefix_clip hpre (hsize ▸ boundaryUpTo_le _ n))
    · exact le_boundaryUpTo (isBoundary_encodeChars.mpr ⟨_, clip_prefix n cs, rfl⟩)
        (size_clip_le n cs)

/-- A text is cut to its longest beginning that fits. -/
theorem cutText_eq (width : Nat) (s : String) :
    cutText width s = String.ofList (clip width s.toList) := by
  unfold cutText encode
  rw [cutLength_encodeChars, ← encodeChars_clip, decodeLossy_encodeChars]

/-! ## What remains -/

/-- A text `t` is the longest beginning of `s` that needs at most `width` bytes and ends where a
    character ends. -/
structure LongestBeginning (width : Nat) (s t : String) : Prop where
  begins : encode t <+: encode s
  fits : (encode t).length ≤ width
  ends : isBoundary (encode s) (encode t).length = true
  longest : ∀ k ≤ width, isBoundary (encode s) k = true → k ≤ (encode t).length

/-- A cut text is the longest beginning that fits. -/
theorem longestBeginning_cutText (width : Nat) (s : String) :
    LongestBeginning width s (cutText width s) := by
  have hbytes : encode (cutText width s) = encodeChars (clip width s.toList) := by
    rw [cutText_eq, encode, String.toList_ofList]
  constructor
  · rw [hbytes, encodeChars_clip]
    exact List.take_prefix _ _
  · rw [hbytes, length_encodeChars]
    exact size_clip_le _ _
  · rw [hbytes, length_encodeChars]
    exact isBoundary_encodeChars.mpr ⟨_, clip_prefix _ _, rfl⟩
  · intro k hk hend
    obtain ⟨pre, hpre, rfl⟩ := isBoundary_encodeChars.mp hend
    rw [hbytes, length_encodeChars]
    exact size_le_of_prefix (prefix_clip hpre hk)

/-- There is only one. -/
theorem LongestBeginning.unique {width : Nat} {s t u : String} (ht : LongestBeginning width s t)
    (hu : LongestBeginning width s u) : t = u := by
  have hlength : (encode t).length = (encode u).length :=
    Nat.le_antisymm (hu.longest _ ht.fits ht.ends) (ht.longest _ hu.fits hu.ends)
  have hbytes : encode t = encode u := by
    rw [List.prefix_iff_eq_take.mp ht.begins, List.prefix_iff_eq_take.mp hu.begins, hlength]
  have hchars : t.toList = u.toList := by
    rw [← decodeLossy_encodeChars t.toList, ← decodeLossy_encodeChars u.toList]
    exact congrArg decodeLossy hbytes
  rw [← String.ofList_toList (s := t), ← String.ofList_toList (s := u), hchars]

end RowStore.Text.Utf8
