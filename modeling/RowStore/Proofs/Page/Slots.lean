import Mathlib.Data.Nat.Bitwise
import RowStore.Page
import RowStore.Proofs.HeapFile.Pages
import RowStore.Proofs.Page.Codec

/-!
The slots of a page.

1. Bitmap and slots have room on the page and lie apart (`header_and_slots_fit`).  So marking a slot
   changes the bit of that slot and no row (`bit_mark`, `read_mark`), and filling a slot changes
   the bytes of that slot and no bit (`bit_fill`, `read_fill`).
2. `Page.contents` is the list of the slots, each with the values of its row or with nothing.  The
   rows of a page are those of its contents (`rows_eq_liveRows`).
3. Storing a row puts its values, as they are stored, into the first slot with nothing
   (`insert_eq_ok`); deleting a row leaves nothing in its slot (`delete_eq`).  No other slot changes.
-/

namespace RowStore.Page

variable {p : Page} {i j k : Nat}

/-! ## Where things are -/

/-- **The number of slots is exact**: a bitmap and the rows of `s` slots fit on a page exactly if `s` is not
    above it. -/
theorem fits_iff_le_slotsPerPage {pageSize rowWidth : Nat} (hwidth : 0 < rowWidth) (s : Nat) :
    headerLength s + s * rowWidth ≤ pageSize ↔ s ≤ slotsPerPage pageSize rowWidth := by
  have hbits : s * (rowWidth * 8 + 1) = s * rowWidth * 8 + s := by
    rw [Nat.mul_add, Nat.mul_one, Nat.mul_assoc]
  unfold slotsPerPage headerLength
  rw [if_neg (by omega), Nat.le_div_iff_mul_le (by omega), hbits]
  -- the rows take whole bytes, so the bits of the bitmap fit exactly if the bytes that they begin fit
  omega

/-- The bitmap and the slots fit on the page. -/
theorem header_and_slots_fit (p : Page) :
    headerLength p.slots + p.slots * p.schema.rowWidth ≤ p.bytes.size :=
  (fits_iff_le_slotsPerPage p.schema.rowWidth_pos p.slots).mpr (Nat.le_refl _)

theorem bit_in_header (hi : i < p.slots) : i / 8 < headerLength p.slots := by
  unfold headerLength
  omega

theorem bit_on_page (hi : i < p.slots) : i / 8 < p.bytes.size := by
  have hheader := bit_in_header hi
  have hfit := header_and_slots_fit p
  omega

theorem slot_on_page (hi : i < p.slots) :
    p.slotOffset i + p.schema.rowWidth ≤ p.bytes.size := by
  have hfit := header_and_slots_fit p
  have hle : (i + 1) * p.schema.rowWidth ≤ p.slots * p.schema.rowWidth :=
    Nat.mul_le_mul_right _ hi
  rw [Nat.add_mul] at hle
  unfold slotOffset
  omega

/-- Different slots lie apart. -/
theorem slots_apart (hne : i ≠ j) :
    p.slotOffset i + p.schema.rowWidth ≤ p.slotOffset j ∨
      p.slotOffset j + p.schema.rowWidth ≤ p.slotOffset i := by
  unfold slotOffset
  rcases Nat.lt_or_gt_of_ne hne with hlt | hgt
  · have hle : (i + 1) * p.schema.rowWidth ≤ j * p.schema.rowWidth := Nat.mul_le_mul_right _ hlt
    rw [Nat.add_mul] at hle
    omega
  · have hle : (j + 1) * p.schema.rowWidth ≤ i * p.schema.rowWidth := Nat.mul_le_mul_right _ hgt
    rw [Nat.add_mul] at hle
    omega

theorem length_encodeValues_of_types {schema : Schema} {values : List Value}
    (htypes : values.map Value.type = schema.types) :
    (encodeValues values).length = schema.rowWidth := by
  rw [length_encodeValues, htypes]
  rfl

/-- A bit of the bitmap, which need not be that of a slot. -/
def bit (p : Page) (k : Nat) : Bool := (p.bytes.getD (k / 8) 0).toNat.testBit (k % 8)

theorem isUsed_eq (p : Page) (i : Nat) : p.isUsed i = (decide (i < p.slots) && p.bit i) := rfl

/-! ## Marking a slot -/

theorem testBit_putBit (b : UInt8) {k j : Nat} (hj : j < 8) (on : Bool) :
    (putBit b k on).toNat.testBit j = if j = k then on else b.toNat.testBit j := by
  have hmod : ∀ n : Nat, (UInt8.ofNat n).toNat.testBit j = n.testBit j := by
    intro n
    rw [UInt8.toNat_ofNat', Nat.testBit_mod_two_pow, decide_eq_true hj, Bool.true_and]
  unfold putBit
  rw [hmod]
  cases on with
  | true =>
    rw [if_pos rfl, Nat.testBit_or, Nat.one_shiftLeft, Nat.testBit_two_pow]
    by_cases hjk : j = k
    · simp [hjk]
    · simp [hjk, Ne.symm hjk]
  | false =>
    have hall : Nat.testBit 255 j = true := by
      rw [show (255 : Nat) = 2 ^ 8 - 1 from rfl, Nat.testBit_two_pow_sub_one]
      exact decide_eq_true hj
    rw [if_neg Bool.false_ne_true, Nat.testBit_and, Nat.testBit_xor, Nat.one_shiftLeft,
      Nat.testBit_two_pow, hall]
    by_cases hjk : j = k
    · simp [hjk]
    · simp [hjk, Ne.symm hjk]

@[simp]
theorem slots_mark (p : Page) (i : Nat) (used : Bool) : (p.mark i used).slots = p.slots := by
  simp [slots, mark]

@[simp]
theorem slotOffset_mark (p : Page) (i j : Nat) (used : Bool) :
    (p.mark i used).slotOffset j = p.slotOffset j := by
  unfold slotOffset
  rw [slots_mark]
  rfl

/-- Marking a slot changes the bit of that slot. -/
theorem bit_mark (hi : i < p.slots) (k : Nat) (used : Bool) :
    (p.mark i used).bit k = if k = i then used else p.bit k := by
  have hbyte : (p.mark i used).bytes.getD (k / 8) 0 =
      if i / 8 = k / 8 then putBit (p.bytes.getD (i / 8) 0) (i % 8) used
      else p.bytes.getD (k / 8) 0 := by
    simp only [mark, Array.getD_eq_getD_getElem?, Array.getElem?_setIfInBounds]
    have hin := bit_on_page hi
    split
    · rfl
    · rfl
  unfold bit
  rw [hbyte]
  by_cases hsame : i / 8 = k / 8
  · rw [if_pos hsame, testBit_putBit _ (by omega), hsame]
    by_cases hki : k = i
    · rw [if_pos hki, if_pos (by rw [hki])]
    · rw [if_neg hki, if_neg (by omega)]
  · rw [if_neg hsame, if_neg]
    rintro rfl
    exact hsame rfl

theorem isUsed_mark (hi : i < p.slots) (hj : j < p.slots) (used : Bool) :
    (p.mark i used).isUsed j = if j = i then used else p.isUsed j := by
  rw [isUsed_eq, isUsed_eq, slots_mark, bit_mark hi, decide_eq_true hj, Bool.true_and,
    Bool.true_and]

/-- Marking a slot changes no byte behind the bitmap. -/
theorem getElem?_mark (hi : i < p.slots) {n : Nat} (hn : headerLength p.slots ≤ n) (used : Bool) :
    (p.mark i used).bytes[n]? = p.bytes[n]? := by
  have hheader := bit_in_header hi
  unfold mark
  simp only
  rw [Array.getElem?_setIfInBounds, if_neg (by omega)]

/-- Marking a slot changes no row. -/
theorem read_mark (hi : i < p.slots) (j : Nat) (used : Bool) :
    Bytes.read (p.mark i used).bytes (p.slotOffset j) p.schema.rowWidth =
      Bytes.read p.bytes (p.slotOffset j) p.schema.rowWidth := by
  have hwrite : (p.mark i used).bytes =
      Bytes.write p.bytes (i / 8) [putBit (p.bytes.getD (i / 8) 0) (i % 8) used] := rfl
  have hheader := bit_in_header hi
  rw [hwrite]
  refine Bytes.read_write_disjoint (Or.inr ?_)
  unfold slotOffset
  simp only [List.length_singleton]
  omega

/-! ## Filling a slot -/

@[simp]
theorem slots_fill (p : Page) (i : Nat) (values : List Value) :
    (p.fill i values).slots = p.slots := by
  simp [slots, fill]

@[simp]
theorem slotOffset_fill (p : Page) (i j : Nat) (values : List Value) :
    (p.fill i values).slotOffset j = p.slotOffset j := by
  unfold slotOffset
  rw [slots_fill]
  rfl

/-- Filling a slot changes no bit. -/
theorem bit_fill {k : Nat} (hk : k / 8 < headerLength p.slots) (i : Nat) (values : List Value) :
    (p.fill i values).bit k = p.bit k := by
  have hbyte : (p.fill i values).bytes.getD (k / 8) 0 = p.bytes.getD (k / 8) 0 := by
    simp only [fill, Array.getD_eq_getD_getElem?, Bytes.getElem?_write]
    rw [if_neg]
    unfold slotOffset
    omega
  rw [bit, hbyte]
  rfl

theorem isUsed_fill (i j : Nat) (values : List Value) :
    (p.fill i values).isUsed j = p.isUsed j := by
  rw [isUsed_eq, isUsed_eq, slots_fill]
  by_cases hj : j < p.slots
  · rw [bit_fill (bit_in_header hj)]
  · rw [decide_eq_false hj, Bool.false_and, Bool.false_and]

/-- Filling a slot changes no byte outside of it. -/
theorem getElem?_fill {values : List Value} (htypes : values.map Value.type = p.schema.types)
    {n : Nat} (hn : n < p.slotOffset i ∨ p.slotOffset i + p.schema.rowWidth ≤ n) :
    (p.fill i values).bytes[n]? = p.bytes[n]? := by
  have hlen := length_encodeValues_of_types htypes
  unfold fill
  simp only
  rw [Bytes.getElem?_write, if_neg (by omega)]

/-- Filling a slot changes the bytes of that slot. -/
theorem read_fill (hi : i < p.slots) {values : List Value}
    (htypes : values.map Value.type = p.schema.types) (j : Nat) :
    Bytes.read (p.fill i values).bytes (p.slotOffset j) p.schema.rowWidth =
      if j = i then encodeValues values
      else Bytes.read p.bytes (p.slotOffset j) p.schema.rowWidth := by
  have hlen := length_encodeValues_of_types htypes
  have hon := slot_on_page hi
  show Bytes.read (Bytes.write p.bytes (p.slotOffset i) (encodeValues values)) _ _ = _
  by_cases hji : j = i
  · rw [if_pos hji, hji, ← hlen, Bytes.read_write (by omega)]
  · rw [if_neg hji]
    refine Bytes.read_write_disjoint ?_
    rw [hlen]
    exact slots_apart hji

/-! ## Contents -/

/-- The slots of a page, each with the values of its row or with nothing. -/
def contents (p : Page) : List (Option (List Value)) :=
  (List.range p.slots).map fun i => (p.row i).map (·.values)

/-- The rows that stand in some slots, each with its place. -/
def liveRows (schema : Schema) (id : PageId) (slots : List (Option (List Value))) : List Row :=
  slots.zipIdx.filterMap fun (values, i) => values.map fun values => ⟨schema, values, some ⟨id, i⟩⟩

@[simp]
theorem length_contents (p : Page) : p.contents.length = p.slots := by
  simp [contents]

/-- What the bytes of a slot say, whether it is used or not. -/
def valuesAt (p : Page) (i : Nat) : List Value :=
  decodeValues p.schema.types (Bytes.read p.bytes (p.slotOffset i) p.schema.rowWidth)

theorem valuesAt_mark (hi : i < p.slots) (j : Nat) (used : Bool) :
    (p.mark i used).valuesAt j = p.valuesAt j := by
  show decodeValues p.schema.types (Bytes.read (p.mark i used).bytes
    ((p.mark i used).slotOffset j) p.schema.rowWidth) = _
  rw [slotOffset_mark, read_mark hi]
  rfl

theorem valuesAt_fill (hi : i < p.slots) {values : List Value}
    (htypes : values.map Value.type = p.schema.types) (j : Nat) :
    (p.fill i values).valuesAt j = if j = i then values.map Value.clip else p.valuesAt j := by
  show decodeValues p.schema.types (Bytes.read (p.fill i values).bytes
    ((p.fill i values).slotOffset j) p.schema.rowWidth) = _
  rw [slotOffset_fill, read_fill hi htypes]
  split
  · rw [← htypes, decodeValues_encodeValues]
  · rfl

theorem row_eq (p : Page) (i : Nat) :
    p.row i = if p.isUsed i then some ⟨p.schema, p.valuesAt i, some (p.place i)⟩ else none := rfl

theorem getElem?_contents (hi : i < p.slots) :
    p.contents[i]? = some (if p.isUsed i then some (p.valuesAt i) else none) := by
  unfold contents
  rw [List.getElem?_map, List.getElem?_range hi, Option.map_some, row_eq]
  split <;> rfl

theorem getElem?_contents_of_le (hi : p.slots ≤ i) : p.contents[i]? = none :=
  List.getElem?_eq_none (by simpa using hi)

/-- The slots of a page with their numbers. -/
theorem zipIdx_contents (p : Page) :
    p.contents.zipIdx = (List.range p.slots).map fun i => ((p.row i).map (·.values), i) := by
  apply List.ext_getElem
  · simp
  · intro n h₁ h₂
    simp [contents]

theorem rows_eq_liveRows (p : Page) : p.rows = liveRows p.schema p.id p.contents := by
  unfold rows liveRows
  rw [zipIdx_contents, List.filterMap_map]
  congr 1
  funext i
  simp only [Function.comp_apply, row_eq, place]
  split <;> rfl

/-- The first free slot is the first with nothing in it. -/
theorem head?_freeSlots (p : Page) : p.freeSlots.head? = p.contents.findIdx? (·.isNone) := by
  have hfree : ∀ i (hi : i < p.contents.length), (p.contents[i]).isNone = !p.isUsed i := by
    intro i hi
    have hslot : i < p.slots := by simpa using hi
    have hget := getElem?_contents hslot
    rw [List.getElem?_eq_getElem hi, Option.some.injEq] at hget
    rw [hget]
    cases p.isUsed i <;> rfl
  unfold freeSlots
  rw [List.head?_filter]
  cases hfind : p.contents.findIdx? (·.isNone) with
  | none =>
    rw [List.findIdx?_eq_none_iff] at hfind
    rw [List.find?_eq_none]
    intro i hi
    have hlt : i < p.contents.length := by simpa using hi
    have hnot := hfind _ (List.getElem_mem hlt)
    rw [hfree i hlt] at hnot
    simp [hnot]
  | some i =>
    rw [List.findIdx?_eq_some_iff_getElem] at hfind
    obtain ⟨hlt, hnone, hbefore⟩ := hfind
    rw [hfree i hlt] at hnone
    rw [List.find?_range_eq_some]
    refine ⟨hnone, by simpa using hlt, fun j hj => ?_⟩
    have hused := hbefore j hj
    rw [hfree j (Nat.lt_trans hj hlt)] at hused
    simpa using hused

theorem freeSlots_eq_nil_iff (p : Page) : p.freeSlots = [] ↔ ∀ c ∈ p.contents, c.isNone = false := by
  rw [← List.head?_eq_none_iff, head?_freeSlots, List.findIdx?_eq_none_iff]

/-- A blank page has nothing in any slot. -/
theorem contents_blank {id : PageId} {schema : Schema} {pageSize : Nat}
    (hblank : Page.blank id schema pageSize = .ok p) :
    p.contents = List.replicate (slotsPerPage pageSize schema.rowWidth) none := by
  obtain ⟨hsize, -, hschema, hbytes, -⟩ := ofBytes_eq_ok_iff.mp hblank
  have hslots : p.slots = slotsPerPage pageSize schema.rowWidth := by
    rw [slots, hbytes, hsize, hschema]
  have hunused : ∀ i, p.isUsed i = false := by
    intro i
    have hbyte : p.bytes.getD (i / 8) 0 = 0 := by
      rw [hbytes]
      simp only [Bytes.zeros, Array.getD_eq_getD_getElem?, Array.getElem?_replicate]
      split <;> rfl
    simp [isUsed, hbyte]
  apply List.ext_getElem?
  intro i
  rw [List.getElem?_replicate, ← hslots]
  by_cases hi : i < p.slots
  · rw [getElem?_contents hi, hunused, if_pos hi]
    rfl
  · rw [getElem?_contents_of_le (Nat.le_of_not_lt hi), if_neg hi]

/-- A blank page has no rows. -/
theorem rows_blank {id : PageId} {schema : Schema} {pageSize : Nat}
    (hblank : Page.blank id schema pageSize = .ok p) : p.rows = [] := by
  rw [rows_eq_liveRows, contents_blank hblank]
  unfold liveRows
  rw [List.filterMap_eq_nil_iff]
  rintro ⟨c, n⟩ hc
  have hnone : c = none := List.eq_of_mem_replicate (List.fst_mem_of_mem_zipIdx hc)
  rw [hnone]
  rfl

/-- The first free slot of a blank page is the first slot. -/
theorem findIdx?_contents_blank {id : PageId} {schema : Schema} {pageSize : Nat}
    (hfits : 0 < slotsPerPage pageSize schema.rowWidth)
    (hblank : Page.blank id schema pageSize = .ok p) :
    p.contents.findIdx? (·.isNone) = some 0 := by
  obtain ⟨n, hn⟩ := Nat.exists_eq_succ_of_ne_zero (Nat.ne_of_gt hfits)
  rw [contents_blank hblank, hn, List.replicate_succ]
  rfl

theorem exists_findIdx?_of_free (hfree : p.freeSlots ≠ []) :
    ∃ i, p.contents.findIdx? (·.isNone) = some i := by
  rw [← head?_freeSlots]
  exact Option.isSome_iff_exists.mp (by simpa using hfree)

/-- A blank page has a free slot. -/
theorem freeSlots_blank {id : PageId} {schema : Schema} {pageSize : Nat}
    (hfits : 0 < slotsPerPage pageSize schema.rowWidth)
    (hblank : Page.blank id schema pageSize = .ok p) : p.freeSlots ≠ [] := by
  intro hnone
  have hhead := head?_freeSlots p
  rw [hnone, findIdx?_contents_blank hfits hblank] at hhead
  cases hhead

/-! ## Storing and deleting -/

theorem contents_mark_false (hi : i < p.slots) :
    (p.mark i false).contents = p.contents.set i none := by
  apply List.ext_getElem?
  intro j
  by_cases hj : j < p.slots
  · rw [getElem?_contents (by simpa using hj), isUsed_mark hi hj, List.getElem?_set,
      getElem?_contents hj, valuesAt_mark hi]
    by_cases hji : j = i
    · subst hji
      simp [hj]
    · rw [if_neg hji, if_neg (Ne.symm hji)]
  · have hge : p.slots ≤ j := Nat.le_of_not_lt hj
    rw [getElem?_contents_of_le (by simpa using hge)]
    exact (List.getElem?_eq_none (by simpa using hge)).symm

theorem contents_mark_fill (hi : i < p.slots) {values : List Value}
    (htypes : values.map Value.type = p.schema.types) :
    ((p.fill i values).mark i true).contents = p.contents.set i (some (values.map Value.clip)) := by
  apply List.ext_getElem?
  intro j
  by_cases hj : j < p.slots
  · have hmark : i < (p.fill i values).slots := by simpa using hi
    rw [getElem?_contents (by simpa using hj), isUsed_mark hmark (by simpa using hj), isUsed_fill,
      valuesAt_mark hmark, valuesAt_fill hi htypes, List.getElem?_set, getElem?_contents hj]
    by_cases hji : j = i
    · subst hji
      simp [hj]
    · rw [if_neg hji, if_neg hji, if_neg (Ne.symm hji)]
  · have hge : p.slots ≤ j := Nat.le_of_not_lt hj
    rw [getElem?_contents_of_le (by simpa using hge)]
    exact (List.getElem?_eq_none (by simpa using hge)).symm

/-- A row that agrees with its schema is stored in the first slot with nothing. -/
theorem insert_eq_ok {row : Row} (htypes : row.schema.sameTypes p.schema = true)
    (hrow : row.Conforms) (hi : p.contents.findIdx? (·.isNone) = some i) :
    ∃ p', p.insert row =
        .ok (⟨row.schema, row.values.map Value.clip, some ⟨p.id, i⟩⟩, p') ∧
      p'.contents = p.contents.set i (some (row.values.map Value.clip)) := by
  have hslot : i < p.slots := by
    rw [List.findIdx?_eq_some_iff_getElem] at hi
    obtain ⟨hlt, -⟩ := hi
    simpa using hlt
  have hvalues : (row.values.map Value.clip).map Value.type = p.schema.types := by
    rw [map_type_clip, hrow, Schema.sameTypes_iff.mp htypes]
  refine ⟨(p.fill i (row.values.map Value.clip)).mark i true, ?_, ?_⟩
  · unfold insert
    simp only [htypes, Bool.not_true, Bool.false_eq_true, if_false, head?_freeSlots, hi,
      Row.clip_of_conforms hrow, bind, Except.bind, place]
  · rw [contents_mark_fill hslot hvalues, map_clip_clip]

/-- A slot with a row is freed; a slot without one is refused. -/
theorem delete_eq {r : RecordId} (hpage : r.page = p.id) :
    (∃ values, p.contents[r.slot]? = some (some values) ∧
      ∃ p', p.delete (some r) = .ok p' ∧ p'.contents = p.contents.set r.slot none) ∨
    ((∀ values, p.contents[r.slot]? ≠ some (some values)) ∧
      p.delete (some r) = .error (.missing (.liveRow r))) := by
  have hsame : ¬ r.page ≠ p.id := not_not_intro hpage
  unfold delete
  simp only [if_neg hsame]
  by_cases hused : p.isUsed r.slot = true
  · have hslot : r.slot < p.slots := by
      unfold isUsed at hused
      rw [Bool.and_eq_true, decide_eq_true_eq] at hused
      exact hused.1
    left
    refine ⟨p.valuesAt r.slot, ?_, p.mark r.slot false, ?_, contents_mark_false hslot⟩
    · rw [getElem?_contents hslot, if_pos hused]
    · rw [hused]
      rfl
  · right
    constructor
    · intro values hget
      by_cases hslot : r.slot < p.slots
      · rw [getElem?_contents hslot, if_neg hused] at hget
        cases hget
      · rw [getElem?_contents_of_le (Nat.le_of_not_lt hslot)] at hget
        cases hget
    · rw [Bool.eq_false_iff.mpr hused]
      rfl

end RowStore.Page
