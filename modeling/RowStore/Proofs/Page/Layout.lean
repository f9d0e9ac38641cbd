import Mathlib.Order.Interval.Finset.Nat
import RowStore.Proofs.Page.Fields

/-!
What the bytes of a page are for.

Program.  A page is a bitmap of one bit for each slot, rounded up to whole bytes, and then the slots, each
exactly one row wide.  The number of slots is a division in bits; slots and fields are found in bytes.

1. That number is the largest for which a bitmap and the rows fit (`fits_iff_le_slotsPerPage`).
2. Every byte of a page is for at most one thing: the bitmap and the slots lie on the page and apart
   (`slots_lie_apart`).
3. In a slot one field begins where the one before ends, and the last one ends with the slot
   (`fields_fill_slot`).  Rows are read from there (`getElem?_values`).
-/

namespace RowStore

/-- Of some fields that are read one after the other, each is read behind those before it. -/
theorem Bytes.getElem?_getFields (a : Bytes) (off : Nat) (ts : List ColumnType) (k : Nat) :
    (getFields a off ts)[k]? =
      ts[k]?.map (getField a (off + ColumnType.totalWidth (ts.take k))) := by
  induction ts generalizing off k with
  | nil => rfl
  | cons t ts ih =>
    cases k with
    | zero => rfl
    | succ k =>
      rw [getFields, List.getElem?_cons_succ, List.getElem?_cons_succ, ih, List.take_succ_cons,
        ColumnType.totalWidth, Nat.add_assoc]

namespace Page

variable {p : Page} {i j k : Nat}

/-! ## Ranges of bytes -/

/-- The bytes of the bitmap. -/
def bitmapRange (p : Page) : Finset Nat := Finset.range (headerLength p.slots)

/-- The bytes of a slot. -/
def slotRange (p : Page) (i : Nat) : Finset Nat :=
  Finset.Ico (p.slotOffset i) (p.slotOffset i + p.schema.rowWidth)

/-- Where a field of a slot begins: behind the fields before it. -/
def fieldOffset (p : Page) (i k : Nat) : Nat :=
  p.slotOffset i + ColumnType.totalWidth (p.schema.types.take k)

/-- The bytes of a field of a slot. -/
def fieldRange (p : Page) (i k : Nat) : Finset Nat :=
  Finset.Ico (p.fieldOffset i k) (p.fieldOffset i (k + 1))

/-! ## The bitmap and the slots -/

/-- The bitmap and the slots lie on the page, and apart. -/
theorem slots_lie_apart (p : Page) :
    p.bitmapRange ⊆ Finset.range p.bytes.size ∧
      (∀ i < p.slots, i / 8 ∈ p.bitmapRange ∧ p.slotRange i ⊆ Finset.range p.bytes.size) ∧
      (∀ i, Disjoint p.bitmapRange (p.slotRange i)) ∧
      Pairwise fun i j => Disjoint (p.slotRange i) (p.slotRange j) := by
  have hfit := header_and_slots_fit p
  refine ⟨?_, fun i hi => ⟨?_, ?_⟩, fun i => ?_, fun i j hne => ?_⟩
  · intro n hn
    rw [bitmapRange, Finset.mem_range] at hn
    rw [Finset.mem_range]
    omega
  · rw [bitmapRange, Finset.mem_range]
    exact bit_in_header hi
  · intro n hn
    have hslot := slot_on_page hi
    rw [slotRange, Finset.mem_Ico] at hn
    rw [Finset.mem_range]
    omega
  · rw [Finset.disjoint_left]
    intro n hbitmap hslot
    rw [bitmapRange, Finset.mem_range] at hbitmap
    rw [slotRange, Finset.mem_Ico] at hslot
    unfold slotOffset at hslot
    omega
  · refine Finset.disjoint_left.mpr fun n hfirst hsecond => ?_
    have hapart := slots_apart (p := p) hne
    rw [slotRange, Finset.mem_Ico] at hfirst hsecond
    omega

/-! ## The fields of a slot -/

theorem fieldOffset_zero (p : Page) (i : Nat) : p.fieldOffset i 0 = p.slotOffset i := rfl

theorem fieldOffset_succ (hk : k < p.schema.types.length) :
    p.fieldOffset i (k + 1) = p.fieldOffset i k + p.schema.types[k].width := by
  have hsplit : p.schema.types.take (k + 1) = p.schema.types.take k ++ [p.schema.types[k]] :=
    List.take_succ_eq_append_getElem hk
  rw [fieldOffset, fieldOffset, hsplit, ColumnType.totalWidth_append, Nat.add_assoc]
  rfl

theorem fieldOffset_length (p : Page) (i : Nat) :
    p.fieldOffset i p.schema.types.length = p.slotOffset i + p.schema.rowWidth := by
  rw [fieldOffset, List.take_length]
  rfl

theorem fieldOffset_mono (p : Page) (i : Nat) : Monotone (p.fieldOffset i) := by
  refine monotone_nat_of_le_succ fun k => ?_
  by_cases hk : k < p.schema.types.length
  · rw [fieldOffset_succ hk]
    exact Nat.le_add_right _ _
  · have hall : p.schema.types.take k = p.schema.types.take (k + 1) := by
      rw [List.take_of_length_le (by omega), List.take_of_length_le (by omega)]
    rw [fieldOffset, fieldOffset, hall]

/-- The first fields of a slot take the bytes up to the field that comes next. -/
theorem biUnion_fieldRange (p : Page) (i k : Nat) :
    (Finset.range k).biUnion (p.fieldRange i) =
      Finset.Ico (p.slotOffset i) (p.fieldOffset i k) := by
  induction k with
  | zero => simp [fieldOffset_zero]
  | succ k ih =>
    have hfirst : p.slotOffset i ≤ p.fieldOffset i k := p.fieldOffset_mono i (Nat.zero_le k)
    have hnext : p.fieldOffset i k ≤ p.fieldOffset i (k + 1) := p.fieldOffset_mono i (Nat.le_succ k)
    rw [Finset.range_add_one, Finset.biUnion_insert, ih, Finset.union_comm, fieldRange,
      Finset.Ico_union_Ico_eq_Ico hfirst hnext]

/-- The fields of a slot lie apart, and together they are the slot. -/
theorem fields_fill_slot (p : Page) (i : Nat) :
    (Finset.range p.schema.types.length).biUnion (p.fieldRange i) = p.slotRange i ∧
      Pairwise fun k l => Disjoint (p.fieldRange i k) (p.fieldRange i l) := by
  constructor
  · rw [biUnion_fieldRange, fieldOffset_length]
    rfl
  · intro k l hne
    refine Finset.disjoint_left.mpr fun n hfirst hsecond => ?_
    rw [fieldRange, Finset.mem_Ico] at hfirst hsecond
    rcases Nat.lt_or_gt_of_ne hne with hlt | hgt
    · have hle := p.fieldOffset_mono i (Nat.succ_le_of_lt hlt)
      simp only [Nat.succ_eq_add_one] at hle
      omega
    · have hle := p.fieldOffset_mono i (Nat.succ_le_of_lt hgt)
      simp only [Nat.succ_eq_add_one] at hle
      omega

/-- The values of a row are read from its fields. -/
theorem getElem?_values {row : Row} (hrow : p.row i = some row) (k : Nat) :
    row.values[k]? = p.schema.types[k]?.map (Bytes.getField p.bytes (p.fieldOffset i k)) := by
  rw [row_eq_getFields] at hrow
  split at hrow
  · cases hrow
    exact Bytes.getElem?_getFields ..
  · cases hrow

/-! ## Slot arithmetic -/

/-- **Slot arithmetic is exact.**  For every size of a page and every width of a row, a bitmap and the rows
    of `s` slots fit exactly if `s` is not above the number of slots, so a page has as many slots as it can.
    The bitmap has a bit for each of them; bitmap and slots lie on the page, and no byte is for two of them.
    The fields of a slot follow each other from its first byte on, each as wide as its type, no byte is for
    two of them, and together they are the slot; the values of a row are read from them. -/
theorem slot_arithmetic_is_exact :
    (∀ pageSize rowWidth s : Nat, 0 < rowWidth →
      (headerLength s + s * rowWidth ≤ pageSize ↔ s ≤ slotsPerPage pageSize rowWidth)) ∧
    ∀ p : Page,
      IsGreatest {s | headerLength s + s * p.schema.rowWidth ≤ p.bytes.size} p.slots ∧
      p.bitmapRange ⊆ Finset.range p.bytes.size ∧
      (∀ i < p.slots, i / 8 ∈ p.bitmapRange ∧ p.slotRange i ⊆ Finset.range p.bytes.size) ∧
      (∀ i, Disjoint p.bitmapRange (p.slotRange i)) ∧
      (Pairwise fun i j => Disjoint (p.slotRange i) (p.slotRange j)) ∧
      ∀ i, p.fieldOffset i 0 = p.slotOffset i ∧
        (∀ k (hk : k < p.schema.types.length),
          p.fieldOffset i (k + 1) = p.fieldOffset i k + p.schema.types[k].width) ∧
        (Pairwise fun k l => Disjoint (p.fieldRange i k) (p.fieldRange i l)) ∧
        (Finset.range p.schema.types.length).biUnion (p.fieldRange i) = p.slotRange i ∧
        ∀ row, p.row i = some row → ∀ k,
          row.values[k]? = p.schema.types[k]?.map (Bytes.getField p.bytes (p.fieldOffset i k)) := by
  refine ⟨fun pageSize rowWidth s hwidth => fits_iff_le_slotsPerPage hwidth s, fun p => ?_⟩
  obtain ⟨hbitmap, hslots, hapart, hslotsApart⟩ := slots_lie_apart p
  have hgreatest : IsGreatest {s | headerLength s + s * p.schema.rowWidth ≤ p.bytes.size} p.slots :=
    ⟨header_and_slots_fit p, fun s hs => (fits_iff_le_slotsPerPage p.schema.rowWidth_pos s).mp hs⟩
  refine ⟨hgreatest, hbitmap, hslots, hapart, hslotsApart, fun i => ?_⟩
  obtain ⟨hfill, hfieldsApart⟩ := p.fields_fill_slot i
  exact ⟨p.fieldOffset_zero i, fun k hk => fieldOffset_succ hk, hfieldsApart, hfill,
    fun row hrow => getElem?_values hrow⟩

/-- Fifteen slots of four bytes leave two bytes of a page of 64 for the bitmap, and a sixteenth has no room. -/
example : headerLength 15 + 15 * 4 = 62 ∧ headerLength 16 + 16 * 4 = 66 ∧ slotsPerPage 64 4 = 15 := by
  decide

end Page

end RowStore
