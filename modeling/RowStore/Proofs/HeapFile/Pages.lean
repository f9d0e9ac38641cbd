import Mathlib.Algebra.Order.Floor.Div
import RowStore.HeapFile

/-!
The pages of a heap file.

1. A block that is written can be read back, and every other block stays (`block_putBlock`); the
   number of blocks grows just so far that the block is inside (`blockCount_putBlock`).
2. A heap file whose rows fit on a page (`HeapFile.Fits`) has a page for every number below its
   number of pages (`readPage_of_lt`), and no other (`readPage_of_ge`).
3. A page that is written where it belongs is what is read afterwards, unchanged and marked as
   written; every other page of the file stays, and so does every other file (`readPage_writePage`).
-/

namespace RowStore

/-! ## Blocks -/

theorem blockCount_eq_ceilDiv (size : Nat) (content : Bytes) :
    blockCount size content = content.size ⌈/⌉ size :=
  (Nat.ceilDiv_eq_add_pred_div _ _).symm

/-- A block is one of the file exactly if it begins inside the file. -/
theorem lt_blockCount_iff {size n : Nat} {content : Bytes} (hpos : 0 < size) :
    n < blockCount size content ↔ n * size < content.size := by
  rw [blockCount_eq_ceilDiv, ← not_le, ceilDiv_le_iff_le_mul hpos, not_le, Nat.mul_comm]

theorem block_putBlock {size n : Nat} {chunk content : Bytes} (hsize : chunk.size = size)
    (m : Nat) :
    block size m (putBlock size n chunk content) =
      if m = n then chunk else block size m content := by
  apply Array.ext_getElem?
  intro i
  by_cases hi : i < size
  · rw [getElem?_block hi, putBlock, getD_putBytes, hsize]
    rcases Nat.lt_trichotomy m n with hlt | rfl | hgt
    · -- an earlier block ends where block `n` begins
      have hle : (m + 1) * size ≤ n * size := Nat.mul_le_mul_right size hlt
      rw [Nat.add_mul] at hle
      rw [if_neg (by omega), if_neg (by omega), getElem?_block hi]
    · rw [if_pos (by omega), if_pos rfl, Nat.add_sub_cancel_left]
      simp [hsize, hi]
    · have hle : (n + 1) * size ≤ m * size := Nat.mul_le_mul_right size hgt
      rw [Nat.add_mul] at hle
      rw [if_neg (by omega), if_neg (by omega), getElem?_block hi]
  · have hout : ∀ bytes : Bytes, bytes.size = size → bytes[i]? = none := by
      intro bytes h
      exact Array.getElem?_eq_none (by omega)
    rw [hout _ (size_block ..)]
    split
    · exact (hout chunk hsize).symm
    · exact (hout _ (size_block ..)).symm

theorem blockCount_putBlock {size n : Nat} {chunk content : Bytes} (hpos : 0 < size)
    (hsize : chunk.size = size) :
    blockCount size (putBlock size n chunk content) = max (blockCount size content) (n + 1) := by
  have hlast : (n * size + size + size - 1) / size = n + 1 := by
    rw [show n * size + size + size - 1 = (size - 1) + size * (n + 1) by
      rw [Nat.mul_add, Nat.mul_comm size n]
      omega, Nat.add_mul_div_left _ _ hpos, Nat.div_eq_of_lt (by omega), Nat.zero_add]
  unfold blockCount putBlock
  rw [size_putBytes, hsize, ← hlast]
  rcases Nat.le_total content.size (n * size + size) with h | h
  · rw [Nat.max_eq_right h, Nat.max_eq_right]
    exact Nat.div_le_div_right (by omega)
  · rw [Nat.max_eq_left h, Nat.max_eq_left]
    exact Nat.div_le_div_right (by omega)

/-! ## Pages made of bytes -/

/-- A page is made of bytes exactly when they are as many as a page has; it is then unchanged. -/
theorem Page.ofBytes_eq_ok_iff {id : PageId} {schema : Schema} {bytes : Bytes} {pageSize : Nat}
    {p : Page} :
    Page.ofBytes id schema bytes pageSize = .ok p ↔
      bytes.size = pageSize ∧ p.id = id ∧ p.schema = schema ∧ p.bytes = bytes ∧
        p.dirty = false ∧ p.dirtiedBy = none := by
  constructor
  · intro h
    unfold ofBytes at h
    split at h
    · cases h
    · rename_i hsize
      split at h
      · cases h
        exact ⟨Decidable.not_not.mp hsize, rfl, rfl, rfl, rfl, rfl⟩
      · cases h
  · rintro ⟨hsize, hid, hschema, hbytes, hdirty, hby⟩
    obtain ⟨id', schema', bytes', fits, dirty, dirtiedBy⟩ := p
    cases hid
    cases hschema
    cases hbytes
    cases hdirty
    cases hby
    unfold ofBytes
    rw [if_neg (not_not_intro hsize), dif_pos fits]

/-- Bytes make a page if they are as many as a page has and there is room for a row. -/
theorem Page.exists_ofBytes (id : PageId) {schema : Schema} {bytes : Bytes} {pageSize : Nat}
    (hsize : bytes.size = pageSize) (hfits : 0 < Page.slotsPerPage pageSize schema.rowWidth) :
    ∃ p, Page.ofBytes id schema bytes pageSize = .ok p := by
  have hslots : 0 < Page.slotsPerPage bytes.size schema.rowWidth := hsize.symm ▸ hfits
  exact ⟨⟨id, schema, bytes, hslots, false, none⟩,
    Page.ofBytes_eq_ok_iff.mpr ⟨hsize, rfl, rfl, rfl, rfl, rfl⟩⟩

theorem Page.exists_blank (id : PageId) {schema : Schema} {pageSize : Nat}
    (hfits : 0 < Page.slotsPerPage pageSize schema.rowWidth) :
    ∃ p, Page.blank id schema pageSize = .ok p :=
  Page.exists_ofBytes id (by simp [Bytes.zeros]) hfits

namespace HeapFile

variable {h : HeapFile} {files files' : Files}

/-- The rows of a table fit on its pages. -/
def Fits (h : HeapFile) : Prop := 0 < Page.slotsPerPage h.pageSize h.schema.rowWidth

instance (h : HeapFile) : Decidable h.Fits := inferInstanceAs (Decidable (0 < _))

theorem Fits.pageSize_pos (hfits : h.Fits) : 0 < h.pageSize := by
  unfold Fits Page.slotsPerPage at hfits
  split at hfits
  · exact absurd hfits (Nat.lt_irrefl 0)
  · rcases Nat.eq_zero_or_pos h.pageSize with hzero | hpos
    · rw [hzero, Nat.zero_mul, Nat.zero_div] at hfits
      exact absurd hfits (Nat.lt_irrefl 0)
    · exact hpos

/-! ## Reading -/

theorem readPage_of_ge {n : Nat} (hn : h.numPages files ≤ n) :
    h.readPage files ⟨h.id, n⟩ = .error (.missing (.page ⟨h.id, n⟩ (h.numPages files))) := by
  simp [readPage, checkTable, hn, bind, Except.bind]

/-- A page below the number of pages is made of its block. -/
theorem readPage_eq_ofBytes {id : PageId} (hid : id.table = h.id)
    (hn : id.number < h.numPages files) :
    h.readPage files id =
      Page.ofBytes id h.schema (block h.pageSize id.number (files.content h.path)) h.pageSize := by
  simp [readPage, checkTable, hid, Nat.not_le.mpr hn, bind, Except.bind]

theorem readPage_of_lt (hfits : h.Fits) {n : Nat} (hn : n < h.numPages files) :
    ∃ p, h.readPage files ⟨h.id, n⟩ = .ok p := by
  rw [readPage_eq_ofBytes rfl hn]
  exact Page.exists_ofBytes _ (size_block ..) hfits

/-- What a page that was read looks like. -/
theorem readPage_eq_ok {n : Nat} {p : Page} (hread : h.readPage files ⟨h.id, n⟩ = .ok p) :
    n < h.numPages files ∧ p.id = ⟨h.id, n⟩ ∧ p.schema = h.schema ∧ p.bytes.size = h.pageSize ∧
      p.clean = p := by
  rcases Nat.lt_or_ge n (h.numPages files) with hn | hn
  · rw [readPage_eq_ofBytes rfl hn] at hread
    obtain ⟨hsize, hid, hschema, hbytes, hdirty, hby⟩ := Page.ofBytes_eq_ok_iff.mp hread
    refine ⟨hn, hid, hschema, hbytes ▸ hsize, ?_⟩
    obtain ⟨id', schema', bytes', fits, dirty, dirtiedBy⟩ := p
    cases hdirty
    cases hby
    rfl
  · rw [readPage_of_ge hn] at hread
    cases hread

/-- Reading depends on the bytes of the file only. -/
theorem numPages_congr (hcontent : files'.content h.path = files.content h.path) :
    h.numPages files' = h.numPages files := by
  rw [numPages, numPages, hcontent]

theorem readPage_congr (hcontent : files'.content h.path = files.content h.path) (id : PageId) :
    h.readPage files' id = h.readPage files id := by
  simp only [readPage, numPages_congr hcontent, hcontent]

/-! ## Writing -/

theorem writePage_eq_ok {page : Page} (hwrite : h.writePage files page = .ok files') :
    page.id.table = h.id ∧
      files' = files.put h.path
        (putBytes (files.content h.path) (h.offset files page.id.number) page.bytes) := by
  simp only [writePage, checkTable, bind, Except.bind] at hwrite
  split at hwrite
  · cases hwrite
  · rename_i hcheck
    cases hwrite
    split at hcheck
    · cases hcheck
    · rename_i htable
      exact ⟨Decidable.not_not.mp htable, rfl⟩

/-- Writing a page puts a content that is not shorter in the place of the old one. -/
theorem put_of_writePage {page : Page} (hwrite : h.writePage files page = .ok files') :
    ∃ bytes, (files.content h.path).size ≤ bytes.size ∧ files' = files.put h.path bytes := by
  refine ⟨_, ?_, (writePage_eq_ok hwrite).2⟩
  rw [size_putBytes]
  exact Nat.le_max_left _ _

/-- Writing a page changes no other file. -/
theorem content_writePage {g : HeapFile} {page : Page} (hne : g.id ≠ h.id)
    (hwrite : h.writePage files page = .ok files') :
    files'.content g.path = files.content g.path := by
  obtain ⟨-, rfl⟩ := writePage_eq_ok hwrite
  have hpath : g.path ≠ h.path := fun hpath => hne (congrArg tableIdOf hpath)
  rw [Files.content_put, if_neg hpath]

/-- A page that is written where it belongs replaces a block. -/
theorem writePage_eq_putBlock {page : Page} (hwrite : h.writePage files page = .ok files')
    (hplace : h.offset files page.id.number = page.id.number * h.pageSize) :
    files' = files.put h.path
      (putBlock h.pageSize page.id.number page.bytes (files.content h.path)) := by
  rw [(writePage_eq_ok hwrite).2, hplace, putBlock]

theorem numPages_writePage {page : Page} (hpos : 0 < h.pageSize)
    (hsize : page.bytes.size = h.pageSize) (hwrite : h.writePage files page = .ok files')
    (hplace : h.offset files page.id.number = page.id.number * h.pageSize) :
    h.numPages files' = max (h.numPages files) (page.id.number + 1) := by
  obtain rfl := writePage_eq_putBlock hwrite hplace
  rw [numPages, Files.content_put, if_pos rfl, blockCount_putBlock hpos hsize]
  rfl

/-- A page that was written is read back as it is in memory, but unchanged; the other pages that
    were there stay. -/
theorem readPage_writePage {page : Page} (hpos : 0 < h.pageSize) (hschema : page.schema = h.schema)
    (hsize : page.bytes.size = h.pageSize) (hwrite : h.writePage files page = .ok files')
    (hplace : h.offset files page.id.number = page.id.number * h.pageSize)
    {id : PageId} (hid : id.table = h.id) (hn : id.number < h.numPages files ∨ id = page.id) :
    h.readPage files' id = if id = page.id then .ok page.clean else h.readPage files id := by
  have hcount := numPages_writePage hpos hsize hwrite hplace
  have htable := (writePage_eq_ok hwrite).1
  obtain rfl := writePage_eq_putBlock hwrite hplace
  have hlt : id.number < h.numPages (files.put h.path
      (putBlock h.pageSize page.id.number page.bytes (files.content h.path))) := by
    rw [hcount]
    rcases hn with hn | rfl <;> omega
  rw [readPage_eq_ofBytes hid hlt, Files.content_put, if_pos rfl, block_putBlock hsize]
  by_cases heq : id = page.id
  · subst heq
    rw [if_pos rfl, if_pos rfl]
    exact Page.ofBytes_eq_ok_iff.mpr ⟨hsize, rfl, hschema, rfl, rfl, rfl⟩
  · have hnumber : id.number ≠ page.id.number := by
      intro hnumber
      have htables : id.table = page.id.table := hid.trans htable.symm
      apply heq
      obtain ⟨t, n⟩ := id
      cases htables
      cases hnumber
      rfl
    rcases hn with hn | hn
    · rw [if_neg hnumber, if_neg heq, readPage_eq_ofBytes hid hn]
    · exact absurd hn heq

end HeapFile

end RowStore
