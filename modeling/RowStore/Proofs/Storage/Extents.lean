import RowStore.Proofs.Storage.Origins
import RowStore.Proofs.Storage.Tree

/-!
Pages in memory belong where a machine can write them.

Program.  A page is written at the product of its number and the size of a page of its file, computed in a
word (`HeapFile.offset`).  When it is written, its file need not be the one it was read from: the number of
its table may be taken over by another file meanwhile, which is shorter.

1. No step makes a file shorter (`Step.longer`), so if the machine can address all files after a step, it
   could before (`Step.addressable`).
2. A page is read from inside a file.  So the place of every page in memory can be addressed
   (`Storage.Placed`), whatever becomes of its table.
3. A page that looks like one of its file is written where it belongs (`Placed.offset_eq`).
-/

namespace RowStore.Storage

open Files

variable {catalog : Catalog} {may : Effect → Prop} {s s' : Storage} {id : PageId} {frame : Frame}

/-- No file gets shorter. -/
theorem Step.longer (hstep : Step catalog may s s') (hs : s.pool.Sound) (p : Path) :
    (s.files.content p).size ≤ (s'.files.content p).size := by
  rcases hstep.files_cases hs with hsame | ⟨table, h, bytes, -, hlonger, hput⟩ | ⟨-, path, hnone, hput⟩
  · rw [hsame]
  · rw [hput, content_put]
    split
    · rename_i hp
      exact hp ▸ hlonger
    · exact Nat.le_refl _
  · rw [hput, content_put_empty hnone]

theorem Step.addressable (hstep : Step catalog may s s') (hs : s.pool.Sound)
    (hfiles : s'.files.Addressable) : s.files.Addressable :=
  addressable_iff.mpr fun p => Nat.lt_of_le_of_lt (hstep.longer hs p) (addressable_iff.mp hfiles p)

/-- Every page in memory has a place that can be addressed, if the files can. -/
def Placed (s : Storage) : Prop :=
  s.files.Addressable → ∀ id frame, s.pool.find? id = some frame →
    id.number * frame.page.bytes.size < 0x8000000000000000

/-- A page that is read begins inside a file. -/
theorem placed_of_readPage {page : Page} (hfiles : s.files.Addressable)
    (hread : s.readPage catalog id = .ok page) : id.number * page.bytes.size < 0x8000000000000000 := by
  obtain ⟨h, hfile, hpage⟩ := file_of_readPage hread
  obtain ⟨table, n⟩ := id
  obtain rfl : h.id = table := Catalog.id_of_file hfile
  obtain ⟨hn, -, -, hsize, -⟩ := HeapFile.readPage_eq_ok hpage
  rw [hsize]
  rcases Nat.eq_zero_or_pos h.pageSize with hzero | hpos
  · rw [hzero, Nat.mul_zero]
    decide
  · exact Nat.lt_trans ((lt_blockCount_iff hpos).mp hn) (addressable_iff.mp hfiles h.path)

/-- **The step lemma.**  Only a page that comes in gets another place. -/
theorem Step.placed (hstep : Step catalog may s s') (hs : s.pool.Sound) (hplaced : s.Placed) :
    s'.Placed := by
  intro hfiles id frame hfind
  have hbefore := hstep.addressable hs hfiles
  cases hstep.origin hs hfind with
  | kept hold hpage =>
    have hplace := hplaced hbefore id _ hold
    rcases hpage with hpage | hpage <;> rw [hpage] <;> exact hplace
  | changed _ hold _ hsize =>
    rw [hsize]
    exact hplaced hbefore id _ hold
  | loaded _ hread => exact placed_of_readPage hbefore hread

/-- **The run lemma.** -/
theorem Steps.placed (hsteps : Steps catalog may s s') (hs : s.pool.Sound) (hplaced : s.Placed) :
    s'.Placed := by
  induction hsteps with
  | refl => exact hplaced
  | tail hbefore hstep ih => exact hstep.placed (Steps.sound hbefore hs) ih

/-- A page in memory is written where it belongs to a file whose pages have as many bytes. -/
theorem Placed.offset_eq (hplaced : s.Placed) (hfind : s.pool.find? id = some frame) {h : HeapFile}
    (hsize : frame.page.bytes.size = h.pageSize) :
    h.offset s.files id.number = id.number * h.pageSize := by
  by_cases hfiles : s.files.Addressable
  · have hplace := hplaced hfiles id frame hfind
    rw [hsize] at hplace
    exact HeapFile.offset_of_lt (Nat.lt_trans hplace (by decide))
  · rw [HeapFile.offset, if_neg fun hwords => hfiles hwords.2]

end RowStore.Storage
