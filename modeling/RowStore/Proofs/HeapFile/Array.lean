import RowStore.Proofs.HeapFile.Pages
import RowStore.Proofs.Storage.Steps

/-!
A heap file is an array of pages.

Program.  A page is read and written at its offset in the file.  The file may have any length: a last page
that is cut short reads as if zeros followed, and a page may be written far behind the end.

1. `HeapFile.images` are the bytes of the pages that a file has, a list with one block for each page.
2. Writing a page puts zero pages behind the last one until there is a place for it, and then replaces what
   is at that place (`images_writePage`).  So a run of writes is a run of changes of this list
   (`images_writePages`).
3. Reading looks a page up in the list (`readPage_eq_images`).  `Readable` says when that fails, and
   `Rewritten` what one write changes of what is read.
4. All that is so for pages that end where a file can end (`Reaches`).  The offset of a page much farther
   behind wraps around, and the page is written over another one (`page_written_over_the_first`).

Crux.  A block begins inside the file exactly if its number is below the number of blocks
(`lt_blockCount_iff`).  So what lies between the end of the file and a block written behind it are zeros,
the rest of a cut page among them.
-/

namespace RowStore

/-! ## Blocks behind the end -/

/-- Behind the end of the file all blocks are zero. -/
theorem block_of_blockCount_le {size n : Nat} {content : Bytes} (hpos : 0 < size)
    (hn : blockCount size content ≤ n) : block size n content = Bytes.zeros size := by
  have hend : content.size ≤ n * size := by
    rw [← not_lt, lt_blockCount_iff hpos, not_lt] at hn
    exact hn
  apply Array.ext_getElem?
  intro i
  by_cases hi : i < size
  · have hout : content[n * size + i]? = none := Array.getElem?_eq_none (by omega)
    rw [getElem?_block hi, Array.getD_eq_getD_getElem?, hout]
    simp [Bytes.zeros, hi]
  · rw [Array.getElem?_eq_none (by simpa using hi), Array.getElem?_eq_none (by simpa [Bytes.zeros] using hi)]

/-- The list with a block at place `n`, behind blocks of zeros if it was too short. -/
def putImage (size n : Nat) (chunk : Bytes) (images : List Bytes) : List Bytes :=
  (images ++ List.replicate (n + 1 - images.length) (Bytes.zeros size)).set n chunk

/-- A block of the list is the new one, or the one before, or zero in between. -/
theorem getElem?_putImage (size n : Nat) (chunk : Bytes) (images : List Bytes) (m : Nat) :
    (putImage size n chunk images)[m]? =
      if m = n then some chunk
      else if images.length ≤ m ∧ m < n then some (Bytes.zeros size)
      else images[m]? := by
  by_cases hm : m = n
  · subst hm
    have hlt : m < (images ++ List.replicate (m + 1 - images.length) (Bytes.zeros size)).length := by
      simp only [List.length_append, List.length_replicate]
      omega
    rw [if_pos rfl, putImage, List.getElem?_set_self hlt]
  · rw [if_neg hm, putImage, List.getElem?_set_ne (fun h => hm h.symm)]
    by_cases hold : m < images.length
    · rw [if_neg (by omega), List.getElem?_append_left hold]
    · rw [List.getElem?_append_right (by omega), List.getElem?_replicate]
      by_cases hgap : m < n
      · rw [if_pos (by omega), if_pos ⟨by omega, hgap⟩]
      · rw [if_neg (by omega), if_neg (by omega), List.getElem?_eq_none (by omega)]

namespace HeapFile

variable {h : HeapFile} {files files' : Files} {page : Page} {id : PageId}

/-! ## The pages as a list -/

/-- The bytes of the pages of a file, in order; a last page that is cut short is filled up with zeros. -/
def images (h : HeapFile) (files : Files) : List Bytes :=
  (List.range (h.numPages files)).map fun n => block h.pageSize n (files.content h.path)

@[simp]
theorem length_images (h : HeapFile) (files : Files) : (h.images files).length = h.numPages files := by
  simp [images]

theorem getElem?_images (h : HeapFile) (files : Files) (n : Nat) :
    (h.images files)[n]? =
      if n < h.numPages files then some (block h.pageSize n (files.content h.path)) else none := by
  by_cases hn : n < h.numPages files
  · simp [images, hn]
  · simp [images, hn]

/-- A page of the table, with as many bytes as its pages have. -/
structure Owns (h : HeapFile) (page : Page) : Prop where
  /-- It is a page of the table. -/
  table : page.id.table = h.id
  /-- It has as many bytes as a page has. -/
  size : page.bytes.size = h.pageSize

instance (h : HeapFile) (page : Page) : Decidable (h.Owns page) :=
  decidable_of_iff (page.id.table = h.id ∧ page.bytes.size = h.pageSize)
    ⟨fun hp => ⟨hp.1, hp.2⟩, fun hp => ⟨hp.table, hp.size⟩⟩

/-- A page of the table can be written. -/
theorem Owns.exists_writePage (hown : h.Owns page) (files : Files) :
    ∃ files', h.writePage files page = .ok files' :=
  ⟨_, writePage_of_id files hown.table⟩

/-- A page ends where a file can end: the last byte of a file has a signed word of 64 bits as its number. -/
def Reaches (h : HeapFile) (page : Page) : Prop := (page.id.number + 1) * h.pageSize < 2 ^ 63

instance (h : HeapFile) (page : Page) : Decidable (h.Reaches page) :=
  inferInstanceAs (Decidable (_ < _))

/-- Such a page is written where it belongs. -/
theorem Reaches.offset_eq (hreach : h.Reaches page) (files : Files) :
    h.offset files page.id.number = page.id.number * h.pageSize := by
  unfold Reaches at hreach
  rw [Nat.succ_mul] at hreach
  exact offset_of_lt (by unfold UInt64.size; omega)

/-- **Step lemma.**  Writing a page replaces what is at its place in the list. -/
theorem images_writePage (hpos : 0 < h.pageSize) (hown : h.Owns page) (hreach : h.Reaches page)
    (hwrite : h.writePage files page = .ok files') :
    h.images files' = putImage h.pageSize page.id.number page.bytes (h.images files) := by
  have hplace := hreach.offset_eq files
  have hcount := numPages_writePage hpos hown.size hwrite hplace
  obtain rfl := writePage_eq_putBlock hwrite hplace
  apply List.ext_getElem?
  intro n
  rw [getElem?_images, hcount, getElem?_putImage, length_images, getElem?_images, Files.content_put,
    if_pos rfl, block_putBlock hown.size]
  by_cases hn : n = page.id.number
  · rw [if_pos (by omega), if_pos hn, if_pos hn]
  · rw [if_neg hn, if_neg hn]
    by_cases hgap : h.numPages files ≤ n ∧ n < page.id.number
    · rw [if_pos (by omega), if_pos hgap, block_of_blockCount_le hpos hgap.1]
    · rw [if_neg hgap]
      by_cases hold : n < h.numPages files
      · rw [if_pos (by omega), if_pos hold]
      · rw [if_neg (by omega), if_neg hold]

/-- **Run lemma.**  Pages of the table can be written one after the other, and each replaces what is at its
    place in the list. -/
theorem images_writePages (hpos : 0 < h.pageSize) {pages : List Page} (hown : ∀ p ∈ pages, h.Owns p)
    (hreach : ∀ p ∈ pages, h.Reaches p) (files : Files) :
    ∃ now, pages.foldlM h.writePage files = .ok now ∧
      h.images now =
        pages.foldl (fun images p => putImage h.pageSize p.id.number p.bytes images) (h.images files) := by
  induction pages generalizing files with
  | nil => exact ⟨files, rfl, rfl⟩
  | cons page pages ih =>
    obtain ⟨hfirst, hown⟩ := List.forall_mem_cons.mp hown
    obtain ⟨hplace, hreach⟩ := List.forall_mem_cons.mp hreach
    obtain ⟨next, hwrite⟩ := hfirst.exists_writePage files
    obtain ⟨now, hrest, himages⟩ := ih hown hreach next
    refine ⟨now, ?_, ?_⟩
    · rw [List.foldlM_cons, hwrite]
      exact hrest
    · rw [himages, List.foldl_cons, images_writePage hpos hfirst hplace hwrite]

/-! ## Reading -/

/-- The page that is made of the bytes that were read. -/
def Shows (h : HeapFile) (id : PageId) (bytes : Bytes) (result : Except Error Page) : Prop :=
  ∃ p, result = .ok p ∧ p.id = id ∧ p.schema = h.schema ∧ p.bytes = bytes ∧ p.clean = p

/-- Reading a page of the table looks it up in the list. -/
theorem readPage_eq_images (htable : id.table = h.id) :
    h.readPage files id =
      match (h.images files)[id.number]? with
      | some bytes => Page.ofBytes id h.schema bytes h.pageSize
      | none => .error (.missing (.page id (h.numPages files))) := by
  rw [getElem?_images]
  by_cases hn : id.number < h.numPages files
  · rw [if_pos hn, readPage_eq_ofBytes htable hn]
  · rw [if_neg hn]
    obtain ⟨table, n⟩ := id
    cases htable
    exact readPage_of_ge (not_lt.mp hn)

theorem readPage_of_other (htable : id.table ≠ h.id) (files : Files) :
    h.readPage files id = .error (.missing (.pageOfTable id h.id)) := by
  simp [readPage, checkTable, htable, bind, Except.bind]

/-- A page whose bytes are in the list is read. -/
theorem shows_of_images (hfits : h.Fits) (htable : id.table = h.id) {bytes : Bytes}
    (hsize : bytes.size = h.pageSize) (hat : (h.images files)[id.number]? = some bytes) :
    h.Shows id bytes (h.readPage files id) := by
  obtain ⟨p, hp⟩ := Page.exists_ofBytes id hsize hfits
  obtain ⟨-, hid, hschema, hbytes, hdirty, hby⟩ := Page.ofBytes_eq_ok_iff.mp hp
  refine ⟨p, ?_, hid, hschema, hbytes, ?_⟩
  · rw [readPage_eq_images htable, hat]
    exact hp
  · obtain ⟨id', schema', bytes', fits, dirty, dirtiedBy⟩ := p
    cases hdirty
    cases hby
    rfl

/-- What can be read of a file: its pages, and nothing else. -/
structure Readable (h : HeapFile) (files : Files) : Prop where
  /-- There are as many pages as are needed to hold the bytes. -/
  count : h.numPages files = (files.content h.path).size ⌈/⌉ h.pageSize
  /-- A page that the file has is read, with zeros for the bytes that are missing. -/
  found : ∀ id, id.table = h.id → id.number < h.numPages files →
    h.Shows id (block h.pageSize id.number (files.content h.path)) (h.readPage files id)
  /-- A page is not found exactly if it belongs to another table or comes after the last page. -/
  missing_iff : ∀ id, (∃ cause, h.readPage files id = .error (.missing cause)) ↔
    id.table ≠ h.id ∨ h.numPages files ≤ id.number
  /-- A page that is read begins inside the file. -/
  inside : ∀ id p, h.readPage files id = .ok p → id.number * h.pageSize < (files.content h.path).size

/-- Whatever bytes it has, a file whose rows fit on a page can be read. -/
theorem readable (hfits : h.Fits) (files : Files) : h.Readable files := by
  have hpos := hfits.pageSize_pos
  have hfound : ∀ id, id.table = h.id → id.number < h.numPages files →
      h.Shows id (block h.pageSize id.number (files.content h.path)) (h.readPage files id) := by
    intro id htable hn
    exact shows_of_images hfits htable (size_block ..) (by rw [getElem?_images, if_pos hn])
  have hmissing : ∀ id, (∃ cause, h.readPage files id = .error (.missing cause)) ↔
      id.table ≠ h.id ∨ h.numPages files ≤ id.number := by
    intro id
    constructor
    · rintro ⟨cause, herror⟩
      by_contra hno
      rw [not_or, not_not, not_le] at hno
      obtain ⟨p, hp, -⟩ := hfound id hno.1 hno.2
      rw [hp] at herror
      cases herror
    · rintro (htable | hn)
      · exact ⟨_, readPage_of_other htable files⟩
      · by_cases htable : id.table = h.id
        · obtain ⟨table, n⟩ := id
          cases htable
          exact ⟨_, readPage_of_ge hn⟩
        · exact ⟨_, readPage_of_other htable files⟩
  refine ⟨blockCount_eq_ceilDiv .., hfound, hmissing, ?_⟩
  intro id p hread
  rw [← lt_blockCount_iff hpos]
  by_contra hn
  obtain ⟨cause, herror⟩ := (hmissing id).mpr (Or.inr (not_lt.mp hn))
  rw [hread] at herror
  cases herror

/-- What is read after a page was written, and what was read before. -/
structure Rewritten (h : HeapFile) (files : Files) (page : Page) (files' : Files) : Prop where
  /-- The file is just so long that the page is one of its pages. -/
  count : h.numPages files' = max (h.numPages files) (page.id.number + 1)
  /-- The page is read as it was written. -/
  own : h.Shows page.id page.bytes (h.readPage files' page.id)
  /-- The pages between the last one and the one that was written are zero. -/
  gap : ∀ id, id.table = h.id → h.numPages files ≤ id.number → id.number < page.id.number →
    h.Shows id (Bytes.zeros h.pageSize) (h.readPage files' id)
  /-- Every other page is read as before; one that still is not there is refused with the number of pages
      that there are now. -/
  other : ∀ id, id ≠ page.id →
    ¬(id.table = h.id ∧ h.numPages files ≤ id.number ∧ id.number < page.id.number) →
    h.readPage files' id = h.readPage files id ∨
      h.readPage files id = .error (.missing (.page id (h.numPages files))) ∧
      h.readPage files' id = .error (.missing (.page id (h.numPages files')))

/-- Writing a page changes what is read of it, and brings the pages before it into being. -/
theorem rewritten_of_writePage (hfits : h.Fits) (hown : h.Owns page) (hreach : h.Reaches page)
    (hwrite : h.writePage files page = .ok files') : h.Rewritten files page files' := by
  have hpos := hfits.pageSize_pos
  have himages := images_writePage hpos hown hreach hwrite
  have hat : ∀ n, (h.images files')[n]? = _ := fun n =>
    (congrArg (fun images => images[n]?) himages).trans (getElem?_putImage ..)
  have hcount := numPages_writePage hpos hown.size hwrite (hreach.offset_eq files)
  refine ⟨hcount, ?_, ?_, ?_⟩
  · exact shows_of_images hfits hown.table hown.size (by rw [hat, if_pos rfl])
  · intro id htable hge hlt
    refine shows_of_images hfits htable (by simp [Bytes.zeros]) ?_
    rw [hat, if_neg (by omega), length_images, if_pos ⟨hge, hlt⟩]
  · intro id hne hgap
    by_cases htable : id.table = h.id
    · have hnumber : id.number ≠ page.id.number := fun hnumber =>
        hne (congrArg₂ PageId.mk (htable.trans hown.table.symm) hnumber)
      have hsame : (h.images files')[id.number]? = (h.images files)[id.number]? := by
        rw [hat, if_neg hnumber, length_images, if_neg fun hin => hgap ⟨htable, hin⟩]
      rw [readPage_eq_images htable, readPage_eq_images htable, hsame]
      cases (h.images files)[id.number]? with
      | some bytes => exact Or.inl rfl
      | none => exact Or.inr ⟨rfl, rfl⟩
    · rw [readPage_of_other htable, readPage_of_other htable]
      exact Or.inl rfl

/-- **A heap file is an array of pages.**  A file whose rows fit on a page may have any bytes and any length.
    Any pages of the table that end where a file can end are written to it one after the other.  Then its
    pages are those of the list that the writes make of the pages it had: each write puts zero pages behind
    the last one until there is a place for its page, and replaces what is there.  At every such moment a
    page is read exactly if the file has it, from an offset inside the file, and one write more changes what
    is read of its own page, makes zero pages of those that it skips, and leaves all other pages as they
    were. -/
theorem acts_as_array (hfits : h.Fits) (files : Files) {written : List Page}
    (hown : ∀ p ∈ written, h.Owns p) (hreach : ∀ p ∈ written, h.Reaches p) :
    ∃ now, written.foldlM h.writePage files = .ok now ∧
      h.images now =
        written.foldl (fun images p => putImage h.pageSize p.id.number p.bytes images) (h.images files) ∧
      h.Readable now ∧
      ∀ page, h.Owns page → h.Reaches page →
        ∃ next, h.writePage now page = .ok next ∧ h.Rewritten now page next := by
  obtain ⟨now, hwritten, himages⟩ := images_writePages hfits.pageSize_pos hown hreach files
  refine ⟨now, hwritten, himages, readable hfits now, ?_⟩
  intro page hpage hplace
  obtain ⟨next, hwrite⟩ := hpage.exists_writePage now
  exact ⟨next, hwrite, rewritten_of_writePage hfits hpage hplace hwrite⟩

/-- A file of thirteen bytes has two pages of nine, the second cut short.  Writing the page `3` makes it a
    file of four: the cut page is filled up with zeros, and the page `2` is zero. -/
theorem acts_as_array_behind_a_cut_page :
    let h : HeapFile := ⟨["t"], Schema.single "n" .int, 9⟩
    let files : Files := ⟨[], [], [(["t"], #[3, 1, 0, 0, 0, 2, 0, 0, 0, 1, 7, 7, 7])]⟩
    let bytes : Bytes := #[1, 5, 0, 0, 0, 0, 0, 0, 0]
    ∃ page now, h.Fits ∧ h.Owns page ∧ h.numPages files = 2 ∧ [page].foldlM h.writePage files = .ok now ∧
      h.images now = [#[3, 1, 0, 0, 0, 2, 0, 0, 0], #[1, 7, 7, 7, 0, 0, 0, 0, 0], Bytes.zeros 9, bytes] ∧
      h.Shows ⟨h.id, 2⟩ (Bytes.zeros 9) (h.readPage now ⟨h.id, 2⟩) ∧
      ∃ cause, h.readPage now ⟨h.id, 4⟩ = .error (.missing cause) := by
  intro h files bytes
  have hfits : h.Fits := by decide
  obtain ⟨page, hpage⟩ := Page.exists_ofBytes ⟨h.id, 3⟩ (show bytes.size = h.pageSize from rfl) hfits
  obtain ⟨-, hid, -, hbytes, -, -⟩ := Page.ofBytes_eq_ok_iff.mp hpage
  have hown : h.Owns page := ⟨by rw [hid], by rw [hbytes]; rfl⟩
  have hreach : h.Reaches page := by rw [Reaches, hid]; decide
  obtain ⟨now, hwritten, himages, hreadable, -⟩ :=
    acts_as_array hfits files (show ∀ p ∈ [page], h.Owns p by simpa using hown) (by simpa using hreach)
  have hlist : h.images now =
      [#[3, 1, 0, 0, 0, 2, 0, 0, 0], #[1, 7, 7, 7, 0, 0, 0, 0, 0], Bytes.zeros 9, bytes] := by
    rw [himages, List.foldl_cons, List.foldl_nil, hid, hbytes]
    decide +kernel
  have hcount : h.numPages now = 4 := by rw [← length_images, hlist]; rfl
  refine ⟨page, now, hfits, hown, by decide +kernel, hwritten, hlist, ?_, ?_⟩
  · have hblock : block 9 2 (now.content h.path) = Bytes.zeros 9 := by
      have hat := getElem?_images h now 2
      rw [hlist, hcount, if_pos (by omega)] at hat
      exact (Option.some.inj hat).symm
    rw [← hblock]
    exact hreadable.found ⟨h.id, 2⟩ rfl (hcount.symm ▸ by decide)
  · exact (hreadable.missing_iff ⟨h.id, 4⟩).mpr (Or.inr hcount.le)

/-- The page `2 ^ 58` of a file with pages of 64 bytes would begin at `2 ^ 64`, which is zero in a word.  So
    it is written over the page `0`.  The file has one page before and after, and the page that was written
    is not found. -/
theorem page_written_over_the_first :
    let h : HeapFile := ⟨["t"], Schema.single "n" .int, 64⟩
    let files : Files := ⟨[], [], [(["t"], Bytes.zeros 64)]⟩
    ∃ page now, h.Fits ∧ h.Owns page ∧ page.id.number = 2 ^ 58 ∧ page.bytes ≠ Bytes.zeros 64 ∧
      h.numPages files = 1 ∧ h.writePage files page = .ok now ∧ ¬ h.Rewritten files page now ∧
      h.numPages now = 1 ∧ h.Shows ⟨h.id, 0⟩ page.bytes (h.readPage now ⟨h.id, 0⟩) ∧
      h.readPage now page.id = .error (.missing (.page page.id 1)) := by
  intro h files
  let bytes : Bytes := Array.replicate 64 1
  let now := files.put h.path (putBytes (files.content h.path) (h.offset files (2 ^ 58)) bytes)
  have hfits : h.Fits := by decide
  obtain ⟨page, hpage⟩ := Page.exists_ofBytes ⟨h.id, 2 ^ 58⟩ (show bytes.size = h.pageSize from rfl) hfits
  obtain ⟨-, hid, -, hbytes, -, -⟩ := Page.ofBytes_eq_ok_iff.mp hpage
  have hown : h.Owns page := ⟨by rw [hid], by rw [hbytes]; rfl⟩
  have hwrite : h.writePage files page = .ok now := by rw [writePage_of_id files hown.table, hid, hbytes]
  have hcount : h.numPages now = 1 := by decide +kernel
  have hblock : block h.pageSize 0 (now.content h.path) = bytes := by decide +kernel
  refine ⟨page, now, hfits, hown, by rw [hid], hbytes ▸ by decide +kernel, by decide +kernel, hwrite,
    fun hrewritten => ?_, hcount, ?_, ?_⟩
  · have hlonger : page.id.number + 1 ≤ h.numPages now := hrewritten.count ▸ Nat.le_max_right _ _
    rw [hcount, hid] at hlonger
    exact absurd hlonger (by decide)
  · rw [hbytes, ← hblock]
    exact (readable hfits now).found ⟨h.id, 0⟩ rfl (hcount.symm ▸ Nat.one_pos)
  · rw [hid, readPage_of_ge (by rw [hcount]; decide), hcount]

end HeapFile

end RowStore
