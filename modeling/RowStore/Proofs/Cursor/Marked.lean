import RowStore.Proofs.Cursor.Plans
import RowStore.Proofs.Page.Checked

/-!
A file of any bytes can be scanned.

Program.  Nothing says what the bytes of a file are.  The bitmap of a page may have any bits, a length of
a text may be negative or too large, its bytes may be no text, and the last page may be cut short.

1. `h.bytesAt s n` are the bytes of page `n` of a table as it is now, and `h.marked s` are the places of
   which the bit is set, page by page and slot by slot.  Bits behind the last slot do not count.
2. The rows of a page have the places that are marked on it (`Page.map_place_rows`), and so it is for a
   table (`Coherent.map_place_rows`).
3. No access goes outside of a page, and a scan gives exactly one row for each place that is marked
   (`scan_gives_marked`).
-/

namespace RowStore

open Storage

/-! ## The bits of a page -/

namespace Page

variable {p : Page}

/-- The rows of some slots have the places of those of them whose bit is set. -/
theorem map_place_filterMap {slots : List Nat} (hslots : ∀ i ∈ slots, i < p.slots) :
    (slots.filterMap p.row).map Row.place = (slots.filter p.bit).map fun i => some (p.place i) := by
  induction slots with
  | nil => rfl
  | cons i slots ih =>
    obtain ⟨hi, hrest⟩ := List.forall_mem_cons.mp hslots
    have hused : p.isUsed i = p.bit i := by rw [isUsed_eq, decide_eq_true hi, Bool.true_and]
    rw [List.filterMap_cons, List.filter_cons, row_eq, hused]
    by_cases hbit : p.bit i = true
    · rw [if_pos hbit, if_pos hbit, List.map_cons, List.map_cons, ih hrest]
    · rw [if_neg hbit, if_neg hbit]
      exact ih hrest

/-- The rows of a page have the places of the slots whose bit is set. -/
theorem map_place_rows (p : Page) :
    p.rows.map Row.place = ((List.range p.slots).filter p.bit).map fun i => some (p.place i) :=
  map_place_filterMap fun _ => List.mem_range.mp

/-- A row on a page was made for its schema. -/
theorem schema_of_mem_rows {row : Row} (hrow : row ∈ p.rows) : row.schema = p.schema := by
  obtain ⟨i, -, hi⟩ := List.mem_filterMap.mp hrow
  rw [row_eq] at hi
  split at hi
  · cases hi
    rfl
  · cases hi

end Page

/-! ## The bits of a table -/

namespace HeapFile

/-- The bytes of a page as it is now: those in memory, or those of the file, with zeros for what is
    missing. -/
def bytesAt (h : HeapFile) (s : Storage) (n : Nat) : Bytes :=
  match s.pool.find? ⟨h.id, n⟩ with
  | some frame => frame.page.bytes
  | none => block h.pageSize n (s.files.content h.path)

/-- Whether the bit of a slot is set. -/
def isMarked (h : HeapFile) (s : Storage) (n i : Nat) : Bool :=
  ((h.bytesAt s n).getD (i / 8) 0).toNat.testBit (i % 8)

/-- The places of which the bit is set, in order. -/
def marked (h : HeapFile) (s : Storage) : List RecordId :=
  (List.range (h.numPages s.files)).flatMap fun n =>
    ((List.range (Page.slotsPerPage h.pageSize h.schema.rowWidth)).filter (h.isMarked s n)).map
      fun i => ⟨⟨h.id, n⟩, i⟩

end HeapFile

namespace Coherent

variable {h : HeapFile} {s : Storage} {p : Page} {n : Nat}

/-- A page as it is now has the bytes that it has now. -/
theorem bytes_of_page? (hp : h.page? s n = some p) : p.bytes = h.bytesAt s n := by
  unfold HeapFile.page? at hp
  unfold HeapFile.bytesAt
  cases hfind : s.pool.find? ⟨h.id, n⟩ with
  | some frame =>
    rw [hfind] at hp
    cases hp
    rfl
  | none =>
    rw [hfind] at hp
    cases hread : h.readPage s.files ⟨h.id, n⟩ with
    | error e =>
      rw [hread] at hp
      cases hp
    | ok page =>
      rw [hread] at hp
      cases hp
      have hlt : n < h.numPages s.files := by
        by_contra hge
        rw [HeapFile.readPage_of_ge (Nat.not_lt.mp hge)] at hread
        cases hread
      rw [HeapFile.readPage_eq_ofBytes rfl hlt] at hread
      exact (Page.ofBytes_eq_ok_iff.mp hread).2.2.2.1

/-- The rows of some pages of a table have the places that are marked on them. -/
theorem map_place_pages (hc : Coherent h s) (hs : s.pool.Sound) {numbers : List Nat}
    (hnumbers : ∀ n ∈ numbers, n < h.numPages s.files) :
    ((numbers.filterMap (h.page? s)).flatMap Page.rows).map Row.place =
      (numbers.flatMap fun n =>
        ((List.range (Page.slotsPerPage h.pageSize h.schema.rowWidth)).filter (h.isMarked s n)).map
          fun i => (⟨⟨h.id, n⟩, i⟩ : RecordId)).map some := by
  induction numbers with
  | nil => rfl
  | cons n numbers ih =>
    obtain ⟨hn, hrest⟩ := List.forall_mem_cons.mp hnumbers
    obtain ⟨p, hp, hid, hschema, hsize, -⟩ := hc.page?_of_lt hs hn
    have hbits : p.bit = h.isMarked s n := by
      funext i
      rw [Page.bit, bytes_of_page? hp]
      rfl
    have hslots : p.slots = Page.slotsPerPage h.pageSize h.schema.rowWidth := by
      rw [Page.slots, hsize, hschema]
    rw [List.filterMap_cons, hp]
    simp only [List.flatMap_cons, List.map_append, ih hrest, Page.map_place_rows, hbits, hslots,
      List.map_map]
    congr 1
    refine List.map_congr_left fun i _ => ?_
    simp only [Page.place, hid, Function.comp_apply]

/-- The rows of a table have the places that are marked. -/
theorem map_place_rows (hc : Coherent h s) (hs : s.pool.Sound) :
    ((h.pages s).flatMap Page.rows).map Row.place = (h.marked s).map some :=
  hc.map_place_pages hs fun _ => List.mem_range.mp

end Coherent

/-! ## Scanning -/

namespace HeapFile

variable {h : HeapFile} {catalog : Catalog} {s s' : Storage} {t : PagedTable}

/-- The rows of a table were made for its schema. -/
theorem Holds.schema_of_mem_rows (hh : h.Holds t s) (hs : s.pool.Sound) {row : Row}
    (hrow : row ∈ t.rows) : row.schema = h.schema := by
  obtain ⟨p, hp, hrow⟩ := List.mem_flatMap.mp hrow
  obtain ⟨n, hn⟩ := List.getElem?_of_mem hp
  obtain ⟨-, hschema, -⟩ := hh.shape hs hn
  exact (Page.schema_of_mem_rows hrow).trans hschema

/-- A scan gives the rows of the table, or it fails since a page cannot leave. -/
theorem Holds.scanRows_ends (hh : h.Holds t s) (hs : s.pool.Sound) (hfile : catalog.file h.id = .ok h)
    {r : Except Error (List Row)} (hscan : s.scanRows catalog h.id = (r, s')) :
    r = .ok t.rows ∨ ∃ victim e, r = .error (.eviction victim e) := by
  have hgives : Source.Gives catalog (fun s => s.pool.Sound ∧ h.Holds t s)
      (fun e => ∃ victim cause, e = .eviction victim cause) (.ofTable h.id h.schema) t.rows
      (Source.Scan.Has t.pages) := by
    refine gives_ofTable ?_ ?_ ?_ h.schema
    · rintro s s' ⟨hs, hh⟩ hsteps
      exact ⟨hsteps.sound hs, hh.quiet hs hfile hsteps⟩
    · rintro s ⟨hs, hh⟩
      exact ⟨hs, h, hfile, hh⟩
    · rintro s victim e - -
      exact ⟨victim, e, rfl⟩
  rw [scanRows_of_file hfile] at hscan
  obtain ⟨-, hr | ⟨e, rfl, victim, cause, rfl⟩⟩ := hgives.readAll ⟨hs, hh⟩ hscan
  · exact Or.inl hr
  · exact Or.inr ⟨victim, cause, rfl⟩

/-- **Any bytes can be scanned.**  The rows of a table fit on its pages, and its file has any bytes and any
    length.  Then a page is read as it should be, however many bytes the file hands over at a time; every
    operation of a page of the table stays on the page, whatever its bytes, and its rows are always read;
    and a scan that no page stands in the way of, whether or not pages of the table are in memory
    (`Coherent.of_none`), gives exactly one row for each place whose bit is set, page by page and slot by
    slot, and each agrees with the schema. -/
theorem scan_gives_marked (hc : Coherent h s) (hs : s.pool.Sound) (hfile : catalog.file h.id = .ok h) :
    (∀ hand id, Checked.readPage h s.files hand id = Checked.refuse (h.readPage s.files id)) ∧
    (∀ p : Page, p.schema = h.schema → p.bytes.size = h.pageSize → Checked.Safe p) ∧
    ∀ r s', s.scanRows catalog h.id = (r, s') → (∀ victim e, r ≠ .error (.eviction victim e)) →
      ∃ rows, r = .ok rows ∧ rows.map Row.place = (h.marked s).map some ∧
        ∀ row ∈ rows, row.schema = h.schema ∧ row.Conforms := by
  refine ⟨Checked.readPage_eq h s.files, fun p _ _ => Checked.safe p, ?_⟩
  intro r s' hscan hnone
  have hh := holds_pages hc hs
  obtain rfl | ⟨victim, e, rfl⟩ := hh.scanRows_ends hs hfile hscan
  · refine ⟨_, rfl, hc.map_place_rows hs, ?_⟩
    intro row hrow
    have hschema : row.schema = h.schema := hh.schema_of_mem_rows hs hrow
    have htyped : row.Typed h.schema := hh.typed hs hrow
    exact ⟨hschema, by rw [Row.Conforms, hschema]; exact htyped⟩
  · exact absurd rfl (hnone victim e)

/-- A page with all bits of a byte set but room for one slot, in which the text is said to be longer than
    its room and is no text, and the beginning of a page with a text of negative length: two rows. -/
theorem scan_gives_marked_of_corrupt_pages :
    let h : HeapFile := ⟨["t"], Schema.single "s" .string, 140⟩
    let content : Bytes :=
      #[0xFF, 0x7F, 0xFF, 0xFF, 0xFF] ++ Array.replicate 135 0xC3 ++ #[0x03, 0xFF, 0xFF, 0xFF, 0xFF, 0x61]
    let catalog : Catalog := ⟨[⟨"t", h, ""⟩]⟩
    let s : Storage := ⟨⟨[], [], [(["t"], content)]⟩, Pool.empty ⟨140, 1⟩⟩
    Coherent h s ∧ s.pool.Sound ∧ catalog.file h.id = .ok h ∧
      ∃ rows, (s.scanRows catalog h.id).1 = .ok rows ∧
        rows.map Row.place = [some ⟨⟨h.id, 0⟩, 0⟩, some ⟨⟨h.id, 1⟩, 0⟩] ∧ ∀ row ∈ rows, row.Conforms := by
  intro h content catalog s
  have hc : Coherent h s := .of_none (by decide) fun _ => rfl
  have hs : s.pool.Sound := Pool.sound_empty (by decide)
  have hfile : catalog.file h.id = .ok h := by decide +kernel
  have hattended : Attended catalog s := fun id frame hfind => by cases hfind
  obtain ⟨-, -, hscan⟩ := scan_gives_marked hc hs hfile
  have hok : (s.scanRows catalog h.id).1 = .ok (PagedTable.rows ⟨h.schema, h.pages s⟩) :=
    (holds_pages hc hs).scanRows hs hattended hfile rfl
  obtain ⟨rows, hrows, hplaces, htyped⟩ := hscan _ _ rfl fun victim e herror => by
    cases hok.symm.trans herror
  have hmarked : h.marked s = [⟨⟨h.id, 0⟩, 0⟩, ⟨⟨h.id, 1⟩, 0⟩] := by decide +kernel
  exact ⟨hc, hs, hfile, rows, hrows, by rw [hplaces, hmarked]; rfl, fun row hrow => (htyped row hrow).2⟩

end HeapFile

end RowStore
