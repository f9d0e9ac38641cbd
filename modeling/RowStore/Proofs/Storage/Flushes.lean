import RowStore.Proofs.Requests.Shapes

/-!
Writing some pages back, in any order.

Program.  Pages are visited one after the other.  Those that were changed, or that were changed last by one
transaction, are written to the files of their tables and marked as clean (`Storage.flushEach`,
`Storage.flushChangedBy`).

1. `Files.Overlaid` says that some blocks of heap files were overwritten, and nothing else.  It determines
   every byte (`Overlaid.content_eq`).
2. `Storage.Flushed` says that the chosen pages that were changed are in their files and clean, and that
   nothing else has become of pages, queue, counts and files.
3. Every flush whose pages belong to known tables, and look like pages of them, is such a step
   (`Storage.flushEach_flushed`), so the order in which the pages are visited makes no difference
   (`Flushed.alike`).

Crux.  Two pages never share a byte of a file: the number of a table follows from the path of its file, so
the same path means the same page size, and then different numbers mean different blocks.
-/

namespace RowStore

/-- Two lists with the same keys, each once, and with the same values are the same. -/
theorem Assoc.ext {α β : Type} [DecidableEq α] {l l' : List (α × β)} (hkeys : keys l = keys l')
    (hnodup : (keys l).Nodup) (hfind : ∀ x, find? x l = find? x l') : l = l' := by
  induction l generalizing l' with
  | nil => exact (List.map_eq_nil_iff.mp hkeys.symm).symm
  | cons e es ih =>
    cases l' with
    | nil => cases hkeys
    | cons e' es' =>
      obtain ⟨hfirst, hrest⟩ : e.1 = e'.1 ∧ keys es = keys es' := List.cons.inj hkeys
      obtain ⟨hout, hnodup⟩ := List.nodup_cons.mp hnodup
      have hvalue := hfind e.1
      rw [find?, find?, if_pos rfl, if_pos hfirst.symm] at hvalue
      have hlater : ∀ x, find? x es = find? x es' := by
        intro x
        by_cases hx : e.1 = x
        · subst hx
          rw [find?_eq_none_iff.mpr hout, find?_eq_none_iff.mpr (hrest ▸ hout)]
        · have hskip := hfind x
          rwa [find?, find?, if_neg hx, if_neg (hfirst ▸ hx)] at hskip
      rw [ih hrest hnodup hlater, Prod.ext hfirst (Option.some.inj hvalue)]

/-! ## Blocks that are overwritten -/

/-- The blocks in `due` are overwritten, each with its bytes, and nothing else in the tree. -/
structure Files.Overlaid (files files' : Files) (due : HeapFile → Nat → Bytes → Prop) : Prop where
  /-- The directories are the same. -/
  tree : files' = { files with contents := files'.contents }
  /-- The blocks are the new ones. -/
  inside : ∀ {h n bytes}, due h n bytes → ∀ i < h.pageSize,
    (files'.content h.path).getD (n * h.pageSize + i) 0 = bytes.getD i 0
  /-- All other bytes are the old ones. -/
  outside : ∀ path i, (∀ h n bytes, due h n bytes → h.path = path →
      i < n * h.pageSize ∨ (n + 1) * h.pageSize ≤ i) →
    (files'.content path).getD i 0 = (files.content path).getD i 0
  /-- No file is shorter than before. -/
  longer : ∀ path, (files.content path).size ≤ (files'.content path).size
  /-- Every block is in its file. -/
  reaches : ∀ {h n bytes}, due h n bytes → (n + 1) * h.pageSize ≤ (files'.content h.path).size
  /-- A file is as long as before, or ends with a block. -/
  ends : ∀ path, (files'.content path).size = (files.content path).size ∨
    ∃ h n bytes, due h n bytes ∧ h.path = path ∧ (files'.content path).size = (n + 1) * h.pageSize

namespace Files.Overlaid

variable {files files₁ files₂ : Files} {due due' : HeapFile → Nat → Bytes → Prop}

/-- Nothing is overwritten. -/
theorem none (hnone : ∀ h n bytes, ¬ due h n bytes) : files.Overlaid files due where
  tree := rfl
  inside := fun hdue => absurd hdue (hnone _ _ _)
  outside := fun _ _ _ => rfl
  longer := fun _ => Nat.le_refl _
  reaches := fun hdue => absurd hdue (hnone _ _ _)
  ends := fun _ => Or.inl rfl

theorem congr (h : files.Overlaid files₁ due) (hiff : ∀ g n bytes, due g n bytes ↔ due' g n bytes) :
    files.Overlaid files₁ due' := by
  have hsame : due = due' := by
    funext g n bytes
    exact propext (hiff g n bytes)
  exact hsame ▸ h

/-- One block is overwritten. -/
theorem of_overwritten {h : HeapFile} {n : Nat} {bytes : Bytes}
    (hover : files.Overwritten files₁ h.path h.pageSize n bytes) :
    files.Overlaid files₁ fun g m b => g = h ∧ m = n ∧ b = bytes := by
  have hother : ∀ path, path ≠ h.path → files₁.content path = files.content path := by
    intro path hne
    rw [hover.same, content_put, if_neg hne]
  refine ⟨?_, ?_, ?_, ?_, ?_, ?_⟩
  · rw [hover.same]
    rfl
  · rintro g m b ⟨rfl, rfl, rfl⟩ i hi
    exact hover.inside i hi
  · intro path i hout
    by_cases hpath : path = h.path
    · subst hpath
      exact hover.outside i (hout h n bytes ⟨rfl, rfl, rfl⟩ rfl)
    · rw [hother path hpath]
  · intro path
    by_cases hpath : path = h.path
    · rw [hpath, hover.length]
      exact Nat.le_max_left _ _
    · rw [hother path hpath]
  · rintro g m b ⟨rfl, rfl, rfl⟩
    rw [hover.length]
    exact Nat.le_max_right _ _
  · intro path
    by_cases hpath : path = h.path
    · subst hpath
      rw [hover.length]
      rcases Nat.le_total (files.content h.path).size ((n + 1) * h.pageSize) with hle | hle
      · exact Or.inr ⟨h, n, bytes, ⟨rfl, rfl, rfl⟩, rfl, Nat.max_eq_right hle⟩
      · exact Or.inl (Nat.max_eq_left hle)
    · exact Or.inl (by rw [hother path hpath])

/-- First some blocks are overwritten and then others. -/
theorem trans (h₁ : files.Overlaid files₁ due) (h₂ : files₁.Overlaid files₂ due')
    (hapart : ∀ {g n bytes g' n' bytes'}, due g n bytes → due' g' n' bytes' → g.path = g'.path →
      g' = g ∧ n' ≠ n) :
    files.Overlaid files₂ fun g n bytes => due g n bytes ∨ due' g n bytes := by
  refine ⟨?_, ?_, ?_, ?_, ?_, ?_⟩
  · rw [h₂.tree, h₁.tree]
  · rintro g n bytes (hdue | hdue) i hi
    · rw [← h₁.inside hdue i hi]
      refine h₂.outside g.path _ fun g' n' bytes' hdue' hpath => ?_
      obtain ⟨rfl, hne⟩ := hapart hdue hdue' hpath.symm
      rcases Nat.lt_or_gt_of_ne hne with hlt | hgt
      · have hle := Nat.mul_le_mul_right g'.pageSize (show n' + 1 ≤ n from hlt)
        exact Or.inr (by omega)
      · have hle := Nat.mul_le_mul_right g'.pageSize (show n + 1 ≤ n' from hgt)
        rw [Nat.succ_mul] at hle
        exact Or.inl (by omega)
    · exact h₂.inside hdue i hi
  · intro path i hout
    rw [h₂.outside path i fun g n bytes hdue => hout g n bytes (Or.inr hdue),
      h₁.outside path i fun g n bytes hdue => hout g n bytes (Or.inl hdue)]
  · exact fun path => (h₁.longer path).trans (h₂.longer path)
  · rintro g n bytes (hdue | hdue)
    · exact (h₁.reaches hdue).trans (h₂.longer g.path)
    · exact h₂.reaches hdue
  · intro path
    rcases h₂.ends path with hsame | ⟨g, n, bytes, hdue, hpath, hend⟩
    · rcases h₁.ends path with hsame' | ⟨g, n, bytes, hdue, hpath, hend⟩
      · exact Or.inl (hsame.trans hsame')
      · exact Or.inr ⟨g, n, bytes, Or.inl hdue, hpath, hsame.trans hend⟩
    · exact Or.inr ⟨g, n, bytes, Or.inr hdue, hpath, hend⟩

/-- The blocks determine every file. -/
theorem content_eq (h₁ : files.Overlaid files₁ due) (h₂ : files.Overlaid files₂ due) (path : Path) :
    files₁.content path = files₂.content path := by
  have hle : ∀ {f g : Files}, files.Overlaid f due → files.Overlaid g due →
      (f.content path).size ≤ (g.content path).size := by
    intro f g hf hg
    rcases hf.ends path with hsame | ⟨h, n, bytes, hdue, hpath, hend⟩
    · exact hsame.le.trans (hg.longer path)
    · exact hend.le.trans (hpath ▸ hg.reaches hdue)
  have hbyte : ∀ i, (files₁.content path).getD i 0 = (files₂.content path).getD i 0 := by
    intro i
    by_cases hin : ∃ h n bytes, due h n bytes ∧ h.path = path ∧ n * h.pageSize ≤ i ∧
        i < (n + 1) * h.pageSize
    · obtain ⟨h, n, bytes, hdue, rfl, hfrom, hto⟩ := hin
      obtain ⟨k, rfl⟩ := Nat.exists_eq_add_of_le hfrom
      have hk : k < h.pageSize := by
        rw [Nat.succ_mul] at hto
        omega
      rw [h₁.inside hdue k hk, h₂.inside hdue k hk]
    · have hout : ∀ h n bytes, due h n bytes → h.path = path →
          i < n * h.pageSize ∨ (n + 1) * h.pageSize ≤ i := by
        intro h n bytes hdue hpath
        by_contra hno
        exact hin ⟨h, n, bytes, hdue, hpath, by omega, by omega⟩
      rw [h₁.outside path i hout, h₂.outside path i hout]
  refine Array.ext (Nat.le_antisymm (hle h₁ h₂) (hle h₂ h₁)) fun i hi₁ hi₂ => ?_
  have hi := hbyte i
  simp only [Array.getD_eq_getD_getElem?, Array.getElem?_eq_getElem hi₁, Array.getElem?_eq_getElem hi₂,
    Option.getD_some] at hi
  exact hi

end Files.Overlaid

/-! ## Pages that are written back -/

namespace Storage

variable {catalog : Catalog} {tid : TransactionId} {chosen chosen' : PageId → Prop} {id x : PageId}
  {frame : Frame} {s s₁ s₂ s' : Storage}

/-- A block that is to be written: the bytes of a chosen page that was changed. -/
def Due (catalog : Catalog) (chosen : PageId → Prop) (s : Storage) (h : HeapFile) (n : Nat)
    (bytes : Bytes) : Prop :=
  ∃ id frame, chosen id ∧ s.pool.find? id = some frame ∧ frame.page.dirty = true ∧
    catalog.file id.table = .ok h ∧ id.number = n ∧ frame.page.bytes = bytes

/-- The chosen pages that were changed are written back, and nothing else happens. -/
structure Flushed (catalog : Catalog) (chosen : PageId → Prop) (s s' : Storage) : Prop where
  /-- Queue, counts and sizes are the same. -/
  pool : s'.pool = { s.pool with resident := s'.pool.resident, departed := s'.pool.departed }
  /-- The same pages are in memory. -/
  keys : Assoc.keys s'.pool.resident = Assoc.keys s.pool.resident
  /-- A chosen page that was changed is clean. -/
  cleaned : ∀ {id frame}, chosen id → s.pool.find? id = some frame → frame.page.dirty = true →
    s'.pool.find? id = some ⟨frame.stamp, frame.page.clean⟩
  /-- Every other page is what it was. -/
  kept : ∀ {id frame}, s.pool.find? id = some frame → ¬ (chosen id ∧ frame.page.dirty = true) →
    s'.pool.find? id = some frame
  /-- The blocks of the chosen pages that were changed are in the files. -/
  files : s.files.Overlaid s'.files (Due catalog chosen s)

/-- Two storages that agree in everything but the pages that have left memory. -/
structure Alike (s s' : Storage) : Prop where
  /-- The pages in memory are the same, and so are queue, counts and sizes. -/
  pool : s'.pool = { s.pool with departed := s'.pool.departed }
  /-- The directories are the same. -/
  tree : s'.files = { s.files with contents := s'.files.contents }
  /-- All files have the same bytes. -/
  content : ∀ path, s'.files.content path = s.files.content path

namespace Flushed

/-- Nothing has to be written. -/
theorem none (hnone : ∀ id frame, chosen id → s.pool.find? id = some frame → frame.page.dirty = false) :
    Flushed catalog chosen s s where
  pool := rfl
  keys := rfl
  cleaned := fun hchosen hfind hdirty => by
    rw [hnone _ _ hchosen hfind] at hdirty
    cases hdirty
  kept := fun hfind _ => hfind
  files := .none fun h n bytes ⟨id, frame, hchosen, hfind, hdirty, _⟩ => by
    rw [hnone _ _ hchosen hfind] at hdirty
    cases hdirty

/-- Which pages are chosen matters only for those that were changed. -/
theorem congr (h : Flushed catalog chosen s s')
    (hiff : ∀ id frame, s.pool.find? id = some frame → frame.page.dirty = true →
      (chosen id ↔ chosen' id)) :
    Flushed catalog chosen' s s' where
  pool := h.pool
  keys := h.keys
  cleaned := fun hchosen hfind hdirty => h.cleaned ((hiff _ _ hfind hdirty).mpr hchosen) hfind hdirty
  kept := fun hfind hno => h.kept hfind fun ⟨hchosen, hdirty⟩ =>
    hno ⟨(hiff _ _ hfind hdirty).mp hchosen, hdirty⟩
  files := h.files.congr fun g n bytes => by
    constructor
    · rintro ⟨id, frame, hchosen, hfind, hdirty, hrest⟩
      exact ⟨id, frame, (hiff _ _ hfind hdirty).mp hchosen, hfind, hdirty, hrest⟩
    · rintro ⟨id, frame, hchosen, hfind, hdirty, hrest⟩
      exact ⟨id, frame, (hiff _ _ hfind hdirty).mpr hchosen, hfind, hdirty, hrest⟩

/-- A page that is changed after some pages were written back was not among them, and is what it
    was. -/
theorem of_dirty (h : Flushed catalog chosen s s') (hfind : s'.pool.find? id = some frame)
    (hdirty : frame.page.dirty = true) : s.pool.find? id = some frame ∧ ¬ chosen id := by
  obtain ⟨old, hold⟩ := Pool.mem_keys_iff_find?.mp
    (h.keys ▸ Pool.mem_keys_iff_find?.mpr ⟨frame, hfind⟩)
  by_cases hwritten : chosen id ∧ old.page.dirty = true
  · rw [h.cleaned hwritten.1 hold hwritten.2] at hfind
    cases hfind
    cases hdirty
  · rw [h.kept hold hwritten] at hfind
    cases hfind
    exact ⟨hold, fun hchosen => hwritten ⟨hchosen, hdirty⟩⟩

/-- First some pages are written back, and then others. -/
theorem trans (h₁ : Flushed catalog chosen s s₁) (h₂ : Flushed catalog chosen' s₁ s₂) :
    Flushed catalog (fun id => chosen id ∨ chosen' id) s s₂ := by
  refine ⟨?_, h₂.keys.trans h₁.keys, ?_, ?_, ?_⟩
  · rw [h₂.pool, h₁.pool]
  · intro id frame hchosen hfind hdirty
    by_cases hfirst : chosen id
    · exact h₂.kept (h₁.cleaned hfirst hfind hdirty) fun ⟨_, hclean⟩ => nomatch hclean
    · exact h₂.cleaned (hchosen.resolve_left hfirst) (h₁.kept hfind fun hno => hfirst hno.1) hdirty
  · intro id frame hfind hno
    exact h₂.kept (h₁.kept hfind fun ⟨hchosen, hdirty⟩ => hno ⟨Or.inl hchosen, hdirty⟩)
      fun ⟨hchosen, hdirty⟩ => hno ⟨Or.inr hchosen, hdirty⟩
  · refine (h₁.files.trans h₂.files ?_).congr fun g n bytes => ?_
    · -- two blocks of one file are blocks of one size, and those of two pages
      rintro g n bytes g' n' bytes' ⟨id, frame, hchosen, hfind, hdirty, hfile, rfl, -⟩
        ⟨id', frame', -, hfind', hdirty', hfile', rfl, -⟩ hpath
      have htable : id.table = id'.table := by
        rw [← Catalog.id_of_file hfile, ← Catalog.id_of_file hfile']
        exact congrArg tableIdOf hpath
      refine ⟨Catalog.eq_of_file hfile (htable.symm ▸ hfile'), fun hnumber => ?_⟩
      have hid : id' = id := by
        cases id
        cases id'
        cases htable
        cases hnumber
        rfl
      exact (h₁.of_dirty hfind' hdirty').2 (hid ▸ hchosen)
    · constructor
      · rintro (⟨id, frame, hchosen, hrest⟩ | ⟨id, frame, hchosen, hfind, hdirty, hrest⟩)
        · exact ⟨id, frame, Or.inl hchosen, hrest⟩
        · exact ⟨id, frame, Or.inr hchosen, (h₁.of_dirty hfind hdirty).1, hdirty, hrest⟩
      · rintro ⟨id, frame, hchosen, hfind, hdirty, hrest⟩
        by_cases hfirst : chosen id
        · exact Or.inl ⟨id, frame, hfirst, hfind, hdirty, hrest⟩
        · exact Or.inr ⟨id, frame, hchosen.resolve_left hfirst,
            h₁.kept hfind fun hno => hfirst hno.1, hdirty, hrest⟩

/-- Which blocks were written determines everything but the pages that have left memory. -/
theorem alike (hs : s.pool.Sound) (h₁ : Flushed catalog chosen s s₁) (h₂ : Flushed catalog chosen s s₂) :
    Alike s₁ s₂ := by
  refine ⟨?_, ?_, h₂.files.content_eq h₁.files⟩
  · have hsame : s₂.pool.resident = s₁.pool.resident := by
      refine Assoc.ext (h₂.keys.trans h₁.keys.symm) (h₂.keys ▸ hs.keys_nodup) fun id => ?_
      cases hfind : s.pool.find? id with
      | none =>
        have hout : id ∉ Assoc.keys s.pool.resident := Assoc.find?_eq_none_iff.mp hfind
        rw [Assoc.find?_eq_none_iff.mpr (h₂.keys ▸ hout), Assoc.find?_eq_none_iff.mpr (h₁.keys ▸ hout)]
      | some frame =>
        by_cases hwritten : chosen id ∧ frame.page.dirty = true
        · exact (h₂.cleaned hwritten.1 hfind hwritten.2).trans (h₁.cleaned hwritten.1 hfind hwritten.2).symm
        · exact (h₂.kept hfind hwritten).trans (h₁.kept hfind hwritten).symm
    rw [h₂.pool, h₁.pool, hsame]
  · rw [h₂.files.tree, h₁.files.tree]

end Flushed

/-! ## Flushes -/

/-- Every page that was changed can be written: its table is known, it has as many bytes as a page of
    the file of its table, and a place there. -/
structure Writable (catalog : Catalog) (s : Storage) : Prop where
  /-- Each belongs to a file with pages of its size. -/
  known : ∀ id frame, s.pool.find? id = some frame → frame.page.dirty = true →
    ∃ h, catalog.file id.table = .ok h ∧ frame.page.bytes.size = h.pageSize
  /-- Each has a place. -/
  placed : s.Placed

/-- Pages that are written back leave the others as they can be written. -/
theorem Writable.flushed (hwritable : Writable catalog s) (hs : s.pool.Sound)
    (h : Flushed catalog chosen s s') (hsteps : Steps catalog (fun _ => False) s s') :
    Writable catalog s' where
  known := fun _ _ hfind hdirty => hwritable.known _ _ (h.of_dirty hfind hdirty).1 hdirty
  placed := hsteps.placed hs hwritable.placed

/-- **One page** is written back. -/
theorem Writable.flushPage (hwritable : Writable catalog s) (hs : s.pool.Sound) (id : PageId) :
    ∃ s', s.flushPage catalog id = (.ok (), s') ∧ Flushed catalog (· = id) s s' := by
  rcases hflush : s.flushPage catalog id with ⟨r, s'⟩
  obtain ⟨rfl, rfl, hclean⟩ | ⟨frame, hfind, hdirty, hends⟩ := flushPage_cases hflush
  · refine ⟨s', rfl, .none ?_⟩
    rintro x frame rfl hfind
    exact hclean frame hfind
  have hown : frame.page.id = id := hs.own_id hfind
  obtain ⟨h, hfile, hsize⟩ := hwritable.known id frame hfind hdirty
  obtain ⟨e, hlost, -⟩ | ⟨g, files, hg, hwrite, rfl, rfl⟩ := hends
  · rw [hown, hfile] at hlost
    cases hlost
  rw [hown] at hg
  obtain rfl := Catalog.eq_of_file hfile hg
  have hview := hs.find?_clean hfind
  refine ⟨_, rfl, rfl, Assoc.keys_map _ _, ?_, ?_, ?_⟩
  · rintro x f rfl hf -
    obtain rfl : frame = f := Option.some.inj (hfind.symm.trans hf)
    exact (hview x).trans (if_pos rfl)
  · intro x f hf hno
    refine (hview x).trans ((if_neg fun hx => hno ⟨hx, ?_⟩).trans hf)
    obtain rfl : frame = f := Option.some.inj (hfind.symm.trans (hx ▸ hf))
    exact hdirty
  · have hover := HeapFile.overwritten_of_writePage hsize hwrite
      (hown.symm ▸ hwritable.placed.offset_eq hfind hsize)
    refine (Files.Overlaid.of_overwritten hover).congr fun h n bytes => ?_
    constructor
    · rintro ⟨rfl, rfl, rfl⟩
      exact ⟨id, frame, rfl, hfind, hdirty, hfile, congrArg PageId.number hown.symm, rfl⟩
    · rintro ⟨x, f, rfl, hf, -, hh, rfl, rfl⟩
      obtain rfl : frame = f := Option.some.inj (hfind.symm.trans hf)
      exact ⟨Catalog.eq_of_file hfile hh, congrArg PageId.number hown.symm, rfl⟩

/-- **Some pages**, one after the other, are written back. -/
theorem Writable.flushEach (hwritable : Writable catalog s) (hs : s.pool.Sound) (ids : List PageId) :
    ∃ s', s.flushEach catalog ids = (.ok (), s') ∧ Flushed catalog (· ∈ ids) s s' := by
  induction ids generalizing s with
  | nil => exact ⟨s, rfl, .none fun id frame hmem => absurd hmem List.not_mem_nil⟩
  | cons id ids ih =>
    obtain ⟨s₁, hfirst, hflushed⟩ := hwritable.flushPage hs id
    obtain ⟨s', hrest, hflushed'⟩ :=
      ih (hwritable.flushed hs hflushed (flushPage_steps hfirst)) (sound_of_flushPage hs hfirst)
    refine ⟨s', ?_, (hflushed.trans hflushed').congr fun x _ _ _ => List.mem_cons.symm⟩
    unfold Storage.flushEach
    rw [hfirst]
    exact hrest

/-- Visits some pages, and writes each that was last changed by a transaction when its turn comes. -/
def flushChangedBy (catalog : Catalog) (tid : TransactionId) :
    List PageId → Storage → Except Error Unit × Storage
  | [], s => (.ok (), s)
  | id :: ids, s =>
    if s.isChangedBy tid id then
      match s.flushPage catalog id with
      | (.error e, s) => (.error e, s)
      | (.ok (), s) => flushChangedBy catalog tid ids s
    else flushChangedBy catalog tid ids s

/-- Writing back one page leaves the others what they are. -/
theorem isChangedBy_of_flushPage (hs : s.pool.Sound) {r : Except Error Unit}
    (hflush : s.flushPage catalog id = (r, s')) (hne : x ≠ id) :
    s'.isChangedBy tid x = s.isChangedBy tid x := by
  obtain ⟨-, rfl, -⟩ | ⟨frame, hfind, -, ⟨e, -, -, rfl⟩ | ⟨file, files, -, -, -, rfl⟩⟩ :=
    flushPage_cases hflush
  · rfl
  · rfl
  · have hview := hs.find?_clean hfind x
    rw [if_neg hne] at hview
    unfold isChangedBy
    rw [hview]

/-- It makes no difference whether the pages are picked beforehand or each when its turn comes. -/
theorem flushChangedBy_eq (hs : s.pool.Sound) {ids : List PageId} (hids : ids.Nodup) :
    s.flushChangedBy catalog tid ids = s.flushEach catalog (ids.filter (s.isChangedBy tid)) := by
  induction ids generalizing s with
  | nil => rfl
  | cons id ids ih =>
    obtain ⟨hid, hids⟩ := List.nodup_cons.mp hids
    unfold flushChangedBy
    by_cases htest : s.isChangedBy tid id = true
    · rw [if_pos htest, List.filter_cons_of_pos htest, Storage.flushEach]
      rcases hflush : s.flushPage catalog id with ⟨r, s₁⟩
      cases r with
      | error e => rfl
      | ok =>
        have hpicked : ids.filter (s₁.isChangedBy tid) = ids.filter (s.isChangedBy tid) :=
          List.filter_congr fun x hx => isChangedBy_of_flushPage hs hflush fun he => hid (he ▸ hx)
        show flushChangedBy catalog tid ids s₁ = _
        rw [ih (sound_of_flushPage hs hflush) hids, hpicked]
    · rw [if_neg htest, List.filter_cons_of_neg htest]
      exact ih hs hids

/-- **The pages of a transaction** are written back, in whatever order the pages in memory are visited. -/
theorem Writable.flushChangedBy (hwritable : Writable catalog s) (hs : s.pool.Sound)
    (tid : TransactionId) {ids : List PageId} (hids : ids.Perm (Assoc.keys s.pool.resident)) :
    ∃ s', s.flushChangedBy catalog tid ids = (.ok (), s') ∧
      Flushed catalog (fun id => s.isChangedBy tid id = true) s s' := by
  obtain ⟨s', hflush, hflushed⟩ := hwritable.flushEach hs (ids.filter (s.isChangedBy tid))
  refine ⟨s', (flushChangedBy_eq hs (hids.nodup_iff.mpr hs.keys_nodup)).trans hflush,
    hflushed.congr fun id frame hfind _ => ?_⟩
  have hmem : id ∈ ids := hids.mem_iff.mpr (Pool.mem_keys_iff_find?.mpr ⟨frame, hfind⟩)
  rw [List.mem_filter]
  exact and_iff_right hmem

/-- **All pages** are written back, in whatever order they are visited. -/
theorem Writable.flushAll (hwritable : Writable catalog s) (hs : s.pool.Sound) {ids : List PageId}
    (hids : ids.Perm (Assoc.keys s.pool.resident)) :
    ∃ s', s.flushEach catalog ids = (.ok (), s') ∧ Flushed catalog (fun _ => True) s s' := by
  obtain ⟨s', hflush, hflushed⟩ := hwritable.flushEach hs ids
  refine ⟨s', hflush, hflushed.congr fun id frame hfind _ => ?_⟩
  exact iff_true_intro (hids.mem_iff.mpr (Pool.mem_keys_iff_find?.mpr ⟨frame, hfind⟩))

/-- The pages of a transaction are written back in the order in which memory lists them. -/
theorem flushPages_eq (hs : s.pool.Sound) :
    s.flushPages catalog tid = s.flushChangedBy catalog tid (Assoc.keys s.pool.resident) :=
  (flushChangedBy_eq hs hs.keys_nodup).symm

end Storage

end RowStore
