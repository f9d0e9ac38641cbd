import RowStore.Proofs.Requests.Writers
import RowStore.Proofs.Storage.Flushes

/-!
Flushes write the pages that they are about.

Program.  A client asks for one page to be written, for the pages that a transaction changed last, or for
all of them.  The pages in memory are visited in an order that nobody knows.

1. `Database.registrations` are the files that a run registered, and every known table has one of them
   (`Database.registered`).
2. If each file had one page size and no two files had one number, a page in memory has as many bytes as a
   page of the file of its table (`Database.size_of_distinct`).
3. If moreover each changed page belongs to a file that is registered, every flush succeeds, writes exactly
   the pages that it is about, and ends alike in every order (`Database.flushes_are_selective`).
4. Two files of one number are one table to the catalog, and then a page of one may be written over two
   pages of the other (`Database.page_written_to_another_file`).

Crux.  The last one to change a page is told by the mark of the page (`Database.changedLast_iff`), so the
history has to be looked at only once.  That a page fits its place in the file is what may go wrong, when a
file is registered with pages of another size or its number is taken over by another file.
-/

namespace RowStore

open Storage

/-! ## Files that were registered -/

/-- The files that are registered by some requests. -/
def Database.registrations (db : Database) : List Request → List HeapFile
  | [] => []
  | request :: requests =>
    (request.additions db).map (·.entry.file) ++ (db.perform request).2.registrations requests

/-- A flush that visits pages in some order writes the chosen pages that were changed and nothing else,
    whatever the order, and it always ends as in `s'`. -/
def Storage.InAnyOrder (catalog : Catalog) (flush : List PageId → Storage → Except Error Unit × Storage)
    (chosen : PageId → Prop) (s s' : Storage) : Prop :=
  Flushed catalog chosen s s' ∧ ∀ order : List PageId, order.Perm (Assoc.keys s.pool.resident) →
    ∃ s₁, flush order s = (.ok (), s₁) ∧ Flushed catalog chosen s s₁ ∧ Alike s' s₁

namespace Database

variable {db : Database} {requests : List Request} {id : PageId} {frame : Frame} {h : HeapFile}

/-- Every table that is known was registered. -/
theorem registered {known : List HeapFile} (hsub : ∀ g ∈ db.registrations requests, g ∈ known)
    (hdb : ∀ e ∈ db.catalog.entries, e.file ∈ known) :
    ∀ d ∈ db.states requests, ∀ e ∈ d.catalog.entries, e.file ∈ known := by
  induction requests generalizing db with
  | nil =>
    intro d hd
    obtain rfl := List.mem_singleton.mp hd
    exact hdb
  | cons request requests ih =>
    intro d hd
    rcases List.mem_cons.mp hd with rfl | hd
    · exact hdb
    refine ih (fun g hg => hsub g (List.mem_append_right _ hg)) ?_ d hd
    refine catalog_induction (P := fun c => ∀ e ∈ c.entries, e.file ∈ known) ?_ (fun _ => nofun) hdb
    intro a ha c' hc hadd e he
    rcases Catalog.mem_entries_add hadd he with rfl | hold
    · exact hsub _ (List.mem_append_left _ (List.mem_map_of_mem ha))
    · exact hc e hold

/-- A page has as many bytes as a page of one of some files at a path, if it is in memory. -/
def Sized (known : List HeapFile) (path : Path) (id : PageId) (s : Storage) : Prop :=
  ∀ frame, s.pool.find? id = some frame → ∃ g ∈ known, g.path = path ∧ frame.page.bytes.size = g.pageSize

/-- **Step lemma.**  Only a page that comes in may get another size, and its table is no other file. -/
theorem Sized.step {known : List HeapFile} {path : Path} {catalog : Catalog} {may : Effect → Prop}
    {s s' : Storage} (hsized : Sized known path id s) (hs : s.pool.Sound)
    (hknown : ∀ h, catalog.file id.table = .ok h → h ∈ known ∧ h.path = path)
    (hstep : Step catalog may s s') : Sized known path id s' := by
  intro frame hfind
  cases hstep.origin hs hfind with
  | kept hold hpage =>
    obtain ⟨g, hg, hpath, hsize⟩ := hsized _ hold
    refine ⟨g, hg, hpath, ?_⟩
    rcases hpage with hpage | hpage <;> rw [hpage] <;> exact hsize
  | changed _ hold _ hsize =>
    obtain ⟨g, hg, hpath, hold⟩ := hsized _ hold
    exact ⟨g, hg, hpath, hsize.trans hold⟩
  | loaded _ hread =>
    obtain ⟨g, hfile, -⟩ := file_of_readPage hread
    exact ⟨g, (hknown g hfile).1, (hknown g hfile).2, (looksLike_of_readPage hread hfile).2⟩

/-- **Run lemma.** -/
theorem Sized.after {known : List HeapFile} {path : Path} (hsized : Sized known path id db.storage)
    (hdb : db.storage.pool.Sound)
    (hknown : ∀ d ∈ db.states requests, ∀ h, d.catalog.file id.table = .ok h → h ∈ known ∧ h.path = path) :
    Sized known path id (db.after requests).storage := by
  induction requests generalizing db with
  | nil => exact hsized
  | cons request requests ih =>
    have hsteps := perform_steps hdb request
    refine ih ?_ (hsteps.sound hdb) fun d hd => hknown d (List.mem_cons_of_mem _ hd)
    -- along the steps of the request the catalog stays
    have hfirst := hknown db List.mem_cons_self
    generalize (db.perform request).2.storage = s' at hsteps ⊢
    induction hsteps with
    | refl => exact hsized
    | tail hbefore hstep ih => exact ih.step (Steps.sound hbefore hdb) hfirst hstep

/-- A page in memory has as many bytes as a page of the file of its table, if each file had one page size
    and no two files one number. -/
theorem size_of_distinct {files files' : Files} {directory : String} {config : Config}
    (hopen : create files directory config = (.ok db, files'))
    (hsizes : ∀ g ∈ db.registrations requests, ∀ h ∈ db.registrations requests,
      g.path = h.path → g.pageSize = h.pageSize)
    (hdistinct : ∀ g ∈ db.registrations requests, ∀ h ∈ db.registrations requests,
      g.id = h.id → g.path = h.path)
    (hfile : (db.after requests).catalog.file id.table = .ok h)
    (hfind : (db.after requests).storage.pool.find? id = some frame) :
    frame.page.bytes.size = h.pageSize := by
  have hdb : db.storage.pool.Sound := (sound_of_create hopen []).1
  have hregistered : ∀ d ∈ db.states requests, ∀ g, d.catalog.file id.table = .ok g →
      g ∈ db.registrations requests := by
    intro d hd g hg
    obtain ⟨e, he, rfl⟩ := Catalog.mem_of_file hg
    refine registered (fun _ hg => hg) ?_ d hd e he
    obtain ⟨-, -, -, rfl⟩ := create_cases hopen
    exact nofun
  have hlast : h ∈ db.registrations requests := hregistered _ (after_mem_states db requests) h hfile
  have hempty : Sized (db.registrations requests) h.path id db.storage := by
    obtain ⟨-, -, -, rfl⟩ := create_cases hopen
    intro f hf
    cases hf
  have hknown : ∀ d ∈ db.states requests, ∀ g, d.catalog.file id.table = .ok g →
      g ∈ db.registrations requests ∧ g.path = h.path := by
    intro d hd g hg
    have hmem := hregistered d hd g hg
    exact ⟨hmem, hdistinct g hmem h hlast ((Catalog.id_of_file hg).trans (Catalog.id_of_file hfile).symm)⟩
  obtain ⟨g, hg, hpath, hsize⟩ := hempty.after hdb hknown frame hfind
  exact hsize.trans (hsizes g hg h hlast hpath)

/-- **Flushes write the pages that they are about.**  In a run each file was registered with one page size
    only, no two files had one number, and the table of every page that is changed in memory is registered.
    Then one page, the pages that a transaction was the last to change, and all pages are written back with
    success.  Exactly those among them that were changed are written and not changed any more.  All other
    bytes of all files, all other pages in memory, their queue and the counts are as before, and all that is
    the same in whatever order the pages in memory are visited. -/
theorem flushes_are_selective {files files' : Files} {directory : String} {config : Config} {d : Database}
    (hopen : create files directory config = (.ok db, files')) (hd : db.after requests = d)
    (hsizes : ∀ g ∈ db.registrations requests, ∀ h ∈ db.registrations requests,
      g.path = h.path → g.pageSize = h.pageSize)
    (hdistinct : ∀ g ∈ db.registrations requests, ∀ h ∈ db.registrations requests,
      g.id = h.id → g.path = h.path)
    (hregistered : ∀ id frame, d.storage.pool.find? id = some frame → frame.page.dirty = true →
      ∃ h, d.catalog.file id.table = .ok h) :
    (∀ id, ∃ s', d.perform (.task (.flushPage id)) = (.ok .done, { d with storage := s' }) ∧
      Flushed d.catalog (· = id) d.storage s') ∧
    (∀ tid, ∃ s', d.perform (.task (.flushPages tid)) = (.ok .done, { d with storage := s' }) ∧
      InAnyOrder d.catalog (flushChangedBy d.catalog tid) (db.ChangedLast requests · tid) d.storage s') ∧
    ∃ s', d.perform (.task .flushAll) = (.ok .done, { d with storage := s' }) ∧
      InAnyOrder d.catalog (flushEach d.catalog) (fun _ => True) d.storage s' := by
  subst hd
  have hs : (db.after requests).storage.pool.Sound := (sound_of_create hopen requests).1
  have hwritable : Writable (db.after requests).catalog (db.after requests).storage := by
    refine ⟨fun id frame hfind hdirty => ?_, placed_of_create hopen requests _ (after_mem_states db requests)⟩
    obtain ⟨h, hfile⟩ := hregistered id frame hfind hdirty
    exact ⟨h, hfile, size_of_distinct hopen hsizes hdistinct hfile hfind⟩
  have howner : ∀ tid id frame, (db.after requests).storage.pool.find? id = some frame →
      frame.page.dirty = true → ((db.after requests).storage.isChangedBy tid id = true ↔
        db.ChangedLast requests id tid) := by
    intro tid id frame hfind hdirty
    rw [changedLast_iff hopen hfind hdirty]
    unfold isChangedBy
    rw [hfind]
    exact decide_eq_true_iff
  refine ⟨fun id => ?_, fun tid => ?_, ?_⟩
  · obtain ⟨s', hflush, hflushed⟩ := hwritable.flushPage hs id
    refine ⟨s', ?_, hflushed⟩
    simp only [perform, performTask, run, Answer.of, hflush]
    rfl
  · obtain ⟨s', hflush, hflushed⟩ := hwritable.flushChangedBy hs tid (List.Perm.refl _)
    refine ⟨s', ?_, hflushed.congr (howner tid), fun order horder => ?_⟩
    · simp only [perform, performTask, run, Answer.of, flushPages_eq hs, hflush]
      rfl
    · obtain ⟨s₁, hother, hflushed₁⟩ := hwritable.flushChangedBy hs tid horder
      exact ⟨s₁, hother, hflushed₁.congr (howner tid), hflushed.alike hs hflushed₁⟩
  · obtain ⟨s', hflush, hflushed⟩ := hwritable.flushAll hs (List.Perm.refl _)
    refine ⟨s', ?_, hflushed, fun order horder => ?_⟩
    · simp only [perform, performTask, run, Answer.of, Storage.flushAll, hflush]
      rfl
    · obtain ⟨s₁, hother, hflushed₁⟩ := hwritable.flushAll hs horder
      exact ⟨s₁, hother, hflushed₁, hflushed.alike hs hflushed₁⟩

/-- Two transactions share three pages of two rows.  The first one stores rows in pages 0 and 2, the second
    one in page 1; page 2 is written, the second transaction deletes a row on page 0, and the first one
    stores another row in its place.  So the flush of the first transaction writes page 0 and no other. -/
theorem flushes_are_selective_of_two :
    let schema := Schema.single "n" .int
    let t := tableIdOf ["d", "t.dat"]
    let insert (tid : TransactionId) (n : Int32) : Request := .task (.insertRow tid t ⟨schema, [.int n], none⟩)
    let requests : List Request :=
      [.task (.createTable "t" schema), insert ⟨0⟩ 1, insert ⟨0⟩ 2, insert ⟨1⟩ 3, insert ⟨1⟩ 4, insert ⟨0⟩ 5,
       .task (.flushPage ⟨t, 2⟩), .task (.deleteRow ⟨1⟩ (some ⟨⟨t, 0⟩, 0⟩)), insert ⟨0⟩ 6]
    ∃ db files' s', create Files.empty "/d" ⟨9, 3⟩ = (.ok db, files') ∧
      db.ChangedLast requests ⟨t, 0⟩ ⟨0⟩ ∧ db.ChangedLast requests ⟨t, 1⟩ ⟨1⟩ ∧
      (db.after requests).perform (.task (.flushPages ⟨0⟩)) =
        (.ok .done, { db.after requests with storage := s' }) ∧
      InAnyOrder (db.after requests).catalog (flushChangedBy (db.after requests).catalog ⟨0⟩)
        (db.ChangedLast requests · ⟨0⟩) (db.after requests).storage s' ∧
      (∀ frame, s'.pool.find? ⟨t, 0⟩ = some frame → frame.page.dirty = false) ∧
      s'.pool.find? ⟨t, 1⟩ = (db.after requests).storage.pool.find? ⟨t, 1⟩ ∧
      s'.pool.find? ⟨t, 2⟩ = (db.after requests).storage.pool.find? ⟨t, 2⟩ := by
  intro schema t insert requests
  let db : Database := ⟨"/d", ⟨9, 3⟩, Catalog.empty, ⟨⟨[], [["d"]], []⟩, Pool.empty ⟨9, 3⟩⟩⟩
  have hopen : create Files.empty "/d" ⟨9, 3⟩ = (.ok db, ⟨[], [["d"]], []⟩) := rfl
  let mark (d : Database) (n : Nat) : Option (Bool × Option TransactionId) :=
    (d.storage.pool.find? ⟨t, n⟩).map fun frame => (frame.page.dirty, frame.page.dirtiedBy)
  obtain ⟨hsizes, hdistinct, hfile, htables, hfirst, hsecond, hthird⟩ :
      (∀ g ∈ db.registrations requests, ∀ h ∈ db.registrations requests,
        g.path = h.path → g.pageSize = h.pageSize) ∧
      (∀ g ∈ db.registrations requests, ∀ h ∈ db.registrations requests, g.id = h.id → g.path = h.path) ∧
      (db.after requests).catalog.file t = .ok ⟨["d", "t.dat"], schema, 9⟩ ∧
      (∀ e ∈ (db.after requests).storage.pool.resident, e.1.table = t) ∧
      mark (db.after requests) 0 = some (true, some ⟨0⟩) ∧
      mark (db.after requests) 1 = some (true, some ⟨1⟩) ∧
      mark (db.after requests) 2 = some (false, none) := by decide +kernel
  have hall := flushes_are_selective hopen (d := db.after requests) rfl hsizes hdistinct
    fun id frame hfind _ => by
      have htable : id.table = t := htables _ (Assoc.mem_of_find? hfind)
      exact ⟨_, htable.symm ▸ hfile⟩
  obtain ⟨s', hperform, horders⟩ := hall.2.1 ⟨0⟩
  have hmarked : ∀ {n dirty tid}, mark (db.after requests) n = some (dirty, tid) →
      ∃ frame, (db.after requests).storage.pool.find? ⟨t, n⟩ = some frame ∧ frame.page.dirty = dirty ∧
        frame.page.dirtiedBy = tid := by
    intro n dirty tid hmark
    obtain ⟨frame, hfind, hpair⟩ := Option.map_eq_some_iff.mp hmark
    exact ⟨frame, hfind, congrArg Prod.fst hpair, congrArg Prod.snd hpair⟩
  obtain ⟨f₀, hf₀, hdirty₀, hby₀⟩ := hmarked hfirst
  obtain ⟨f₁, hf₁, hdirty₁, hby₁⟩ := hmarked hsecond
  obtain ⟨f₂, hf₂, hdirty₂, -⟩ := hmarked hthird
  have hlast₀ := (changedLast_iff hopen hf₀ hdirty₀).mpr hby₀
  have hlast₁ := (changedLast_iff hopen hf₁ hdirty₁).mpr hby₁
  refine ⟨db, _, s', hopen, hlast₀, hlast₁, hperform, horders, ?_, ?_, ?_⟩
  · intro frame hframe
    rw [horders.1.cleaned hlast₀ hf₀ hdirty₀] at hframe
    cases hframe
    rfl
  · rw [hf₁]
    refine horders.1.kept hf₁ fun ⟨hother, _⟩ => ?_
    -- the last one to change page 1 is the other transaction
    have hby := (changedLast_iff hopen hf₁ hdirty₁).mp hother
    rw [hby₁] at hby
    cases hby
  · rw [hf₂]
    exact horders.1.kept hf₂ fun ⟨_, hdirty⟩ => by
      rw [hdirty₂] at hdirty
      cases hdirty

/-- Two files have one number.  A page of 18 bytes of the first one was changed in memory, and then the second
    one is registered, with pages of 9 bytes.  The page is written over its page `0` and its page `1`, and
    the row that was on page `1` is gone. -/
theorem page_written_to_another_file :
    let ints := Schema.single "n" .int
    let a : Path := ["tmp", "awqc.dat"]
    let b : Path := ["tmp", "dhim.dat"]
    let old : HeapFile := ⟨a, ints, 18⟩
    let new : HeapFile := ⟨b, ints, 9⟩
    let files : Files :=
      ⟨[], [["tmp"]], [(b, #[1, 0, 0, 0, 5, 0, 0, 0, 0, 1, 0, 0, 0, 6, 0, 0, 0, 0])]⟩
    let requests : List Request :=
      [.addFile "/tmp/awqc.dat" "a" "" ints 18, .task (.insertRow ⟨0⟩ old.id ⟨ints, [.int 7], none⟩),
       .addFile "/tmp/dhim.dat" "b" "" ints 9]
    let rows (d : Database) := (new.readPage d.storage.files ⟨new.id, 1⟩).map Page.rows
    ∃ db files', create files "/tmp" ⟨18, 4⟩ = (.ok db, files') ∧
      db.registrations requests = [old, new] ∧ old.path ≠ new.path ∧ old.id = new.id ∧
      (∀ e ∈ (db.after requests).storage.pool.resident,
        (db.after requests).catalog.file e.1.table = .ok new) ∧
      rows (db.after requests) = .ok [⟨ints, [.int 6], some ⟨⟨new.id, 1⟩, 0⟩⟩] ∧
      ((db.after requests).perform (.task (.flushPage ⟨old.id, 0⟩))).1 = .ok .done ∧
      rows ((db.after requests).perform (.task (.flushPage ⟨old.id, 0⟩))).2 = .ok [] := by
  intro ints a b old new files requests rows
  exact ⟨⟨"/tmp", ⟨18, 4⟩, Catalog.empty, ⟨files, Pool.empty ⟨18, 4⟩⟩⟩, _, rfl, by decide +kernel, by decide,
    by decide +kernel, by decide +kernel, by decide +kernel, by decide +kernel, by decide +kernel⟩

end Database

end RowStore
