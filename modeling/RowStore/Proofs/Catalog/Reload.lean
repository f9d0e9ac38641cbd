import RowStore.Proofs.Catalog.Consistent
import RowStore.Proofs.Requests.Steps

/-!
Loading a schema file once more.

Program.  A run opens the store and loads the schema file; for each of its lines the heap file of the
table is opened, and made if it is not there.

1. Loading touches no byte of a file (`Files.Touched`): files that were missing are empty now.
2. Lines that were loaded can be loaded once more, by whatever capacity and however the files have grown.
   They make the same catalog, and no file any more (`Catalog.Loads.again`).
3. So a store that was opened and whose schema file was loaded can be opened and loaded again, as long as
   the schema file has the same bytes (`Database.opens_again`).

Crux.  A name that leads to a heap file leads to the same path as long as files and directories only come
and never go.
-/

namespace RowStore

/-! ## Files that were looked for -/

namespace Files

variable {f g k : Files} {name : String} {p : Path}

/-- Files may have been made, but they are empty. -/
structure Touched (f g : Files) : Prop where
  grown : Grown f g
  content : ∀ p, g.content p = f.content p

theorem Touched.refl (f : Files) : Touched f f := ⟨.refl f, fun _ => rfl⟩

theorem Touched.trans (h₁ : Touched f g) (h₂ : Touched g k) : Touched f k :=
  ⟨h₁.grown.trans h₂.grown, fun p => (h₂.content p).trans (h₁.content p)⟩

/-- A file that is there is not made once more. -/
theorem opened_of_isSome (hthere : (f.content? p).isSome = true) : f.opened p = f := if_pos hthere

theorem content?_eq (hgrown : Grown f g) (hthere : (f.content? p).isSome = true)
    (hcontent : g.content p = f.content p) : g.content? p = f.content? p := by
  obtain ⟨bytes, hf⟩ := Option.isSome_iff_exists.mp hthere
  obtain ⟨bytes', hg⟩ := Option.isSome_iff_exists.mp (hgrown.isSome_content? p hthere)
  rw [content, content, hf, hg] at hcontent
  rw [hf, hg]
  exact congrArg some hcontent

/-- The bytes that a name leads to are those of the file at its path. -/
theorem readBytes_eq_ok_iff {bytes : Bytes} :
    f.readBytes name = .ok (p, bytes) ↔ f.pathOf name = .ok p ∧ f.content? p = some bytes := by
  unfold readBytes pathOf
  cases hlocate : f.locate name with
  | error fault => simp [bind, Except.bind]
  | ok target =>
    cases target with
    | directory q => simp [bind, Except.bind]
    | entry dir last =>
      simp only [bind, Except.bind]
      by_cases hslash : Path.endsInSlash name = true
      · cases f.content? (dir ++ [last]) <;> simp [hslash] <;> grind
      by_cases hlong : isLong last = true
      · simp [hslash, hlong]
      by_cases hdirectory : f.isDirectory (dir ++ [last]) = true
      · simp [hslash, hlong, hdirectory]
      simp only [hslash, hlong, hdirectory, if_false, Bool.false_eq_true]
      constructor
      · intro hread
        cases hcontent : f.content? (dir ++ [last]) with
        | none =>
          rw [hcontent] at hread
          cases hread
        | some own =>
          rw [hcontent] at hread
          cases hread
          exact ⟨rfl, hcontent⟩
      · rintro ⟨hpath, hcontent⟩
        cases hpath
        rw [hcontent]

/-- A text file that was not written can be read once more. -/
theorem readText_again (hgrown : Grown f g) {text : String} (hread : f.readText name = .ok (p, text))
    (hcontent : g.content p = f.content p) : g.readText name = .ok (p, text) := by
  cases hbytes : f.readBytes name with
  | error fault =>
    simp only [readText, hbytes, bind, Except.bind] at hread
    cases hread
  | ok found =>
    obtain ⟨q, bytes⟩ := found
    obtain rfl : q = p := by
      simp only [readText, hbytes, bind, Except.bind] at hread
      split at hread <;> cases hread
      rfl
    obtain ⟨hpath, hthere⟩ := readBytes_eq_ok_iff.mp hbytes
    have hsame := content?_eq hgrown (by rw [hthere]; rfl) hcontent
    have hagain : g.readBytes name = .ok (q, bytes) :=
      readBytes_eq_ok_iff.mpr ⟨pathOf_grown hgrown hpath, hsame.trans hthere⟩
    simp only [readText, hbytes, hagain] at hread ⊢
    exact hread

theorem pathOf_of_readText {text : String} (hread : f.readText name = .ok (p, text)) :
    f.pathOf name = .ok p := by
  cases hbytes : f.readBytes name with
  | error fault =>
    simp only [readText, hbytes, bind, Except.bind] at hread
    cases hread
  | ok found =>
    obtain ⟨q, bytes⟩ := found
    simp only [readText, hbytes, bind, Except.bind] at hread
    split at hread <;> cases hread
    exact (readBytes_eq_ok_iff.mp hbytes).1

/-- Making directories touches no file. -/
theorem content_makeDirectories {r : Except StorageFault Unit} (hmake : f.makeDirectories name = (r, g))
    (p : Path) : g.content p = f.content p := by
  unfold makeDirectories at hmake
  split at hmake
  · cases hmake
    rfl
  · obtain ⟨made, rfl⟩ := exists_makeBelow hmake
    rfl

end Files

namespace HeapFile

variable {f g k : Files} {name : String} {schema : Schema} {pageSize : Nat} {h : HeapFile}

/-- Opening a heap file finds it, or makes it empty. -/
theorem openNamed_cases (hopen : openNamed f name schema pageSize = .ok (h, g)) :
    f.pathOf name = .ok h.path ∧ h = ⟨h.path, schema, pageSize⟩ ∧ g = f.opened h.path := by
  unfold openNamed at hopen
  rw [Files.openFile_eq] at hopen
  cases hpath : f.pathOf name with
  | error fault =>
    rw [hpath] at hopen
    cases hopen
  | ok p =>
    rw [hpath] at hopen
    cases hopen
    exact ⟨rfl, rfl, rfl⟩

/-- A heap file that was opened can be opened once more; no file is made then. -/
theorem openNamed_again (hopen : openNamed f name schema pageSize = .ok (h, g)) (hgrown : g.Grown k) :
    openNamed k name schema pageSize = .ok (h, k) := by
  obtain ⟨hpath, hh, rfl⟩ := openNamed_cases hopen
  have hthere := hgrown.isSome_content? h.path (Files.isSome_opened f h.path)
  have hagain := Files.pathOf_grown ((Files.Grown.opened f h.path).trans hgrown) hpath
  unfold openNamed
  rw [Files.openFile_eq, hagain]
  simp only [Except.map, Files.opened_of_isSome hthere]
  rw [← hh]

end HeapFile

/-! ## Lines that are loaded once more -/

namespace Catalog

variable {pageSize : Nat} {name : String} {dir : Path} {c c' : Catalog} {f g k : Files}

/-- Every table has a file and pages of one size. -/
def Settled (pageSize : Nat) (c : Catalog) (f : Files) : Prop :=
  ∀ e ∈ c.entries, e.file.pageSize = pageSize ∧ (f.content? e.file.path).isSome = true

/-- What was loaded from the files `f` made the catalog `c'` and the files `g`, and would make the
    catalog of files that have grown since. -/
structure Loads {α : Type} (pageSize : Nat) (f g : Files) (c' : Catalog)
    (load : Files → Except Error α × Catalog × Files) (result : α) : Prop where
  touched : f.Touched g
  settled : Settled pageSize c' g
  again : ∀ k, g.Grown k → load k = (.ok result, c', k)

/-- A line that was loaded can be loaded once more. -/
theorem addLine_loads {line : TableLine} {id : TableId} (hc : Settled pageSize c f)
    (hload : addLine pageSize dir line c f = (.ok id, c', g)) :
    Loads pageSize f g c' (addLine pageSize dir line c) id := by
  unfold addLine at hload
  split at hload
  · cases hload
  · rename_i file files hopen
    split at hload
    · cases hload
    · rename_i c₁ hadd
      cases hload
      obtain ⟨-, hfile, rfl⟩ := HeapFile.openNamed_cases hopen
      refine ⟨⟨.opened f file.path, Files.content_opened f file.path⟩, fun e he => ?_, fun k hgrown => ?_⟩
      · rcases mem_entries_add hadd he with rfl | hold
        · exact ⟨by rw [hfile], Files.isSome_opened f file.path⟩
        · obtain ⟨hsize, hthere⟩ := hc e hold
          exact ⟨hsize, (Files.Grown.opened f file.path).isSome_content? _ hthere⟩
      · unfold addLine
        rw [HeapFile.openNamed_again hopen hgrown]
        simp only [hadd]

/-- Lines that were loaded can be loaded once more. -/
theorem addLines_loads {number : Nat} {lines : List String} {ids : List TableId}
    (hc : Settled pageSize c f)
    (hload : addLines pageSize name dir number lines c f = (.ok ids, c', g)) :
    Loads pageSize f g c' (addLines pageSize name dir number lines c) ids := by
  induction lines generalizing number c f ids with
  | nil =>
    cases hload
    exact ⟨.refl _, hc, fun _ _ => rfl⟩
  | cons line lines ih =>
    rw [Storage.addLines_cons] at hload
    split at hload
    · rename_i hblank
      obtain ⟨htouched, hsettled, hagain⟩ := ih hc hload
      refine ⟨htouched, hsettled, fun k hgrown => ?_⟩
      rw [Storage.addLines_cons, if_pos hblank, hagain k hgrown]
    · rename_i hblank
      split at hload
      · cases hload
      · rename_i table hparse
        rcases hline : addLine pageSize dir table c f with ⟨e | id, c₁, f₁⟩
        · rw [hline] at hload
          cases hload
        rw [hline] at hload
        rcases hrest : addLines pageSize name dir (number + 1) lines c₁ f₁ with ⟨e | rest, c₂, f₂⟩
        · simp only [hrest] at hload
          cases hload
        simp only [hrest] at hload
        cases hload
        have hfirst := addLine_loads hc hline
        have hsecond := ih hfirst.settled hrest
        refine ⟨hfirst.touched.trans hsecond.touched, hsecond.settled, fun k hgrown => ?_⟩
        rw [Storage.addLines_cons, if_neg hblank, hparse]
        simp only [hfirst.again k (hsecond.touched.grown.trans hgrown), hsecond.again k hgrown]

end Catalog

/-! ## Stores that are opened once more -/

namespace Database

open Catalog

variable {files files₁ : Files} {directory schemaName : String} {config : Config} {new db : Database}
  {ids : List TableId}

/-- Opening a store on the files `f` with any capacity and loading its schema file makes the catalog `c`,
    and the files are `g` then. -/
def Opens (directory schemaName : String) (pageSize : Nat) (c : Catalog) (f g : Files) : Prop :=
  ∀ poolPages, poolPages ≠ 0 → ∃ new h ids,
    create f directory ⟨pageSize, poolPages⟩ = (.ok new, h) ∧
      new.loadSchema schemaName = (.ok ids,
        ⟨directory, ⟨pageSize, poolPages⟩, c, ⟨g, Pool.empty ⟨pageSize, poolPages⟩⟩⟩)

/-- What is known of a store that was opened and whose schema file was loaded. -/
structure Opened (directory schemaName : String) (pageSize : Nat) (files : Files) (db : Database) :
    Prop where
  /-- It can be opened so with any capacity. -/
  opens : Opens directory schemaName pageSize db.catalog files db.storage.files
  /-- No name and no number of a table occurs twice. -/
  consistent : db.catalog.Consistent
  /-- Every table has a file and pages of one size. -/
  settled : Settled pageSize db.catalog db.storage.files
  /-- No byte was touched. -/
  content : ∀ p, db.storage.files.content p = files.content p
  /-- It can be opened once more on files that have grown, if the schema file stayed what it was. -/
  again : ∃ path, db.storage.files.pathOf schemaName = .ok path ∧
    ∀ k, db.storage.files.Grown k → k.content path = db.storage.files.content path →
      Opens directory schemaName pageSize db.catalog k k

/-- Opening and loading are making the directory, reading the schema file and adding its lines. -/
theorem opens_of_lines {pageSize : Nat} (hsize : pageSize ≠ 0) {f f₁ g : Files} {path : Path}
    {text : String} {c : Catalog} (hmake : f.makeDirectories directory = (.ok (), f₁))
    (hread : f₁.readText schemaName = .ok (path, text))
    (hlines : addLines pageSize schemaName path.parent 1 (Text.lines text) Catalog.empty f₁ =
      (.ok ids, c, g)) : Opens directory schemaName pageSize c f g := by
  intro poolPages hpool
  refine ⟨_, f₁, ids, create_eq_ok hsize hpool hmake, ?_⟩
  simp only [loadSchema, load, hread, hlines]

/-- **Opening once more.** -/
theorem opened_of_load (hopen : create files directory config = (.ok new, files₁))
    (hload : new.loadSchema schemaName = (.ok ids, db)) :
    Opened directory schemaName config.pageSize files db := by
  obtain ⟨hsize, -, hmake, rfl⟩ := create_cases hopen
  unfold loadSchema load at hload
  cases hread : files₁.readText schemaName with
  | error fault =>
    simp only [hread] at hload
    cases hload
  | ok found =>
    obtain ⟨path, text⟩ := found
    simp only [hread] at hload
    rcases hlines : addLines config.pageSize schemaName path.parent 1 (Text.lines text) Catalog.empty
      files₁ with ⟨e | ids', c, g⟩
    · rw [hlines] at hload
      cases hload
    rw [hlines] at hload
    cases hload
    have hloads := addLines_loads (fun e he => absurd he List.not_mem_nil) hlines
    have hpath := Files.pathOf_of_readText hread
    have hthere := Files.pathOf_grown hloads.touched.grown hpath
    refine ⟨opens_of_lines (Nat.ne_of_gt hsize) hmake hread hlines, ?_, hloads.settled, ?_, path, hthere,
      ?_⟩
    · exact (consistent_empty.addAll (recorded_empty []) (addLines_adds hlines)).1
    · intro p
      exact (hloads.touched.content p).trans (Files.content_makeDirectories hmake p)
    · intro k hgrown hcontent
      -- the schema file is where it was, with the bytes that it had
      have hgrown₁ := hloads.touched.grown.trans hgrown
      rw [hloads.touched.content path] at hcontent
      exact opens_of_lines (Nat.ne_of_gt hsize) (Files.makeDirectories_again hmake hgrown₁)
        (Files.readText_again hgrown₁ hread hcontent) (hloads.again k hgrown)

end Database

end RowStore
