import RowStore.Proofs.Requests.Steps

/-!
What a request does to the catalog.

1. A request adds tables to the catalog, one after the other, or clears it, or leaves it alone.
   `Request.additions` lists the tables that are added, each with the catalog it is added to; a
   schema file adds one for each line, up to the first line that fails.  Tables that are refused are
   not listed.
2. What each of these additions keeps, the request keeps (`Database.catalog_induction`).
3. A run meets a condition if each of its requests meets it in the store that it is made to
   (`Database.Along`); what every such request keeps holds in all stores of the run
   (`Database.states_induction`).
-/

namespace RowStore

/-! ## Additions -/

/-- A table that is added, and the catalog that it is added to. -/
structure Addition where
  /-- The catalog before. -/
  catalog : Catalog
  /-- The new table. -/
  entry : TableEntry

/-- The tables that are added by some lines of a schema file. -/
def Catalog.additionsByLines (pageSize : Nat) (dir : Path) :
    List String → Catalog → Files → List Addition
  | [], _, _ => []
  | line :: lines, c, files =>
    if Text.isBlankLine line then additionsByLines pageSize dir lines c files
    else match TableLine.parse line with
      | .error _ => []
      | .ok table =>
        match HeapFile.openNamed files (Path.join dir.text (table.name ++ fileEnding))
            table.schema pageSize with
        | .error _ => []
        | .ok (file, files) =>
          match c.add ⟨table.name, file, table.primaryKey⟩ with
          | .error _ => []
          | .ok c' =>
            ⟨c, table.name, file, table.primaryKey⟩ :: additionsByLines pageSize dir lines c' files

/-- The table that is added with a file, if it is not refused. -/
def Database.additionsByFile (db : Database) (file name primaryKey : String) (schema : Schema)
    (pageSize : Nat) : List Addition :=
  match HeapFile.openNamed db.storage.files file schema pageSize with
  | .error _ => []
  | .ok (heap, _) =>
    match db.catalog.add ⟨name, heap, primaryKey⟩ with
    | .error _ => []
    | .ok _ => [⟨db.catalog, name, heap, primaryKey⟩]

/-- The tables that a request adds. -/
def Request.additions (db : Database) : Request → List Addition
  | .task (.createTable name schema) =>
    db.additionsByFile (Catalog.fileName db.directory name) name "" schema db.config.pageSize
  | .addFile file name primaryKey schema pageSize =>
    db.additionsByFile file name primaryKey schema pageSize
  | .loadSchema name =>
    match db.storage.files.readText name with
    | .error _ => []
    | .ok (path, text) =>
      Catalog.additionsByLines db.config.pageSize path.parent (Text.lines text) db.catalog
        db.storage.files
  | _ => []

namespace Catalog

attribute [local irreducible] TableLine.parse Text.isBlankLine in
/-- The tables that are added by some lines, by the first of them. -/
theorem additionsByLines_cons (pageSize : Nat) (dir : Path) (line : String) (lines : List String)
    (c : Catalog) (files : Files) :
    additionsByLines pageSize dir (line :: lines) c files =
      if Text.isBlankLine line then additionsByLines pageSize dir lines c files
      else match TableLine.parse line with
        | .error _ => []
        | .ok table =>
          match HeapFile.openNamed files (Path.join dir.text (table.name ++ fileEnding))
              table.schema pageSize with
          | .error _ => []
          | .ok (file, files) =>
            match c.add ⟨table.name, file, table.primaryKey⟩ with
            | .error _ => []
            | .ok c' =>
              ⟨c, table.name, file, table.primaryKey⟩ ::
                additionsByLines pageSize dir lines c' files := rfl

/-- The first of some lines is blank, or it fails and nothing is added, or its table is added, and the
    other lines follow. -/
theorem addLines_cases {pageSize number : Nat} {name line : String} {dir : Path} {lines : List String}
    {c c' : Catalog} {files files' : Files} {r : Except Error (List TableId)}
    (h : addLines pageSize name dir number (line :: lines) c files = (r, c', files')) :
    (addLines pageSize name dir (number + 1) lines c files = (r, c', files') ∧
      additionsByLines pageSize dir (line :: lines) c files = additionsByLines pageSize dir lines c files) ∨
    (c' = c ∧ additionsByLines pageSize dir (line :: lines) c files = []) ∨
    (∃ new c₁ files₁ r₁, c.add new = .ok c₁ ∧
      addLines pageSize name dir (number + 1) lines c₁ files₁ = (r₁, c', files') ∧
      additionsByLines pageSize dir (line :: lines) c files =
        ⟨c, new⟩ :: additionsByLines pageSize dir lines c₁ files₁) := by
  rw [Storage.addLines_cons] at h
  rw [additionsByLines_cons]
  by_cases hblank : Text.isBlankLine line
  · rw [if_pos hblank] at h ⊢
    exact Or.inl ⟨h, rfl⟩
  rw [if_neg hblank] at h ⊢
  right
  cases hparse : TableLine.parse line with
  | error fault =>
    rw [hparse] at h
    cases h
    exact Or.inl ⟨rfl, rfl⟩
  | ok table =>
    simp only [hparse] at h ⊢
    unfold addLine at h
    cases hopen : HeapFile.openNamed files (Path.join dir.text (table.name ++ fileEnding))
        table.schema pageSize with
    | error e =>
      rw [hopen] at h
      cases h
      exact Or.inl ⟨rfl, rfl⟩
    | ok opened =>
      obtain ⟨file, files₁⟩ := opened
      simp only [hopen] at h ⊢
      cases hnew : c.add ⟨table.name, file, table.primaryKey⟩ with
      | error e =>
        rw [hnew] at h
        cases h
        exact Or.inl ⟨rfl, rfl⟩
      | ok c₁ =>
        simp only [hnew] at h ⊢
        rcases hrest : addLines pageSize name dir (number + 1) lines c₁ files₁
          with ⟨result, c₂, files₂⟩
        rw [hrest] at h
        refine Or.inr ⟨_, c₁, files₁, result, hnew, ?_, rfl⟩
        cases result <;> cases h <;> exact hrest

/-- What every addition of some lines keeps holds of the catalog after them, also when a line
    fails. -/
theorem addLines_induction {P : Catalog → Prop} {pageSize number : Nat} {name : String}
    {dir : Path} {lines : List String} {c c' : Catalog} {files files' : Files}
    {r : Except Error (List TableId)}
    (h : addLines pageSize name dir number lines c files = (r, c', files'))
    (hadd : ∀ a ∈ additionsByLines pageSize dir lines c files, ∀ c₁,
      P a.catalog → a.catalog.add a.entry = .ok c₁ → P c₁) (hc : P c) : P c' := by
  induction lines generalizing number c files r with
  | nil =>
    cases h
    exact hc
  | cons line lines ih =>
    obtain ⟨h, hsame⟩ | ⟨rfl, -⟩ | ⟨new, c₁, files₁, r₁, hnew, h, hmore⟩ := addLines_cases h
    · rw [hsame] at hadd
      exact ih h hadd hc
    · exact hc
    · rw [hmore] at hadd
      have hfirst : P c₁ := hadd _ List.mem_cons_self c₁ hc hnew
      exact ih h (fun a ha => hadd a (List.mem_cons_of_mem _ ha)) hfirst

end Catalog

namespace Database

open Storage

variable {db : Database}

theorem addFile_induction {P : Catalog → Prop} {file name primaryKey : String} {schema : Schema}
    {pageSize : Nat}
    (hadd : ∀ a ∈ db.additionsByFile file name primaryKey schema pageSize, ∀ c',
      P a.catalog → a.catalog.add a.entry = .ok c' → P c') (hc : P db.catalog) :
    P (db.addFile file name primaryKey schema pageSize).2.catalog := by
  unfold additionsByFile at hadd
  unfold addFile
  cases hopen : HeapFile.openNamed db.storage.files file schema pageSize with
  | error e => exact hc
  | ok opened =>
    obtain ⟨heap, files⟩ := opened
    simp only [hopen] at hadd ⊢
    cases hnew : db.catalog.add ⟨name, heap, primaryKey⟩ with
    | error e => exact hc
    | ok c' =>
      simp only [hnew] at hadd
      exact hadd _ (List.mem_singleton_self _) c' hc hnew

/-- **What a request does to the catalog.**  It clears it, or it makes its additions one after the
    other; what they keep it keeps. -/
theorem catalog_induction {P : Catalog → Prop} {request : Request}
    (hadd : ∀ a ∈ request.additions db, ∀ c', P a.catalog → a.catalog.add a.entry = .ok c' → P c')
    (hclear : request = .clearCatalog → P Catalog.empty) (hc : P db.catalog) :
    P (db.perform request).2.catalog := by
  cases request with
  | task asked =>
    cases asked with
    | createTable name schema => exact addFile_induction hadd hc
    | _ => exact hc
  | addFile file name primaryKey schema pageSize => exact addFile_induction hadd hc
  | loadSchema name =>
    show P (db.loadSchema name).2.catalog
    unfold Request.additions at hadd
    unfold loadSchema Catalog.load
    cases htext : db.storage.files.readText name with
    | error fault => exact hc
    | ok found =>
      obtain ⟨path, text⟩ := found
      simp only [htext] at hadd ⊢
      exact Catalog.addLines_induction rfl hadd hc
  | clearCatalog => exact hclear rfl
  | _ => exact hc

/-- A file that is added brings no page into memory. -/
theorem addFile_pool (db : Database) (file name primaryKey : String) (schema : Schema)
    (pageSize : Nat) :
    (db.addFile file name primaryKey schema pageSize).2.storage.pool = db.storage.pool := by
  unfold addFile
  split
  · rfl
  · simp only
    split <;> rfl

/-- A request changes the catalog or the pages in memory, and never both. -/
theorem perform_pool_or_catalog (db : Database) (request : Request) :
    (db.perform request).2.storage.pool = db.storage.pool ∨
      (db.perform request).2.catalog = db.catalog := by
  cases request with
  | task asked =>
    cases asked with
    | createTable name schema => exact Or.inl (addFile_pool db ..)
    | _ => exact Or.inr rfl
  | addFile file name primaryKey schema pageSize => exact Or.inl (addFile_pool db ..)
  | loadSchema name => exact Or.inl rfl
  | clearCatalog => exact Or.inl rfl
  | _ => exact Or.inr rfl

/-! ## Conditions along a run -/

/-- Every request of a run meets a condition in the store that it is made to. -/
def Along (condition : Database → Request → Prop) (db : Database) : List Request → Prop
  | [] => True
  | request :: requests => condition db request ∧ Along condition (db.perform request).2 requests

instance decidableAlong {condition : Database → Request → Prop}
    [hone : ∀ db request, Decidable (condition db request)] (db : Database) :
    (requests : List Request) → Decidable (db.Along condition requests)
  | [] => inferInstanceAs (Decidable True)
  | request :: requests =>
    have : Decidable (Along condition (db.perform request).2 requests) := decidableAlong _ requests
    inferInstanceAs (Decidable (condition db request ∧ _))

/-- What requests keep that meet a condition holds in every store of a run that meets it. -/
theorem states_induction {condition : Database → Request → Prop} {P : Database → Prop}
    (hstep : ∀ db request, condition db request → P db → P (db.perform request).2)
    {requests : List Request} (hrun : Along condition db requests) (hdb : P db) :
    ∀ d ∈ db.states requests, P d := by
  induction requests generalizing db with
  | nil =>
    intro d hd
    rw [states, List.mem_singleton] at hd
    exact hd ▸ hdb
  | cons request requests ih =>
    intro d hd
    obtain ⟨hfirst, hrest⟩ := hrun
    rcases List.mem_cons.mp hd with rfl | hd
    · exact hdb
    · exact ih hrest (hstep db request hfirst hdb) d hd

end Database

end RowStore
