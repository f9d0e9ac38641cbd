import RowStore.Proofs.Catalog.Reload
import RowStore.Proofs.Catalog.Spellings

/-!
Loading a schema file, up to its first bad line, and once more.

Program.  The lines of a schema file are taken one after the other; for each the heap file of the table is
opened, and the table is added to the catalog.  A table that is added takes the place of the one with its
number, and every other table of its name goes, also one that an earlier line has added.

1. What lines do that can be read is to open the files of their tables and to add the tables, one by one
   (`addTables_eq_ok_iff`); the first line that cannot be read ends it, and all of that stays
   (`addLines_stops`).
2. After some additions a number has the last table that was added for it; a number for which none was added
   keeps its table if no addition took the name (`find?_addAll`).
3. So the same additions can be made once more, and every table is found as before (`addAll_again`); a schema
   file that was loaded can be loaded once more (`load_again`).

Crux.  In one schema file a name leads to one path, so no line takes the name of a table with another number
that an earlier line has added.  An entry that the lines made can therefore be replaced, but it is never
removed, and a replacement has the same columns, or it would have been refused.
-/

namespace RowStore

/-! ## Files that are opened one after the other -/

namespace Files

variable {f : Files} {paths : List Path}

/-- The tree in which the files at some paths are there. -/
def openedAll (f : Files) (paths : List Path) : Files := paths.foldl opened f

theorem Grown.openedAll (f : Files) (paths : List Path) : Grown f (f.openedAll paths) := by
  induction paths generalizing f with
  | nil => exact .refl f
  | cons p paths ih => exact (Grown.opened f p).trans (ih (f.opened p))

theorem content_openedAll (f : Files) (paths : List Path) (p : Path) :
    (f.openedAll paths).content p = f.content p := by
  induction paths generalizing f with
  | nil => rfl
  | cons q paths ih => exact (ih (f.opened q)).trans (content_opened f q p)

theorem isSome_openedAll {p : Path} (hp : p ∈ paths) : ((f.openedAll paths).content? p).isSome = true := by
  induction paths generalizing f with
  | nil => exact absurd hp List.not_mem_nil
  | cons q paths ih =>
    rcases List.mem_cons.mp hp with rfl | hp
    · exact (Grown.openedAll (f.opened p) paths).isSome_content? p (isSome_opened f p)
    · exact ih hp

/-- Files that are there are not made once more. -/
theorem openedAll_of_isSome (hthere : ∀ p ∈ paths, (f.content? p).isSome = true) :
    f.openedAll paths = f := by
  induction paths with
  | nil => rfl
  | cons p paths ih =>
    obtain ⟨hfirst, hrest⟩ := List.forall_mem_cons.mp hthere
    rw [openedAll, List.foldl_cons, opened_of_isSome hfirst]
    exact ih hrest

end Files

namespace Catalog

variable {pageSize number : Nat} {name : String} {dir : Path} {c c' : Catalog} {files files' k : Files}
  {tables : List TableLine} {entries : List TableEntry} {ids : List TableId} {e new : TableEntry}
  {id : TableId}

/-! ## Tables and their entries -/

/-- An entry is that of a table whose heap file is in a directory. -/
structure EntryOf (files : Files) (dir : Path) (pageSize : Nat) (t : TableLine) (e : TableEntry) : Prop where
  path : files.pathOf (fileName dir.text t.name) = .ok e.file.path
  eq : e = ⟨t.name, ⟨e.file.path, t.schema, pageSize⟩, t.primaryKey⟩

/-- Entries of some tables, in their order. -/
abbrev EntriesOf (files : Files) (dir : Path) (pageSize : Nat) (tables : List TableLine)
    (entries : List TableEntry) : Prop :=
  List.Forall₂ (EntryOf files dir pageSize) tables entries

/-- Files that are made on the way do not matter. -/
theorem EntryOf.grown_iff (hgrown : Files.Grown files k) {t : TableLine} :
    EntryOf k dir pageSize t e ↔ EntryOf files dir pageSize t e :=
  ⟨fun h => ⟨(Files.pathOf_grown_iff hgrown).mp h.path, h.eq⟩,
    fun h => ⟨(Files.pathOf_grown_iff hgrown).mpr h.path, h.eq⟩⟩

theorem EntriesOf.grown_iff (hgrown : Files.Grown files k) :
    EntriesOf k dir pageSize tables entries ↔ EntriesOf files dir pageSize tables entries := by
  have hentry : EntryOf k dir pageSize = EntryOf files dir pageSize := by
    funext t e
    exact propext (EntryOf.grown_iff hgrown)
  rw [EntriesOf, EntriesOf, hentry]

/-- A line is added exactly if its file can be opened and its table is not refused. -/
theorem addLine_eq_ok_iff {t : TableLine} :
    addLine pageSize dir t c files = (.ok id, c', files') ↔
      ∃ e, EntryOf files dir pageSize t e ∧ c.add e = .ok c' ∧ id = e.file.id ∧
        files' = files.opened e.file.path := by
  unfold addLine HeapFile.openNamed
  rw [Files.openFile_eq]
  constructor
  · intro hadd
    cases hpath : files.pathOf (fileName dir.text t.name) with
    | error fault =>
      simp only [hpath, Except.map] at hadd
      cases hadd
    | ok path =>
      simp only [hpath, Except.map] at hadd
      cases hnew : c.add ⟨t.name, ⟨path, t.schema, pageSize⟩, t.primaryKey⟩ with
      | error fault =>
        rw [hnew] at hadd
        cases hadd
      | ok c₁ =>
        rw [hnew] at hadd
        cases hadd
        exact ⟨_, ⟨hpath, rfl⟩, hnew, rfl, rfl⟩
  · rintro ⟨e, ⟨hpath, heq⟩, hnew, rfl, rfl⟩
    rw [heq] at hnew
    simp only [hpath, Except.map, hnew]
    rw [heq]

/-- **Tables are added, one by one**, exactly if their files can be opened and none of them is refused. -/
theorem addTables_eq_ok_iff :
    addTables pageSize dir tables c files = (.ok ids, c', files') ↔
      ∃ entries, EntriesOf files dir pageSize tables entries ∧ entries.foldlM Catalog.add c = .ok c' ∧
        ids = entries.map entryId ∧ files' = files.openedAll (entries.map (·.file.path)) := by
  induction tables generalizing c files ids files' with
  | nil =>
    constructor
    · intro h
      cases h
      exact ⟨[], .nil, rfl, rfl, rfl⟩
    · rintro ⟨entries, hentries, hadd, rfl, rfl⟩
      cases hentries
      cases hadd
      rfl
  | cons t tables ih =>
    rw [addTables_cons]
    constructor
    · intro h
      rcases hfirst : addLine pageSize dir t c files with ⟨fault | id, c₁, files₁⟩
      · rw [hfirst] at h
        cases h
      rw [hfirst] at h
      rcases hrest : addTables pageSize dir tables c₁ files₁ with ⟨fault | rest, c₂, files₂⟩
      · simp only [hrest] at h
        cases h
      simp only [hrest] at h
      cases h
      obtain ⟨e, hentry, hadd, rfl, rfl⟩ := addLine_eq_ok_iff.mp hfirst
      obtain ⟨entries, hentries, hall, rfl, rfl⟩ := ih.mp hrest
      rw [EntriesOf.grown_iff (Files.Grown.opened files _)] at hentries
      refine ⟨e :: entries, .cons hentry hentries, ?_, rfl, rfl⟩
      rw [List.foldlM_cons, hadd]
      exact hall
    · rintro ⟨entries, hentries, hadd, rfl, rfl⟩
      cases hentries with
      | @cons _ e _ entries hentry hentries =>
        obtain ⟨c₁, hnew, hrest⟩ := addAll_cons hadd
        have hfirst := addLine_eq_ok_iff.mpr ⟨e, hentry, hnew, rfl, rfl⟩
        have hlater := (EntriesOf.grown_iff (Files.Grown.opened files e.file.path)).mpr hentries
        have hothers := ih.mpr ⟨entries, hlater, hrest, rfl, rfl⟩
        simp only [hfirst, hothers]
        rfl

/-! ## Lines -/

/-- The tables of the lines of a schema file, if all of them can be read. -/
abbrev readLines (lines : List String) : Except LineFault (List TableLine) :=
  (lines.filter fun line => !Text.isBlankLine line).mapM TableLine.parse

/-- **The first line that cannot be read** ends the loading, and what came before stays. -/
theorem addLines_stops {before after : List String} {bad : String} {fault : LineFault}
    (hblank : Text.isBlankLine bad = false) (hbad : TableLine.parse bad = .error fault)
    (hread : readLines before = .ok tables)
    (hadd : addTables pageSize dir tables c files = (.ok ids, c', files')) :
    addLines pageSize name dir number (before ++ bad :: after) c files =
      (.error (.schemaFile name (number + before.length) fault), c', files') := by
  induction before generalizing number tables c files ids with
  | nil =>
    cases hread
    cases hadd
    rw [List.nil_append, Storage.addLines_cons, hblank, if_neg Bool.false_ne_true, hbad]
    rfl
  | cons line before ih =>
    have hnumber : number + 1 + before.length = number + (line :: before).length := by
      rw [List.length_cons]
      omega
    rw [readLines, List.filter_cons] at hread
    rw [List.cons_append, Storage.addLines_cons, ← hnumber]
    by_cases hline : Text.isBlankLine line = true
    · rw [hline] at hread
      rw [if_pos hline]
      exact ih hread hadd
    · rw [Bool.eq_false_iff.mpr hline, Bool.not_false, if_pos rfl] at hread
      obtain ⟨table, others, hparse, hrest, rfl⟩ := ok_of_mapM_cons hread
      rw [addTables_cons] at hadd
      rw [if_neg hline, hparse]
      rcases hfirst : addLine pageSize dir table c files with ⟨e | id, c₁, files₁⟩
      · rw [hfirst] at hadd
        cases hadd
      rw [hfirst] at hadd
      rcases hothers : addTables pageSize dir others c₁ files₁ with ⟨e | ids', c₂, files₂⟩
      · simp only [hothers] at hadd
        cases hadd
      simp only [hothers] at hadd
      cases hadd
      simp only [hfirst, ih hrest hothers]

/-- Lines that were loaded can all be read. -/
theorem read_of_addLines {lines : List String}
    (hload : addLines pageSize name dir number lines c files = (.ok ids, c', files')) :
    ∃ tables, readLines lines = .ok tables := by
  induction lines generalizing number c files ids with
  | nil => exact ⟨[], rfl⟩
  | cons line lines ih =>
    rw [Storage.addLines_cons] at hload
    rw [readLines, List.filter_cons]
    by_cases hline : Text.isBlankLine line = true
    · rw [if_pos hline] at hload
      rw [hline]
      exact ih hload
    · rw [if_neg hline] at hload
      rw [Bool.eq_false_iff.mpr hline, Bool.not_false, if_pos rfl, List.mapM_cons]
      cases hparse : TableLine.parse line with
      | error fault =>
        rw [hparse] at hload
        cases hload
      | ok table =>
        rw [hparse] at hload
        rcases hfirst : addLine pageSize dir table c files with ⟨e | id, c₁, files₁⟩
        · simp only [hfirst] at hload
          cases hload
        simp only [hfirst] at hload
        rcases hrest : addLines pageSize name dir (number + 1) lines c₁ files₁ with ⟨e | ids', c₂, files₂⟩
        · simp only [hrest] at hload
          cases hload
        simp only [hrest] at hload
        cases hload
        obtain ⟨tables, hread⟩ := ih hrest
        rw [readLines] at hread
        rw [hread]
        exact ⟨table :: tables, rfl⟩

/-- **Lines are loaded** exactly if all of them can be read, opened and added; the numbers are those of
    their tables. -/
theorem addLines_eq_ok_iff {lines : List String} :
    addLines pageSize name dir number lines c files = (.ok ids, c', files') ↔
      ∃ tables entries, readLines lines = .ok tables ∧ EntriesOf files dir pageSize tables entries ∧
        entries.foldlM Catalog.add c = .ok c' ∧ ids = entries.map entryId ∧
        files' = files.openedAll (entries.map (·.file.path)) := by
  constructor
  · intro hload
    obtain ⟨tables, hread⟩ := read_of_addLines hload
    rw [addLines_eq_addTables hread, addTables_eq_ok_iff] at hload
    obtain ⟨entries, hentries⟩ := hload
    exact ⟨tables, entries, hread, hentries⟩
  · rintro ⟨tables, entries, hread, hentries⟩
    rw [addLines_eq_addTables hread, addTables_eq_ok_iff]
    exact ⟨entries, hentries⟩

/-! ## What is found after some additions -/

theorem lastFor_cons (id : TableId) (new : TableEntry) (log : List TableEntry) :
    lastFor id (new :: log) = (lastFor id log).or (if new.file.id = id then some new else none) := by
  unfold lastFor
  rw [List.reverse_cons, List.find?_append, List.find?_singleton]
  simp only [beq_iff_eq]

/-- One name stands for one number. -/
def OneNumber (entries : List TableEntry) : Prop :=
  ∀ e ∈ entries, ∀ e' ∈ entries, e.name = e'.name → e.file.id = e'.file.id

theorem OneNumber.tail (h : OneNumber (new :: entries)) : OneNumber entries :=
  fun e he e' he' => h e (List.mem_cons_of_mem _ he) e' (List.mem_cons_of_mem _ he')

theorem Consistent.of_addAll (hc : c.Consistent) (hadd : entries.foldlM Catalog.add c = .ok c') :
    c'.Consistent := by
  induction entries generalizing c with
  | nil =>
    cases hadd
    exact hc
  | cons new entries ih =>
    obtain ⟨c₁, hnew, hrest⟩ := addAll_cons hadd
    exact ih (hc.add hnew) hrest

theorem exists_lastFor (he : e ∈ entries) :
    ∃ last ∈ entries, lastFor e.file.id entries = some last ∧ last.file.id = e.file.id := by
  unfold lastFor
  cases hfind : entries.reverse.find? fun x => x.file.id == e.file.id with
  | none =>
    have hnot := List.find?_eq_none.mp hfind e (List.mem_reverse.mpr he)
    simp at hnot
  | some last =>
    exact ⟨last, List.mem_reverse.mp (List.mem_of_find?_eq_some hfind), rfl,
      by simpa using List.find?_some hfind⟩

/-- **After some additions** a number has the last table that was added for it, or else the table that it
    had, if no addition took the name. -/
theorem find?_addAll (hc : c.Consistent) (hnames : OneNumber entries)
    (hadd : entries.foldlM Catalog.add c = .ok c') (id : TableId) :
    c'.find? id =
      (lastFor id entries).or ((c.find? id).filter fun e => e.name ∉ entries.map (·.name)) := by
  induction entries generalizing c with
  | nil =>
    cases hadd
    ext e
    simp [lastFor, Option.filter_eq_some_iff]
  | cons new entries ih =>
    obtain ⟨c₁, hnew, hrest⟩ := addAll_cons hadd
    rw [ih (hc.add hnew) hnames.tail hrest, lastFor_cons, find?_add_eq hc hnew]
    cases hlast : lastFor id entries with
    | some last => rfl
    | none =>
      by_cases hid : new.file.id = id
      · -- no later addition takes the name of this one, for it would be for the same number
        have hkept : new.name ∉ entries.map (·.name) := by
          intro hmem
          obtain ⟨e, he, hname⟩ := List.mem_map.mp hmem
          have hsame := hnames e (List.mem_cons_of_mem _ he) new List.mem_cons_self hname
          obtain ⟨last, -, hfound, -⟩ := exists_lastFor he
          rw [hsame, hid, hlast] at hfound
          cases hfound
        rw [if_pos hid, if_pos hid, Option.none_or, Option.none_or, Option.filter_some,
          if_pos (by simpa using hkept), Option.some_or]
      · rw [if_neg hid, if_neg hid, Option.none_or, Option.none_or, Option.none_or, Option.filter_filter]
        simp only [List.map_cons, List.mem_cons, not_or, Bool.decide_and, decide_not]

/-! ## The same additions once more -/

/-- An addition is refused only for its columns. -/
theorem exists_add (hsame : ∀ old, c.find? new.file.id = some old → old.file.schema = new.file.schema) :
    ∃ c', c.add new = .ok c' := by
  obtain ⟨old, hold, hother, -⟩ | ⟨-, hok⟩ := add_cases c new
  · rw [file_eq] at hold
    cases hfind : c.find? new.file.id with
    | none =>
      rw [hfind] at hold
      cases hold
    | some found =>
      rw [hfind] at hold
      cases hold
      exact absurd (hsame found hfind) hother
  · exact ⟨_, hok⟩

theorem schema_of_add (hadd : c.add new = .ok c') {old : TableEntry}
    (hold : c.find? new.file.id = some old) : old.file.schema = new.file.schema := by
  obtain ⟨_, -, -, herror⟩ | ⟨hsame, -⟩ := add_cases c new
  · rw [hadd] at herror
    cases herror
  · refine hsame old.file ?_
    rw [file_eq, hold]

/-- A table that is there has the columns of every table that is added for its number, if nobody takes its
    name. -/
theorem schema_of_addAll (hc : c.Consistent) {old : TableEntry} (hold : c.find? id = some old)
    (hnames : OneNumber (old :: entries)) (hadd : entries.foldlM Catalog.add c = .ok c') :
    ∀ e ∈ entries, e.file.id = id → e.file.schema = old.file.schema := by
  induction entries generalizing c old with
  | nil => exact nofun
  | cons new entries ih =>
    obtain ⟨c₁, hnew, hrest⟩ := addAll_cons hadd
    have hown : old.file.id = id := ((find?_eq_some_iff hc).mp hold).2
    have hfound := find?_add_eq hc hnew id
    by_cases hid : new.file.id = id
    · have hsame : old.file.schema = new.file.schema := schema_of_add hnew (hid ▸ hold)
      rw [if_pos hid] at hfound
      have hlater := ih (hc.add hnew) hfound hnames.tail hrest
      exact List.forall_mem_cons.mpr ⟨fun _ => hsame.symm, fun e he hid => (hlater e he hid).trans hsame.symm⟩
    · have hother : old.name ≠ new.name := by
        intro hname
        have hsame := hnames old List.mem_cons_self new (List.mem_cons_of_mem _ List.mem_cons_self) hname
        exact hid (hsame.symm.trans hown)
      rw [if_neg hid, hold, Option.filter_some, if_pos (by simpa using hother)] at hfound
      have hnames' : OneNumber (old :: entries) := by
        intro e he e' he'
        refine hnames e ?_ e' ?_
        · exact List.mem_cons.mpr ((List.mem_cons.mp he).imp_right (List.mem_cons_of_mem _))
        · exact List.mem_cons.mpr ((List.mem_cons.mp he').imp_right (List.mem_cons_of_mem _))
      exact List.forall_mem_cons.mpr ⟨fun h => absurd h hid, ih (hc.add hnew) hfound hnames' hrest⟩

/-- One number has one list of columns. -/
def OneSchema (entries : List TableEntry) : Prop :=
  ∀ e ∈ entries, ∀ e' ∈ entries, e.file.id = e'.file.id → e.file.schema = e'.file.schema

/-- Additions that were made one after the other agree about the columns of a number. -/
theorem oneSchema_of_addAll (hc : c.Consistent) (hnames : OneNumber entries)
    (hadd : entries.foldlM Catalog.add c = .ok c') : OneSchema entries := by
  induction entries generalizing c with
  | nil => exact nofun
  | cons new entries ih =>
    obtain ⟨c₁, hnew, hrest⟩ := addAll_cons hadd
    have hlater := schema_of_addAll (hc.add hnew) (find?_add_self hnew) hnames hrest
    have hothers := ih (hc.add hnew) hnames.tail hrest
    intro e hmem e' hmem' hid
    rcases List.mem_cons.mp hmem with rfl | he
    · rcases List.mem_cons.mp hmem' with rfl | he'
      · rfl
      · exact (hlater e' he' hid.symm).symm
    · rcases List.mem_cons.mp hmem' with rfl | he'
      · exact hlater e he hid
      · exact hothers e he e' he' hid

/-- Additions that agree about the columns of each number, with each other and with what is there, are not
    refused. -/
theorem exists_addAll (hc : c.Consistent) (hschema : OneSchema entries)
    (hthere : ∀ e ∈ entries, ∀ old, c.find? e.file.id = some old → old.file.schema = e.file.schema) :
    ∃ c', entries.foldlM Catalog.add c = .ok c' := by
  induction entries generalizing c with
  | nil => exact ⟨c, rfl⟩
  | cons new entries ih =>
    obtain ⟨hfirst, hrest⟩ := List.forall_mem_cons.mp hthere
    obtain ⟨c₁, hnew⟩ := exists_add hfirst
    rw [List.foldlM_cons, hnew]
    refine ih (hc.add hnew) ?_ ?_
    · exact fun e he e' he' => hschema e (List.mem_cons_of_mem _ he) e' (List.mem_cons_of_mem _ he')
    · intro e he old hold
      rw [find?_add_eq hc hnew] at hold
      split at hold
      · rename_i hid
        cases hold
        exact hschema _ List.mem_cons_self e (List.mem_cons_of_mem _ he) hid
      · exact hrest e he old (Option.filter_eq_some_iff.mp hold).1

/-! ## Looking up once more -/

/-- An entry with pages of another size. -/
abbrev resized (pageSize : Nat) (e : TableEntry) : TableEntry := { e with file.pageSize := pageSize }

theorem EntryOf.resized {t : TableLine} (h : EntryOf files dir pageSize t e) (size : Nat) :
    EntryOf files dir size t (resized size e) := ⟨h.path, by rw [h.eq]⟩

theorem EntriesOf.resized (h : EntriesOf files dir pageSize tables entries) (size : Nat) :
    EntriesOf files dir size tables (entries.map (resized size)) :=
  List.forall₂_map_right_iff.mpr (h.imp fun _ _ hentry => hentry.resized size)

theorem lastFor_resized (size : Nat) (id : TableId) (log : List TableEntry) :
    lastFor id (log.map (resized size)) = (lastFor id log).map (resized size) := by
  unfold lastFor
  rw [← List.map_reverse, List.find?_map]
  rfl

/-- Two catalogs answer every question about their tables alike. -/
structure LooksAlike (c c' : Catalog) : Prop where
  tableId : ∀ name, c'.tableId name = c.tableId name
  tableName : ∀ id, c'.tableName id = c.tableName id
  schema : ∀ id, c'.schema id = c.schema id
  primaryKey : ∀ id, c'.primaryKey id = c.primaryKey id
  path : ∀ id, (c'.file id).map (·.path) = (c.file id).map (·.path)

/-- Every table is found as in another catalog, but for the size of its pages. -/
def FindsAlike (c c' : Catalog) : Prop :=
  ∀ id, (c'.find? id).map (resized 0) = (c.find? id).map (resized 0)

theorem FindsAlike.map_entry {α : Type} (h : FindsAlike c c') (get : TableEntry → α)
    (hget : ∀ e, get (resized 0 e) = get e) (id : TableId) :
    (c'.entry id).map get = (c.entry id).map get := by
  have hsame := congrArg (Option.map get) (h id)
  rw [Option.map_map, Option.map_map, show get ∘ resized 0 = get from funext hget] at hsame
  unfold entry
  cases hfind : c.find? id <;> cases hfind' : c'.find? id <;> rw [hfind, hfind'] at hsame
  · cases hsame
  · cases hsame
  · exact congrArg Except.ok (Option.some.inj hsame)

/-- Names are found alike if numbers are. -/
theorem tableId_congr (hc : c.Consistent) (hc' : c'.Consistent)
    (hnames : ∀ id, c'.tableName id = c.tableName id) (name : String) :
    c'.tableId name = c.tableId name := by
  have hiff : ∀ id, c'.tableId name = .ok id ↔ c.tableId name = .ok id := by
    intro id
    rw [hc'.tableId_iff_tableName, hc.tableId_iff_tableName, hnames]
  cases hid : c.tableId name with
  | ok id => exact (hiff id).mpr hid
  | error fault =>
    cases hid' : c'.tableId name with
    | ok id =>
      rw [(hiff id).mp hid'] at hid
      cases hid
    | error fault' =>
      have herror : ∀ {d : Catalog} {e : Error}, d.tableId name = .error e → e = .missing (.tableNamed name) := by
        intro d e h
        unfold tableId at h
        split at h <;> cases h
        rfl
      rw [herror hid, herror hid']

theorem FindsAlike.looksAlike (h : FindsAlike c c') (hc : c.Consistent) (hc' : c'.Consistent) :
    LooksAlike c c' := by
  have hnames := h.map_entry (·.name) fun _ => rfl
  refine ⟨tableId_congr hc hc' hnames, hnames, h.map_entry (·.file.schema) fun _ => rfl,
    h.map_entry (·.primaryKey) fun _ => rfl, fun id => ?_⟩
  have hpath : ∀ d : Catalog, (d.file id).map (·.path) = (d.entry id).map (·.file.path) := by
    intro d
    unfold file
    cases d.entry id <;> rfl
  rw [hpath, hpath, h.map_entry (·.file.path) fun _ => rfl]

/-- **The same additions once more**, with pages of any size: none is refused, and every question is answered
    as before. -/
theorem addAll_again (hc : c.Consistent) (hnames : OneNumber entries)
    (hadd : entries.foldlM Catalog.add c = .ok c') (size : Nat) :
    ∃ c₂, (entries.map (resized size)).foldlM Catalog.add c' = .ok c₂ ∧ LooksAlike c' c₂ := by
  have hc' := hc.of_addAll hadd
  have hschema := oneSchema_of_addAll hc hnames hadd
  have hnames' : OneNumber (entries.map (resized size)) := by
    simp only [OneNumber, List.forall_mem_map]
    exact hnames
  have hschema' : OneSchema (entries.map (resized size)) := by
    simp only [OneSchema, List.forall_mem_map]
    exact hschema
  have hthere : ∀ e ∈ entries, ∀ old, c'.find? e.file.id = some old → old.file.schema = e.file.schema := by
    intro e he old hold
    obtain ⟨last, hlast, hfor, hid⟩ := exists_lastFor he
    rw [find?_addAll hc hnames hadd, hfor, Option.some_or] at hold
    cases hold
    exact hschema _ hlast e he hid
  obtain ⟨c₂, hagain⟩ := exists_addAll hc' hschema' (List.forall_mem_map.mpr hthere)
  refine ⟨c₂, hagain, FindsAlike.looksAlike (fun id => ?_) hc' (hc'.of_addAll hagain)⟩
  have hsame : (entries.map (resized size)).map (·.name) = entries.map (·.name) := List.map_map
  rw [find?_addAll hc' hnames' hagain, find?_addAll hc hnames hadd, lastFor_resized, hsame]
  cases lastFor id entries with
  | some last => rfl
  | none =>
    -- a table that was kept once is kept again
    simp only [Option.map_none, Option.none_or, Option.filter_filter, Bool.and_self]

/-- In one directory a name leads to one path. -/
theorem EntriesOf.oneNumber (h : EntriesOf files dir pageSize tables entries) : OneNumber entries := by
  have hpath : ∀ e ∈ entries, files.pathOf (fileName dir.text e.name) = .ok e.file.path := by
    induction h with
    | nil => exact nofun
    | cons hentry _ ih =>
      refine List.forall_mem_cons.mpr ⟨?_, ih⟩
      rw [hentry.eq]
      exact hentry.path
  intro e he e' he' hname
  have hsame := hpath e he
  rw [hname, hpath e' he'] at hsame
  exact congrArg tableIdOf (Except.ok.inj hsame).symm

/-! ## Loading -/

variable {path : Path} {text : String}

/-- To load a schema file is to add the tables of its lines. -/
theorem load_eq (hread : files.readText name = .ok (path, text)) (c : Catalog) (pageSize : Nat) :
    c.load files name pageSize = addLines pageSize name path.parent 1 (Text.lines text) c files := by
  unfold load
  rw [hread]

/-- **A schema file that was loaded** can be loaded once more, as long as it has the same bytes.  No file is
    made any more, the numbers are the same, and every question is answered as before. -/
theorem load_again (hc : c.Consistent) (hread : files.readText name = .ok (path, text))
    (hload : c.load files name pageSize = (.ok ids, c', files')) (hgrown : files'.Grown k)
    (hsame : k.content path = files'.content path) (size : Nat) :
    ∃ c₂, c'.load k name size = (.ok ids, c₂, k) ∧ LooksAlike c' c₂ := by
  rw [load_eq hread, addLines_eq_ok_iff] at hload
  obtain ⟨tables, entries, htables, hentries, hadd, rfl, rfl⟩ := hload
  have hgrown' := (Files.Grown.openedAll files (entries.map (·.file.path))).trans hgrown
  obtain ⟨c₂, hagain, halike⟩ := addAll_again hc hentries.oneNumber hadd size
  have hread' : k.readText name = .ok (path, text) :=
    Files.readText_again hgrown' hread (hsame.trans (Files.content_openedAll files _ path))
  refine ⟨c₂, ?_, halike⟩
  rw [load_eq hread', addLines_eq_ok_iff]
  refine ⟨tables, entries.map (resized size), htables, ?_, hagain, ?_, ?_⟩
  · exact (EntriesOf.grown_iff hgrown').mpr (hentries.resized size)
  · rw [List.map_map]
    rfl
  · refine (Files.openedAll_of_isSome ?_).symm
    intro p hp
    rw [List.map_map] at hp
    exact hgrown.isSome_content? p (Files.isSome_openedAll hp)

end Catalog

namespace Database

open Catalog

/-- **Loading keeps what it has read.**  In any store that a run of requests leads to, and whatever files there
    are, take a schema file that can be read as a text.

    If a line of it cannot be read as a table, but all lines before it can, and their tables can be opened
    and added one by one, then loading ends with the fault of this line, under its number among all lines,
    and the catalog is what these additions made of it.  Loading succeeds exactly if all lines can be read,
    opened and added, with the numbers of their tables in the order of the lines.  And then the same file can
    be loaded once more, whatever other files have come since: the numbers are the same, no file is made any
    more, and every question about names, numbers, columns, keys and paths is answered as before. -/
theorem schema_loading_keeps_earlier_lines {db : Database} (hempty : db.catalog = Catalog.empty)
    (requests : List Request) {files : Files} {name text : String} {path : Path}
    (hread : files.readText name = .ok (path, text)) (pageSize : Nat) :
    let c := (db.after requests).catalog
    (∀ before bad after fault tables entries c₁, Text.lines text = before ++ bad :: after →
      Text.isBlankLine bad = false → TableLine.parse bad = .error fault →
      readLines before = .ok tables → EntriesOf files path.parent pageSize tables entries →
      entries.foldlM Catalog.add c = .ok c₁ →
      c.load files name pageSize = (.error (.schemaFile name (before.length + 1) fault), c₁,
        files.openedAll (entries.map (·.file.path)))) ∧
    (∀ ids c₁ files₁, c.load files name pageSize = (.ok ids, c₁, files₁) ↔
      ∃ tables entries, readLines (Text.lines text) = .ok tables ∧
        EntriesOf files path.parent pageSize tables entries ∧ entries.foldlM Catalog.add c = .ok c₁ ∧
        ids = entries.map entryId ∧ files₁ = files.openedAll (entries.map (·.file.path))) ∧
    ∀ ids c₁ files₁, c.load files name pageSize = (.ok ids, c₁, files₁) →
      ∀ k size, files₁.Grown k → k.content path = files₁.content path →
        ∃ c₂, c₁.load k name size = (.ok ids, c₂, k) ∧ LooksAlike c₁ c₂ := by
  intro c
  have hc : c.Consistent :=
    (consistent_after (hempty ▸ consistent_empty) (hempty ▸ recorded_empty []) requests).1
  refine ⟨?_, fun ids c₁ files₁ => ?_, fun ids c₁ files₁ hload k size => ?_⟩
  · intro before bad after fault tables entries c₁ hlines hblank hbad htables hentries hadd
    have hopened := addTables_eq_ok_iff.mpr ⟨entries, hentries, hadd, rfl, rfl⟩
    rw [load_eq hread, hlines, Nat.add_comm before.length]
    exact addLines_stops hblank hbad htables hopened
  · rw [load_eq hread, addLines_eq_ok_iff]
  · exact fun hgrown hsame => load_again hc hread hload hgrown hsame size

/-- A file in which the second table is the first one by another spelling of its file, with a key, and in
    which the name of the first one comes again.  It takes the name of a table in another directory.  With
    a bad line behind them, this line is told by its number. -/
theorem schema_loading_keeps_earlier_lines_of_spellings :
    let ints := Schema.single "n" .int
    let texts := Schema.single "s" .string
    let good := "a (n int)\n\n./a (n int pk)\nb (s string)\na (n int)\n"
    let files : Files := ⟨[], [["d"], ["e"]], [(["d", "good"], (Text.Utf8.encode good).toArray),
      (["d", "bad"], (Text.Utf8.encode (good ++ "b (s float)\nc (n int)")).toArray)]⟩
    let a : HeapFile := ⟨["d", "a.dat"], ints, 64⟩
    let b : HeapFile := ⟨["d", "b.dat"], texts, 64⟩
    let ids := [a.id, a.id, b.id, a.id]
    let files₁ := files.openedAll [a.path, a.path, b.path, a.path]
    let c := (Database.after ⟨"/e", ⟨64, 1⟩, Catalog.empty, ⟨files, Pool.empty ⟨64, 1⟩⟩⟩
      [.task (.createTable "a" ints)]).catalog
    let c₁ : Catalog := ⟨[⟨"a", a, ""⟩, ⟨"b", b, ""⟩]⟩
    c.entries = [⟨"a", ⟨["e", "a.dat"], ints, 64⟩, ""⟩] ∧
      c.load files "/d/bad" 64 = (.error (.schemaFile "/d/bad" 6 (.unknownType "float")), c₁, files₁) ∧
      c.load files "/d/good" 64 = (.ok ids, c₁, files₁) ∧
      ∃ c₂, c₁.load files₁ "/d/good" 32 = (.ok ids, c₂, files₁) ∧ LooksAlike c₁ c₂ := by
  intro ints texts good files a b ids files₁ c c₁
  let db : Database := ⟨"/e", ⟨64, 1⟩, Catalog.empty, ⟨files, Pool.empty ⟨64, 1⟩⟩⟩
  let tables : List TableLine := [⟨"a", ints, ""⟩, ⟨"./a", ints, "n"⟩, ⟨"b", texts, ""⟩, ⟨"a", ints, ""⟩]
  let entries : List TableEntry := [⟨"a", a, ""⟩, ⟨"./a", a, "n"⟩, ⟨"b", b, ""⟩, ⟨"a", a, ""⟩]
  have hbad : files.readText "/d/bad" = .ok (["d", "bad"], good ++ "b (s float)\nc (n int)") := by
    decide +kernel
  have hgood : files.readText "/d/good" = .ok (["d", "good"], good) := by decide +kernel
  have hentries : EntriesOf files ["d"] 64 tables entries :=
    .cons ⟨by decide +kernel, rfl⟩ (.cons ⟨by decide +kernel, rfl⟩ (.cons ⟨by decide +kernel, rfl⟩
      (.cons ⟨by decide +kernel, rfl⟩ .nil)))
  have hadd : entries.foldlM Catalog.add c = .ok c₁ := by decide +kernel
  obtain ⟨hstops, -, -⟩ := @schema_loading_keeps_earlier_lines db rfl
    [.task (.createTable "a" ints)] files _ _ _ hbad 64
  obtain ⟨-, hloads, hagain⟩ := @schema_loading_keeps_earlier_lines db rfl
    [.task (.createTable "a" ints)] files _ _ _ hgood 64
  have hload : c.load files "/d/good" 64 = (.ok ids, c₁, files₁) :=
    (hloads ids c₁ files₁).mpr ⟨tables, entries, by decide +kernel, hentries, hadd, rfl, rfl⟩
  refine ⟨by decide +kernel, ?_, hload, hagain ids c₁ files₁ hload files₁ 32 (.refl _) rfl⟩
  exact hstops ["a (n int)", "", "./a (n int pk)", "b (s string)", "a (n int)"] "b (s float)" ["c (n int)"]
    (.unknownType "float") tables entries c₁ (by decide +kernel) (by decide) (by decide +kernel)
    (by decide +kernel) hentries hadd

end Database

end RowStore
