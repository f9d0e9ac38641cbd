import RowStore.Proofs.Requests.Additions

/-!
A catalog does not contradict itself.

Program.  A table that is added takes the place of the table of its number, and every other table of its
name goes.  So one addition may change two entries, and a schema file makes one addition for each line.

1. `Catalog.Consistent`: no two entries have one name or one number.  Then the name of a number and the
   number of a name say the same (`Consistent.tableId_iff_tableName`), and no two entries have one file.
   Adding a table keeps that (`Consistent.add`) and keeps every entry that is apart from the new one in
   its place among the others (`filter_add`).
2. What a request does to the catalog is what its additions do, one after the other; a table that is
   refused does nothing (`Database.catalog_of_additions`).
3. So it is in every run of requests, and an entry that is found is the last one that was added for its
   table (`Database.catalog_consistent`).
-/

namespace RowStore

namespace Catalog

variable {c c' : Catalog} {new e : TableEntry} {id : TableId} {name : String} {log : List TableEntry}

/-! ## Entries -/

/-- No two entries have one name, and no two entries have one number. -/
structure Consistent (c : Catalog) : Prop where
  names : (c.entries.map (·.name)).Nodup
  ids : (c.entries.map entryId).Nodup

theorem consistent_empty : Consistent empty := ⟨List.nodup_nil, List.nodup_nil⟩

/-- Whether an entry has another name and another number than a new one. -/
def Apart (new e : TableEntry) : Prop := e.name ≠ new.name ∧ e.file.id ≠ new.file.id

instance (new e : TableEntry) : Decidable (Apart new e) := inferInstanceAs (Decidable (_ ∧ _))

theorem entry_eq_ok_iff : c.entry id = .ok e ↔ c.find? id = some e := by
  unfold entry
  cases c.find? id with
  | none => exact ⟨nofun, nofun⟩
  | some found => exact ⟨fun h => congrArg some (Except.ok.inj h), fun h => congrArg Except.ok (Option.some.inj h)⟩

namespace Consistent

/-- The entry of a number is found exactly if it is there. -/
theorem entry_iff (hc : c.Consistent) : c.entry id = .ok e ↔ e ∈ c.entries ∧ e.file.id = id := by
  rw [entry_eq_ok_iff]
  constructor
  · intro hfind
    exact ⟨List.mem_of_find?_eq_some hfind, by simpa using List.find?_some hfind⟩
  · rintro ⟨hmem, rfl⟩
    cases hfind : c.find? e.file.id with
    | none =>
      have hnot := List.find?_eq_none.mp hfind e hmem
      simp at hnot
    | some found =>
      have hid : found.file.id = e.file.id := by simpa using List.find?_some hfind
      exact congrArg some (List.inj_on_of_nodup_map hc.ids (List.mem_of_find?_eq_some hfind) hmem hid)

theorem tableName_iff (hc : c.Consistent) :
    c.tableName id = .ok name ↔ ∃ e ∈ c.entries, e.name = name ∧ e.file.id = id := by
  unfold tableName
  constructor
  · intro h
    cases hentry : c.entry id with
    | error err =>
      rw [hentry] at h
      cases h
    | ok e =>
      rw [hentry] at h
      cases h
      obtain ⟨hmem, hid⟩ := hc.entry_iff.mp hentry
      exact ⟨e, hmem, rfl, hid⟩
  · rintro ⟨e, hmem, rfl, hid⟩
    rw [hc.entry_iff.mpr ⟨hmem, hid⟩]
    rfl

theorem tableId_iff (hc : c.Consistent) :
    c.tableId name = .ok id ↔ ∃ e ∈ c.entries, e.name = name ∧ e.file.id = id := by
  unfold tableId
  cases hfind : c.entries.find? (·.name == name) with
  | none =>
    refine ⟨nofun, ?_⟩
    rintro ⟨e, hmem, rfl, -⟩
    have hnot := List.find?_eq_none.mp hfind e hmem
    simp at hnot
  | some found =>
    have hmem := List.mem_of_find?_eq_some hfind
    have hname : found.name = name := by simpa using List.find?_some hfind
    constructor
    · intro h
      exact ⟨found, hmem, hname, Except.ok.inj h⟩
    · rintro ⟨e, hother, hename, rfl⟩
      have hsame : found = e := List.inj_on_of_nodup_map hc.names hmem hother (hname.trans hename.symm)
      rw [hsame]

/-- The number of a name and the name of a number say the same. -/
theorem tableId_iff_tableName (hc : c.Consistent) :
    c.tableId name = .ok id ↔ c.tableName id = .ok name := by
  rw [hc.tableId_iff, hc.tableName_iff]

/-- A file is that of one entry only. -/
theorem paths (hc : c.Consistent) : (c.entries.map (·.file.path)).Nodup := by
  have hids : ((c.entries.map (·.file.path)).map tableIdOf).Nodup := by
    rw [List.map_map]
    exact hc.ids
  exact hids.of_map _

end Consistent

/-! ## Adding -/

/-- The new entry stands in the place of an entry of its number, or at the end. -/
theorem filter_putEntry (new : TableEntry) (es : List TableEntry) :
    (putEntry new es).filter (fun e => decide (Apart new e)) =
      es.filter (fun e => decide (Apart new e)) := by
  have hnew : ¬ Apart new new := fun h => h.2 rfl
  induction es with
  | nil =>
    unfold putEntry
    rw [List.filter_cons_of_neg (by simpa using hnew)]
  | cons e es ih =>
    unfold putEntry
    split
    · rename_i hid
      have hnot : ¬ Apart new e := fun h => h.2 hid
      rw [List.filter_cons_of_neg (by simpa using hnew), List.filter_cons_of_neg (by simpa using hnot)]
    · by_cases happart : Apart new e
      · rw [List.filter_cons_of_pos (by simpa using happart),
          List.filter_cons_of_pos (by simpa using happart), ih]
      · rw [List.filter_cons_of_neg (by simpa using happart),
          List.filter_cons_of_neg (by simpa using happart), ih]

theorem nodup_names_putEntry {es : List TableEntry} (hes : (es.map (·.name)).Nodup)
    (hnew : ∀ e ∈ es, e.name ≠ new.name) : ((putEntry new es).map (·.name)).Nodup := by
  induction es with
  | nil => exact List.nodup_singleton _
  | cons e es ih =>
    rw [List.map_cons, List.nodup_cons] at hes
    obtain ⟨hnot, hes⟩ := hes
    obtain ⟨hfirst, hothers⟩ := List.forall_mem_cons.mp hnew
    unfold putEntry
    split
    · rw [List.map_cons, List.nodup_cons]
      refine ⟨?_, hes⟩
      intro hmem
      obtain ⟨other, hother, hname⟩ := List.mem_map.mp hmem
      exact hothers other hother hname
    · rw [List.map_cons, List.nodup_cons]
      refine ⟨?_, ih hes hothers⟩
      intro hmem
      obtain ⟨other, hother, hname⟩ := List.mem_map.mp hmem
      rcases mem_putEntry hother with rfl | hother
      · exact hfirst hname.symm
      · exact hnot (hname ▸ List.mem_map_of_mem hother)

/-- What a table that is added does to the entries. -/
theorem entries_add (hadd : c.add new = .ok c') :
    c'.entries = putEntry new (c.entries.filter (·.name ≠ new.name)) := by
  obtain ⟨old, -, -, herror⟩ | ⟨-, hok⟩ := add_cases c new
  · rw [hadd] at herror
    cases herror
  · rw [hadd] at hok
    cases hok
    rfl

theorem Consistent.add (hc : c.Consistent) (hadd : c.add new = .ok c') : c'.Consistent := by
  refine ⟨?_, nodup_add hadd hc.ids⟩
  rw [entries_add hadd]
  refine nodup_names_putEntry (hc.names.sublist (List.Sublist.map _ List.filter_sublist)) ?_
  intro e he
  simpa using (List.mem_filter.mp he).2

/-- **Adding a table** removes only entries of its name or of its number; all others stay, in their
    order. -/
theorem filter_add (hadd : c.add new = .ok c') :
    c'.entries.filter (fun e => decide (Apart new e)) =
      c.entries.filter (fun e => decide (Apart new e)) := by
  rw [entries_add hadd, filter_putEntry, List.filter_filter]
  refine List.filter_congr fun e _ => ?_
  by_cases happart : Apart new e
  · simp [happart, happart.1]
  · simp [happart]

theorem find?_eq_some_iff (hc : c.Consistent) :
    c.find? id = some e ↔ e ∈ c.entries ∧ e.file.id = id := by
  rw [← entry_eq_ok_iff, hc.entry_iff]

/-- Of the entries that are kept, each is found as before. -/
theorem find?_filter (hc : c.Consistent) (keep : TableEntry → Bool) (id : TableId) :
    (⟨c.entries.filter keep⟩ : Catalog).find? id = (c.find? id).filter keep := by
  have hkept : (⟨c.entries.filter keep⟩ : Catalog).Consistent :=
    ⟨hc.names.sublist (List.filter_sublist.map _), hc.ids.sublist (List.filter_sublist.map _)⟩
  ext e
  rw [find?_eq_some_iff hkept, Option.filter_eq_some_iff, find?_eq_some_iff hc, List.mem_filter,
    and_right_comm]

/-- A table is found as it was added, and any other table as before, if its name was not taken. -/
theorem find?_add_eq (hc : c.Consistent) (hadd : c.add new = .ok c') (id : TableId) :
    c'.find? id = if new.file.id = id then some new else (c.find? id).filter (·.name ≠ new.name) := by
  rw [← find?_filter hc]
  unfold find?
  rw [entries_add hadd, find?_putEntry]

theorem find?_add_self (hadd : c.add new = .ok c') : c'.find? new.file.id = some new := by
  unfold find?
  rw [entries_add hadd, find?_putEntry, if_pos rfl]

/-! ## What was added -/

/-- The last of some additions that is for a given table. -/
def lastFor (id : TableId) (log : List TableEntry) : Option TableEntry :=
  log.reverse.find? fun e => e.file.id == id

theorem lastFor_concat (id : TableId) (log : List TableEntry) (new : TableEntry) :
    lastFor id (log ++ [new]) = if new.file.id = id then some new else lastFor id log := by
  unfold lastFor
  rw [List.reverse_append, List.reverse_singleton, List.singleton_append]
  by_cases hid : new.file.id = id
  · rw [if_pos hid, List.find?_cons_of_pos (by simpa using hid)]
  · rw [if_neg hid, List.find?_cons_of_neg (by simpa using hid)]

/-- Every entry is the last one that was added for its table. -/
def Recorded (log : List TableEntry) (c : Catalog) : Prop :=
  ∀ id e, c.find? id = some e → lastFor id log = some e

theorem recorded_empty (log : List TableEntry) : Recorded log empty := nofun

theorem Recorded.add (hlog : Recorded log c) (hc : c.Consistent) (hadd : c.add new = .ok c') :
    Recorded (log ++ [new]) c' := by
  intro id e hfind
  rw [find?_add_eq hc hadd] at hfind
  rw [lastFor_concat]
  split at hfind
  · rename_i hid
    rw [if_pos hid]
    exact hfind
  · rename_i hid
    rw [if_neg hid]
    exact hlog id e (Option.filter_eq_some_iff.mp hfind).1

/-- The first one of some additions is made, and then the others. -/
theorem addAll_cons {entries : List TableEntry} (hadd : (new :: entries).foldlM Catalog.add c = .ok c') :
    ∃ c₁, c.add new = .ok c₁ ∧ entries.foldlM Catalog.add c₁ = .ok c' := by
  rw [List.foldlM_cons] at hadd
  exact ok_of_bind hadd

/-- Adding tables one after the other keeps a catalog consistent, and its entries the last ones. -/
theorem Consistent.addAll (hc : c.Consistent) (hlog : Recorded log c) {entries : List TableEntry}
    (hadd : entries.foldlM Catalog.add c = .ok c') :
    c'.Consistent ∧ Recorded (log ++ entries) c' := by
  induction entries generalizing c log with
  | nil =>
    cases hadd
    rw [List.append_nil]
    exact ⟨hc, hlog⟩
  | cons new entries ih =>
    obtain ⟨c₁, hnew, hrest⟩ := addAll_cons hadd
    have hall := ih (hc.add hnew) (hlog.add hc hnew) hrest
    rw [List.append_assoc] at hall
    exact hall

/-- Some lines of a schema file do to the catalog what the tables do that are added, one by one. -/
theorem addLines_adds {pageSize number : Nat} {name : String} {dir : Path} {lines : List String}
    {files files' : Files} {r : Except Error (List TableId)}
    (h : addLines pageSize name dir number lines c files = (r, c', files')) :
    ((additionsByLines pageSize dir lines c files).map (·.entry)).foldlM Catalog.add c = .ok c' := by
  induction lines generalizing number c files r with
  | nil =>
    cases h
    rfl
  | cons line lines ih =>
    obtain ⟨h, hsame⟩ | ⟨rfl, hnone⟩ | ⟨new, c₁, files₁, r₁, hnew, h, hmore⟩ := addLines_cases h
    · rw [hsame]
      exact ih h
    · rw [hnone]
      rfl
    · rw [hmore, List.map_cons, List.foldlM_cons, hnew]
      exact ih h

end Catalog

/-! ## Requests and runs -/

namespace Database

open Catalog

variable {db : Database}

/-- What adding a file does to the catalog. -/
theorem addFile_adds (db : Database) (file name primaryKey : String) (schema : Schema)
    (pageSize : Nat) :
    ((db.additionsByFile file name primaryKey schema pageSize).map (·.entry)).foldlM Catalog.add
      db.catalog = .ok (db.addFile file name primaryKey schema pageSize).2.catalog := by
  unfold additionsByFile addFile
  cases HeapFile.openNamed db.storage.files file schema pageSize with
  | error err => rfl
  | ok opened =>
    obtain ⟨heap, files⟩ := opened
    cases hnew : db.catalog.add ⟨name, heap, primaryKey⟩ with
    | error err =>
      simp only [hnew]
      rfl
    | ok c' =>
      simp only [hnew, List.map_cons, List.map_nil, List.foldlM_cons]
      rfl

/-- **What a request does to the catalog** is what the tables do that it adds, one after the other. -/
theorem catalog_of_additions (db : Database) {request : Request} (hrequest : request ≠ .clearCatalog) :
    ((request.additions db).map (·.entry)).foldlM Catalog.add db.catalog =
      .ok (db.perform request).2.catalog := by
  cases request with
  | task asked =>
    cases asked with
    | createTable name schema => exact addFile_adds db _ name "" schema _
    | _ => rfl
  | addFile file name primaryKey schema pageSize => exact addFile_adds db file name primaryKey schema pageSize
  | loadSchema name =>
    show _ = Except.ok (db.loadSchema name).2.catalog
    unfold Request.additions loadSchema Catalog.load
    cases htext : db.storage.files.readText name with
    | error fault =>
      simp only [htext]
      rfl
    | ok found =>
      obtain ⟨path, text⟩ := found
      simp only [htext]
      exact addLines_adds rfl
  | clearCatalog => exact absurd rfl hrequest
  | _ => rfl

/-- The tables that a run of requests adds, the first one first. -/
def added (db : Database) : List Request → List TableEntry
  | [] => []
  | request :: requests =>
    (request.additions db).map (·.entry) ++ (db.perform request).2.added requests

/-- A request keeps a catalog consistent. -/
theorem consistent_perform {log : List TableEntry} (hc : db.catalog.Consistent)
    (hlog : Recorded log db.catalog) (request : Request) :
    (db.perform request).2.catalog.Consistent ∧
      Recorded (log ++ (request.additions db).map (·.entry)) (db.perform request).2.catalog := by
  by_cases hrequest : request = .clearCatalog
  · subst hrequest
    exact ⟨consistent_empty, recorded_empty _⟩
  · exact hc.addAll hlog (db.catalog_of_additions hrequest)

/-- So does a run. -/
theorem consistent_after {log : List TableEntry} (hc : db.catalog.Consistent)
    (hlog : Recorded log db.catalog) (requests : List Request) :
    (db.after requests).catalog.Consistent ∧
      Recorded (log ++ db.added requests) (db.after requests).catalog := by
  induction requests generalizing db log with
  | nil =>
    unfold added
    rw [List.append_nil]
    exact ⟨hc, hlog⟩
  | cons request requests ih =>
    obtain ⟨hc', hlog'⟩ := consistent_perform hc hlog request
    have hrest := ih hc' hlog'
    rw [List.append_assoc] at hrest
    exact hrest

/-- How registering a file ends: it is refused, and the catalog is what it was, or there is a new entry
    for the path that its name leads to. -/
theorem addFile_ends (db : Database) (file name primaryKey : String) (schema : Schema) (pageSize : Nat) :
    (∃ err db', db.addFile file name primaryKey schema pageSize = (.error err, db') ∧
      db'.catalog = db.catalog) ∨
    ∃ path db', db.storage.files.pathOf file = .ok path ∧
      db.addFile file name primaryKey schema pageSize = (.ok (tableIdOf path), db') ∧
      db.catalog.add ⟨name, ⟨path, schema, pageSize⟩, primaryKey⟩ = .ok db'.catalog := by
  unfold addFile HeapFile.openNamed
  rw [Files.openFile_eq]
  cases hpath : db.storage.files.pathOf file with
  | error fault => exact Or.inl ⟨_, _, rfl, rfl⟩
  | ok path =>
    simp only [Except.map]
    cases hnew : db.catalog.add ⟨name, ⟨path, schema, pageSize⟩, primaryKey⟩ with
    | error err => exact Or.inl ⟨_, _, rfl, rfl⟩
    | ok c' => exact Or.inr ⟨path, _, rfl, rfl, hnew⟩

/-- **A catalog does not contradict itself**, in any store that a run of requests leads to.

    No two entries have one name or one file, an entry is kept under the number of its file, and names and
    numbers are inverse to each other.  An entry is the last one that was added for its table, and that is
    what is looked up.  Whatever is asked next, a table that is refused changes no entry, and one that is
    added removes only entries of its name or of its number. -/
theorem catalog_consistent {db : Database} (hempty : db.catalog = Catalog.empty)
    (requests : List Request) :
    let d := db.after requests
    let c := d.catalog
    (c.entries.map (·.name)).Nodup ∧ (c.entries.map (·.file.path)).Nodup ∧
      (∀ id e, c.entry id = .ok e ↔ e ∈ c.entries ∧ e.file.id = id) ∧
      (∀ id name, c.tableId name = .ok id ↔ c.tableName id = .ok name) ∧
      (∀ e ∈ c.entries, lastFor e.file.id (db.added requests) = some e ∧
        c.tableId e.name = .ok e.file.id ∧ c.tableName e.file.id = .ok e.name ∧
        c.file e.file.id = .ok e.file ∧ c.schema e.file.id = .ok e.file.schema ∧
        c.primaryKey e.file.id = .ok e.primaryKey) ∧
      (∀ new c', c.add new = .ok c' → c'.entry new.file.id = .ok new ∧
        c'.entries.filter (fun e => decide (Apart new e)) =
          c.entries.filter (fun e => decide (Apart new e))) ∧
      (∀ file name primaryKey schema pageSize,
        (∃ err d', d.addFile file name primaryKey schema pageSize = (.error err, d') ∧
          d'.catalog = c) ∨
        ∃ path d', d.storage.files.pathOf file = .ok path ∧
          d.addFile file name primaryKey schema pageSize = (.ok (tableIdOf path), d') ∧
          c.add ⟨name, ⟨path, schema, pageSize⟩, primaryKey⟩ = .ok d'.catalog) ∧
      ∀ request : Request, request ≠ .clearCatalog →
        ((request.additions d).map (·.entry)).foldlM Catalog.add c = .ok (d.perform request).2.catalog := by
  intro d c
  have hstart : db.catalog.Consistent ∧ Recorded [] db.catalog := by
    rw [hempty]
    exact ⟨consistent_empty, recorded_empty []⟩
  obtain ⟨hc, hlog⟩ : c.Consistent ∧ Recorded (db.added requests) c := by
    have hafter := consistent_after hstart.1 hstart.2 requests
    rw [List.nil_append] at hafter
    exact hafter
  refine ⟨hc.names, hc.paths, fun id e => hc.entry_iff, fun id name => hc.tableId_iff_tableName, ?_, ?_,
    addFile_ends d, fun request => d.catalog_of_additions⟩
  · intro e hmem
    have hentry : c.entry e.file.id = .ok e := hc.entry_iff.mpr ⟨hmem, rfl⟩
    refine ⟨hlog _ _ (entry_eq_ok_iff.mp hentry), hc.tableId_iff.mpr ⟨e, hmem, rfl, rfl⟩,
      hc.tableName_iff.mpr ⟨e, hmem, rfl, rfl⟩, ?_, ?_, ?_⟩
    · unfold Catalog.file
      rw [hentry]
      rfl
    · unfold Catalog.schema
      rw [hentry]
      rfl
    · unfold Catalog.primaryKey
      rw [hentry]
      rfl
  · intro new c' hadd
    exact ⟨entry_eq_ok_iff.mpr (find?_add_self hadd), filter_add hadd⟩

/-- A table is registered again by another spelling of its file, and then a table takes its name that was
    itself registered under another one: two entries go for one that comes.  The same file with other
    columns is refused. -/
theorem catalog_consistent_after_takeover :
    let ints := Schema.single "n" .int
    let texts := Schema.single "s" .string
    let a := tableIdOf ["d", "a.dat"]
    let c := tableIdOf ["d", "c.dat"]
    let requests : List Request :=
      [.task (.createTable "a" ints), .addFile "/d/./a.dat" "b" "n" ints 64, .task (.createTable "c" ints),
       .addFile "/d/../d/c.dat" "b" "" ints 32, .addFile "/d//c.dat" "x" "" texts 64]
    ∃ db files', create Files.empty "/d" ⟨64, 1⟩ = (.ok db, files') ∧ db.catalog = Catalog.empty ∧
      (db.added requests).map (fun e => (e.name, e.file.id)) = [("a", a), ("b", a), ("c", c), ("b", c)] ∧
      (db.after requests).catalog.entries = [⟨"b", ⟨["d", "c.dat"], ints, 32⟩, ""⟩] ∧
      (db.after requests).catalog.tableId "b" = .ok c ∧
      (db.after requests).catalog.tableName c = .ok "b" ∧
      (db.after requests).catalog.entry a = .error (.missing (.table a)) := by
  intro ints texts a c requests
  let db : Database := ⟨"/d", ⟨64, 1⟩, Catalog.empty, ⟨⟨[], [["d"]], []⟩, Pool.empty ⟨64, 1⟩⟩⟩
  have hentries : (db.after requests).catalog.entries = [⟨"b", ⟨["d", "c.dat"], ints, 32⟩, ""⟩] := by
    decide +kernel
  obtain ⟨-, -, -, hinverse, hlast, -, -, -⟩ := @catalog_consistent db rfl requests
  obtain ⟨-, hid, -⟩ := hlast ⟨"b", ⟨["d", "c.dat"], ints, 32⟩, ""⟩
    (hentries ▸ List.mem_singleton_self _)
  exact ⟨db, _, rfl, rfl, by decide +kernel, hentries, hid, (hinverse c "b").mp hid, by decide +kernel⟩

end Database

end RowStore
