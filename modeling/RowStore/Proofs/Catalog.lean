import Mathlib.Data.List.Nodup
import RowStore.Catalog

/-!
What a catalog knows.

A table that is looked up has the number that it was looked up by, and one file (`id_of_file`,
`eq_of_file`).

1. A table is refused if its number is taken by a table with other columns; otherwise it is added
   (`add_cases`).
2. If no other table has its name, the catalog knows it afterwards, and every other table as before
   (`file_add`).
3. No two entries ever have the same table number (`nodup_add`), so that every entry is the one that
   is found (`file_of_mem`).
-/

namespace RowStore.Catalog

variable {c c' : Catalog} {new e : TableEntry} {id : TableId}

/-! ## Looking up -/

theorem file_eq (c : Catalog) (id : TableId) :
    c.file id = match c.find? id with
      | some e => .ok e.file
      | none => .error (.missing (.table id)) := by
  unfold file entry
  cases c.find? id <;> rfl

theorem id_of_file {h : HeapFile} (hfile : c.file id = .ok h) : h.id = id := by
  rw [file_eq] at hfile
  cases hfind : c.find? id with
  | some e =>
    rw [hfind] at hfile
    cases hfile
    simpa using List.find?_some hfind
  | none =>
    rw [hfind] at hfile
    cases hfile

theorem error_of_file {e : Error} (hfile : c.file id = .error e) : e = .missing (.table id) := by
  rw [file_eq] at hfile
  cases hfind : c.find? id with
  | some e =>
    rw [hfind] at hfile
    cases hfile
  | none =>
    rw [hfind] at hfile
    cases hfile
    rfl

/-- A table has one file. -/
theorem eq_of_file {g h : HeapFile} (hfile : c.file id = .ok h) (hg : c.file id = .ok g) :
    g = h := by
  rw [hfile] at hg
  cases hg
  rfl

/-- A table is known if there is an entry of it. -/
theorem known_iff : (∃ h, c.file id = .ok h) ↔ ∃ old ∈ c.entries, old.file.id = id := by
  rw [file_eq]
  constructor
  · rintro ⟨h, hfile⟩
    cases hfind : c.find? id with
    | none =>
      rw [hfind] at hfile
      cases hfile
    | some old => exact ⟨old, List.mem_of_find?_eq_some hfind, by simpa using List.find?_some hfind⟩
  · rintro ⟨old, hmem, hid⟩
    cases hfind : c.find? id with
    | none => exact absurd hid (by simpa using List.find?_eq_none.mp hfind old hmem)
    | some found => exact ⟨found.file, rfl⟩

/-- The file of a table is that of an entry. -/
theorem mem_of_file {h : HeapFile} (hfile : c.file id = .ok h) : ∃ e ∈ c.entries, e.file = h := by
  rw [file_eq] at hfile
  cases hfind : c.find? id with
  | some e =>
    rw [hfind] at hfile
    cases hfile
    exact ⟨e, List.mem_of_find?_eq_some hfind, rfl⟩
  | none =>
    rw [hfind] at hfile
    cases hfile

/-- The columns of a table are those of its file. -/
theorem schema_eq (c : Catalog) (id : TableId) : c.schema id = (c.file id).map (·.schema) := by
  unfold schema file
  cases c.entry id <;> rfl

/-- A table whose file is known has the columns of the file. -/
theorem schema_of_file {h : HeapFile} (hfile : c.file id = .ok h) : c.schema id = .ok h.schema := by
  rw [schema_eq, hfile]
  rfl

/-- A table whose columns are known has a file with these columns. -/
theorem file_of_schema {schema : Schema} (hschema : c.schema id = .ok schema) :
    ∃ h, c.file id = .ok h ∧ h.schema = schema := by
  rw [schema_eq] at hschema
  cases hfile : c.file id with
  | error e =>
    rw [hfile] at hschema
    cases hschema
  | ok h =>
    rw [hfile] at hschema
    exact ⟨h, rfl, Except.ok.inj hschema⟩

/-- The name of the file of the table called `name`. -/
abbrev fileName (directory name : String) : String := Path.join directory (name ++ fileEnding)

/-! ## Entries -/

/-- The number of the table of an entry. -/
abbrev entryId (e : TableEntry) : TableId := e.file.id

theorem find?_putEntry (new : TableEntry) (es : List TableEntry) (id : TableId) :
    (putEntry new es).find? (fun e => e.file.id == id) =
      if new.file.id = id then some new else es.find? (fun e => e.file.id == id) := by
  induction es with
  | nil =>
    unfold putEntry
    by_cases hid : new.file.id = id
    · simp [hid]
    · simp [hid]
  | cons e es ih =>
    unfold putEntry
    by_cases he : e.file.id = new.file.id
    · rw [if_pos he]
      by_cases hid : new.file.id = id
      · rw [if_pos hid, List.find?_cons_of_pos (by simpa using hid)]
      · have hne : ¬ e.file.id = id := fun h => hid (he.symm.trans h)
        rw [if_neg hid, List.find?_cons_of_neg (by simpa using hid),
          List.find?_cons_of_neg (by simpa using hne)]
    · rw [if_neg he]
      by_cases hid : e.file.id = id
      · have hne : ¬ new.file.id = id := fun h => he (hid.trans h.symm)
        rw [if_neg hne, List.find?_cons_of_pos (by simpa using hid),
          List.find?_cons_of_pos (by simpa using hid)]
      · rw [List.find?_cons_of_neg (by simpa using hid), ih,
          List.find?_cons_of_neg (by simpa using hid)]

theorem mem_putEntry {es : List TableEntry} (he : e ∈ putEntry new es) : e = new ∨ e ∈ es := by
  induction es with
  | nil =>
    unfold putEntry at he
    exact Or.inl (List.mem_singleton.mp he)
  | cons e' es ih =>
    unfold putEntry at he
    split at he
    · rcases List.mem_cons.mp he with rfl | he
      · exact Or.inl rfl
      · exact Or.inr (List.mem_cons_of_mem _ he)
    · rcases List.mem_cons.mp he with rfl | he
      · exact Or.inr List.mem_cons_self
      · rcases ih he with rfl | he
        · exact Or.inl rfl
        · exact Or.inr (List.mem_cons_of_mem _ he)

theorem mem_putEntry_self (new : TableEntry) (es : List TableEntry) : new ∈ putEntry new es := by
  induction es with
  | nil => exact List.mem_singleton_self new
  | cons first es ih =>
    unfold putEntry
    split
    · exact List.mem_cons_self
    · exact List.mem_cons_of_mem _ ih

/-- An entry stays, or the new entry of its table takes its place. -/
theorem mem_putEntry_of_mem {es : List TableEntry} {old : TableEntry} (hold : old ∈ es) :
    ∃ kept ∈ putEntry new es, kept.file.id = old.file.id := by
  induction es with
  | nil => exact absurd hold List.not_mem_nil
  | cons first es ih =>
    unfold putEntry
    rcases List.mem_cons.mp hold with rfl | hold
    · split
      · rename_i hid
        exact ⟨new, List.mem_cons_self, hid.symm⟩
      · exact ⟨old, List.mem_cons_self, rfl⟩
    · split
      · exact ⟨old, List.mem_cons_of_mem _ hold, rfl⟩
      · obtain ⟨kept, hmem, hid⟩ := ih hold
        exact ⟨kept, List.mem_cons_of_mem _ hmem, hid⟩

theorem nodup_putEntry {es : List TableEntry} (hes : (es.map entryId).Nodup) :
    ((putEntry new es).map entryId).Nodup := by
  induction es with
  | nil =>
    unfold putEntry
    exact List.nodup_cons.mpr ⟨List.not_mem_nil, List.nodup_nil⟩
  | cons e es ih =>
    rw [List.map_cons, List.nodup_cons] at hes
    obtain ⟨hnot, hes⟩ := hes
    unfold putEntry
    by_cases he : e.file.id = new.file.id
    · rw [if_pos he, List.map_cons, List.nodup_cons]
      rw [show entryId e = entryId new from he] at hnot
      exact ⟨hnot, hes⟩
    · rw [if_neg he, List.map_cons, List.nodup_cons]
      refine ⟨?_, ih hes⟩
      intro hmem
      obtain ⟨e', hmem, hid⟩ := List.mem_map.mp hmem
      rcases mem_putEntry hmem with rfl | hmem
      · exact he hid.symm
      · exact hnot (hid ▸ List.mem_map_of_mem hmem)

/-- Entries of another name are found as before. -/
theorem find?_filter_name {es : List TableEntry} {name : String}
    (hnames : ∀ e ∈ es, e.name = name → e.file.id ≠ id) :
    (es.filter (·.name ≠ name)).find? (fun e => e.file.id == id) =
      es.find? (fun e => e.file.id == id) := by
  induction es with
  | nil => rfl
  | cons e es ih =>
    have ih := ih fun e' he' => hnames e' (List.mem_cons_of_mem _ he')
    by_cases hname : e.name = name
    · have hid := hnames e List.mem_cons_self hname
      rw [List.filter_cons_of_neg (by simpa using hname), ih,
        List.find?_cons_of_neg (by simpa using hid)]
    · rw [List.filter_cons_of_pos (by simpa using hname), List.find?_cons, List.find?_cons, ih]

/-! ## Adding -/

/-- How adding a table ends. -/
theorem add_cases (c : Catalog) (new : TableEntry) :
    (∃ old, c.file new.file.id = .ok old ∧ old.schema ≠ new.file.schema ∧
      c.add new =
        .error (.mismatch (.reregistered new.file.id old.schema new.file.schema))) ∨
    ((∀ old, c.file new.file.id = .ok old → old.schema = new.file.schema) ∧
      c.add new = .ok ⟨putEntry new (c.entries.filter (·.name ≠ new.name))⟩) := by
  unfold add
  rw [file_eq]
  cases hfind : c.find? new.file.id with
  | none =>
    refine Or.inr ⟨?_, rfl⟩
    rintro old hold
    cases hold
  | some entry =>
    by_cases hschema : entry.file.schema = new.file.schema
    · refine Or.inr ⟨?_, ?_⟩
      · rintro old hold
        cases hold
        exact hschema
      · show (if _ then _ else _) = _
        rw [if_neg (not_not_intro hschema)]
    · refine Or.inl ⟨entry.file, rfl, hschema, ?_⟩
      show (if _ then _ else _) = _
      rw [if_pos hschema]

/-- A table that is added is known, and every other table as before, unless it had the same
    name. -/
theorem file_add {name primaryKey : String} {h : HeapFile}
    (hadd : c.add ⟨name, h, primaryKey⟩ = .ok c')
    (hnames : ∀ e ∈ c.entries, e.name = name → e.file.id = h.id) (id : TableId) :
    c'.file id = if h.id = id then .ok h else c.file id := by
  obtain ⟨old, -, -, herror⟩ | ⟨-, hok⟩ := add_cases c ⟨name, h, primaryKey⟩
  · rw [hadd] at herror
    cases herror
  · rw [hadd] at hok
    cases hok
    rw [file_eq, file_eq]
    unfold find?
    rw [find?_putEntry]
    by_cases hid : h.id = id
    · rw [if_pos hid, if_pos hid]
    · rw [if_neg hid, if_neg hid, find?_filter_name]
      exact fun e he hname => fun hsame => hid ((hnames e he hname).symm.trans hsame)

theorem mem_entries_add (hadd : c.add new = .ok c') (he : e ∈ c'.entries) :
    e = new ∨ e ∈ c.entries := by
  obtain ⟨old, -, -, herror⟩ | ⟨-, hok⟩ := add_cases c new
  · rw [hadd] at herror
    cases herror
  · rw [hadd] at hok
    cases hok
    rcases mem_putEntry he with rfl | he
    · exact Or.inl rfl
    · exact Or.inr ((List.mem_filter.mp he).1)

theorem nodup_add (hadd : c.add new = .ok c') (hc : (c.entries.map entryId).Nodup) :
    (c'.entries.map entryId).Nodup := by
  obtain ⟨old, -, -, herror⟩ | ⟨-, hok⟩ := add_cases c new
  · rw [hadd] at herror
    cases herror
  · rw [hadd] at hok
    cases hok
    exact nodup_putEntry (hc.sublist (List.Sublist.map _ List.filter_sublist))

/-- Every entry is the one that is found for its table. -/
theorem file_of_mem (hc : (c.entries.map entryId).Nodup) (he : e ∈ c.entries) :
    c.file e.file.id = .ok e.file := by
  rw [file_eq]
  cases hfind : c.find? e.file.id with
  | none =>
    have hnot := List.find?_eq_none.mp hfind e he
    simp at hnot
  | some e' =>
    have hid : e'.file.id = e.file.id := by simpa using List.find?_some hfind
    have hsame : e' = e :=
      List.inj_on_of_nodup_map hc (List.mem_of_find?_eq_some hfind) he hid
    rw [hsame]

end RowStore.Catalog
