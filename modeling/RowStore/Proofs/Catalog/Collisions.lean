import RowStore.Proofs.Catalog.Consistent
import RowStore.Proofs.Storage.Operations

/-!
Two files in one catalog.

Program.  A table is known by a number of 32 bits that is computed from the path of its file.  The catalog
and the pages in memory are filed under that number, and nobody compares paths.

1. Two tables that are registered one after the other, under two names, are both known exactly if their
   files have two numbers (`Catalog.both_known_iff`).
2. A page is found under the number that it is asked for, and is read from a file that has this number
   (`Database.KeepsApart`).  So pages of files with two numbers are never mixed up
   (`Database.files_stay_apart`).
3. Two paths can have one number.  Then the second file takes the place of the first one, and the pages of
   the first one are found as its own (`Database.one_number_for_two_files`).
-/

namespace RowStore

open Storage

namespace Catalog

variable {c c₁ c₂ : Catalog} {first second : TableEntry}

/-- **Two tables with two names**, one added after the other, are both known exactly if their files have
    two numbers. -/
theorem both_known_iff (hfirst : c.add first = .ok c₁) (hsecond : c₁.add second = .ok c₂)
    (hc : c.Consistent) (hnames : first.name ≠ second.name) :
    (c₂.file first.file.id = .ok first.file ∧ c₂.file second.file.id = .ok second.file) ↔
      first.file.id ≠ second.file.id ∨ first.file = second.file := by
  have hlater : c₂.file second.file.id = .ok second.file := by
    rw [file_eq, find?_add_self hsecond]
  have hc₁ := hc.add hfirst
  -- no entry of the name of the second table is the first one
  have hkept : first.file.id ≠ second.file.id → c₂.file first.file.id = .ok first.file := by
    intro hids
    have hmem : first ∈ c₁.entries := by
      rw [entries_add hfirst]
      exact mem_putEntry_self _ _
    have happart : Apart second first := ⟨hnames, hids⟩
    have hstays : first ∈ c₂.entries.filter (fun e => decide (Apart second e)) := by
      rw [filter_add hsecond]
      exact List.mem_filter.mpr ⟨hmem, by simpa using happart⟩
    exact file_of_mem (hc₁.add hsecond).ids (List.mem_filter.mp hstays).1
  constructor
  · rintro ⟨hone, -⟩
    by_cases hids : first.file.id = second.file.id
    · rw [hids] at hone
      exact Or.inr (eq_of_file hlater hone)
    · exact Or.inl hids
  · rintro (hids | hsame)
    · exact ⟨hkept hids, hlater⟩
    · exact ⟨hsame ▸ hlater, hlater⟩

end Catalog

namespace Database

open Catalog

/-- In a store, the pages of a table have nothing to do with the file at a path and with the pages of
    another table. -/
structure KeepsApart (d : Database) (id other : TableId) (path : Path) : Prop where
  /-- A page of the table is read from another file than that one. -/
  read : ∀ n page, d.storage.readPage d.catalog ⟨id, n⟩ = .ok page →
    ∃ h, d.catalog.file id = .ok h ∧ h.path ≠ path ∧ h.readPage d.storage.files ⟨id, n⟩ = .ok page
  /-- A page that is found for the table is not in memory for the other one. -/
  found : ∀ n frame s, d.storage.getPage d.catalog ⟨id, n⟩ = (.ok frame, s) →
    frame.page.id = ⟨id, n⟩ ∧
      ∀ m cached, s.pool.find? ⟨other, m⟩ = some cached →
        cached.page.id = ⟨other, m⟩ ∧ cached.stamp ≠ frame.stamp

theorem keepsApart_of_sound {d : Database} (hd : d.storage.pool.Sound) {id other : TableId} {path : Path}
    (hother : tableIdOf path = other) (hne : id ≠ other) : d.KeepsApart id other path where
  read := by
    intro n page hread
    obtain ⟨h, hfile, hpage⟩ := file_of_readPage hread
    refine ⟨h, hfile, ?_, hpage⟩
    rintro rfl
    have hid : h.id = id := id_of_file hfile
    exact hne (hid.symm.trans hother)
  found := by
    intro n frame s hget
    have hquiet : Quiet d.catalog d.storage s := getPage_steps hd hget
    have hs := hquiet.sound hd
    have hfind := find?_of_getPage hd hget
    refine ⟨hs.own_id hfind, fun m cached hcached => ⟨hs.own_id hcached, fun hstamp => ?_⟩⟩
    have hsame : (⟨other, m⟩ : PageId) = ⟨id, n⟩ := hs.stamp_inj hcached hfind hstamp
    exact hne (congrArg PageId.table hsame).symm

theorem sound_of_mem_states {db : Database} (hdb : db.storage.pool.Sound) (requests : List Request) :
    ∀ d ∈ db.states requests, d.storage.pool.Sound := by
  induction requests generalizing db with
  | nil =>
    intro d hd
    exact List.mem_singleton.mp hd ▸ hdb
  | cons request requests ih =>
    intro d hd
    rcases List.mem_cons.mp hd with rfl | hd
    · exact hdb
    · exact ih ((perform_steps hdb request).sound hdb) d hd

/-- What registering a file that is not refused does. -/
theorem addFile_of_ok {d d' : Database} {file name primaryKey : String} {schema : Schema}
    {pageSize : Nat} {id : TableId}
    (h : d.addFile file name primaryKey schema pageSize = (.ok id, d')) :
    ∃ path, d.storage.files.pathOf file = .ok path ∧ tableIdOf path = id ∧
      d.catalog.add ⟨name, ⟨path, schema, pageSize⟩, primaryKey⟩ = .ok d'.catalog := by
  obtain ⟨err, d₁, herror, -⟩ | ⟨path, d₁, hpath, hok, hadd⟩ :=
    addFile_ends d file name primaryKey schema pageSize
  · cases h.symm.trans herror
  · cases h.symm.trans hok
    exact ⟨path, hpath, rfl, hadd⟩

/-- **Files with numbers of their own stay apart.**  Two files are registered one after the other, under
    two names, in a store that a run of requests led to.  If their paths have two numbers, then both are
    known, each by the number that registering it gave.  Whatever is asked afterwards, no page of one file
    is read from the other one, and no page that is in memory for one is found for the other. -/
theorem files_stay_apart {files files' : Files} {directory : String} {config : Config} {db : Database}
    (hopen : create files directory config = (.ok db, files')) (before : List Request)
    {file₁ file₂ name₁ name₂ key₁ key₂ : String} {schema₁ schema₂ : Schema} {size₁ size₂ : Nat}
    {id₁ id₂ : TableId} {d₁ d₂ : Database}
    (hfirst : (db.after before).addFile file₁ name₁ key₁ schema₁ size₁ = (.ok id₁, d₁))
    (hsecond : d₁.addFile file₂ name₂ key₂ schema₂ size₂ = (.ok id₂, d₂))
    (hnames : name₁ ≠ name₂) (hids : id₁ ≠ id₂) (later : List Request) :
    ∃ path₁ path₂, (db.after before).storage.files.pathOf file₁ = .ok path₁ ∧
      d₁.storage.files.pathOf file₂ = .ok path₂ ∧ path₁ ≠ path₂ ∧
      d₂.catalog.file id₁ = .ok ⟨path₁, schema₁, size₁⟩ ∧
      d₂.catalog.file id₂ = .ok ⟨path₂, schema₂, size₂⟩ ∧
      ∀ d ∈ d₂.states later, d.KeepsApart id₁ id₂ path₂ ∧ d.KeepsApart id₂ id₁ path₁ := by
  obtain ⟨path₁, hpath₁, rfl, hadd₁⟩ := addFile_of_ok hfirst
  obtain ⟨path₂, hpath₂, rfl, hadd₂⟩ := addFile_of_ok hsecond
  have hempty : db.catalog = Catalog.empty := by
    obtain ⟨-, -, -, rfl⟩ := create_cases hopen
    rfl
  have hstart : db.catalog.Consistent ∧ Recorded [] db.catalog :=
    hempty ▸ ⟨consistent_empty, recorded_empty []⟩
  have hc := (consistent_after hstart.1 hstart.2 before).1
  obtain ⟨hone, htwo⟩ := (both_known_iff hadd₁ hadd₂ hc hnames).mpr (Or.inl hids)
  have hpool₁ := addFile_pool (db.after before) file₁ name₁ key₁ schema₁ size₁
  have hpool₂ := addFile_pool d₁ file₂ name₂ key₂ schema₂ size₂
  rw [hfirst] at hpool₁
  rw [hsecond] at hpool₂
  have hsound : d₂.storage.pool.Sound := by
    rw [hpool₂, hpool₁]
    exact (sound_of_create hopen before).1
  refine ⟨path₁, path₂, hpath₁, hpath₂, fun hsame => hids (congrArg tableIdOf hsame), hone, htwo, ?_⟩
  intro d hd
  have hd' := sound_of_mem_states hsound later d hd
  exact ⟨keepsApart_of_sound hd' rfl hids, keepsApart_of_sound hd' rfl hids.symm⟩

/-- Two files with two names, one of them called by a longer name, stay apart in a store for one page. -/
theorem files_stay_apart_in_one_frame :
    let ints := Schema.single "n" .int
    let a := tableIdOf ["d", "a.dat"]
    let b := tableIdOf ["d", "b.dat"]
    ∃ db files' d₁ d₂, create Files.empty "/d" ⟨64, 1⟩ = (.ok db, files') ∧
      (db.after []).addFile "/d/a.dat" "a" "" ints 64 = (.ok a, d₁) ∧
      d₁.addFile "/d/../d/b.dat" "b" "n" ints 64 = (.ok b, d₂) ∧ "a" ≠ "b" ∧ a ≠ b ∧
      d₂.catalog.file a = .ok ⟨["d", "a.dat"], ints, 64⟩ ∧
      d₂.catalog.file b = .ok ⟨["d", "b.dat"], ints, 64⟩ ∧
      ∀ later, ∀ d ∈ d₂.states later, d.KeepsApart a b ["d", "b.dat"] ∧ d.KeepsApart b a ["d", "a.dat"] := by
  intro ints a b
  let db : Database := ⟨"/d", ⟨64, 1⟩, Catalog.empty, ⟨⟨[], [["d"]], []⟩, Pool.empty ⟨64, 1⟩⟩⟩
  have hopen : create Files.empty "/d" ⟨64, 1⟩ = (.ok db, ⟨[], [["d"]], []⟩) := rfl
  let d₁ := ((db.after []).addFile "/d/a.dat" "a" "" ints 64).2
  let d₂ := (d₁.addFile "/d/../d/b.dat" "b" "n" ints 64).2
  have hfirst : (db.after []).addFile "/d/a.dat" "a" "" ints 64 = (.ok a, d₁) := by decide +kernel
  have hsecond : d₁.addFile "/d/../d/b.dat" "b" "n" ints 64 = (.ok b, d₂) := by decide +kernel
  have hids : a ≠ b := by decide +kernel
  have hall := files_stay_apart hopen [] hfirst hsecond (by decide) hids
  have hpath₁ : (db.after []).storage.files.pathOf "/d/a.dat" = .ok ["d", "a.dat"] := by decide +kernel
  have hpath₂ : d₁.storage.files.pathOf "/d/../d/b.dat" = .ok ["d", "b.dat"] := by decide +kernel
  refine ⟨db, _, d₁, d₂, hopen, hfirst, hsecond, by decide, hids, by decide +kernel, by decide +kernel, ?_⟩
  intro later
  obtain ⟨path₁, path₂, hone, htwo, -, -, -, happart⟩ := hall later
  cases hpath₁.symm.trans hone
  cases hpath₂.symm.trans htwo
  exact happart

/-- Two paths with one number.  The second file takes the place of the first one, although it has another
    name, and the row that was stored in the first file is read from the second one, which is empty. -/
theorem one_number_for_two_files :
    let ints := Schema.single "n" .int
    let a : Path := ["tmp", "awqc.dat"]
    let b : Path := ["tmp", "dhim.dat"]
    let place : RecordId := ⟨⟨tableIdOf a, 0⟩, 0⟩
    let requests : List Request :=
      [.addFile "/tmp/awqc.dat" "a" "" ints 64, .task (.insertRow ⟨0⟩ (tableIdOf a) ⟨ints, [.int 7], none⟩),
       .addFile "/tmp/dhim.dat" "b" "" ints 64]
    ∃ db files', create Files.empty "/tmp" ⟨64, 4⟩ = (.ok db, files') ∧ a ≠ b ∧ "a" ≠ "b" ∧
      db.answers requests = [.ok (.table (tableIdOf a)), .ok (.row ⟨ints, [.int 7], some place⟩),
        .ok (.table (tableIdOf b))] ∧
      (db.after requests).catalog.file (tableIdOf a) = .ok ⟨b, ints, 64⟩ ∧
      (db.after requests).catalog.tableId "a" = .error (.missing (.tableNamed "a")) ∧
      (db.after requests).storage.files.content b = #[] ∧
      ((db.after requests).perform (.task (.getPage ⟨tableIdOf b, 0⟩))).1 =
        .ok (.rows [⟨ints, [.int 7], some place⟩]) := by
  intro ints a b place requests
  exact ⟨⟨"/tmp", ⟨64, 4⟩, Catalog.empty, ⟨⟨[], [["tmp"]], []⟩, Pool.empty ⟨64, 4⟩⟩⟩, _, rfl,
    by decide, by decide, by decide +kernel, by decide +kernel, by decide +kernel, by decide +kernel,
    by decide +kernel⟩

end Database

end RowStore
