import RowStore.Proofs.CommandLine.Queries

/-!
Sessions at the command line follow a ledger.

Program.  Each run opens the store on the files that the run before it left, loads the schema file, carries
out its command and writes the changed pages back.

1. `Catalog.stored`: the ledger that the bytes of the files say.
2. A command that is carried out on a storage that serves the ledger prints what the ledger gives, and
   either fails and writes no table, or the storage serves the ledger afterwards (`perform_served`).
3. A run that can open the store shows what the ledger gives, and the files say the ledger afterwards
   (`Ready.run`).  The files can be opened again then, so it goes on (`Ready.session`).
4. **Sessions.**  Whatever runs are made, with whatever capacities, they show what the ledger gives, and a
   run that fails leaves it as it was (`sessions_follow_ledger`).

Crux.  A run that fails writes nothing back.  What the pool wrote on its way would stay, but a command that
fails changed no page, and pages that were not changed are never written.  And no command may write the
schema file: then the next run would not know its tables any more.
-/

namespace RowStore

open Storage

variable {catalog : Catalog} {view : TableId → PagedTable} {pageSize : Nat}

/-! ## Ledgers -/

namespace Catalog

open CommandLine

variable {e : TableEntry} {name : String}

/-- The tables of a catalog, when `view` says what is in them. -/
def ledger (catalog : Catalog) (view : TableId → PagedTable) : Ledger :=
  catalog.entries.map fun e => ⟨e.name, e.file.id, (view e.file.id).slots⟩

/-- The tables of a catalog with what the bytes of their files say. -/
def stored (catalog : Catalog) (files : Files) : Ledger :=
  catalog.entries.map fun e => ⟨e.name, e.file.id,
    (PagedTable.ofBytes e.file.id e.file.schema e.file.pageSize (files.content e.file.path)).slots⟩

theorem stored_eq_ledger (hc : catalog.Consistent) {files : Files}
    (hview : ∀ id h, catalog.file id = .ok h →
      view id = .ofBytes id h.schema h.pageSize (files.content h.path)) :
    catalog.stored files = catalog.ledger view := by
  refine List.map_congr_left fun e he => ?_
  rw [hview _ _ (file_of_mem hc.ids he)]

theorem stored_congr {f g : Files} (hsame : ∀ p, g.content p = f.content p) :
    catalog.stored g = catalog.stored f := by
  refine List.map_congr_left fun e _ => ?_
  rw [hsame]

theorem find?_ledger : (catalog.ledger view).find? (·.name == name) =
    (catalog.entries.find? (·.name == name)).map fun e => ⟨e.name, e.file.id, (view e.file.id).slots⟩ :=
  List.find?_map

theorem put_ledger (id : TableId) (t : PagedTable) :
    (catalog.ledger view).put id t.slots = catalog.ledger (Function.update view id t) := by
  unfold ledger Ledger.put
  rw [List.map_map]
  refine List.map_congr_left fun e _ => ?_
  by_cases hid : e.file.id = id
  · rw [← hid, Function.update_self]
    exact if_pos rfl
  · rw [Function.update_of_ne hid]
    exact if_neg hid

end Catalog

namespace CommandLine

/-! ## Commands -/

section Commands

variable {db : Database} {tid : TransactionId} {command : Command} {name : String} {query : Query}

theorem planFor_of_missing (hfind : catalog.entries.find? (·.name == name) = none) :
    planFor catalog tid name query = .error (.store (.missing (.tableNamed name))) := by
  unfold planFor Catalog.tableId
  rw [hfind]
  rfl

theorem planFor_of_entry (hc : catalog.Consistent) {e : TableEntry}
    (hfind : catalog.entries.find? (·.name == name) = some e) :
    planFor catalog tid name query = query.plan catalog tid e.file.id e.file.schema := by
  have hfile := Catalog.file_of_mem hc.ids (List.mem_of_find?_eq_some hfind)
  unfold planFor Catalog.tableId
  rw [hfind]
  show Except.bind ((catalog.schema e.file.id).mapError Failure.store) _ = _
  rw [Catalog.schema_of_file hfile]
  rfl

/-- The tables are listed with the columns that their files have. -/
theorem tableLines_eq (hc : catalog.Consistent) {s : Storage} (hserves : Serves catalog view s) :
    tableLines catalog = String.join ((catalog.ledger view).map fun sheet =>
      line (sheet.name ++ "\t" ++ sheet.table.schema.text)) := by
  unfold tableLines Catalog.ledger
  rw [List.map_map]
  congr 1
  refine List.map_congr_left fun e he => ?_
  have hschema := (hserves.held _ _ (Catalog.file_of_mem hc.ids he)).schema
  show _ = line (e.name ++ "\t" ++ (view e.file.id).schema.text)
  rw [hschema]

/-- Nothing is printed of a query without a plan. -/
theorem perform_of_refused {failure : Failure}
    (hplan : planFor db.catalog tid name query = .error failure) :
    perform tid (.query name query) db = ("", .error failure, db) := by
  simp only [perform, hplan]

/-- The columns of a plan are printed even if it fails then. -/
theorem perform_of_error {plan : Plan} {e : Error} {db' : Database}
    (hplan : planFor db.catalog tid name query = .ok plan) (hrows : allRows plan db = ([], some e, db')) :
    perform tid (.query name query) db = (headLine plan.schema, .error (.store e), db') := by
  simp only [perform, hplan, hrows, show rowLines [] = "" from rfl, String.append_empty]

theorem perform_of_rows {plan : Plan} {rows : List Row} {db' : Database}
    (hplan : planFor db.catalog tid name query = .ok plan) (hrows : allRows plan db = (rows, none, db')) :
    perform tid (.query name query) db = (headLine plan.schema ++ rowLines rows, .ok (), db') := by
  simp only [perform, hplan, hrows]

/-- How a command ends that is carried out on a storage. -/
inductive Followed (catalog : Catalog) (view : TableId → PagedTable) (s s' : Storage) :
    Except Failure Unit → Ledger → Prop
  /-- It fails, and no table was written. -/
  | failed {failure : Failure} (hquiet : Quiet catalog s s') :
    Followed catalog view s s' (.error failure) (catalog.ledger view)
  /-- The storage serves the tables as they are afterwards. -/
  | done {view' : TableId → PagedTable} (hsteps : Steps catalog (fun _ => True) s s')
    (hserves : Serves catalog view' s') : Followed catalog view s s' (.ok ()) (catalog.ledger view')

/-- A command prints what the ledger gives, and it fails as the ledger says. -/
theorem perform_served (hc : db.catalog.Consistent) (hserves : Serves db.catalog view db.storage)
    (hsizes : ∀ e ∈ db.catalog.entries, e.file.pageSize = pageSize) :
    ∃ output result s' l, perform tid command db = (output, result, { db with storage := s' }) ∧
      (db.catalog.ledger view).perform pageSize command = (output, result, l) ∧
      Followed db.catalog view db.storage s' result l := by
  cases command with
  | tables =>
    refine ⟨tableLines db.catalog, .ok (), db.storage, db.catalog.ledger view, rfl, ?_,
      .done (Quiet.steps .refl) hserves⟩
    rw [tableLines_eq hc hserves]
    rfl
  | query name query =>
    cases hfind : db.catalog.entries.find? (·.name == name) with
    | none =>
      have hmissing : (db.catalog.ledger view).find? (·.name == name) = none := by
        rw [Catalog.find?_ledger, hfind]
        rfl
      exact ⟨"", _, db.storage, _, perform_of_refused (planFor_of_missing hfind),
        Ledger.perform_of_missing hmissing, .failed .refl⟩
    | some e =>
      have he := List.mem_of_find?_eq_some hfind
      have hfile := Catalog.file_of_mem hc.ids he
      have hsheet : (db.catalog.ledger view).find? (·.name == name) =
          some ⟨e.name, e.file.id, (view e.file.id).slots⟩ := by
        rw [Catalog.find?_ledger, hfind]
        rfl
      have hplan : planFor db.catalog tid name query = _ := planFor_of_entry hc hfind
      have hanswered : Query.Answered db view e.file.id (planFor db.catalog tid name query)
          (Sheet.answer pageSize ⟨e.name, e.file.id, (view e.file.id).slots⟩ query) :=
        hplan ▸ Query.answered hserves hfile pageSize (hsizes e he) query
      generalize hanswer : Sheet.answer pageSize ⟨e.name, e.file.id, (view e.file.id).slots⟩ query =
        answer at hanswered
      cases hanswered with
      | refused hmade =>
        exact ⟨"", _, db.storage, _, perform_of_refused hmade, Ledger.perform_of_refused hsheet hanswer,
          .failed .refl⟩
      | failed hmade hrows hquiet =>
        exact ⟨_, _, _, _, perform_of_error hmade hrows, Ledger.perform_of_error hsheet hanswer,
          .failed hquiet⟩
      | rows hmade hrows hsteps hserves' =>
        refine ⟨_, _, _, _, perform_of_rows hmade hrows, Ledger.perform_of_rows hsheet hanswer, ?_⟩
        rw [Catalog.put_ledger]
        exact .done (hsteps.mono fun _ _ => trivial) hserves'

end Commands

/-! ## Runs -/

/-- An invocation is for the store in `directory` with the schema file called `schemaName` and pages of
    `pageSize` bytes, and it may have a page in memory. -/
structure Invocation.For (directory schemaName : String) (pageSize : Nat) (inv : Invocation) : Prop where
  directory : inv.directory = directory
  schema : inv.schemaName = schemaName
  pageSize : inv.config.pageSize = pageSize
  capacity : inv.config.poolPages ≠ 0

instance (directory schemaName : String) (pageSize : Nat) (inv : Invocation) :
    Decidable (inv.For directory schemaName pageSize) :=
  decidable_of_iff (inv.directory = directory ∧ inv.schemaName = schemaName ∧
      inv.config.pageSize = pageSize ∧ inv.config.poolPages ≠ 0)
    ⟨fun ⟨h₁, h₂, h₃, h₄⟩ => ⟨h₁, h₂, h₃, h₄⟩, fun h => ⟨h.directory, h.schema, h.pageSize, h.capacity⟩⟩

section Runs

variable {directory schemaName : String} {inv : Invocation} {db : Database} {f g : Files}

/-- A run that can open its store is as its command. -/
theorem run_of_load {new : Database} {k : Files} {ids : List TableId}
    (hopen : Database.create f inv.directory inv.config = (.ok new, k))
    (hload : new.loadSchema inv.schemaName = (.ok ids, db)) :
    inv.run f = match perform Transactions.fresh.begin.1 inv.command db with
      | (output, .error failure, db) => (output, .error failure, db.storage.files)
      | (output, .ok (), db) =>
        let (result, s) := db.storage.flushAll db.catalog
        (output, result.mapError Failure.store, s.files) := by
  unfold Invocation.run
  simp only [hopen, hload]
  rfl

/-- **One run.**  It prints what the ledger of the files gives and fails as the ledger says, and the files
    say the ledger afterwards. -/
theorem run_of_opens (hopens : Database.Opens directory schemaName pageSize catalog f g)
    (hinv : inv.For directory schemaName pageSize) (hc : catalog.Consistent)
    (hsizes : ∀ e ∈ catalog.entries, e.file.pageSize = pageSize)
    (hfits : ∀ id h, catalog.file id = .ok h → h.Fits) :
    ∃ output result k, inv.run f = (output, result, k) ∧
      (catalog.stored g).perform pageSize inv.command = (output, result, catalog.stored k) ∧ g.Grown k ∧
      ∀ p, (∀ id h, catalog.file id = .ok h → h.path ≠ p) → k.content p = g.content p := by
  obtain ⟨new, h, ids, hopen, hload⟩ := hopens inv.config.poolPages hinv.capacity
  obtain rfl := hinv.pageSize
  obtain rfl := hinv.directory
  obtain rfl := hinv.schema
  let s : Storage := ⟨g, Pool.empty inv.config⟩
  have hserves : Serves catalog (tableIn catalog g) s := serves_fresh hinv.capacity hfits g
  have hrun := run_of_load hopen hload
  obtain ⟨output, result, s', l, hperform, hledger, hfollowed⟩ :
      ∃ output result s' l,
        perform Transactions.fresh.begin.1 inv.command ⟨inv.directory, inv.config, catalog, s⟩ =
          (output, result, ⟨inv.directory, inv.config, catalog, s'⟩) ∧ _ :=
    perform_served hc hserves hsizes
  rw [← Catalog.stored_eq_ledger hc fun id h hfile => tableIn_of_file hfile] at hledger
  rw [hperform] at hrun
  cases hfollowed with
  | failed hquiet =>
    -- nothing is written back, and nothing was written on the way
    obtain ⟨-, hfiles⟩ := hquiet.unmarked hserves.sound nofun
    have hstored : catalog.ledger (tableIn catalog g) = catalog.stored s'.files := by
      rw [hfiles, Catalog.stored_eq_ledger hc fun id h hfile => tableIn_of_file hfile]
    refine ⟨output, _, s'.files, hrun, ?_, hquiet.grown hserves.sound, fun p hp => ?_⟩
    · rw [hledger, hstored]
    · exact hquiet.content hserves.sound hp
  | done hsteps hserves' =>
    rcases hflush : s'.flushAll catalog with ⟨r, s''⟩
    obtain ⟨rfl, hquiet, hview⟩ := hserves'.flushed hflush
    have hall : Steps catalog (fun _ => True) s s'' := hsteps.trans hquiet.steps
    refine ⟨output, .ok (), s''.files, ?_, ?_, hall.grown hserves.sound, fun p hp => ?_⟩
    · rw [hrun]
      simp only [hflush]
      rfl
    · rw [hledger, Catalog.stored_eq_ledger hc hview]
    · exact hall.content hserves.sound hp

/-- A command line that can be read is as what it asks for. -/
theorem run_of_read {environment : List (String × String)} {words : List String} {output : String}
    {result : Except Failure Unit} (hread : Invocation.read environment words = .ok inv)
    (hrun : inv.run f = (output, result, g)) :
    CommandLine.run environment words f = (Outcome.of output result, g) := by
  unfold CommandLine.run
  simp only [hread, hrun]
  cases result <;> rfl

end Runs

/-! ## Sessions -/

section Sessions

/-- What the runs of a session rely on, when `base` are the files that the first run makes and `path` leads
    to the schema file. -/
structure Steady (directory schemaName : String) (pageSize : Nat) (catalog : Catalog) (base : Files)
    (path : Path) : Prop where
  /-- No name and no number of a table occurs twice. -/
  consistent : catalog.Consistent
  /-- All pages have one size. -/
  sizes : ∀ e ∈ catalog.entries, e.file.pageSize = pageSize
  /-- The rows of every table fit on its pages. -/
  fits : ∀ id h, catalog.file id = .ok h → h.Fits
  /-- The schema file is the file of no table. -/
  apart : ∀ id h, catalog.file id = .ok h → h.path ≠ path
  /-- As long as the schema file stays what it was, the store can be opened again. -/
  again : ∀ k, base.Grown k → k.content path = base.content path →
    Database.Opens directory schemaName pageSize catalog k k

/-- The next run finds the files `f` and works on the files `g`. -/
structure Ready (directory schemaName : String) (pageSize : Nat) (catalog : Catalog) (base : Files)
    (path : Path) (f g : Files) : Prop where
  /-- The store can be opened. -/
  opens : Database.Opens directory schemaName pageSize catalog f g
  /-- Opening it touches no byte. -/
  content : ∀ p, g.content p = f.content p
  /-- No file was removed since the first run. -/
  grown : base.Grown g
  /-- The schema file is what it was. -/
  kept : g.content path = base.content path

variable {directory schemaName : String} {base : Files} {path : Path} {f g k : Files}
  {runs : List Prompt} {invs : List Invocation}

variable (hsteady : Steady directory schemaName pageSize catalog base path)
include hsteady

/-- A run follows the ledger, and then another one can follow. -/
theorem Ready.run {run : Prompt} {inv : Invocation}
    (hready : Ready directory schemaName pageSize catalog base path f g)
    (hread : Invocation.read run.1 run.2 = .ok inv) (hinv : inv.For directory schemaName pageSize) :
    ∃ output result k, CommandLine.run run.1 run.2 f = (Outcome.of output result, k) ∧
      (catalog.stored f).perform pageSize inv.command = (output, result, catalog.stored k) ∧
      Ready directory schemaName pageSize catalog base path k k := by
  obtain ⟨output, result, k, hrun, hledger, hgrown, hcontent⟩ :=
    run_of_opens hready.opens hinv hsteady.consistent hsteady.sizes hsteady.fits
  rw [Catalog.stored_congr hready.content] at hledger
  have hkept : k.content path = base.content path := (hcontent path hsteady.apart).trans hready.kept
  have hgrown' := hready.grown.trans hgrown
  exact ⟨output, result, k, run_of_read hread hrun, hledger, hsteady.again k hgrown' hkept,
    fun _ => rfl, hgrown', hkept⟩

/-- A run that fails leaves the ledger as it was. -/
theorem Ready.run_fails {run : Prompt} {inv : Invocation} {outcome : Outcome}
    (hready : Ready directory schemaName pageSize catalog base path f g)
    (hread : Invocation.read run.1 run.2 = .ok inv) (hinv : inv.For directory schemaName pageSize)
    (hrun : CommandLine.run run.1 run.2 f = (outcome, k)) (hfails : outcome.code ≠ 0) :
    catalog.stored k = catalog.stored f := by
  obtain ⟨output, result, k', hrun', hledger, -⟩ := hready.run hsteady hread hinv
  cases hrun.symm.trans hrun'
  cases result with
  | ok => exact absurd rfl hfails
  | error failure =>
    have hkeeps := Ledger.perform_keeps (by rw [hledger])
    rwa [hledger] at hkeeps

/-- Runs follow the ledger one after the other. -/
theorem Ready.session (hready : Ready directory schemaName pageSize catalog base path f g)
    (hread : List.Forall₂ (fun run inv => Invocation.read run.1 run.2 = .ok inv) runs invs)
    (hinvs : ∀ inv ∈ invs, inv.For directory schemaName pageSize) :
    (∃ g', Ready directory schemaName pageSize catalog base path (session f runs).2 g') ∧
      (catalog.stored f).session pageSize (invs.map (·.command)) =
        ((session f runs).1, catalog.stored (session f runs).2) := by
  -- after each run its files are ready for the runs that are left
  induction hread generalizing f g with
  | nil => exact ⟨⟨g, hready⟩, rfl⟩
  | @cons run inv runs invs hfirst _ ih =>
    obtain ⟨output, result, k, hrun, hledger, hready'⟩ :=
      hready.run hsteady hfirst (hinvs inv List.mem_cons_self)
    obtain ⟨hnext, hrest⟩ := ih hready' fun inv' h => hinvs inv' (List.mem_cons_of_mem _ h)
    have hsession : session f (run :: runs) =
        (Outcome.of output result :: (session k runs).1, (session k runs).2) := by
      obtain ⟨environment, words⟩ := run
      simp only [CommandLine.session, hrun]
    rw [hsession, List.map_cons]
    refine ⟨hnext, ?_⟩
    simp only [Ledger.session, hledger, hrest]

end Sessions

/-- A store whose schema file was loaded is ready for a session. -/
theorem steady_of_load {files files₁ : Files} {directory schemaName : String} {config : Config}
    {new db : Database} {ids : List TableId}
    (hopen : Database.create files directory config = (.ok new, files₁))
    (hload : new.loadSchema schemaName = (.ok ids, db))
    (hfits : ∀ e ∈ db.catalog.entries, e.file.Fits)
    (hschema : ∀ e ∈ db.catalog.entries, db.storage.files.pathOf schemaName ≠ .ok e.file.path) :
    ∃ path, Steady directory schemaName config.pageSize db.catalog db.storage.files path ∧
      Ready directory schemaName config.pageSize db.catalog db.storage.files path files
        db.storage.files := by
  have hopened := Database.opened_of_load hopen hload
  obtain ⟨path, hpath, hagain⟩ := hopened.again
  refine ⟨path, ?_, ⟨hopened.opens, hopened.content, .refl _, rfl⟩⟩
  exact {
    consistent := hopened.consistent
    sizes := fun e he => (hopened.settled e he).1
    fits := by
      intro id h hfile
      obtain ⟨e, he, rfl⟩ := Catalog.mem_of_file hfile
      exact hfits e he
    apart := by
      intro id h hfile
      obtain ⟨e, he, rfl⟩ := Catalog.mem_of_file hfile
      rintro rfl
      exact hschema e he hpath
    again := hagain }

/-- **Sessions.**  A schema file is given whose tables have rows that fit on their pages; it is not itself
    the file of one of its tables.  Then whatever runs are made on the store, each with a capacity of its
    own, they show what the ledger gives that starts with what the bytes of the files say, and the files say
    the ledger afterwards.  A run that fails leaves it as it was.  An aggregation adds up without bounds,
    as machine words do for fewer than 2³² rows (`Plan.wordMeaning_eq`). -/
theorem sessions_follow_ledger {files files₁ : Files} {directory schemaName : String} {config : Config}
    {new db : Database} {ids : List TableId} {runs : List Prompt} {invs : List Invocation}
    (hopen : Database.create files directory config = (.ok new, files₁))
    (hload : new.loadSchema schemaName = (.ok ids, db))
    (hfits : ∀ e ∈ db.catalog.entries, e.file.Fits)
    (hschema : ∀ e ∈ db.catalog.entries, db.storage.files.pathOf schemaName ≠ .ok e.file.path)
    (hread : List.Forall₂ (fun run inv => Invocation.read run.1 run.2 = .ok inv) runs invs)
    (hinvs : ∀ inv ∈ invs, inv.For directory schemaName config.pageSize) :
    (db.catalog.stored files).session config.pageSize (invs.map (·.command)) =
        ((session files runs).1, db.catalog.stored (session files runs).2) ∧
      ∀ earlier run later, runs = earlier ++ run :: later →
        ∀ outcome after, CommandLine.run run.1 run.2 (session files earlier).2 = (outcome, after) →
          outcome.code ≠ 0 →
            db.catalog.stored after = db.catalog.stored (session files earlier).2 := by
  obtain ⟨path, hsteady, hready⟩ := steady_of_load hopen hload hfits hschema
  refine ⟨(hready.session hsteady hread hinvs).2, ?_⟩
  rintro earlier run later rfl outcome after hrun hfails
  have hfirst := List.forall₂_take_append _ _ _ hread.flip
  have hrest := List.forall₂_drop_append _ _ _ hread.flip
  obtain ⟨⟨k, hready'⟩, -⟩ := hready.session hsteady hfirst.flip
    fun inv hinv => hinvs inv (List.mem_of_mem_take hinv)
  cases hcut : invs.drop earlier.length with
  | nil =>
    rw [hcut] at hrest
    cases hrest
  | cons inv rest =>
    rw [hcut] at hrest
    have hmem : inv ∈ invs := List.mem_of_mem_drop (hcut ▸ List.mem_cons_self)
    exact hready'.run_fails hsteady (List.forall₂_cons.mp hrest).1 (hinvs inv hmem) hrun hfails

/-- Six runs with capacities of their own, the fourth of which fails: the comparison cannot be read.  A row
    that comes after a deletion takes the free slot. -/
theorem sessions_follow_ledger_of_six_runs :
    let files : Files := ⟨[], [], [(["s.txt"], (Text.Utf8.encode "t (n int)\n").toArray)]⟩
    let id := tableIdOf ["t.dat"]
    let schema := Schema.single "n" .int
    let prompt (capacity : String) (words : List String) : Prompt :=
      ([], ["-d", "d", "-s", "s.txt", "--page-size", "9", "--pool-pages", capacity] ++ words)
    let before := [prompt "1" ["insert", "t", "5"], prompt "3" ["insert", "t", "7"],
      prompt "1" ["delete", "t", "--where", "n", "<", "6"]]
    let failing := prompt "2" ["scan", "t", "--where", "n", "!", "3"]
    let after := [prompt "1" ["insert", "t", "8"], prompt "4" ["scan", "t"]]
    ∃ new files₁ ids db, Database.create files "d" ⟨9, 1⟩ = (.ok new, files₁) ∧
      new.loadSchema "s.txt" = (.ok ids, db) ∧
      db.catalog.stored (session files before).2 =
        [⟨"t", id, ⟨schema, [[none, some [.int 7]]]⟩⟩] ∧
      (run failing.1 failing.2 (session files before).2).1.code = 1 ∧
      db.catalog.stored (run failing.1 failing.2 (session files before).2).2 =
        db.catalog.stored (session files before).2 ∧
      db.catalog.stored (session files (before ++ failing :: after)).2 =
        [⟨"t", id, ⟨schema, [[some [.int 8], some [.int 7]]]⟩⟩] ∧
      (session files (before ++ failing :: after)).1.map (fun outcome => (outcome.code, outcome.output)) =
        [(0, "count\n1\n"), (0, "count\n1\n"), (0, "count\n1\n"), (1, ""), (0, "count\n1\n"),
          (0, "n\n8\n7\n")] := by
  intro files id schema prompt before failing after
  let invocation (capacity : Nat) (query : Query) : Invocation :=
    ⟨"d", some "s.txt", ⟨9, capacity⟩, .query "t" query⟩
  let invs := [invocation 1 (.insert ["5"]), invocation 3 (.insert ["7"]),
    invocation 1 (.delete ["n", "<", "6"]), invocation 2 (.scan (some ["n", "!", "3"])),
    invocation 1 (.insert ["8"]), invocation 4 (.scan none)]
  let h : HeapFile := ⟨["t.dat"], schema, 9⟩
  let new : Database := ⟨"d", ⟨9, 1⟩, Catalog.empty, ⟨⟨[], [["d"]], files.contents⟩, Pool.empty ⟨9, 1⟩⟩⟩
  let db : Database := ⟨"d", ⟨9, 1⟩, ⟨[⟨"t", h, ""⟩]⟩,
    ⟨⟨[], [["d"]], files.contents ++ [(["t.dat"], #[])]⟩, Pool.empty ⟨9, 1⟩⟩⟩
  have hopen : Database.create files "d" ⟨9, 1⟩ = (.ok new, new.storage.files) := by decide +kernel
  have hload : new.loadSchema "s.txt" = (.ok [id], db) := by decide +kernel
  have hread : List.Forall₂ (fun run inv => Invocation.read run.1 run.2 = .ok inv)
      (before ++ failing :: after) invs := by
    decide +kernel
  obtain ⟨hsession, hfails⟩ := sessions_follow_ledger hopen hload (by decide +kernel)
    (by decide +kernel) hread (by decide +kernel)
  have hledger : (db.catalog.stored files).session 9 (invs.map (·.command)) =
      ([⟨0, "count\n1\n", ""⟩, ⟨0, "count\n1\n", ""⟩, ⟨0, "count\n1\n", ""⟩,
        ⟨1, "", "Error: NotFound \x7b what: \"comparison operator !\" \x7d\n"⟩, ⟨0, "count\n1\n", ""⟩,
        ⟨0, "n\n8\n7\n", ""⟩], [⟨"t", id, ⟨schema, [[some [.int 8], some [.int 7]]]⟩⟩]) := by
    decide +kernel
  obtain ⟨houtcomes, hafter⟩ := Prod.mk.inj (hledger.symm.trans hsession)
  have hcode : (run failing.1 failing.2 (session files before).2).1.code = 1 := by decide +kernel
  have hbefore : db.catalog.stored (session files before).2 =
      [⟨"t", id, ⟨schema, [[none, some [.int 7]]]⟩⟩] := by
    decide +kernel
  refine ⟨new, _, [id], db, hopen, hload, hbefore, hcode, ?_, hafter.symm, ?_⟩
  · exact hfails before failing after rfl _ _ Prod.mk.eta.symm (by rw [hcode]; decide)
  · rw [← houtcomes]
    rfl

/-- The schema file is itself the file of its table, and can be loaded.  The first run stores a row in it;
    the second one cannot read it any more, although the ledger has rows to show. -/
theorem session_overwrites_schema :
    let files : Files := ⟨[], [], [(["t.dat"], (Text.Utf8.encode "t (n int)\n").toArray)]⟩
    let prompt (words : List String) : Prompt :=
      ([], ["-d", "d", "-s", "t.dat", "--page-size", "9"] ++ words)
    let invocation (query : Query) : Invocation := ⟨"d", some "t.dat", ⟨9, 50⟩, .query "t" query⟩
    let runs := [prompt ["insert", "t", "5"], prompt ["scan", "t"]]
    let invs := [invocation (.insert ["5"]), invocation (.scan none)]
    ∃ new files₁ ids db, Database.create files "d" ⟨9, 50⟩ = (.ok new, files₁) ∧
      new.loadSchema "t.dat" = (.ok ids, db) ∧
      db.catalog.entries = [⟨"t", ⟨["t.dat"], .single "n" .int, 9⟩, ""⟩] ∧
      (∀ e ∈ db.catalog.entries, e.file.Fits) ∧
      List.Forall₂ (fun run inv => Invocation.read run.1 run.2 = .ok inv) runs invs ∧
      (∀ inv ∈ invs, inv.For "d" "t.dat" 9) ∧
      (session files runs).1.map (fun outcome => (outcome.code, outcome.output)) =
        [(0, "count\n1\n"), (1, "")] ∧
      ((db.catalog.stored files).session 9 (invs.map (·.command))).1.map
          (fun outcome => (outcome.code, outcome.output)) =
        [(0, "count\n1\n"), (0, "n\n5\n0\n")] := by
  intro files prompt invocation runs invs
  let h : HeapFile := ⟨["t.dat"], .single "n" .int, 9⟩
  let new : Database := ⟨"d", ⟨9, 50⟩, Catalog.empty, ⟨⟨[], [["d"]], files.contents⟩, Pool.empty ⟨9, 50⟩⟩⟩
  let db : Database := { new with catalog := ⟨[⟨"t", h, ""⟩]⟩ }
  have hopen : Database.create files "d" ⟨9, 50⟩ = (.ok new, new.storage.files) := by decide +kernel
  have hload : new.loadSchema "t.dat" = (.ok [h.id], db) := by decide +kernel
  have hruns : (session files runs).1.map (fun outcome => (outcome.code, outcome.output)) =
      [(0, "count\n1\n"), (1, "")] := by
    decide +kernel
  exact ⟨new, _, [h.id], db, hopen, hload, rfl, by decide +kernel, by decide +kernel, by decide +kernel,
    hruns, by decide +kernel⟩

end CommandLine

end RowStore
