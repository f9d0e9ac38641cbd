import RowStore.Proofs.Requests.Steps
import RowStore.Proofs.Storage.Faults

/-!
Requests while files may fail.

1. A `Trial` is a request with the uses of files that fail while it is answered.  When nothing fails
   it is the request (`perform_never`).
2. A trial is a run of steps with no effects but those of the request, whatever fails
   (`perform_steps`).  So what steps keep holds in every store that a run of trials leads to.

Opening files is not among the uses that fail here: a table that cannot be opened is not registered,
and a store after that is one to which the request was not made.
-/

namespace RowStore

/-- A request, and the uses of files that fail while it is answered. -/
structure Trial where
  /-- What fails. -/
  faults : Faults
  /-- What is asked. -/
  request : Request

namespace Faults

open Storage

variable (f : Faults)

/-! ## Answering -/

/-- Stores a row in the heap file of a table. -/
def insertInFile (catalog : Catalog) (tid : TransactionId) (table : TableId) (row : Row)
    (s : Storage) : Except Error Unit × Row × Storage :=
  match catalog.file table with
  | .error e => (.error e, row, s)
  | .ok file =>
    let (r, row, s) := f.storeIn file catalog tid row s
    (r.map fun _ => (), row, s)

/-- Deletes a row from the heap file of a table. -/
def deleteInFile (catalog : Catalog) (tid : TransactionId) (table : TableId)
    (place : Option RecordId) (s : Storage) : Except Error Unit × Storage :=
  match catalog.file table with
  | .error e => (.error e, s)
  | .ok file =>
    let (r, s) := f.deleteIn file catalog tid place s
    (r.map fun _ => (), s)

/-- The answer of an operation that changes the row of its caller. -/
def rowAnswer (result : Except Error Unit × Row × Storage) : Answer × Storage :=
  (result.1.map fun _ => .row result.2.1, result.2.2)

/-- Does a task. -/
def performTask (db : Database) : Task → Answer × Database
  | .createTable name schema => Answer.of .table (db.createTable name schema)
  | .insertRow tid table row =>
    db.run fun catalog s => rowAnswer (f.insertRow catalog tid table row s)
  | .deleteRow tid place =>
    db.run fun catalog s => Answer.of (fun _ => .done) (f.deleteRow catalog tid place s)
  | .getPage id =>
    db.run fun catalog s => Answer.of (fun frame => .rows frame.page.rows) (f.getPage catalog id s)
  | .flushPage id => db.run fun catalog s => Answer.of (fun _ => .done) (f.flushPage catalog id s)
  | .flushPages tid =>
    db.run fun catalog s => Answer.of (fun _ => .done)
      (f.flushEach catalog ((Assoc.keys s.pool.resident).filter (s.isChangedBy tid)) s)
  | .flushAll =>
    db.run fun catalog s => Answer.of (fun _ => .done)
      (f.flushEach catalog (Assoc.keys s.pool.resident) s)
  | .scan table => db.run fun catalog s => Answer.of .rows (f.scanRows catalog table s)

/-- Answers a request. -/
def perform (db : Database) : Request → Answer × Database
  | .task task => f.performTask db task
  | .addFile file name primaryKey schema pageSize =>
    Answer.of .table (db.addFile file name primaryKey schema pageSize)
  | .loadSchema name => Answer.of .tables (db.loadSchema name)
  | .clearCatalog => (.ok .done, db.clearCatalog)
  | .discard id => db.run fun _ s => (.ok .done, { s with pool := s.pool.discard id })
  | .insertInFile tid table row =>
    db.run fun catalog s => rowAnswer (f.insertInFile catalog tid table row s)
  | .deleteInFile tid table place =>
    db.run fun catalog s => Answer.of (fun _ => .done) (f.deleteInFile catalog tid table place s)

/-! ## When nothing fails -/

/-- Page by page, the rows are those that a scan takes. -/
theorem rowsFrom_never (catalog : Catalog) (table : TableId) (total count number : Nat)
    (buffer taken : List Row) (s : Storage) :
    never.rowsFrom catalog table count number (taken.reverse ++ buffer) s =
      match Source.Scan.eachPage table catalog Source.takeRow count ⟨total, number, buffer⟩ taken s
        with
      | (.failed e, _, _, s) => (.error e, s)
      | (.exhausted, _, rows, s) | (.stopped, _, rows, s) => (.ok rows.reverse, s) := by
  induction count generalizing number buffer taken s with
  | zero =>
    simp only [rowsFrom, Source.Scan.eachPage, Source.deliver_takeRow, Bool.false_eq_true, if_false,
      List.reverse_append, List.reverse_reverse]
  | succ count ih =>
    simp only [rowsFrom, Source.Scan.eachPage, Source.deliver_takeRow, Bool.false_eq_true, if_false,
      getPage_never]
    rcases s.getPage catalog ⟨table, number⟩ with ⟨result, s₁⟩
    cases result with
    | error e => rfl
    | ok frame =>
      have hnext := ih (number + 1) frame.page.rows (buffer.reverse ++ taken) s₁
      rwa [List.reverse_append, List.reverse_reverse] at hnext

theorem scanRows_never (catalog : Catalog) (table : TableId) (s : Storage) :
    never.scanRows catalog table s = s.scanRows catalog table := by
  rw [scanRows_eq]
  unfold scanRows
  cases catalog.file table with
  | error e => rfl
  | ok h => exact rowsFrom_never catalog table _ _ 0 [] [] s

theorem insertInFile_never (catalog : Catalog) (tid : TransactionId) (table : TableId) (row : Row)
    (s : Storage) :
    s.insertInFile catalog tid table row =
      match never.insertInFile catalog tid table row s with
      | (.error e, _, s) => (.error e, s)
      | (.ok (), row, s) => (.ok row, s) := by
  unfold Storage.insertInFile insertInFile
  cases catalog.file table with
  | error e => rfl
  | ok h =>
    simp only [storeIn_never]
    rcases never.storeIn h catalog tid row s with ⟨result, row', s'⟩
    cases result <;> rfl

theorem deleteInFile_never (catalog : Catalog) (tid : TransactionId) (table : TableId)
    (place : Option RecordId) (s : Storage) :
    never.deleteInFile catalog tid table place s = s.deleteInFile catalog tid table place := by
  unfold deleteInFile Storage.deleteInFile
  cases catalog.file table with
  | error e => rfl
  | ok h =>
    rcases hdel : h.deleteRow catalog tid place s with ⟨_ | _, s₁⟩ <;>
      simp only [deleteIn_never, hdel]

/-- A trial in which nothing fails is a request. -/
theorem perform_never (db : Database) (request : Request) :
    never.perform db request = db.perform request := by
  have hrow : ∀ (result : Except Error Unit × Row × Storage),
      rowAnswer result = Answer.of .row (match result with
        | (.error e, _, s) => ((.error e, s) : Except Error Row × Storage)
        | (.ok (), row, s) => (.ok row, s)) := by
    rintro ⟨result, row, s⟩
    cases result <;> rfl
  cases request with
  | task asked =>
    cases asked with
    | insertRow tid table row =>
      rcases hins : never.insertRow db.catalog tid table row db.storage with ⟨_ | _, row', s'⟩ <;>
        simp only [perform, performTask, Database.perform, Database.performTask, Database.run,
          insertRow_never, hins] <;> rfl
    | deleteRow tid place =>
      simp only [perform, performTask, Database.perform, Database.performTask, deleteRow_never]
    | getPage id =>
      simp only [perform, performTask, Database.perform, Database.performTask, getPage_never]
    | flushPages tid =>
      simp only [perform, performTask, Database.perform, Database.performTask, flushEach_never]
      rfl
    | flushAll =>
      simp only [perform, performTask, Database.perform, Database.performTask, flushEach_never]
      rfl
    | scan table =>
      simp only [perform, performTask, Database.perform, Database.performTask, scanRows_never]
    | _ => rfl
  | insertInFile tid table row =>
    simp only [perform, Database.perform, hrow, insertInFile_never]
  | deleteInFile tid table place =>
    simp only [perform, Database.perform, deleteInFile_never]
  | _ => rfl

/-! ## Trials are runs of steps -/

variable {f} {db : Database}

/-- **What a trial does.**  Whatever fails, it runs through steps with no effects but those of its
    request. -/
theorem perform_steps (hdb : db.storage.pool.Sound) (request : Request) :
    Steps db.catalog request.effects db.storage (f.perform db request).2.storage := by
  have hplain := Database.perform_steps hdb request
  cases request with
  | task asked =>
    cases asked with
    | createTable name schema => exact hplain
    | insertRow tid table row => exact insertRow_steps hdb rfl
    | deleteRow tid place =>
      rcases hdel : f.deleteRow db.catalog tid place db.storage with ⟨r, s'⟩
      show Steps _ _ _ (f.deleteRow db.catalog tid place db.storage).2
      rw [hdel]
      obtain ⟨e, -, hquiet⟩ | ⟨p, -, rfl, hsteps⟩ := deleteRow_cases hdb hdel
      · exact hquiet.steps
      · exact hsteps.mono fun effect heffect => ⟨p, rfl, heffect⟩
    | getPage id => exact getPage_steps hdb (Prod.eta _).symm
    | flushPage id =>
      rcases hflush : f.flushPage db.catalog id db.storage with ⟨r, s'⟩
      show Steps _ _ _ (f.flushPage db.catalog id db.storage).2
      rw [hflush]
      obtain ⟨e, -, rfl⟩ | ⟨-, hdone⟩ := flushPage_cases hflush
      · exact .refl
      · exact Storage.flushPage_steps hdone
    | flushPages tid => exact flushEach_steps (Prod.eta _).symm
    | flushAll => exact flushEach_steps (Prod.eta _).symm
    | scan table => exact scanRows_steps hdb (Prod.eta _).symm
  | insertInFile tid table row =>
    show Steps _ _ _ (f.insertInFile db.catalog tid table row db.storage).2.2
    unfold insertInFile
    cases hfile : db.catalog.file table with
    | error e => exact .refl
    | ok h =>
      obtain rfl := Catalog.id_of_file hfile
      exact (storeIn_cases hdb hfile rfl).steps hfile
  | deleteInFile tid table place =>
    show Steps _ _ _ (f.deleteInFile db.catalog tid table place db.storage).2
    unfold deleteInFile
    cases hfile : db.catalog.file table with
    | error e => exact .refl
    | ok h =>
      rcases hdel : f.deleteIn h db.catalog tid place db.storage with ⟨r, s₁⟩
      simp only [hdel]
      obtain ⟨e, -, hquiet⟩ | ⟨frame, p, -, rfl, -, hsteps, -⟩ := deleteIn_cases hdb hdel
      · exact hquiet.steps
      · exact hsteps.mono fun effect heffect => ⟨p, rfl, heffect⟩
  | _ => exact hplain

end Faults

/-! ## Runs of trials -/

namespace Database

/-- The store after some trials. -/
def afterTrials (db : Database) : List Trial → Database
  | [] => db
  | trial :: trials => (trial.faults.perform db trial.request).2.afterTrials trials

/-- The stores that a run of trials goes through, the first and the last among them. -/
def trialStates (db : Database) : List Trial → List Database
  | [] => [db]
  | trial :: trials => db :: (trial.faults.perform db trial.request).2.trialStates trials

/-- A run in which nothing fails is a run of requests. -/
theorem afterTrials_never (db : Database) (requests : List Request) :
    db.afterTrials (requests.map (Trial.mk .never)) = db.after requests := by
  induction requests generalizing db with
  | nil => rfl
  | cons request requests ih =>
    show (Faults.never.perform db request).2.afterTrials _ = (db.perform request).2.after requests
    rw [Faults.perform_never]
    exact ih _

end Database

end RowStore
