import RowStore.Proofs.Requests.Deeds
import RowStore.Proofs.Requests.Errors

/-!
Finding a page that fails.

Program.  A page that is not in memory is asked for (`Faults.getPage`).  The miss is counted, the page is
read from the file of its table, the oldest page is written if room is needed and it was changed, and it
leaves.  Each of these can fail.

1. `Faults.Unserved` lists the ways in which it fails: the table is not known, the file cannot be read, it
   has no such page, its bytes are not those of a page, the oldest page cannot be written.
2. Finding a page fails in these ways and in no others (`Faults.getPage_error_iff`).
3. In every store that can come about, the miss that is counted is all that is left of it
   (`Visited.getPage_leaves_no_trace`).

Crux.  Nothing is changed before the oldest page is written, and nothing can fail after that.  At most one
page has to leave, and a sound pool that is full has an oldest page.
-/

namespace RowStore

open Storage

namespace Faults

variable {f : Faults} {catalog : Catalog} {id : PageId} {s s' : Storage} {e : Error}

/-! ## Why a page cannot be had -/

/-- Why a page that is not in memory cannot be had, while some uses of files fail. -/
inductive Unserved (f : Faults) (catalog : Catalog) (id : PageId) (s : Storage) : Error → Prop
  /-- The table is not known. -/
  | unknown {e : Error} (hfile : catalog.file id.table = .error e) : Unserved f catalog id s e
  /-- The file cannot be read. -/
  | unreadable {h : HeapFile} {e : Error} (hfile : catalog.file id.table = .ok h)
    (hfails : f.error? (.read id) = some e) : Unserved f catalog id s e
  /-- The file has no such page. -/
  | pastEnd {h : HeapFile} (hfile : catalog.file id.table = .ok h)
    (hworks : f.error? (.read id) = none) (hend : h.numPages s.files ≤ id.number) :
    Unserved f catalog id s (.missing (.page id (h.numPages s.files)))
  /-- The bytes in the file are not those of a page. -/
  | undecoded {h : HeapFile} {e : Error} (hfile : catalog.file id.table = .ok h)
    (hworks : f.error? (.read id) = none) (hnumber : id.number < h.numPages s.files)
    (hbytes : Page.ofBytes id h.schema (block h.pageSize id.number (s.files.content h.path))
      h.pageSize = .error e) : Unserved f catalog id s e
  /-- The pool is full, and the oldest page was changed and cannot be written. -/
  | stuck {page : Page} {victim : PageId} {rest : List PageId} {frame : Frame} {cause : Error}
    (hread : f.readPage catalog id s = .ok page) (hfull : s.pool.size = s.pool.capacity)
    (hqueue : s.pool.queue = victim :: rest) (hfind : s.pool.find? victim = some frame)
    (hdirty : frame.page.dirty = true)
    (hcause : catalog.file victim.table = .error cause ∨
      (∃ h, catalog.file victim.table = .ok h) ∧ f.error? (.write victim) = some cause) :
    Unserved f catalog id s (.eviction victim cause)

/-- Reading a page fails in the first four ways. -/
theorem readPage_error_iff :
    f.readPage catalog id s = .error e ↔
      catalog.file id.table = .error e ∨
      ∃ h, catalog.file id.table = .ok h ∧
        (f.error? (.read id) = some e ∨
         f.error? (.read id) = none ∧
          (h.numPages s.files ≤ id.number ∧ .missing (.page id (h.numPages s.files)) = e ∨
           id.number < h.numPages s.files ∧
            Page.ofBytes id h.schema (block h.pageSize id.number (s.files.content h.path))
              h.pageSize = .error e)) := by
  unfold readPage
  cases hfile : catalog.file id.table with
  | error e' => simp [bind, Except.bind]
  | ok h =>
    have hcheck : h.checkTable id = .ok () :=
      HeapFile.checkTable_eq_ok_iff.mpr (Catalog.id_of_file hfile).symm
    cases hfault : f.error? (.read id) with
    | some e' => simp [bind, Except.bind, guard, hfault]
    | none =>
      by_cases hend : h.numPages s.files ≤ id.number
      · simp [bind, Except.bind, guard, hfault, HeapFile.readPage, hcheck, hend]
      · simp [bind, Except.bind, guard, hfault, HeapFile.readPage, hcheck, hend, Nat.not_le.mp hend]

/-- Writing a page back fails if it is in memory and was changed, and its table is not known or the file
    cannot be written. -/
theorem flushPage_error_iff (hs : s.pool.Sound) {cause : Error} :
    f.flushPage catalog id s = (.error cause, s) ↔
      ∃ frame, s.pool.find? id = some frame ∧ frame.page.dirty = true ∧
        (catalog.file id.table = .error cause ∨
          (∃ h, catalog.file id.table = .ok h) ∧ f.error? (.write id) = some cause) := by
  unfold flushPage
  cases hfind : s.pool.find? id with
  | none => simp
  | some frame =>
    have hid := hs.own_id hfind
    by_cases hdirty : frame.page.dirty = true
    · cases hfile : catalog.file id.table with
      | error e => simp [flushFrame, hdirty, hid, hfile]
      | ok h =>
        have hwrite : h.writePage s.files frame.page = _ := HeapFile.writePage_of_id s.files
          ((congrArg PageId.table hid).trans (Catalog.id_of_file hfile).symm)
        cases hfault : f.error? (.write id) <;>
          simp [flushFrame, hdirty, hid, hfile, guard, hfault, hwrite]
    · simp [flushFrame, hdirty]

/-- Room cannot be made if there is none and the oldest page cannot be written. -/
theorem makeRoom_error_iff (hs : s.pool.Sound) :
    f.makeRoom catalog s = (.error e, s) ↔
      s.pool.size = s.pool.capacity ∧ ∃ victim rest cause, s.pool.queue = victim :: rest ∧
        f.flushPage catalog victim s = (.error cause, s) ∧ .eviction victim cause = e := by
  have hle : s.pool.size ≤ s.pool.capacity := hs.size_le
  rcases hplain : s.makeRoom catalog with ⟨r₀, s₀⟩
  constructor
  · intro hroom
    obtain ⟨hyes, -, -⟩ | ⟨hno, victim, rest, frame, hqueue, hfind, hends⟩ :=
      Storage.makeRoom_cases hs hplain
    · rw [makeRoom, evictFrom_of_hasRoom hyes] at hroom
      cases hroom
    · have hfull : ¬ s.pool.size < s.pool.capacity := by simpa [Pool.hasRoom] using hno
      refine ⟨by omega, victim, rest, ?_⟩
      rw [makeRoom, hqueue, evictFrom, if_neg (by simp [hno])] at hroom
      rcases hflush : f.flushPage catalog victim s with ⟨result, s₁⟩
      rw [hflush] at hroom
      obtain ⟨cause, rfl, rfl⟩ | ⟨rfl, hwritten⟩ := flushPage_cases hflush
      · cases hroom
        exact ⟨cause, hqueue, rfl, rfl⟩
      · -- the oldest page is written, so it leaves and there is room
        obtain ⟨e', hdirty, hlost, -⟩ | ⟨s₂, hwritten', -, hnow, rfl⟩ := hends
        · rw [← flushPage_never, (flushPage_error_iff hs).mpr ⟨frame, hfind, hdirty, Or.inl hlost⟩]
            at hwritten
          cases hwritten
        · rw [hwritten] at hwritten'
          cases hwritten'
          simp only at hroom
          rw [evictFrom_of_hasRoom hnow] at hroom
          cases hroom
  · rintro ⟨hfull, victim, rest, cause, hqueue, hflush, rfl⟩
    have hno : ¬ s.pool.hasRoom = true := by simp [Pool.hasRoom, hfull]
    rw [makeRoom, hqueue, evictFrom, if_neg hno, hflush]

/-- **When a page cannot be had.**  It is not in memory, and one of the reasons of `Unserved` holds; then
    only a miss is counted. -/
theorem getPage_error_iff (hs : s.pool.Sound) :
    f.getPage catalog id s = (.error e, s') ↔
      s.pool.find? id = none ∧ f.Unserved catalog id s e ∧ s' = { s with pool := s.pool.miss } := by
  have hs₀ : ({ s with pool := s.pool.miss } : Storage).pool.Sound := hs.count
  constructor
  · intro hget
    obtain ⟨e', -, rfl⟩ | ⟨frame, hok, -⟩ := getPage_cases hs hget
    case inr => cases hok
    unfold getPage at hget
    cases hfind : s.pool.find? id with
    | some frame =>
      rw [hfind] at hget
      cases hget
    | none =>
      refine ⟨rfl, ?_, rfl⟩
      simp only [hfind] at hget
      rcases hread : f.readPage catalog id { s with pool := s.pool.miss } with e' | page
      · rw [hread] at hget
        cases hget
        obtain hfile | ⟨h, hfile, hfails | ⟨hworks, ⟨hend, rfl⟩ | ⟨hnumber, hbytes⟩⟩⟩ :=
          readPage_error_iff.mp hread
        · exact .unknown hfile
        · exact .unreadable hfile hfails
        · exact .pastEnd hfile hworks hend
        · exact .undecoded hfile hworks hnumber hbytes
      · rw [hread] at hget
        rcases hroom : f.makeRoom catalog { s with pool := s.pool.miss } with ⟨result, s₁⟩
        simp only [hroom] at hget
        cases result with
        | ok => cases hget
        | error e' =>
          cases hget
          obtain ⟨hfull, victim, rest, cause, hqueue, hflush, rfl⟩ := (makeRoom_error_iff hs₀).mp hroom
          obtain ⟨frame, hfind', hdirty, hcause⟩ := (flushPage_error_iff hs₀).mp hflush
          exact .stuck hread hfull hqueue hfind' hdirty hcause
  · rintro ⟨hfind, hwhy, rfl⟩
    have hunread : ∀ {e : Error}, f.readPage catalog id { s with pool := s.pool.miss } = .error e →
        f.getPage catalog id s = (.error e, { s with pool := s.pool.miss }) := by
      intro e hread
      simp only [getPage, hfind, hread]
    cases hwhy with
    | unknown hfile => exact hunread (readPage_error_iff.mpr (Or.inl hfile))
    | unreadable hfile hfails => exact hunread (readPage_error_iff.mpr (Or.inr ⟨_, hfile, Or.inl hfails⟩))
    | pastEnd hfile hworks hend =>
      exact hunread (readPage_error_iff.mpr (Or.inr ⟨_, hfile, Or.inr ⟨hworks, Or.inl ⟨hend, rfl⟩⟩⟩))
    | undecoded hfile hworks hnumber hbytes =>
      exact hunread (readPage_error_iff.mpr
        (Or.inr ⟨_, hfile, Or.inr ⟨hworks, Or.inr ⟨hnumber, hbytes⟩⟩⟩))
    | stuck hread hfull hqueue hfind' hdirty hcause =>
      have hread₀ : f.readPage catalog id { s with pool := s.pool.miss } = .ok _ := hread
      have hflush := (flushPage_error_iff hs₀).mpr ⟨_, hfind', hdirty, hcause⟩
      have hroom := (makeRoom_error_iff hs₀).mpr ⟨hfull, _, _, _, hqueue, hflush, rfl⟩
      simp only [getPage, hfind, hread₀, hroom]

end Faults

/-! ## What is left of it -/

namespace Database

/-- **A page that cannot be had leaves no trace but a miss.**  In every store that can come about, at every
    step of an operation on it and whatever uses of files fail: finding a page that comes back with an error
    was not in memory, there is a reason for the error, and afterwards the files are the same and the pool
    is the same but for one miss more: the same frames under the same numbers with the same bytes and marks,
    the same queue.  So an oldest page that cannot be written is still in memory, changed, and the next to
    leave. -/
theorem Visited.getPage_leaves_no_trace {cursors : List Cursor} {db : Database} (hdb : db.Visited cursors)
    {catalog : Catalog} {may : Effect → Prop} {s : Storage} (hsteps : Steps catalog may db.storage s)
    (f : Faults) (id : PageId) {e : Error} {s' : Storage}
    (hget : f.getPage catalog id s = (.error e, s')) :
    s.pool.find? id = none ∧ f.Unserved catalog id s e ∧ s'.files = s.files ∧
      s'.pool = { s.pool with misses := s.pool.misses + 1 } ∧
      ∀ victim cause, e = .eviction victim cause → f.error? (.read id) ≠ some e →
        ∃ rest frame, s'.pool.queue = victim :: rest ∧ s'.pool.find? victim = some frame ∧
          frame.page.dirty = true := by
  have hs := hsteps.sound hdb.sound.1
  obtain ⟨hfind, hwhy, rfl⟩ := (Faults.getPage_error_iff hs).mp hget
  refine ⟨hfind, hwhy, rfl, rfl, ?_⟩
  rintro victim cause rfl hplain
  cases hwhy with
  | unknown hfile => cases Catalog.error_of_file hfile
  | unreadable hfile hfails => exact absurd hfails hplain
  | undecoded hfile hworks hnumber hbytes => cases Page.isPlain_ofBytes hbytes
  | stuck hread hfull hqueue hfind' hdirty hcause => exact ⟨_, _, hqueue, hfind', hdirty⟩

/-- In a store for one page, that page is kept by a client who marks it as changed by another transaction.
    The file is full, so it cannot leave for a page that is in the file of another table. -/
theorem getPage_leaves_no_trace_of_marked_page :
    let schema := Schema.single "n" .int
    let a := tableIdOf ["d", "a.dat"]
    let b := tableIdOf ["d", "b.dat"]
    let row (n : Int32) : Row := ⟨schema, [.int n], none⟩
    let fault : Error := .storage (.described "no space left")
    let broken : Faults := ⟨fun | .write _ => some fault | _ => none⟩
    let deeds : List Deed :=
      [.trial ⟨.never, .task (.createTable "a" schema)⟩, .trial ⟨.never, .task (.createTable "b" schema)⟩,
       .trial ⟨.never, .task (.insertRow ⟨0⟩ a (row 1))⟩, .trial ⟨.never, .task (.insertRow ⟨0⟩ b (row 2))⟩,
       .keep 1, .edit 1 (.markDirty true (some ⟨7⟩))]
    ∃ db files', create Files.empty "/d" ⟨64, 1⟩ = (.ok db, files') ∧
      ∃ s', broken.getPage (db.afterDeeds deeds).catalog ⟨a, 0⟩ (db.afterDeeds deeds).storage =
          (.error (.eviction ⟨b, 0⟩ fault), s') ∧
        s'.files = (db.afterDeeds deeds).storage.files ∧
        ∃ rest frame, s'.pool.queue = ⟨b, 0⟩ :: rest ∧ s'.pool.find? ⟨b, 0⟩ = some frame ∧
          frame.page.dirty = true := by
  intro schema a b row fault broken deeds
  let db : Database := ⟨"/d", ⟨64, 1⟩, Catalog.empty, ⟨⟨[], [["d"]], []⟩, Pool.empty ⟨64, 1⟩⟩⟩
  have hopen : create Files.empty "/d" ⟨64, 1⟩ = (.ok db, ⟨[], [["d"]], []⟩) := rfl
  have hvisited : (db.afterDeeds deeds).Visited [] := (Visited.opened hopen).after deeds
  refine ⟨db, _, hopen, ?_⟩
  have hresult : (broken.getPage (db.afterDeeds deeds).catalog ⟨a, 0⟩ (db.afterDeeds deeds).storage).1 =
      .error (.eviction ⟨b, 0⟩ fault) := by decide +kernel
  have hread : broken.error? (.read ⟨a, 0⟩) = none := rfl
  generalize db.afterDeeds deeds = d at hresult hvisited ⊢
  rcases hget : broken.getPage d.catalog ⟨a, 0⟩ d.storage with ⟨result, s'⟩
  rw [hget] at hresult
  simp only at hresult
  subst hresult
  have hnone : Steps d.catalog (fun _ => False) d.storage d.storage := .refl
  obtain ⟨-, -, hfiles, -, hnext⟩ := hvisited.getPage_leaves_no_trace hnone broken ⟨a, 0⟩ hget
  refine ⟨s', rfl, hfiles, hnext ⟨b, 0⟩ fault rfl ?_⟩
  rw [hread]
  exact nofun

end Database

end RowStore
