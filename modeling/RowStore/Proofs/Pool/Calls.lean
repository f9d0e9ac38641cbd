import RowStore.Proofs.Pool.Misses
import RowStore.Proofs.Pool.Reachable
import RowStore.Proofs.Requests.Additions

/-!
What the pool is called for.

Program.  The pool is called to find a page, to take back a page that was written, to write pages back, and
to drop a page.  Storing a row finds one page after the other until one has a free slot.  Only the page
that took the row is taken back.

1. `Database.calls` are the calls that a run of deeds makes, in order, each with the pool before and after
   it.
2. A call moves pages in one of a few ways (`Moves`): a page comes in and the oldest one may leave for it,
   a page is put last in the queue, a page is dropped, or all pages stay where they are.
3. Between two calls no page moves, and the calls lead from the pool at the start to the pool at the end
   (`Traced`, `Database.traced_calls`).

Crux.  The calls of an operation are found along the recursion of the operation, so each lemma follows the
lemma about its endings (`Faults.getPage_cases`, `Faults.storeFrom_cases`, …).
-/

namespace RowStore

open Storage

/-! ## Calls -/

/-- What the pool is called for. -/
inductive PoolUse where
  /-- To find a page. -/
  | get (id : PageId)
  /-- To take back the page in which a row was stored or deleted. -/
  | wrote (id : PageId)
  /-- To write pages back. -/
  | flush
  /-- To drop a page. -/
  | drop (id : PageId)
  deriving DecidableEq

/-- A call of the pool. -/
structure PoolCall where
  /-- What it is called for. -/
  use : PoolUse
  /-- The pool before it. -/
  before : Pool
  /-- The pool after it. -/
  after : Pool

namespace Faults

variable (f : Faults)

/-- The call that finds a page. -/
def getCall (catalog : Catalog) (id : PageId) (s : Storage) : PoolCall :=
  ⟨.get id, s.pool, (f.getPage catalog id s).2.pool⟩

/-- The calls that read the rows of some pages. -/
def rowsFromCalls (catalog : Catalog) (table : TableId) :
    (count number : Nat) → Storage → List PoolCall
  | 0, _, _ => []
  | count + 1, number, s =>
    f.getCall catalog ⟨table, number⟩ s ::
      match f.getPage catalog ⟨table, number⟩ s with
      | (.error _, _) => []
      | (.ok _, s) => rowsFromCalls catalog table count (number + 1) s

/-- The calls that read all rows of a table. -/
def scanCalls (catalog : Catalog) (table : TableId) (s : Storage) : List PoolCall :=
  match catalog.file table with
  | .error _ => []
  | .ok file =>
    match f.guard (.length table) (.ok (file.numPages s.files)) with
    | .error _ => []
    | .ok count => f.rowsFromCalls catalog table count 0 s

/-- The calls that look for a free slot. -/
def storeFromCalls (h : HeapFile) (catalog : Catalog) : (count number : Nat) → Storage → List PoolCall
  | 0, _, _ => []
  | count + 1, number, s =>
    f.getCall catalog ⟨h.id, number⟩ s ::
      match f.getPage catalog ⟨h.id, number⟩ s with
      | (.error _, _) => []
      | (.ok frame, s) =>
        if frame.page.freeSlots.isEmpty then storeFromCalls h catalog count (number + 1) s else []

/-- The calls that store a row in a heap file. -/
def storeInCalls (h : HeapFile) (catalog : Catalog) (tid : TransactionId) (row : Row) (s : Storage) :
    List PoolCall :=
  if !row.schema.sameTypes h.schema then []
  else match f.guard (.length h.id) (.ok (h.numPages s.files)) with
    | .error _ => []
    | .ok count =>
      f.storeFromCalls h catalog count 0 s ++
        match f.storeFrom h catalog tid count 0 row s with
        | (.ok none, _, s) =>
          match f.grow h s with
          | (.error _, _) => []
          | (.ok id, s) => [f.getCall catalog id s]
        | (.ok (some _), _, _) | (.error _, _, _) => []

/-- The calls that delete a row from a heap file. -/
def deleteInCalls (h : HeapFile) (catalog : Catalog) (place : Option RecordId) (s : Storage) :
    List PoolCall :=
  match place with
  | none => []
  | some r =>
    match h.checkTable r.page with
    | .error _ => []
    | .ok () => [f.getCall catalog r.page s]

/-- The calls that store a row in a table.  The page that its place names is taken back if all went
    well. -/
def insertCalls (catalog : Catalog) (tid : TransactionId) (table : TableId) (row : Row)
    (s : Storage) : List PoolCall :=
  match catalog.file table with
  | .error _ => []
  | .ok h =>
    f.storeInCalls h catalog tid row s ++
      match f.insertRow catalog tid table row s with
      | (.error _, _, _) => []
      | (.ok (), stored, s') =>
        stored.place.toList.map fun r =>
          ⟨.wrote r.page, (f.storeIn h catalog tid row s).2.2.pool, s'.pool⟩

/-- The calls that delete the row at a place.  The page that the place names is taken back if all went
    well. -/
def deleteCalls (catalog : Catalog) (tid : TransactionId) (place : Option RecordId) (s : Storage) :
    List PoolCall :=
  match place with
  | none => []
  | some r =>
    match catalog.file r.page.table with
    | .error _ => []
    | .ok h =>
      f.deleteInCalls h catalog place s ++
        match f.deleteRow catalog tid place s with
        | (.error _, _) => []
        | (.ok (), s') => [⟨.wrote r.page, (f.deleteIn h catalog tid place s).2.pool, s'.pool⟩]

/-- The calls that answer a request. -/
def calls (db : Database) : Request → List PoolCall
  | .task (.insertRow tid table row) => f.insertCalls db.catalog tid table row db.storage
  | .task (.deleteRow tid place) => f.deleteCalls db.catalog tid place db.storage
  | .task (.getPage id) => [f.getCall db.catalog id db.storage]
  | .task (.scan table) => f.scanCalls db.catalog table db.storage
  | .task (.flushPage id) =>
    [⟨.flush, db.storage.pool, (f.perform db (.task (.flushPage id))).2.storage.pool⟩]
  | .task (.flushPages tid) =>
    [⟨.flush, db.storage.pool, (f.perform db (.task (.flushPages tid))).2.storage.pool⟩]
  | .task .flushAll => [⟨.flush, db.storage.pool, (f.perform db (.task .flushAll)).2.storage.pool⟩]
  | .discard id => [⟨.drop id, db.storage.pool, db.storage.pool.discard id⟩]
  | .insertInFile tid table row =>
    match db.catalog.file table with
    | .error _ => []
    | .ok h => f.storeInCalls h db.catalog tid row db.storage
  | .deleteInFile _ table place =>
    match db.catalog.file table with
    | .error _ => []
    | .ok h => f.deleteInCalls h db.catalog place db.storage
  | .task (.createTable _ _) | .addFile .. | .loadSchema _ | .clearCatalog => []

end Faults

/-- The calls that come of a deed. -/
def Deed.calls (db : Database) : Deed → List PoolCall
  | .trial asked => asked.faults.calls db asked.request
  | .keep _ | .edit _ _ | .resetCounts | .overwrite _ => []

/-- The calls that come of a run of deeds. -/
def Database.calls (db : Database) : List Deed → List PoolCall
  | [] => []
  | deed :: deeds => deed.calls db ++ (db.afterDeed deed).calls deeds

/-! ## How pages move -/

/-- The same pages are in memory, in the same order. -/
structure Pool.SameOrder (p p' : Pool) : Prop where
  /-- The same pages are in memory. -/
  keys : Assoc.keys p'.resident = Assoc.keys p.resident
  /-- They leave in the same order. -/
  queue : p'.queue = p.queue

theorem Pool.SameOrder.refl {p : Pool} : p.SameOrder p := ⟨rfl, rfl⟩

theorem Pool.SameOrder.trans {p q r : Pool} (hpq : p.SameOrder q) (hqr : q.SameOrder r) :
    p.SameOrder r :=
  ⟨hqr.keys.trans hpq.keys, hqr.queue.trans hpq.queue⟩

/-- How a call moves the pages of the pool. -/
inductive Moves : PoolUse → Pool → Pool → Prop
  /-- The page is there. -/
  | found {id : PageId} {p p' : Pool} (hin : p.contains id = true) (same : p.SameOrder p') :
    Moves (.get id) p p'
  /-- The page cannot be had. -/
  | failed {id : PageId} {p p' : Pool} (hout : p.contains id = false) (same : p.SameOrder p') :
    Moves (.get id) p p'
  /-- The page comes in, and there is room for it. -/
  | admitted {id : PageId} {p p' : Pool} (hout : p.contains id = false)
    (hkeys : Assoc.keys p'.resident = Assoc.keys p.resident ++ [id])
    (hqueue : p'.queue = p.queue ++ [id]) : Moves (.get id) p p'
  /-- The page comes in, and the oldest one leaves. -/
  | replaced {id victim : PageId} {rest : List PageId} {p p' : Pool} (hout : p.contains id = false)
    (hold : p.queue = victim :: rest)
    (hkeys : Assoc.keys p'.resident = (Assoc.keys p.resident).filter (· ≠ victim) ++ [id])
    (hqueue : p'.queue = rest ++ [id]) : Moves (.get id) p p'
  /-- The page is there, and it is put last. -/
  | wrote {id : PageId} {p p' : Pool} (hin : p.contains id = true)
    (hkeys : Assoc.keys p'.resident = Assoc.keys p.resident)
    (hqueue : p'.queue = p.queue.erase id ++ [id]) : Moves (.wrote id) p p'
  /-- Pages are written back and stay. -/
  | flushed {p p' : Pool} (same : p.SameOrder p') : Moves .flush p p'
  /-- The page leaves. -/
  | dropped {id : PageId} {p p' : Pool}
    (hkeys : Assoc.keys p'.resident = (Assoc.keys p.resident).filter (· ≠ id))
    (hqueue : p'.queue = p.queue.erase id) : Moves (.drop id) p p'

/-- A call moves pages as it must. -/
structure PoolCall.Lawful (c : PoolCall) : Prop where
  /-- Pool and queue agree before it. -/
  sound : c.before.Sound
  /-- How the pages move. -/
  moves : Moves c.use c.before c.after

/-- Some calls lead from one pool to another, and no page moves in between. -/
inductive Traced : Pool → List PoolCall → Pool → Prop
  /-- No call is made. -/
  | still {p p' : Pool} (same : p.SameOrder p') : Traced p [] p'
  /-- A call is made, and then the others. -/
  | call {p p' : Pool} {c : PoolCall} {calls : List PoolCall} (same : p.SameOrder c.before)
    (hc : c.Lawful) (hrest : Traced c.after calls p') : Traced p (c :: calls) p'

namespace Traced

variable {p q r : Pool} {calls more : List PoolCall}

theorem of_same (same : p.SameOrder q) (h : Traced q calls r) : Traced p calls r := by
  cases h with
  | still same' => exact .still (same.trans same')
  | call same' hc hrest => exact .call (same.trans same') hc hrest

theorem append (h : Traced p calls q) (hmore : Traced q more r) : Traced p (calls ++ more) r := by
  induction h with
  | still same => exact hmore.of_same same
  | call same hc _ ih => exact .call same hc (ih hmore)

theorem then_same (h : Traced p calls q) (same : q.SameOrder r) : Traced p calls r := by
  have hall := h.append (.still same)
  rwa [List.append_nil] at hall

/-- One call that is as it must be. -/
theorem single {use : PoolUse} (hc : PoolCall.Lawful ⟨use, p, q⟩) : Traced p [⟨use, p, q⟩] q :=
  .call .refl hc (.still .refl)

end Traced

/-! ## One call -/

namespace Storage

variable {catalog : Catalog} {id : PageId} {s s' : Storage}

theorem contains_eq_false (hnone : s.pool.find? id = none) : s.pool.contains id = false := by
  simp [Pool.contains, hnone]

/-- **Finding a page** moves pages in one of the first four ways. -/
theorem moves_getPage (hs : s.pool.Sound) {r : Except Error Frame}
    (hget : s.getPage catalog id = (r, s')) : Moves (.get id) s.pool s'.pool := by
  obtain ⟨frame, hfind, -, rfl⟩ | ⟨hnone, ⟨e, -, -, rfl⟩ | ⟨page, -, ⟨victim, e, -, -, rfl⟩ |
    ⟨s₁, hroom, -, rfl⟩⟩⟩ := getPage_cases hs hget
  · exact .found (by simp [Pool.contains, hfind]) ⟨rfl, rfl⟩
  · exact .failed (contains_eq_false hnone) ⟨rfl, rfl⟩
  · exact .failed (contains_eq_false hnone) ⟨rfl, rfl⟩
  · have hs₀ : ({ s with pool := s.pool.miss } : Storage).pool.Sound := hs.count
    have hnone₁ := find?_of_makeRoom hs₀ hroom hnone
    have hs₁ := sound_of_makeRoom hs₀ hroom
    have hkeys : Assoc.keys (s₁.pool.accept id page).2.resident = Assoc.keys s₁.pool.resident ++ [id] :=
      Assoc.keys_put_of_not_mem (Assoc.find?_eq_none_iff.mp hnone₁)
    have hout : id ∉ s₁.pool.queue := fun hmem => by
      obtain ⟨frame, hfind⟩ := hs₁.mem_queue.mp hmem
      rw [hnone₁] at hfind
      cases hfind
    have hqueue : (s₁.pool.accept id page).2.queue = s₁.pool.queue ++ [id] :=
      congrArg (· ++ [id]) (List.erase_of_not_mem hout)
    cases roomMade_of_makeRoom hs₀ hroom with
    | enough hfree => exact .admitted (contains_eq_false hnone) hkeys hqueue
    | gone hfull hold hin hrest hleft =>
      refine .replaced (contains_eq_false hnone) hold ?_ (hrest ▸ hqueue)
      rw [hkeys, hleft]
      rfl

/-- Taking back a page that is in memory puts it last. -/
theorem moves_absorb {frame : Frame} (hfind : s.pool.find? frame.page.id = some frame) :
    Moves (.wrote frame.page.id) s.pool (s.pool.putFrame frame.page.id frame) :=
  .wrote (by simp [Pool.contains, hfind])
    (Assoc.keys_put_of_mem (Pool.mem_keys_iff_find?.mpr ⟨frame, hfind⟩)) rfl

theorem moves_discard (hs : s.pool.Sound) (id : PageId) :
    Moves (.drop id) s.pool (s.pool.discard id) := by
  unfold Pool.discard
  by_cases hin : s.pool.contains id = true
  · obtain ⟨frame, hfind⟩ := Option.isSome_iff_exists.mp hin
    rw [if_pos hin]
    refine .dropped ?_ ?_
    · simp only [Pool.release, hfind, Assoc.keys_remove]
    · simp only [Pool.release, hfind]
  · rw [if_neg hin]
    have hkey : id ∉ Assoc.keys s.pool.resident := fun hmem =>
      hin (Option.isSome_iff_exists.mpr (Pool.mem_keys_iff_find?.mp hmem))
    refine .dropped (List.filter_eq_self.mpr fun x hx => ?_).symm ?_
    · exact decide_eq_true fun h => hkey (h ▸ hx)
    · exact (List.erase_of_not_mem fun hmem => hkey ((hs.mem_queue_iff id).mp hmem)).symm

/-- Changing the page of a frame moves no page. -/
theorem change_sameOrder (tid : TransactionId) (frame : Frame) (page : Page) (s : Storage) :
    s.pool.SameOrder (HeapFile.change tid frame page s).2.pool :=
  ⟨Assoc.keys_map _ s.pool.resident, rfl⟩

end Storage

/-! ## The calls of an operation -/

namespace Faults

variable {f : Faults} {catalog : Catalog} {id : PageId} {h : HeapFile} {tid : TransactionId} {row row' : Row}
  {s s' : Storage}

theorem lawful_getCall (hs : s.pool.Sound) : (f.getCall catalog id s).Lawful := by
  refine ⟨hs, ?_⟩
  rcases hget : f.getPage catalog id s with ⟨result, s'⟩
  simp only [getCall, hget]
  cases result with
  | error e =>
    obtain ⟨hnone, -, rfl⟩ := (getPage_error_iff hs).mp hget
    exact .failed (contains_eq_false hnone) ⟨rfl, rfl⟩
  | ok frame =>
    obtain ⟨e, he, -⟩ | ⟨frame', -, hplain⟩ := getPage_cases hs hget
    · cases he
    · exact moves_getPage hs hplain

theorem sound_getPage (hs : s.pool.Sound) {r : Except Error Frame} (hget : f.getPage catalog id s = (r, s')) :
    s'.pool.Sound := by
  have hquiet : Quiet catalog s s' := getPage_steps hs hget
  exact hquiet.sound hs

theorem traced_getCall (hs : s.pool.Sound) :
    Traced s.pool [f.getCall catalog id s] (f.getPage catalog id s).2.pool :=
  .single (lawful_getCall hs)

theorem traced_rowsFrom (hs : s.pool.Sound) (table : TableId) (count number : Nat) (taken : List Row) :
    Traced s.pool (f.rowsFromCalls catalog table count number s)
      (f.rowsFrom catalog table count number taken s).2.pool := by
  induction count generalizing number taken s with
  | zero => exact .still .refl
  | succ count ih =>
    have hfirst : Traced s.pool _ (f.getPage catalog ⟨table, number⟩ s).2.pool := traced_getCall hs
    rcases hget : f.getPage catalog ⟨table, number⟩ s with ⟨result, s₁⟩
    have hs₁ : s₁.pool.Sound := sound_getPage hs hget
    rw [hget] at hfirst
    cases result with
    | error e => simpa only [rowsFromCalls, rowsFrom, hget] using hfirst
    | ok frame =>
      simpa only [rowsFromCalls, rowsFrom, hget, List.singleton_append] using
        hfirst.append (ih hs₁ (number + 1) (taken ++ frame.page.rows))

theorem traced_scan (hs : s.pool.Sound) (table : TableId) :
    Traced s.pool (f.scanCalls catalog table s) (f.scanRows catalog table s).2.pool := by
  unfold scanCalls scanRows
  cases catalog.file table with
  | error e => exact .still .refl
  | ok file =>
    simp only
    cases f.guard (.length table) (.ok (file.numPages s.files)) with
    | error e => exact .still .refl
    | ok count => exact traced_rowsFrom hs table count 0 []

/-! ## Storing -/

/-- A row that was stored has its place on the page that took it. -/
theorem place_of_store {frame placed : Frame} (hstore : store tid frame row s = (.ok placed, row', s')) :
    ∃ slot, row'.place = some ⟨placed.page.id, slot⟩ := by
  unfold store at hstore
  rcases hpage : frame.page.store row with ⟨result, stored⟩
  rw [hpage] at hstore
  cases result with
  | error e => cases hstore
  | ok page =>
    cases hstore
    unfold Page.store at hpage
    split at hpage
    · cases hpage
    · split at hpage
      · cases hpage
      · split at hpage <;> cases hpage
        exact ⟨_, rfl⟩

theorem place_of_storeFrom {count number : Nat} {frame : Frame}
    (hfrom : f.storeFrom h catalog tid count number row s = (.ok (some frame), row', s')) :
    ∃ slot, row'.place = some ⟨frame.page.id, slot⟩ := by
  induction count generalizing number s with
  | zero => cases hfrom
  | succ count ih =>
    unfold storeFrom at hfrom
    rcases hget : f.getPage catalog ⟨h.id, number⟩ s with ⟨result, s₁⟩
    rw [hget] at hfrom
    cases result with
    | error e => cases hfrom
    | ok found =>
      by_cases hempty : found.page.freeSlots.isEmpty = true
      · simp only [if_pos hempty] at hfrom
        exact ih hfrom
      · simp only [if_neg hempty] at hfrom
        rcases hstore : store tid found row s₁ with ⟨stored, row₁, s₂⟩
        rw [hstore] at hfrom
        cases stored <;> cases hfrom
        exact place_of_store hstore

theorem place_of_storeIn {frame : Frame} (hin : f.storeIn h catalog tid row s = (.ok frame, row', s')) :
    ∃ slot, row'.place = some ⟨frame.page.id, slot⟩ := by
  unfold storeIn at hin
  split at hin
  · cases hin
  · split at hin
    · cases hin
    · split at hin
      · cases hin
      · rename_i hfrom
        cases hin
        exact place_of_storeFrom hfrom
      · split at hin
        · cases hin
        · split at hin
          · cases hin
          · exact place_of_store hin

theorem store_sameOrder (frame : Frame) (row : Row) (s : Storage) :
    s.pool.SameOrder (store tid frame row s).2.2.pool := by
  unfold store
  split
  · exact .refl
  · exact change_sameOrder tid frame _ s

theorem grow_pool {r : Except Error PageId} (hgrow : f.grow h s = (r, s')) : s'.pool = s.pool := by
  obtain ⟨e, -, rfl⟩ | ⟨id, -, hplain⟩ := grow_cases hgrow
  · rfl
  · obtain ⟨e, -, -, rfl⟩ | ⟨page, files, -, -, -, rfl⟩ := HeapFile.grow_cases hplain <;> rfl

theorem traced_storeFrom (hs : s.pool.Sound) (count number : Nat) :
    Traced s.pool (f.storeFromCalls h catalog count number s)
      (f.storeFrom h catalog tid count number row s).2.2.pool := by
  induction count generalizing number s with
  | zero => exact .still .refl
  | succ count ih =>
    have hfirst : Traced s.pool _ (f.getPage catalog ⟨h.id, number⟩ s).2.pool := traced_getCall hs
    rcases hget : f.getPage catalog ⟨h.id, number⟩ s with ⟨result, s₁⟩
    have hs₁ : s₁.pool.Sound := sound_getPage hs hget
    rw [hget] at hfirst
    cases result with
    | error e => simpa only [storeFromCalls, storeFrom, hget] using hfirst
    | ok frame =>
      by_cases hempty : frame.page.freeSlots.isEmpty = true
      · simpa only [storeFromCalls, storeFrom, hget, if_pos hempty, List.singleton_append] using
          hfirst.append (ih hs₁ (number + 1))
      · simp only [storeFromCalls, storeFrom, hget, if_neg hempty]
        have hsame : s₁.pool.SameOrder (store tid frame row s₁).2.2.pool := store_sameOrder frame row s₁
        have hlast := hfirst.then_same hsame
        rcases hstore : store tid frame row s₁ with ⟨stored, row₁, s₂⟩
        rw [hstore] at hlast
        cases stored <;> exact hlast

theorem traced_storeIn (hs : s.pool.Sound) :
    Traced s.pool (f.storeInCalls h catalog tid row s) (f.storeIn h catalog tid row s).2.2.pool := by
  unfold storeInCalls storeIn
  split
  · exact .still .refl
  · cases f.guard (.length h.id) (.ok (h.numPages s.files)) with
    | error e => exact .still .refl
    | ok count =>
      have hsearch : Traced s.pool _ (f.storeFrom h catalog tid count 0 row s).2.2.pool :=
        traced_storeFrom hs count 0
      simp only
      rcases hfrom : f.storeFrom h catalog tid count 0 row s with ⟨result, row₁, s₁⟩
      rw [hfrom] at hsearch
      obtain ⟨e, rfl, -⟩ | ⟨rfl, hquiet, -⟩ | ⟨frame, rfl, -⟩ :=
        storeFrom_cases hs .refl (fun m hm => absurd hm (Nat.not_lt_zero m)) hfrom
      · simpa only [List.append_nil] using hsearch
      · -- all pages are full, and the new one is found too
        simp only
        rcases hgrow : f.grow h s₁ with ⟨grown, s₂⟩
        have hpool := grow_pool hgrow
        cases grown with
        | error e => simpa only [List.append_nil, hpool] using hsearch
        | ok id =>
          have hs₂ : s₂.pool.Sound := hpool ▸ hquiet.sound hs
          have hnew : Traced s₂.pool _ (f.getPage catalog id s₂).2.pool := traced_getCall hs₂
          simp only
          rcases hget : f.getPage catalog id s₂ with ⟨found, s₃⟩
          rw [hget] at hnew
          have hboth := hsearch.append (hpool ▸ hnew)
          cases found with
          | error e => exact hboth
          | ok frame => exact hboth.then_same (store_sameOrder frame row₁ s₃)
      · simpa only [List.append_nil] using hsearch

/-- Storing a row in a table: the page that took it is in memory and is put last. -/
theorem traced_insert (hs : s.pool.Sound) (table : TableId) :
    Traced s.pool (f.insertCalls catalog tid table row s)
      (f.insertRow catalog tid table row s).2.2.pool := by
  unfold insertCalls insertRow
  cases hfile : catalog.file table with
  | error e => exact .still .refl
  | ok h =>
    obtain rfl := Catalog.id_of_file hfile
    have hstored : Traced s.pool _ (f.storeIn h catalog tid row s).2.2.pool := traced_storeIn hs
    simp only
    rcases hin : f.storeIn h catalog tid row s with ⟨result, row₁, s₁⟩
    have hends := storeIn_cases hs hfile hin
    rw [hin] at hstored
    cases result with
    | error e => simpa only [List.append_nil] using hstored
    | ok frame =>
      obtain ⟨slot, hplace⟩ := place_of_storeIn hin
      cases hends with
      | done hsteps hfind =>
        have hlast : PoolCall.Lawful ⟨.wrote frame.page.id, s₁.pool, s₁.pool.putFrame frame.page.id frame⟩ :=
          ⟨hsteps.sound hs, moves_absorb hfind⟩
        simp only [absorb_of_find? hfind, hplace, Option.toList_some, List.map_cons, List.map_nil]
        exact hstored.append (.single hlast)

/-! ## Deleting -/

/-- The row that is deleted from a heap file is on the page that its place names. -/
theorem page_of_deleteIn (hs : s.pool.Sound) {place : RecordId} {frame : Frame}
    (hdel : f.deleteIn h catalog tid (some place) s = (.ok frame, s')) :
    frame.page.id = place.page := by
  unfold deleteIn at hdel
  simp only at hdel
  split at hdel
  · cases hdel
  · split at hdel
    · cases hdel
    · rename_i found s₁ hget
      split at hdel
      · cases hdel
      · rename_i page hdelete
        cases hdel
        obtain ⟨e, he, -⟩ | ⟨frame', hok, hplain⟩ := getPage_cases hs hget
        · cases he
        · cases hok
          have hs₁ : s₁.pool.Sound := sound_getPage hs hget
          exact (Page.delete_keeps hdelete).1.trans (hs₁.own_id (find?_of_getPage hs hplain))

theorem traced_deleteIn (hs : s.pool.Sound) (place : Option RecordId) :
    Traced s.pool (f.deleteInCalls h catalog place s) (f.deleteIn h catalog tid place s).2.pool := by
  unfold deleteInCalls deleteIn
  cases place with
  | none => exact .still .refl
  | some r =>
    simp only
    cases h.checkTable r.page with
    | error e => exact .still .refl
    | ok =>
      have hfound : Traced s.pool _ (f.getPage catalog r.page s).2.pool := traced_getCall hs
      simp only
      rcases hget : f.getPage catalog r.page s with ⟨result, s₁⟩
      rw [hget] at hfound
      cases result with
      | error e => exact hfound
      | ok frame =>
        simp only
        cases frame.page.delete (some r) with
        | error e => exact hfound
        | ok page => exact hfound.then_same (change_sameOrder tid frame page s₁)

/-- Deleting a row: the page that held it is in memory and is put last. -/
theorem traced_delete (hs : s.pool.Sound) (place : Option RecordId) :
    Traced s.pool (f.deleteCalls catalog tid place s) (f.deleteRow catalog tid place s).2.pool := by
  unfold deleteCalls deleteRow
  cases place with
  | none => exact .still .refl
  | some r =>
    simp only
    cases hfile : catalog.file r.page.table with
    | error e => exact .still .refl
    | ok h =>
      have hdeleted : Traced s.pool _ (f.deleteIn h catalog tid (some r) s).2.pool :=
        traced_deleteIn hs (some r)
      simp only
      rcases hdel : f.deleteIn h catalog tid (some r) s with ⟨result, s₁⟩
      rw [hdel] at hdeleted
      cases result with
      | error e => simpa only [List.append_nil] using hdeleted
      | ok frame =>
        obtain ⟨e, he, -⟩ | ⟨frame', p, hok, -, -, hsteps, hfind⟩ := deleteIn_cases hs hdel
        · cases he
        · cases hok
          have hid := page_of_deleteIn hs hdel
          have hlast : PoolCall.Lawful ⟨.wrote r.page, s₁.pool, s₁.pool.putFrame frame.page.id frame⟩ :=
            ⟨hsteps.sound hs, hid ▸ moves_absorb hfind⟩
          simp only [absorb_of_find? hfind]
          exact hdeleted.append (.single hlast)

/-! ## Writing back -/

theorem flushPage_sameOrder (id : PageId) (s : Storage) :
    s.pool.SameOrder (f.flushPage catalog id s).2.pool := by
  rcases hflush : f.flushPage catalog id s with ⟨r, s₁⟩
  obtain ⟨e, -, rfl⟩ | ⟨-, hplain⟩ := flushPage_cases hflush
  · exact .refl
  · exact ⟨(flushPage_keeps hplain).1, (flushPage_keeps hplain).2.1⟩

theorem flushEach_sameOrder (ids : List PageId) (s : Storage) :
    s.pool.SameOrder (f.flushEach catalog ids s).2.pool := by
  induction ids generalizing s with
  | nil => exact .refl
  | cons id ids ih =>
    have hfirst : s.pool.SameOrder (f.flushPage catalog id s).2.pool := flushPage_sameOrder id s
    unfold flushEach
    rcases hflush : f.flushPage catalog id s with ⟨r, s₁⟩
    rw [hflush] at hfirst
    cases r with
    | error e => exact hfirst
    | ok => exact hfirst.trans (ih s₁)

/-! ## The calls of a run -/

/-- **The calls of a trial** lead from the pool before it to the pool after it. -/
theorem traced_calls {db : Database} (hdb : db.storage.pool.Sound) (request : Request) :
    Traced db.storage.pool (f.calls db request) (f.perform db request).2.storage.pool := by
  have hflushed : ∀ {p : Pool}, db.storage.pool.SameOrder p →
      Traced db.storage.pool [⟨.flush, db.storage.pool, p⟩] p :=
    fun same => .single ⟨hdb, .flushed same⟩
  have hsame : ∀ {p : Pool}, p = db.storage.pool → Traced db.storage.pool [] p :=
    fun h => .still ⟨h ▸ rfl, h ▸ rfl⟩
  cases request with
  | task asked =>
    cases asked with
    | createTable name schema => exact hsame (Database.addFile_pool db ..)
    | insertRow tid table row => exact traced_insert hdb table
    | deleteRow tid place => exact traced_delete hdb place
    | getPage id => exact traced_getCall hdb
    | flushPage id => exact hflushed (flushPage_sameOrder id _)
    | flushPages tid => exact hflushed (flushEach_sameOrder _ _)
    | flushAll => exact hflushed (flushEach_sameOrder _ _)
    | scan table => exact traced_scan hdb table
  | addFile file name primaryKey schema pageSize => exact hsame (Database.addFile_pool db ..)
  | loadSchema name => exact .still .refl
  | clearCatalog => exact .still .refl
  | discard id => exact .single ⟨hdb, moves_discard hdb id⟩
  | insertInFile tid table row =>
    show Traced _ (match db.catalog.file table with | .error _ => [] | .ok h => _)
      (f.insertInFile db.catalog tid table row db.storage).2.2.pool
    unfold insertInFile
    cases db.catalog.file table with
    | error e => exact .still .refl
    | ok h => exact traced_storeIn hdb
  | deleteInFile tid table place =>
    show Traced _ (match db.catalog.file table with | .error _ => [] | .ok h => _)
      (f.deleteInFile db.catalog tid table place db.storage).2.pool
    unfold deleteInFile
    cases db.catalog.file table with
    | error e => exact .still .refl
    | ok h => exact traced_deleteIn hdb place

end Faults

/-- **The calls of a run** lead from the pool at its start to the pool at its end. -/
theorem Database.traced_calls {db : Database} (hdb : db.storage.pool.Sound) (deeds : List Deed) :
    Traced db.storage.pool (db.calls deeds) (db.afterDeeds deeds).storage.pool := by
  induction deeds generalizing db with
  | nil => exact .still .refl
  | cons deed deeds ih =>
    have hfirst : Traced db.storage.pool (deed.calls db) (db.afterDeed deed).storage.pool := by
      cases deed with
      | trial trial => exact Faults.traced_calls hdb trial.request
      | edit stamp act =>
        obtain ⟨hkeys, hqueue⟩ := db.storage.pool.edit_keeps stamp act
        exact .still ⟨hkeys, hqueue⟩
      | keep stamp | resetCounts | overwrite files => exact .still ⟨rfl, rfl⟩
    exact hfirst.append (ih (sound_afterDeed hdb deed))

end RowStore
