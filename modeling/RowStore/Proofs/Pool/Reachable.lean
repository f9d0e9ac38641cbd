import RowStore.Proofs.Requests.Reasons

/-!
The pool and its queue agree in every store that can come about.

Program.  A store is opened and used, with requests that succeed or fail, uses of files that fail
meanwhile, changes of the catalog and cursors in between (`Database.Visited`).

1. Pool and queue agree in every such store (`Database.Visited.sound`) and at every step of an
   operation on it.  The capacity is what the store was opened with (`Database.Visited.capacity`).
2. A sound pool that is full has an oldest page, which is in memory.  So room is always made by
   letting at most one page go (`Faults.roomMade`), and the search for a page to evict never comes
   back with none.

Point 2 needs that every error that a request can have says something else
(`Faults.Explained.lacksVictim`).
-/

namespace RowStore

/-- Whether an error says that there was no page to evict, or that this is why a page could not
    leave. -/
def Error.lacksVictim : Error → Bool
  | .missing .victim => true
  | .eviction _ source => source.lacksVictim
  | _ => false

/-- An operation that failed did not lack a page to evict, unless this is what a file said. -/
theorem Faults.Explained.lacksVictim {f : Faults} {e : Error} (h : f.Explained e)
    (hf : ∀ access cause, f.error? access = some cause → cause.lacksVictim = false) :
    e.lacksVictim = false := by
  induction h with
  | @plain e hplain =>
    cases e with
    | missing cause => cases cause <;> first | rfl | cases hplain
    | eviction victim source => cases hplain
    | _ => rfl
  | use hfails => exact hf _ _ hfails
  | eviction _ ih => exact ih

/-! ## Making room -/

namespace Storage

variable {catalog : Catalog} {s s' : Storage}

/-- How room is made in a pool that agrees with its queue. -/
inductive RoomMade (s : Storage) : Except Error Unit → Storage → Prop where
  /-- There is room, and nothing happens. -/
  | enough (hroom : s.pool.size < s.pool.capacity) : RoomMade s (.ok ()) s
  /-- The oldest page is in memory and cannot be written, and everything stays. -/
  | stuck {victim : PageId} {rest : List PageId} {e : Error}
    (hfull : s.pool.size = s.pool.capacity) (hqueue : s.pool.queue = victim :: rest)
    (hin : s.pool.contains victim = true) : RoomMade s (.error (.eviction victim e)) s
  /-- The oldest page is in memory and goes, and no other page. -/
  | gone {victim : PageId} {rest : List PageId} {s' : Storage}
    (hfull : s.pool.size = s.pool.capacity) (hqueue : s.pool.queue = victim :: rest)
    (hin : s.pool.contains victim = true) (hrest : s'.pool.queue = rest)
    (hkeys : Assoc.keys s'.pool.resident = (Assoc.keys s.pool.resident).filter (· ≠ victim)) :
    RoomMade s (.ok ()) s'

theorem roomMade_of_makeRoom (hs : s.pool.Sound) {r : Except Error Unit}
    (h : makeRoom catalog s = (r, s')) : RoomMade s r s' := by
  have hfull : s.pool.hasRoom = false → s.pool.size = s.pool.capacity := by
    intro hno
    have hge : ¬ s.pool.size < s.pool.capacity := by simpa [Pool.hasRoom] using hno
    have hle : s.pool.size ≤ s.pool.capacity := hs.size_le
    omega
  obtain ⟨hroom, rfl, rfl⟩ | ⟨hno, victim, rest, frame, hqueue, hfind,
    ⟨e, -, -, rfl, rfl⟩ | ⟨s₁, hflush, rfl, -, rfl⟩⟩ := makeRoom_cases hs h
  · exact .enough (by simpa [Pool.hasRoom] using hroom)
  · exact .stuck (hfull hno) hqueue (by simp [Pool.contains, hfind])
  · have hin : s.pool.contains victim = true := by simp [Pool.contains, hfind]
    refine .gone (hfull hno) hqueue hin rfl ?_
    obtain ⟨hkeys, -, -⟩ := flushPage_keeps hflush
    obtain ⟨f, hf⟩ : ∃ f, s₁.pool.find? victim = some f := by
      rw [← Pool.mem_keys_iff_find?, hkeys, Pool.mem_keys_iff_find?]
      exact ⟨frame, hfind⟩
    simp only [Pool.release, hf, Assoc.keys_remove, hkeys]

end Storage

open Storage

/-- Room is made in the same way whatever uses of files fail. -/
theorem Faults.roomMade {f : Faults} {catalog : Catalog} {s s' : Storage} (hs : s.pool.Sound)
    {r : Except Error Unit} (h : f.makeRoom catalog s = (r, s')) : RoomMade s r s' := by
  obtain ⟨e, rfl, rfl⟩ | ⟨rfl, hmade⟩ := makeRoom_cases hs h
  · obtain ⟨hfull, victim, rest, cause, hqueue, hflush, rfl⟩ := (makeRoom_error_iff hs).mp h
    obtain ⟨frame, hfind, -, -⟩ := (flushPage_error_iff hs).mp hflush
    exact .stuck hfull hqueue (by simp [Pool.contains, hfind])
  · exact roomMade_of_makeRoom hs hmade

/-! ## The pool in every store that can come about -/

namespace Database

/-- The sizes of a store stay, whatever fails. -/
theorem config_perform (f : Faults) (db : Database) (request : Request) :
    (f.perform db request).2.config = db.config := by
  have hplain := (perform_keeps db request).1
  cases request with
  | task asked =>
    cases asked with
    | createTable name schema => exact hplain
    | _ => rfl
  | addFile file name primaryKey schema pageSize => exact hplain
  | loadSchema name => exact hplain
  | _ => rfl

/-- Whatever came about, the pool has the capacity that the store was opened with. -/
theorem Visited.capacity {cursors : List Cursor} {db : Database} (hdb : db.Visited cursors) :
    db.storage.pool.capacity = db.config.poolPages := by
  induction hdb with
  | opened hopen =>
    obtain ⟨-, -, -, rfl⟩ := create_cases hopen
    rfl
  | @done cursors db hdb deed ih =>
    cases deed with
    | trial trial =>
      have hsteps := Faults.perform_steps (f := trial.faults) hdb.sound.1 trial.request
      show (trial.faults.perform db trial.request).2.storage.pool.capacity =
        (trial.faults.perform db trial.request).2.config.poolPages
      rw [hsteps.capacity hdb.sound.1, config_perform, ih]
    | edit stamp act =>
      show (db.storage.pool.edit stamp act).capacity = db.config.poolPages
      rw [← ih]
      unfold Pool.edit
      split <;> rfl
    | _ => exact ih
  | made _ plan ih => exact ih
  | @called before after c db hdb call ih =>
    have hc : c.Usable := hdb.sound.2 c (List.mem_append_right _ List.mem_cons_self)
    have hsteps : Steps db.catalog _ db.storage (c.move db (.call call)).2.storage :=
      (hc.call hdb.sound.1 call).1
    exact (hsteps.capacity hdb.sound.1).trans ih

/-- **The pool and its queue agree**, in every store that can come about by requests that succeed or
    fail, uses of files that fail, changes of the catalog and cursors, and at every step of an
    operation on it.  There are never more pages in memory than the store was opened for, the queue
    names exactly the pages in memory, each once, and a page is kept under its own number.  So
    whatever uses of files fail, room is made by letting at most one page go, which is in memory,
    and no request is answered with the lack of a page to evict, unless a file fails with that
    error. -/
theorem pool_agrees_with_queue {cursors : List Cursor} {db : Database} (hdb : db.Visited cursors)
    {catalog : Catalog} {may : Effect → Prop} {s : Storage} (hsteps : Steps catalog may db.storage s) :
    s.pool.capacity = db.config.poolPages ∧ s.pool.size ≤ db.config.poolPages ∧
      s.pool.queue.Nodup ∧ (Assoc.keys s.pool.resident).Nodup ∧
      (∀ id, id ∈ s.pool.queue ↔ s.pool.contains id = true) ∧
      (∀ id frame, s.pool.find? id = some frame → frame.page.id = id) ∧
      (∀ (f : Faults) catalog r s', f.makeRoom catalog s = (r, s') → RoomMade s r s') ∧
      ∀ (f : Faults) request e,
        (∀ access cause, f.error? access = some cause → cause.lacksVictim = false) →
        (f.perform db request).1 = .error e → e.lacksVictim = false := by
  have hs := hsteps.sound hdb.sound.1
  have hcap : s.pool.capacity = db.config.poolPages := (hsteps.capacity hdb.sound.1).trans hdb.capacity
  refine ⟨hcap, hcap ▸ hs.size_le, hs.queue_nodup, hs.keys_nodup, ?_, ?_, ?_, ?_⟩
  · intro id
    rw [hs.mem_queue, Pool.contains, Option.isSome_iff_exists]
  · intro id frame hfind
    exact hs.own_id hfind
  · intro f catalog r s' h
    exact Faults.roomMade hs h
  · intro f request e hf herror
    exact (Faults.explained_perform hdb.sound.1 herror).lacksVictim hf

/-- In a store for one page, a changed page cannot be written when a row is stored in another table, and
    stays.  The catalog is made anew, and the page still cannot be written when a page of that table is
    asked for. -/
theorem pool_agrees_with_queue_after_refusal :
    let schema := Schema.single "n" .int
    let a := tableIdOf ["d", "a.dat"]
    let b := tableIdOf ["d", "b.dat"]
    let fault : Error := .storage (.described "no space left")
    let broken : Faults := ⟨fun | .write page => if page.table = a then some fault else none | _ => none⟩
    let deeds : List Deed :=
      [.trial ⟨.never, .task (.createTable "a" schema)⟩, .trial ⟨.never, .task (.createTable "b" schema)⟩,
       .trial ⟨.never, .task (.insertRow ⟨0⟩ a ⟨schema, [.int 1], none⟩)⟩,
       .trial ⟨broken, .task (.insertRow ⟨0⟩ b ⟨schema, [.int 2], none⟩)⟩, .trial ⟨.never, .clearCatalog⟩,
       .trial ⟨.never, .task (.createTable "a" schema)⟩, .trial ⟨.never, .task (.createTable "b" schema)⟩]
    ∃ db files', create Files.empty "/d" ⟨64, 1⟩ = (.ok db, files') ∧
      (broken.perform (db.afterDeeds deeds) (.task (.getPage ⟨b, 0⟩))).1 =
        .error (.eviction ⟨a, 0⟩ fault) ∧
      (Error.eviction ⟨a, 0⟩ fault).lacksVictim = false ∧
      (db.afterDeeds deeds).storage.pool.queue = [⟨a, 0⟩] ∧
      (db.afterDeeds deeds).storage.pool.size ≤ 1 ∧
      (db.afterDeeds deeds).storage.pool.contains ⟨a, 0⟩ = true := by
  intro schema a b fault broken deeds
  let db : Database := ⟨"/d", ⟨64, 1⟩, Catalog.empty, ⟨⟨[], [["d"]], []⟩, Pool.empty ⟨64, 1⟩⟩⟩
  have hopen : create Files.empty "/d" ⟨64, 1⟩ = (.ok db, ⟨[], [["d"]], []⟩) := rfl
  have hvisited : (db.afterDeeds deeds).Visited [] := (Visited.opened hopen).after deeds
  have hqueue : (db.afterDeeds deeds).storage.pool.queue = [⟨a, 0⟩] := by decide +kernel
  have hanswer : (broken.perform (db.afterDeeds deeds) (.task (.getPage ⟨b, 0⟩))).1 =
      .error (.eviction ⟨a, 0⟩ fault) := by decide +kernel
  have hcap : (db.afterDeeds deeds).config.poolPages = 1 := by decide +kernel
  have hfiles : ∀ access cause, broken.error? access = some cause → cause.lacksVictim = false := by
    intro access cause hfails
    cases access with
    | write page =>
      have hgiven : (if page.table = a then some fault else none) = some cause := hfails
      split at hgiven <;> cases hgiven
      rfl
    | _ => cases hfails
  have hnone : Steps Catalog.empty (fun _ => False) (db.afterDeeds deeds).storage
    (db.afterDeeds deeds).storage := .refl
  obtain ⟨-, hsize, -, -, hin, -, -, herrors⟩ := pool_agrees_with_queue hvisited hnone
  refine ⟨db, _, hopen, hanswer, herrors broken _ _ hfiles hanswer, hqueue, hcap ▸ hsize, ?_⟩
  exact (hin ⟨a, 0⟩).mp (hqueue ▸ List.mem_singleton_self _)

end Database

end RowStore
