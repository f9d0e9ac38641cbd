import RowStore.Proofs.Cursor.Moments

/-!
Stores that can come about.

Program.  A store is opened and asked, and cursors over plans are made and called, several of them at the
same time.  Each request and each call may write.

1. `Database.Reached one cursors db` says that the store `db`, with `cursors` in use, can come about.  The
   assumption on the way is that a table, whenever there is one, is the file that `one` names: there is one
   schema and one page size for each file (`Database.Follows`).
2. Then every such file is at any time a table that an archive can have (`Reached.displays`).

Crux.  Every request and every call is a run of steps of the storage.  For a call that needs to know how
the cursor came to its state (`Cursor.Usable`), which the cursors in use keep.
-/

namespace RowStore

open Storage Source

/-! ## One file for each table -/

/-- Every table that the catalog knows is the file that `one` names. -/
def Database.Follows (one : TableId → HeapFile) (db : Database) : Prop :=
  ∀ e ∈ db.catalog.entries, e.file = one e.file.id

instance (one : TableId → HeapFile) (db : Database) : Decidable (db.Follows one) :=
  inferInstanceAs (Decidable (∀ e ∈ db.catalog.entries, e.file = one e.file.id))

variable {one : TableId → HeapFile} {cursors : List Cursor} {db : Database} {h : HeapFile}

theorem Database.Follows.eq_of_file (hdb : db.Follows one) {id : TableId}
    (hfile : db.catalog.file id = .ok h) : h = one h.id := by
  obtain ⟨e, hentry, rfl⟩ := Catalog.mem_of_file hfile
  exact hdb e hentry

/-- A file that `one` names is known as itself or not at all. -/
theorem Database.Follows.only (hdb : db.Follows one) (hone : one h.id = h) :
    ∀ g, db.catalog.file h.id = .ok g → g = h := by
  intro g hg
  rw [hdb.eq_of_file hg, Catalog.id_of_file hg, hone]

/-! ## Cursors in use -/

/-- The state of a cursor is one that its calls can lead to. -/
def Cursor.Usable (c : Cursor) : Prop :=
  ∃ ready, (∀ (catalog : Catalog) (W : Storage → Prop), (∀ {s}, W s → s.pool.Sound) →
    (∀ {s s'}, W s → Steps catalog (fun _ => True) s s' → W s') →
    Safe catalog W (fun _ => True) (· ≠ .notOpen) c.plan.source ready) ∧
  (c.state.isOpen = true → Guarded.Ready (fun _ => True) ready c.state)

theorem Cursor.usable_ofPlan (plan : Plan) : (Cursor.ofPlan plan).Usable := by
  obtain ⟨ready, hsafe⟩ := plan.safe_steps
  exact ⟨ready, hsafe, fun hopen => absurd hopen Bool.false_ne_true⟩

/-- A call is a run of steps, and the cursor stays usable. -/
theorem Cursor.Usable.call {c : Cursor} (hc : c.Usable) {catalog : Catalog} {s : Storage}
    (hs : s.pool.Sound) (asked : Call) :
    Steps catalog (fun _ => True) s (c.call catalog s asked).2.2 ∧ (c.call catalog s asked).2.1.Usable := by
  obtain ⟨ready, hsafe, hready⟩ := hc
  have hsource := hsafe catalog (fun s' => s'.pool.Sound ∧ Steps catalog (fun _ => True) s s') And.left
    fun ⟨hs₁, hbefore⟩ hsteps => ⟨hsteps.sound hs₁, hbefore.trans hsteps⟩
  rcases hcall : c.call catalog s asked with ⟨answer, c', s'⟩
  obtain ⟨⟨-, hsteps⟩, -, g', rfl, hready', -⟩ := Cursor.call_safe hsource hready ⟨hs, .refl⟩ hcall
  exact ⟨hsteps, ready, hsafe, hready'⟩

/-! ## Stores -/

/-- The store `db` can come about, with `cursors` in use, while every table is the file that `one`
    names. -/
inductive Database.Reached (one : TableId → HeapFile) : List Cursor → Database → Prop
  /-- A store is opened. -/
  | opened {files files' : Files} {directory : String} {config : Config} {db : Database}
    (hopen : Database.create files directory config = (.ok db, files')) : Reached one [] db
  /-- Something is asked of it. -/
  | asked {cursors : List Cursor} {db : Database} (hdb : Reached one cursors db) (request : Request)
    (hfollows : (db.perform request).2.Follows one) : Reached one cursors (db.perform request).2
  /-- A cursor over a plan is made. -/
  | made {cursors : List Cursor} {db : Database} (hdb : Reached one cursors db) (plan : Plan) :
    Reached one (Cursor.ofPlan plan :: cursors) db
  /-- One of the cursors is called. -/
  | called {before after : List Cursor} {c : Cursor} {db : Database}
    (hdb : Reached one (before ++ c :: after) db) (call : Call) :
    Reached one (before ++ (c.move db (.call call)).1 :: after) (c.move db (.call call)).2

namespace Database.Reached

/-- **Whatever came about**, pool and queue agree, the cursors are usable, and every file that `one` names
    is a table that an archive can have. -/
theorem displays (hdb : db.Reached one cursors) :
    db.storage.pool.Sound ∧ db.Follows one ∧ (∀ c ∈ cursors, c.Usable) ∧
      ∀ h, one h.id = h → ∃ now, h.Displays now db.storage := by
  induction hdb with
  | opened hopen =>
    obtain ⟨-, hpool, -, rfl⟩ := create_cases hopen
    refine ⟨Pool.sound_empty hpool, nofun, nofun, fun h _ => ?_⟩
    by_cases hfits : h.Fits
    · exact ⟨_, Or.inl (HeapFile.holds_pages (.of_none hfits fun _ => rfl) (Pool.sound_empty hpool))⟩
    · exact ⟨⟨h.schema, []⟩, Or.inr ⟨⟨hfits, fun _ => rfl⟩, rfl⟩⟩
  | asked _ request hfollows' ih =>
    obtain ⟨hs, hfollows, husable, hheld⟩ := ih
    have hsteps := perform_steps hs request
    refine ⟨hsteps.sound hs, hfollows', husable, fun h hone => ?_⟩
    obtain ⟨now, hd⟩ := hheld h hone
    exact hd.after_steps hs (hfollows.only hone) hsteps
  | made _ plan ih =>
    obtain ⟨hs, hfollows, husable, hheld⟩ := ih
    exact ⟨hs, hfollows, List.forall_mem_cons.mpr ⟨Cursor.usable_ofPlan plan, husable⟩, hheld⟩
  | @called before after c db _ call ih =>
    obtain ⟨hs, hfollows, husable, hheld⟩ := ih
    have hc : c.Usable := husable c (List.mem_append_right _ List.mem_cons_self)
    obtain ⟨hsteps, hc'⟩ := hc.call hs call
    refine ⟨hsteps.sound hs, hfollows, fun other hother => ?_, fun h hone => ?_⟩
    · rcases List.mem_append.mp hother with hmem | hmem
      · exact husable other (List.mem_append_left _ hmem)
      · rcases List.mem_cons.mp hmem with rfl | hmem
        · exact hc'
        · exact husable other (List.mem_append_right _ (List.mem_cons_of_mem _ hmem))
    · obtain ⟨now, hd⟩ := hheld h hone
      exact hd.after_steps hs (hfollows.only hone) hsteps

/-- Some requests are asked one after the other. -/
theorem after (hdb : db.Reached one cursors) {requests : List Request}
    (hfollows : ∀ d ∈ db.states requests, d.Follows one) : (db.after requests).Reached one cursors := by
  induction requests generalizing db with
  | nil => exact hdb
  | cons request requests ih =>
    have hrest := fun d hd => hfollows d (List.mem_cons_of_mem _ hd)
    have hnext : (db.perform request).2 ∈ (db.perform request).2.states requests := by
      cases requests <;> exact List.mem_cons_self
    exact ih (hdb.asked request (hrest _ hnext)) hrest

/-- One of the cursors is used, and requests are asked in between. -/
theorem run {c : Cursor} (hdb : db.Reached one (c :: cursors)) (moves : List Move)
    (hfollows : ∀ d ∈ c.stores db moves, d.Follows one) :
    (c.after db moves).2.Reached one ((c.after db moves).1 :: cursors) := by
  induction moves generalizing c db with
  | nil => exact hdb
  | cons move moves ih =>
    have hrest : ∀ d ∈ (c.move db move).1.stores (c.move db move).2 moves, d.Follows one :=
      fun d hd => hfollows d (List.mem_cons_of_mem _ hd)
    refine ih ?_ hrest
    cases move with
    | request request => exact hdb.asked request (hrest _ (Cursor.mem_stores _ _ _))
    | call call =>
      have hnext : Reached one ([] ++ (c.move db (.call call)).1 :: cursors) (c.move db (.call call)).2 :=
        .called hdb call
      exact hnext

/-- One of the cursors is started. -/
theorem started {c opened : Cursor} (hdb : db.Reached one (c :: cursors)) {r : Except Error Unit}
    {s : Storage} (hstart : c.start db.catalog db.storage = (r, opened, s)) :
    Reached one (opened :: cursors) { db with storage := s } := by
  have hnext : Reached one ([] ++ (c.move db (.call .start)).1 :: cursors) (c.move db (.call .start)).2 :=
    .called hdb .start
  simp only [Cursor.move, Cursor.call, Reply.of, hstart] at hnext
  exact hnext

/-- The stores at the moments of a run can come about. -/
theorem moment {c : Cursor} (hdb : db.Reached one (c :: cursors)) {moves : List Move}
    (hfollows : ∀ d ∈ c.stores db moves, d.Follows one) {m : Moment} (hm : m ∈ c.moments db moves) :
    m.db.Reached one (m.cursor :: cursors) := by
  obtain ⟨early, late, hmoments⟩ := List.mem_iff_append.mp hm
  obtain ⟨first, second, rfl, -, hafter⟩ := Cursor.split_of_moments hmoments
  have hrun := hdb.run first fun d hd => hfollows d (Cursor.mem_stores_of_first hd)
  rwa [hafter] at hrun

end Database.Reached

end RowStore
