import RowStore.Proofs.Cursor.Displays
import RowStore.Proofs.Cursor.Lifecycle

/-!
Runs of a cursor, move by move.

1. A `Moment` of a run is the cursor and the store before a move, and the move.  What is given, deleted
   or said at a moment is read off from these.
2. The moments of two runs, one after the other, are those of the first run and then those of the second
   (`Cursor.moments_append`), and every moment splits a run in two (`Cursor.split_of_moments`).
3. What one call of a safe source keeps, a run keeps (`Cursor.after_of_safe`).  So tables that stay the
   same files are what their pages are at every moment (`Cursor.displays_after`).
-/

namespace RowStore

open Storage Source

/-- The row that an answer gives, if it gives one. -/
def Reply.given? : Except Error Reply → Option Row
  | .ok (.row given) => some given
  | _ => none

/-- The answers that say that there is no further row. -/
def Reply.IsLast (answer : Except Error Reply) : Prop :=
  answer = .ok (.more false) ∨ answer = .error .noMoreRows

/-- A move of a run, with the cursor and the store before it. -/
structure Moment where
  /-- The cursor before the move. -/
  cursor : Cursor
  /-- The store before the move. -/
  db : Database
  /-- The move. -/
  move : Move

namespace Moment

/-- Cursor and store after the move. -/
def next (m : Moment) : Cursor × Database := m.cursor.move m.db m.move

/-- The answer, if the move is a call. -/
def answer? (m : Moment) : Option (Except Error Reply) :=
  m.move.call?.map fun call => (m.cursor.call m.db.catalog m.db.storage call).1

/-- The row that is given, if one is. -/
def given? (m : Moment) : Option Row := m.answer?.bind Reply.given?

/-- The place of the row that a client deletes, if one does. -/
def deleted? (m : Moment) : Option RecordId :=
  match m.move with
  | .request (.task (.deleteRow tid place)) =>
    match (m.db.performTask (.deleteRow tid place)).1 with
    | .ok _ => place
    | .error _ => none
  | _ => none

/-- The cursor says that there is no further row. -/
def IsLast (m : Moment) : Prop := ∃ answer, m.answer? = some answer ∧ Reply.IsLast answer

/-- What a call does and says. -/
theorem of_call {m : Moment} {call : Call} (hmove : m.move = .call call) {answer : Except Error Reply}
    {c : Cursor} {s : Storage} (h : m.cursor.call m.db.catalog m.db.storage call = (answer, c, s)) :
    m.next = (c, { m.db with storage := s }) ∧ m.answer? = some answer ∧ m.given? = Reply.given? answer ∧
      m.deleted? = none := by
  have hanswer : m.answer? = some answer := by
    unfold answer?
    rw [hmove]
    show some (m.cursor.call m.db.catalog m.db.storage call).1 = some answer
    rw [h]
  refine ⟨?_, hanswer, ?_, ?_⟩
  · unfold next
    rw [hmove]
    simp only [Cursor.move, h]
  · unfold given?
    rw [hanswer]
    rfl
  · unfold deleted?
    rw [hmove]

/-- What a request does. -/
theorem of_request {m : Moment} {request : Request} (hmove : m.move = .request request) :
    m.next = (m.cursor, (m.db.perform request).2) ∧ m.given? = none := by
  refine ⟨?_, ?_⟩
  · unfold next
    rw [hmove]
    rfl
  · unfold given? answer?
    rw [hmove]
    rfl

end Moment

namespace Cursor

/-- Cursor and store after a run. -/
def after (c : Cursor) (db : Database) : List Move → Cursor × Database
  | [] => (c, db)
  | move :: moves => (c.move db move).1.after (c.move db move).2 moves

/-- The moments of a run. -/
def moments (c : Cursor) (db : Database) : List Move → List Moment
  | [] => []
  | move :: moves => ⟨c, db, move⟩ :: (c.move db move).1.moments (c.move db move).2 moves

variable {c : Cursor} {db d : Database} {first second moves : List Move}

/-- The first moment of a run, and the moments of the rest. -/
theorem moments_cons (move : Move) : c.moments db (move :: moves) =
    ⟨c, db, move⟩ :: (Moment.next ⟨c, db, move⟩).1.moments (Moment.next ⟨c, db, move⟩).2 moves := rfl

theorem moments_append : c.moments db (first ++ second) =
    c.moments db first ++ (c.after db first).1.moments (c.after db first).2 second := by
  induction first generalizing c db with
  | nil => rfl
  | cons move first ih =>
    show _ :: _ = _ :: _
    exact congrArg (_ :: ·) ih

/-- A moment splits a run into the moves before it and those after it. -/
theorem split_of_moments {early late : List Moment} {m : Moment}
    (h : c.moments db moves = early ++ m :: late) :
    ∃ first second, moves = first ++ m.move :: second ∧ c.moments db first = early ∧
      c.after db first = (m.cursor, m.db) := by
  induction moves generalizing c db early with
  | nil =>
    cases early <;> cases h
  | cons move moves ih =>
    cases early with
    | nil =>
      cases h
      exact ⟨[], moves, rfl, rfl, rfl⟩
    | cons old early =>
      obtain ⟨rfl, hrest⟩ := List.cons.inj h
      obtain ⟨first, second, rfl, rfl, hafter⟩ := ih hrest
      exact ⟨move :: first, second, rfl, rfl, hafter⟩

/-- The stores of the first part of a run are stores of the run. -/
theorem mem_stores_of_first (hd : d ∈ c.stores db first) : d ∈ c.stores db (first ++ second) := by
  induction first generalizing c db with
  | nil =>
    obtain rfl := List.mem_singleton.mp hd
    exact mem_stores _ _ _
  | cons move first ih =>
    rcases List.mem_cons.mp hd with rfl | hd
    · exact List.mem_cons_self
    · exact List.mem_cons_of_mem _ (ih hd)

/-- The stores of the second part of a run are stores of the run. -/
theorem mem_stores_of_second (hd : d ∈ (c.after db first).1.stores (c.after db first).2 second) :
    d ∈ c.stores db (first ++ second) := by
  induction first generalizing c db with
  | nil => exact hd
  | cons move first ih => exact List.mem_cons_of_mem _ (ih hd)

/-- The store between two parts of a run is one of its stores. -/
theorem after_mem_stores (c : Cursor) (db : Database) (first second : List Move) :
    (c.after db first).2 ∈ c.stores db (first ++ second) :=
  mem_stores_of_second (mem_stores _ _ _)

/-- **A run.**  If the source of a plan is safe in all stores that the run goes through, what it keeps
    holds when the run ends, and the cursor is ready if it is open. -/
theorem after_of_safe {Q : Row → Prop} {fails : Error → Prop} {plan : Plan}
    {ready : plan.source.State → Prop} {g : Guarded plan.source.State} {W : Database → Prop}
    (hsrc : ∀ d, W d → Safe d.catalog (fun s => W { d with storage := s }) Q fails plan.source ready)
    (hrequests : ∀ d request, .request request ∈ moves →
      (d.perform request).2 ∈ Cursor.stores ⟨plan, g⟩ db moves → W d → W (d.perform request).2)
    (hg : g.isOpen = true → Guarded.Ready Q ready g) (hdb : W db) :
    ∃ g' : Guarded plan.source.State, (Cursor.after ⟨plan, g⟩ db moves).1 = ⟨plan, g'⟩ ∧
      (g'.isOpen = true → Guarded.Ready Q ready g') ∧ W (Cursor.after ⟨plan, g⟩ db moves).2 := by
  induction moves generalizing g db with
  | nil => exact ⟨g, rfl, hg, hdb⟩
  | cons first moves ih =>
    have hrest : ∀ {g' : Guarded plan.source.State} {db' : Database},
        Cursor.move ⟨plan, g⟩ db first = (⟨plan, g'⟩, db') →
        ∀ d request, .request request ∈ moves →
          (d.perform request).2 ∈ Cursor.stores ⟨plan, g'⟩ db' moves → W d →
          W (d.perform request).2 := by
      intro g' db' hmove d request hmem hstore
      apply hrequests d request (List.mem_cons_of_mem _ hmem)
      apply List.mem_cons_of_mem
      rwa [hmove]
    show ∃ g' : Guarded plan.source.State,
      (Cursor.after (Cursor.move ⟨plan, g⟩ db first).1 (Cursor.move ⟨plan, g⟩ db first).2 moves).1 =
        ⟨plan, g'⟩ ∧ _ ∧ W (Cursor.after _ _ moves).2
    cases first with
    | request request =>
      have hd := hrequests db request List.mem_cons_self
        (List.mem_cons_of_mem _ (mem_stores _ _ _)) hdb
      exact ih (hrest rfl) hg hd
    | call asked =>
      rcases hcall : Cursor.call db.catalog ⟨plan, g⟩ db.storage asked with ⟨answer, c', s⟩
      obtain ⟨hs, -, g', rfl, hg', -⟩ := call_safe (hsrc db hdb) hg hdb hcall
      have hmove : Cursor.move ⟨plan, g⟩ db (.call asked) = (⟨plan, g'⟩, { db with storage := s }) := by
        simp only [Cursor.move, hcall]
      rw [hmove]
      exact ih (hrest hmove) hg' hs

/-- Whatever a cursor and others did, tables that stayed the same files are what their pages are. -/
theorem displays_after {plan : Plan} {ids : List TableId}
    (hdisplays : Displays db.catalog ids db.paged db.storage)
    (hstays : ∀ d ∈ (Cursor.ofPlan plan).stores db moves, ∀ id ∈ ids, d.catalog.file id = db.catalog.file id) :
    (∃ g, ((Cursor.ofPlan plan).after db moves).1 = ⟨plan, g⟩) ∧
      Displays ((Cursor.ofPlan plan).after db moves).2.catalog ids
        ((Cursor.ofPlan plan).after db moves).2.paged ((Cursor.ofPlan plan).after db moves).2.storage := by
  let shown : Database → Prop := fun d =>
    (∀ id ∈ ids, d.catalog.file id = db.catalog.file id) ∧ Displays d.catalog ids d.paged d.storage
  obtain ⟨ready, hsafe⟩ := plan.safe_steps
  have hsource : ∀ d, shown d → Safe d.catalog (fun s => shown { d with storage := s }) (fun _ => True)
      (· ≠ .notOpen) plan.source ready := by
    intro d _
    refine hsafe d.catalog _ (fun hs => hs.2.sound) ?_
    intro s s' hs hsteps
    exact ⟨hs.1, Database.displays_of_steps hs.2 (fun _ _ => rfl) hsteps⟩
  have hrequests : ∀ d request, Move.request request ∈ moves →
      (d.perform request).2 ∈ (Cursor.ofPlan plan).stores db moves → shown d →
      shown (d.perform request).2 := by
    intro d request _ hstore hd
    have hsame := hstays _ hstore
    refine ⟨hsame, Database.displays_of_steps hd.2 ?_ (Database.perform_steps hd.2.sound request)⟩
    exact fun id hid => (hsame id hid).trans (hd.1 id hid).symm
  have hfirst : shown db := ⟨fun _ _ => rfl, hdisplays⟩
  obtain ⟨g, hcursor, -, -, hlast⟩ := after_of_safe hsource hrequests
    (fun hopen => absurd hopen Bool.false_ne_true) hfirst
  exact ⟨⟨g, hcursor⟩, hlast⟩

end Cursor

end RowStore
