import RowStore.Cursor.Derived

/-!
Cursors: plans that are being carried out.

1. A plan is carried out by the sources of its nodes, each under the same rules
   (`Source.guard`).
2. A cursor is closed at first.  `start` opens it, `hasNext` and `next` go through its rows,
   `rewind` begins again and `close` closes it.
3. `collect` takes all rows that are left.
-/

namespace RowStore

/-- The source of a node, without the rules for using it. -/
def Plan.source : Plan → Source
  | .rows schema given => Source.ofRows schema given
  | .scan table schema => Source.ofTable table schema
  | .filter condition child => Source.filter condition child.source.guard
  | .join condition outer inner => Source.join condition outer.source.guard inner.source.guard
  | .aggregate aggregation child => Source.aggregate aggregation child.source.guard
  | .insert tid table child =>
    Source.write
      (fun catalog row s =>
        match s.insertRow catalog tid table row with
        | (.error e, s) => (.error e, s)
        | (.ok _, s) => (.ok (), s))
      child.source.guard
  | .delete tid child =>
    Source.write (fun catalog row s => s.deleteRow catalog tid row.place) child.source.guard

/-- A plan that is being carried out. -/
structure Cursor where
  /-- The plan. -/
  plan : Plan
  /-- How far it is. -/
  state : Source.Guarded plan.source.State

namespace Cursor

/-- A cursor that was never opened. -/
def ofPlan (plan : Plan) : Cursor := ⟨plan, plan.source.guard.initial⟩

/-- Opens a cursor, or starts it again. -/
def start (catalog : Catalog) (c : Cursor) (s : Storage) : Except Error Unit × Cursor × Storage :=
  let (result, state, s) := Source.Guarded.start catalog c.state s
  (result, { c with state := state }, s)

/-- Whether there is a further row. -/
def hasNext (catalog : Catalog) (c : Cursor) (s : Storage) :
    Except Error Bool × Cursor × Storage :=
  let (result, state, s) := Source.Guarded.hasNext catalog c.state s
  (result, { c with state := state }, s)

/-- The next row. -/
def next (catalog : Catalog) (c : Cursor) (s : Storage) : Except Error Row × Cursor × Storage :=
  let (result, state, s) := Source.Guarded.next catalog c.state s
  (result, { c with state := state }, s)

/-- Begins with the first row again. -/
def rewind (catalog : Catalog) (c : Cursor) (s : Storage) : Except Error Unit × Cursor × Storage :=
  let (result, state, s) := Source.Guarded.rewind catalog c.state s
  (result, { c with state := state }, s)

/-- Closes a cursor. -/
def close (c : Cursor) : Cursor := { c with state := Source.Guarded.close c.state }

/-- The rows that are left, and the first error if there was one. -/
def collect (catalog : Catalog) (c : Cursor) (s : Storage) :
    List Row × Option Error × Cursor × Storage :=
  let (ending, state, rows, s) := Source.Guarded.each catalog
    (fun row (rows : List Row) s => (.yield (row :: rows), s)) c.state [] s
  let error := match ending with
    | .failed e => some e
    | .exhausted | .stopped => none
  (rows.reverse, error, { c with state := state }, s)

example :
    let schema := Schema.single "n" .int
    let numbers := Plan.rows schema ([3, 1, 2].map fun n => ⟨schema, [.int n], none⟩)
    let storage : Storage := ⟨Files.empty, Pool.empty Config.standard⟩
    let cursor := ofPlan (.filter ⟨0, .ge, .int 2⟩ numbers)
    let (_, cursor, storage) := cursor.start Catalog.empty storage
    let (rows, error, _, _) := cursor.collect Catalog.empty storage
    rows.map (·.values) = [[.int 3], [.int 2]] ∧ error = none := by decide

end Cursor

end RowStore
