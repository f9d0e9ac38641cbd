import RowStore.Condition
import RowStore.Cursor.Leaf
import RowStore.Plan

/-!
The sources that take their rows from others.

1. `filter` passes on the rows that satisfy a condition, with their places.
2. `join` runs through its inner source once for every row of its outer source, and rewinds it
   after each run; a joined row has no place.  While the inner source is under way the row of the
   outer source is kept (`pending`); if the inner source fails, that row is given up.
3. `aggregate` reads all rows when it is started and then gives one row for each group.  It adds up
   without bounds; in machine words the same comes out for fewer than 2³² rows.
4. `write` stores or deletes all rows when it is started, one by one, and then gives one row
   with their number; rewinding it writes nothing.
-/

namespace RowStore.Source

/-! ## Filter -/

/-- The rows of `child` that satisfy a condition. -/
def filter (condition : Condition) (child : Source) : Source where
  schema := child.schema
  State := child.State
  initial := child.initial
  start := child.start
  each := fun catalog consume st a s =>
    child.each catalog
      (fun row a s => if condition.holds row then consume row a s else (.yield a, s)) st a s
  rewind := child.rewind
  close := child.close

/-! ## Join -/

/-- How far a join is. -/
structure Joining (σ τ : Type) where
  /-- The outer source. -/
  outer : σ
  /-- The inner source. -/
  inner : τ
  /-- The outer row whose run through the inner source is under way. -/
  pending : Option Row

/-- What a run through the outer source carries along: the inner source, what the consumer
    carries along, and how the run ended and at which row. -/
structure Carried (τ α : Type) where
  /-- The inner source. -/
  inner : τ
  /-- What the consumer carries along. -/
  value : α
  /-- The row and the way the run ended. -/
  ended : Option (Row × Ending)

section Join

variable {α : Type} (condition : JoinCondition) (schema : Schema) (outer inner : Source)
  (catalog : Catalog)

/-- Gives the rows that go with one outer row, and rewinds the inner source after the last of
    them.  There is no ending as long as the join goes on. -/
def joinRow (consume : Consumer α) (row : Row) (st : inner.State) (a : α) (s : Storage) :
    Option Ending × inner.State × α × Storage :=
  match inner.each catalog
      (fun right a s =>
        if condition.holds row right then consume (Row.append schema row right) a s
        else (.yield a, s)) st a s with
  | (.exhausted, st, a, s) =>
    match inner.rewind catalog st s with
    | (.error e, st, s) => (some (.failed e), st, a, s)
    | (.ok (), st, s) => (none, st, a, s)
  | (ending, st, a, s) => (some ending, st, a, s)

/-- The outer row to keep when a run through the inner source ended. -/
def keptRow (row : Row) : Ending → Option Row
  | .stopped => some row
  | .exhausted | .failed _ => none

/-- Gives the rows that go with the outer rows that are left. -/
def joinRows (consume : Consumer α) (st : Joining outer.State inner.State) (a : α)
    (s : Storage) : Ending × Joining outer.State inner.State × α × Storage :=
  let (ending, left, carried, s) := outer.each catalog
    (fun row (c : Carried inner.State α) s =>
      match joinRow condition schema inner catalog consume row c.inner c.value s with
      | (none, st, a, s) => (.yield ⟨st, a, none⟩, s)
      | (some ending, st, a, s) => (.done ⟨st, a, some (row, ending)⟩, s))
    st.outer ⟨st.inner, a, none⟩ s
  match carried.ended with
  | some (row, ending) => (ending, ⟨left, carried.inner, keptRow row ending⟩, carried.value, s)
  | none => (ending, ⟨left, carried.inner, none⟩, carried.value, s)

/-- Gives the joined rows that are left. -/
def joinEach (consume : Consumer α) (st : Joining outer.State inner.State) (a : α)
    (s : Storage) : Ending × Joining outer.State inner.State × α × Storage :=
  match st.pending with
  | none => joinRows condition schema outer inner catalog consume st a s
  | some row =>
    match joinRow condition schema inner catalog consume row st.inner a s with
    | (some ending, left, a, s) => (ending, ⟨st.outer, left, keptRow row ending⟩, a, s)
    | (none, left, a, s) =>
      joinRows condition schema outer inner catalog consume ⟨st.outer, left, none⟩ a s

/-- Does something to the outer source and then to the inner one, and gives up the row that was
    under way. -/
def joinBoth
    (onOuter : Catalog → outer.State → Storage → Except Error Unit × outer.State × Storage)
    (onInner : Catalog → inner.State → Storage → Except Error Unit × inner.State × Storage)
    (st : Joining outer.State inner.State) (s : Storage) :
    Except Error Unit × Joining outer.State inner.State × Storage :=
  match onOuter catalog st.outer s with
  | (.error e, o, s) => (.error e, { st with outer := o }, s)
  | (.ok (), o, s) =>
    match onInner catalog st.inner s with
    | (.error e, i, s) => (.error e, { st with outer := o, inner := i }, s)
    | (.ok (), i, s) => (.ok (), ⟨o, i, none⟩, s)

end Join

/-- Every row of `outer` with every row of `inner` that goes with it. -/
def join (condition : JoinCondition) (outer inner : Source) : Source where
  schema := outer.schema.append inner.schema
  State := Joining outer.State inner.State
  initial := ⟨outer.initial, inner.initial, none⟩
  start := fun catalog => joinBoth outer inner catalog outer.start inner.start
  each := fun catalog =>
    joinEach condition (outer.schema.append inner.schema) outer inner catalog
  rewind := fun catalog => joinBoth outer inner catalog outer.rewind inner.rewind
  close := fun st => ⟨outer.close st.outer, inner.close st.inner, none⟩

/-! ## Sources that read all rows first -/

/-- Starts a source and gives all its rows to an operation, which may fail. -/
def drain {α : Type} (child : Source) (catalog : Catalog)
    (operation : Row → α → Storage → Except Error α × Storage) (st : child.State) (a : α)
    (s : Storage) : Except Error α × child.State × Storage :=
  match child.start catalog st s with
  | (.error e, st, s) => (.error e, st, s)
  | (.ok (), st, s) =>
    let (ending, st, result, s) := child.each catalog
      (fun row (result : Except Error α) s =>
        match result with
        | .error e => (.done (.error e), s)
        | .ok a =>
          match operation row a s with
          | (.error e, s) => (.done (.error e), s)
          | (.ok a, s) => (.yield (.ok a), s))
      st (.ok a) s
    match ending with
    | .failed e => (.error e, st, s)
    | .exhausted | .stopped => (result, st, s)

/-- A source that has results of its own. -/
structure Holding (σ ρ : Type) where
  /-- The source below. -/
  child : σ
  /-- The results, once there are any. -/
  results : ρ

/-- The rows of an aggregation and how far it is with them. -/
abbrev AggregateState (σ : Type) := Holding σ (Option (List Row × Nat))

/-- One row for each group of the rows of `child`.  The tallies have no bounds, and those of fewer than 2³²
    rows are what words of 64 bits hold (`Aggregation.materialize_eq_reduce`). -/
def aggregate (aggregation : Aggregation) (child : Source) : Source where
  schema := aggregation.schema
  State := AggregateState child.State
  initial := ⟨child.initial, none⟩
  start := fun catalog st s =>
    match child.drain catalog (fun row groups s => (aggregation.add row groups, s))
        st.child [] s with
    | (.error e, c, s) => (.error e, { st with child := c }, s)
    | (.ok groups, c, s) =>
      match aggregation.groupRows groups with
      | .error e => (.error e, { st with child := c }, s)
      | .ok rows => (.ok (), ⟨c, some (rows, 0)⟩, s)
  each := fun _ consume st a s =>
    match st.results with
    | none => (.exhausted, st, a, s)
    | some (rows, pos) =>
      let (ending, pos, a, s) := eachOf rows consume pos a s
      (ending, { st with results := some (rows, pos) }, a, s)
  rewind := fun _ st s =>
    (.ok (), { st with results := st.results.map fun (rows, _) => (rows, 0) }, s)
  close := fun st => ⟨child.close st.child, none⟩

/-- The row of a source that writes, and whether it was given. -/
abbrev WriteState (σ : Type) := Holding σ (Option Row × Bool)

/-- Writes all rows of `child` and says how many they were. -/
def write (operation : Catalog → Row → Storage → Except Error Unit × Storage) (child : Source) :
    Source where
  schema := Plan.countSchema
  State := WriteState child.State
  initial := ⟨child.initial, none, false⟩
  start := fun catalog st s =>
    match child.drain catalog
        (fun row count s =>
          match operation catalog row s with
          | (.error e, s) => (.error e, s)
          | (.ok (), s) => (.ok (count + 1), s))
        st.child 0 s with
    | (.error e, c, s) => (.error e, { st with child := c }, s)
    | (.ok count, c, s) => (.ok (), ⟨c, some (Plan.countRow count), false⟩, s)
  each := fun _ consume st a s =>
    if st.results.2 then (.exhausted, st, a, s)
    else
      let st := { st with results := (st.results.1, true) }
      match st.results.1 with
      | none => (.exhausted, st, a, s)
      | some row =>
        match consume row a s with
        | (.done a, s) => (.stopped, st, a, s)
        | (.yield a, s) => (.exhausted, st, a, s)
  rewind := fun _ st s => (.ok (), { st with results := (st.results.1, false) }, s)
  close := fun st => ⟨child.close st.child, none, false⟩

end RowStore.Source
