import RowStore.Storage.Rows

/-!
Sources of rows, and the rules for using them.

1. A `Source` gives its rows one after the other to a consumer, who may look at the storage and
   change it, and who says after each row whether to go on (`each`).  A source that was stopped
   goes on with the next row when it is asked again.
2. `guard` adds the rules that hold for every source.  It is closed at first; while it is closed
   it gives no rows and cannot be rewound.  It can look one row ahead, and a row that was looked
   at is given before all others.
3. A failed start or rewind leaves the guard as it was: open if it was open, and with the row
   that it had looked at.
-/

namespace RowStore

/-- How a run through the rows of a source ended. -/
inductive Ending where
  /-- There is no further row. -/
  | exhausted
  /-- The consumer had enough. -/
  | stopped
  /-- The source could not go on. -/
  | failed (error : Error)
  deriving DecidableEq

/-- What is done with a row: something to go on with, or to stop with. -/
abbrev Consumer (α : Type) := Row → α → Storage → ForInStep α × Storage

/-- Something that gives rows. -/
structure Source where
  /-- What the rows look like. -/
  schema : Schema
  /-- How far the source is. -/
  State : Type
  /-- The state of a source that was never started. -/
  initial : State
  /-- Begins with the first row. -/
  start : Catalog → State → Storage → Except Error Unit × State × Storage
  /-- Gives the rows that are left to a consumer. -/
  each : {α : Type} → Catalog → Consumer α → State → α → Storage →
    Ending × State × α × Storage
  /-- Begins with the first row again. -/
  rewind : Catalog → State → Storage → Except Error Unit × State × Storage
  /-- Forgets where it was. -/
  close : State → State

namespace Source

/-- The next row of a source, if there is one. -/
def fetch (src : Source) (catalog : Catalog) (st : src.State) (s : Storage) :
    Except Error (Option Row) × src.State × Storage :=
  match src.each catalog (fun row _ s => (.done (some row), s)) st none s with
  | (.failed e, st, _, s) => (.error e, st, s)
  | (.exhausted, st, row, s) | (.stopped, st, row, s) => (.ok row, st, s)

/-- The state of a guarded source. -/
structure Guarded (σ : Type) where
  /-- Whether it may be used. -/
  isOpen : Bool
  /-- The row that was looked at. -/
  ahead : Option Row
  /-- The state of the source itself. -/
  inner : σ

namespace Guarded

variable {src : Source}

/-- Opens a source, or starts it again. -/
def start (catalog : Catalog) (g : Guarded src.State) (s : Storage) :
    Except Error Unit × Guarded src.State × Storage :=
  match src.start catalog g.inner s with
  | (.error e, inner, s) => (.error e, { g with inner := inner }, s)
  | (.ok (), inner, s) => (.ok (), ⟨true, none, inner⟩, s)

/-- Gives the rows that are left, the one that was looked at first. -/
def each {α : Type} (catalog : Catalog) (consume : Consumer α) (g : Guarded src.State) (a : α)
    (s : Storage) : Ending × Guarded src.State × α × Storage :=
  if !g.isOpen then (.failed .notOpen, g, a, s)
  else
    let (step, s) :=
      match g.ahead with
      | some row => consume row a s
      | none => (.yield a, s)
    match step with
    | .done a => (.stopped, { g with ahead := none }, a, s)
    | .yield a =>
      let (ending, inner, a, s) := src.each catalog consume g.inner a s
      (ending, { g with ahead := none, inner := inner }, a, s)

/-- Begins with the first row again. -/
def rewind (catalog : Catalog) (g : Guarded src.State) (s : Storage) :
    Except Error Unit × Guarded src.State × Storage :=
  if !g.isOpen then (.error .notOpen, g, s)
  else match src.rewind catalog g.inner s with
    | (.error e, inner, s) => (.error e, { g with inner := inner }, s)
    | (.ok (), inner, s) => (.ok (), { g with ahead := none, inner := inner }, s)

/-- Closes a source. -/
def close (g : Guarded src.State) : Guarded src.State := ⟨false, none, src.close g.inner⟩

/-- Whether there is a further row; it is looked at. -/
def hasNext (catalog : Catalog) (g : Guarded src.State) (s : Storage) :
    Except Error Bool × Guarded src.State × Storage :=
  if !g.isOpen then (.error .notOpen, g, s)
  else match g.ahead with
    | some _ => (.ok true, g, s)
    | none =>
      match src.fetch catalog g.inner s with
      | (.error e, inner, s) => (.error e, { g with inner := inner }, s)
      | (.ok row, inner, s) => (.ok row.isSome, { g with ahead := row, inner := inner }, s)

/-- The next row. -/
def next (catalog : Catalog) (g : Guarded src.State) (s : Storage) :
    Except Error Row × Guarded src.State × Storage :=
  match hasNext catalog g s with
  | (.error e, g, s) => (.error e, g, s)
  | (.ok _, g, s) =>
    match g.ahead with
    | some row => (.ok row, { g with ahead := none }, s)
    | none => (.error .noMoreRows, g, s)

end Guarded

/-- A source with the rules for using it. -/
def guard (src : Source) : Source where
  schema := src.schema
  State := Guarded src.State
  initial := ⟨false, none, src.initial⟩
  start := Guarded.start
  each := Guarded.each
  rewind := Guarded.rewind
  close := Guarded.close

end Source

end RowStore
