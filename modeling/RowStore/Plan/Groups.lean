import RowStore.Assoc
import RowStore.Row

/-!
Reducing a column to one number for each group of rows.

1. A `Tally` is what is remembered of the rows of a group: for a column of integers their number,
   their sum, the least and the greatest; for a column of texts their number alone.  It has no
   bounds; `Accumulator` is the same in machine words, which hold it for fewer than 2³² rows.
2. Groups are told apart by the value of the group column, and stand in the order in which they
   were first met.  Without a group column all rows are one group, and no rows are no group.
3. An average is the sum divided by the number, toward zero.  A result must be a 32-bit integer.
-/

namespace RowStore

/-! ## Tallies -/

/-- What is remembered of the rows of a group. -/
inductive Tally where
  /-- Of integers. -/
  | numbers (count : Nat) (sum : Int) (least greatest : Int)
  /-- Of texts. -/
  | texts (count : Nat)
  deriving DecidableEq

namespace Tally

/-- The tally of no rows. -/
def start : ColumnType → Tally
  | .int => .numbers 0 0 Int32.maxValue.toInt Int32.minValue.toInt
  | .string => .texts 0

/-- The tally with one more row.  A text among integers is passed over. -/
def add (t : Tally) (v : Value) : Tally :=
  match t, v with
  | .numbers count sum least greatest, .int n =>
    .numbers (count + 1) (sum + n.toInt) (min least n.toInt) (max greatest n.toInt)
  | .numbers count sum least greatest, .string _ => .numbers count sum least greatest
  | .texts count, _ => .texts (count + 1)

/-- The number that a function makes of a tally. -/
def result (t : Tally) (f : AggregateFunction) : Int :=
  match t, f with
  | .texts count, _ | .numbers count _ _ _, .count => count
  | .numbers _ sum _ _, .sum => sum
  | .numbers count sum _ _, .avg => sum.tdiv count
  | .numbers _ _ least _, .min => least
  | .numbers _ _ _ greatest, .max => greatest

end Tally

/-! ## Groups -/

/-- What is reduced, and how. -/
structure Aggregation where
  /-- The function. -/
  function : AggregateFunction
  /-- The position of the reduced column. -/
  column : Nat
  /-- The position of the group column, if there is one. -/
  group : Option Nat
  /-- The type of the reduced column. -/
  type : ColumnType
  /-- The columns of the result. -/
  schema : Schema
  deriving DecidableEq

/-- The tallies of the groups met so far. -/
abbrev Groups := List (Option Value × Tally)

namespace Aggregation

/-- The value that tells the group of a row. -/
def key (a : Aggregation) (row : Row) : Except Error (Option Value) :=
  match a.group with
  | none => .ok none
  | some index =>
    match row.values[index]? with
    | some v => .ok (some v)
    | none => .error (.missing (.groupValue index))

/-- The value of a row that is reduced. -/
def value (a : Aggregation) (row : Row) : Except Error Value :=
  match row.values[a.column]? with
  | some v => .ok v
  | none => .error (.missing (.aggregateValue a.column))

/-- The groups with one more row. -/
def add (a : Aggregation) (row : Row) (groups : Groups) : Except Error Groups := do
  let key ← a.key row
  let value ← a.value row
  let tally := (Assoc.find? key groups).getD (Tally.start a.type)
  .ok (Assoc.put key (tally.add value) groups)

/-- A number as a value, if it is a 32-bit integer. -/
def inRange (a : Aggregation) (n : Int) : Except Error Value :=
  if Int32.minValue.toInt ≤ n ∧ n ≤ Int32.maxValue.toInt then .ok (.int (Int32.ofInt n))
  else .error (.mismatch (.aggregateRange a.function n))

/-- The row of the result for one group. -/
def groupRow (a : Aggregation) (group : Option Value × Tally) : Except Error Row := do
  let value ← a.inRange (group.2.result a.function)
  Row.ofValues a.schema (group.1.toList ++ [value])

/-- The rows of the result. -/
def groupRows (a : Aggregation) : Groups → Except Error (List Row)
  | [] => .ok []
  | group :: groups => do
    let row ← a.groupRow group
    let rows ← groupRows a groups
    .ok (row :: rows)

/-- An aggregation of rows of `child`, if it makes sense for them. -/
def ofColumns (child : Schema) (column : Nat) (group : Option Nat) (function : AggregateFunction) :
    Except Error Aggregation := do
  let reduced ← child.column column
  if reduced.type = .string ∧ function ≠ .count then
    .error (.mismatch (.aggregateOfText function reduced.name))
  else
    let result : Column := ⟨function.name ++ "(" ++ reduced.name ++ ")", .int⟩
    match group with
    | none => .ok ⟨function, column, none, reduced.type, ⟨[result], by simp⟩⟩
    | some index => do
      let key ← child.column index
      .ok ⟨function, column, some index, reduced.type, ⟨[key, result], by simp⟩⟩

end Aggregation

end RowStore
