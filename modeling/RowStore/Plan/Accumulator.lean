import RowStore.Plan.Groups

/-!
Reducing a column in machine words.

What is remembered of the rows of a group stands in words of a fixed size: their number and their
sum in 64 bits, the least and the greatest in 32, and an empty group has the greatest 32-bit integer
as its least one.  Words wrap around silently.  The result must fit 32 bits.

`Tally` counts without bounds; `RowStore.Proofs.Plan.Words` shows that both come to the same for
fewer than 2³² rows.
-/

namespace RowStore

/-- What is remembered of the rows of a group. -/
inductive Accumulator where
  /-- Of integers. -/
  | numbers (count sum : Int64) (least greatest : Int32)
  /-- Of texts. -/
  | texts (count : Int64)
  deriving DecidableEq

namespace Accumulator

/-- What is remembered of no rows. -/
def forType : ColumnType → Accumulator
  | .int => .numbers 0 0 Int32.maxValue Int32.minValue
  | .string => .texts 0

/-- One more row.  A text among integers is passed over. -/
def fold (acc : Accumulator) (v : Value) : Accumulator :=
  match acc, v with
  | .numbers count sum least greatest, .int n =>
    .numbers (count + 1) (sum + n.toInt64) (if n ≤ least then n else least)
      (if greatest ≤ n then n else greatest)
  | .numbers count sum least greatest, .string _ => .numbers count sum least greatest
  | .texts count, _ => .texts (count + 1)

/-- The number that a function makes of it. -/
def wide (acc : Accumulator) (f : AggregateFunction) : Int64 :=
  match acc, f with
  | .texts count, _ | .numbers count _ _ _, .count => count
  | .numbers _ sum _ _, .sum => sum
  | .numbers count sum _ _, .avg => if count = 0 then 0 else sum / count
  | .numbers _ _ least _, .min => least.toInt64
  | .numbers _ _ _ greatest, .max => greatest.toInt64

/-- That number in 32 bits, if it fits. -/
def result (acc : Accumulator) (f : AggregateFunction) : Except Error Int32 :=
  let n := acc.wide f
  if Int32.minValue.toInt64 ≤ n ∧ n ≤ Int32.maxValue.toInt64 then .ok n.toInt32
  else .error (.mismatch (.aggregateRange f n.toInt))

end Accumulator

namespace Aggregation

/-- The groups with one more row. -/
def fold (a : Aggregation) (row : Row) (groups : List (Option Value × Accumulator)) :
    Except Error (List (Option Value × Accumulator)) := do
  let key ← a.key row
  let value ← a.value row
  let acc := (Assoc.find? key groups).getD (Accumulator.forType a.type)
  .ok (Assoc.put key (acc.fold value) groups)

/-- The rows of the result. -/
def results (a : Aggregation) : List (Option Value × Accumulator) → Except Error (List Row)
  | [] => .ok []
  | (key, acc) :: groups => do
    let n ← acc.result a.function
    let row ← Row.ofValues a.schema (key.toList ++ [.int n])
    let rows ← results a groups
    .ok (row :: rows)

/-- The result for some rows. -/
def materialize (a : Aggregation) (rows : List Row) : Except Error (List Row) := do
  let groups ← rows.foldlM (fun groups row => a.fold row groups) []
  a.results groups

end Aggregation

end RowStore
