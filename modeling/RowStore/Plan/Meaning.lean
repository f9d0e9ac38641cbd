import RowStore.Plan

/-!
What a plan means: the list of its rows, without pages, memory and cursors.

1. The meaning is taken over given rows of the tables, those that live when it is asked.
2. Rows given outright and scans mean their lists, a filter keeps the rows that satisfy its
   condition, and a join pairs every row of the outer plan with every row of the inner plan that
   goes with it, the outer row varying slowest.
3. An aggregation means one row for each group.  It is an error if a result is no 32-bit
   integer, and that is the only error there is for a plan whose conditions fit its rows.
   Reduced in machine words it means the same for fewer than 2³² rows (`Plan.wordMeaning_eq`).
4. A plan that writes means one row, the number of rows of the plan below it in 32 bits.
-/

namespace RowStore

/-- The rows of the result of an aggregation. -/
def Aggregation.reduce (a : Aggregation) (rows : List Row) : Except Error (List Row) := do
  let groups ← rows.foldlM (fun groups row => a.add row groups) []
  a.groupRows groups

/-- Every outer row with every inner row that goes with it. -/
def JoinCondition.pairs (c : JoinCondition) (schema : Schema) (outer inner : List Row) :
    List Row :=
  outer.flatMap fun left => (inner.filter (c.holds left)).map (Row.append schema left)

namespace Plan

/-- The rows of a plan, when the tables hold the given rows. -/
def meaning (tables : TableId → List Row) : Plan → Except Error (List Row)
  | .rows _ given => .ok given
  | .scan table _ => .ok (tables table)
  | .filter condition child => (child.meaning tables).map (·.filter condition.holds)
  | .join condition outer inner => do
    let left ← outer.meaning tables
    let right ← inner.meaning tables
    .ok (condition.pairs (outer.schema.append inner.schema) left right)
  | .aggregate aggregation child => do
    let rows ← child.meaning tables
    aggregation.reduce rows
  | .insert _ _ child | .delete _ child =>
    (child.meaning tables).map fun rows => [countRow rows.length]

end Plan

/-! ## Joined rows -/

theorem JoinCondition.mem_pairs {c : JoinCondition} {schema : Schema} {outer inner : List Row}
    {row : Row} :
    row ∈ c.pairs schema outer inner ↔
      ∃ left ∈ outer, ∃ right ∈ inner, c.holds left right = true ∧
        Row.append schema left right = row := by
  simp only [pairs, List.mem_flatMap, List.mem_map, List.mem_filter]
  grind

theorem JoinCondition.pairs_append (c : JoinCondition) (schema : Schema)
    (outer outer' inner : List Row) :
    c.pairs schema (outer ++ outer') inner =
      c.pairs schema outer inner ++ c.pairs schema outer' inner := by
  simp [pairs]

end RowStore
