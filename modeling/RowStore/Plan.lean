import RowStore.Catalog
import RowStore.Condition
import RowStore.Plan.Groups

/-!
Plans: what is to be done with which rows.

1. A `Plan` is a tree.  Its leaves are rows given outright and scans of tables; its inner nodes
   filter, join and reduce the rows below them, or write them to a table or delete them.
2. Every plan has a schema, which its rows have; a plan that writes has one row, the number of
   rows it wrote as a 32-bit integer.
3. `mkScan` and the other makers build a node only if it makes sense above its children, so a
   plan that they built never compares values of different types.
-/

namespace RowStore

/-- What is to be done with which rows. -/
inductive Plan where
  /-- Rows given outright. -/
  | rows (schema : Schema) (rows : List Row)
  /-- The rows of a table. -/
  | scan (table : TableId) (schema : Schema)
  /-- The rows that satisfy a condition. -/
  | filter (condition : Condition) (child : Plan)
  /-- Every row of `outer` with every row of `inner` that goes with it. -/
  | join (condition : JoinCondition) (outer inner : Plan)
  /-- One row for each group of rows. -/
  | aggregate (aggregation : Aggregation) (child : Plan)
  /-- Writes rows to a table. -/
  | insert (tid : TransactionId) (table : TableId) (child : Plan)
  /-- Deletes rows where they are stored. -/
  | delete (tid : TransactionId) (child : Plan)

namespace Plan

/-- The schema of a plan that writes: the number of rows it wrote, as a 32-bit integer. -/
def countSchema : Schema := Schema.single "count" .int

/-- The row of a plan that wrote `count` rows.  The number is cut to 32 bits: it is the number of rows up to
    2³¹ - 1, and wraps around from there on. -/
def countRow (count : Nat) : Row := ⟨countSchema, [.int (Int32.ofNat count)], none⟩

/-- What the rows of a plan look like. -/
def schema : Plan → Schema
  | .rows schema _ => schema
  | .scan _ schema => schema
  | .filter _ child => child.schema
  | .join _ outer inner => outer.schema.append inner.schema
  | .aggregate aggregation _ => aggregation.schema
  | .insert _ _ _ | .delete _ _ => countSchema

/-! ## Making plans -/

/-- The rows of a table that the catalog knows. -/
def mkScan (catalog : Catalog) (table : TableId) : Except Error Plan :=
  (catalog.schema table).map (Plan.scan table)

/-- The rows of `child` that satisfy a condition that can be asked of them. -/
def mkFilter (condition : Condition) (child : Plan) : Except Error Plan :=
  (condition.validate child.schema).map fun _ => .filter condition child

/-- A join whose condition can be asked of the rows of both sides. -/
def mkJoin (condition : JoinCondition) (outer inner : Plan) : Except Error Plan :=
  (condition.validate outer.schema inner.schema).map fun _ => .join condition outer inner

/-- An aggregation that makes sense for the rows of `child`. -/
def mkAggregate (child : Plan) (column : Nat) (group : Option Nat)
    (function : AggregateFunction) : Except Error Plan :=
  (Aggregation.ofColumns child.schema column group function).map (Plan.aggregate · child)

/-- Writes the rows of `child` to a table of the same types. -/
def mkInsert (catalog : Catalog) (tid : TransactionId) (table : TableId) (child : Plan) :
    Except Error Plan :=
  match catalog.schema table with
  | .error e => .error e
  | .ok schema =>
    if child.schema.sameTypes schema then .ok (.insert tid table child)
    else .error (.mismatch (.rowsOfTable child.schema table schema))

/-- Deletes the rows of `child`. -/
def mkDelete (tid : TransactionId) (child : Plan) : Plan := .delete tid child

end Plan

end RowStore
