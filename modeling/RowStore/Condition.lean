import RowStore.Row

/-!
Conditions on rows.

1. A `Condition` compares one column with a constant; a `JoinCondition` compares a column of one
   row with a column of another.
2. `validate` says before any row is read whether the compared types agree.  A condition that is
   valid for a schema never meets values of different types in rows of that schema.
3. A row that lacks the column does not match.
-/

namespace RowStore

/-- A comparison of a column with a constant. -/
structure Condition where
  /-- The position of the column. -/
  column : Nat
  /-- What is asked. -/
  comparison : Comparison
  /-- What the column is compared with. -/
  constant : Value
  deriving DecidableEq

namespace Condition

/-- Whether the condition can be asked of rows of `schema`. -/
def validate (c : Condition) (schema : Schema) : Except Error Unit :=
  match schema.columnType c.column with
  | .error e => .error e
  | .ok type =>
    if type = c.constant.type then .ok ()
    else .error (.mismatch (.constantType type c.column c.constant.type))

/-- Whether a row satisfies the condition. -/
def holds (c : Condition) (row : Row) : Bool :=
  match row.values[c.column]? with
  | some value => value.compare c.comparison c.constant
  | none => false

end Condition

/-- A comparison of a column of a left row with a column of a right row. -/
structure JoinCondition where
  /-- The position of the left column. -/
  left : Nat
  /-- What is asked. -/
  comparison : Comparison
  /-- The position of the right column. -/
  right : Nat
  deriving DecidableEq

namespace JoinCondition

/-- Whether the condition can be asked of rows of the two schemas. -/
def validate (c : JoinCondition) (left right : Schema) : Except Error Unit :=
  match left.columnType c.left with
  | .error e => .error e
  | .ok leftType =>
    match right.columnType c.right with
    | .error e => .error e
    | .ok rightType =>
      if leftType = rightType then .ok ()
      else .error (.mismatch (.joinTypes leftType c.left rightType c.right))

/-- Whether two rows satisfy the condition. -/
def holds (c : JoinCondition) (left right : Row) : Bool :=
  match left.values[c.left]?, right.values[c.right]? with
  | some l, some r => l.compare c.comparison r
  | _, _ => false

end JoinCondition

end RowStore
