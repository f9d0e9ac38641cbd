import RowStore.Text.LetterCase

/-!
Values and their types.

1. A column holds 32-bit integers or texts (`ColumnType`); a `Value` is one of either.
2. Two values of one type are ordered: integers by size, texts by their code points.  Values of
   different types have no order (`order?_eq_none_iff`).
3. A `Comparison` asks something of that order.  `LIKE` asks of texts whether the right one
   occurs inside the left one, and of integers whether they are equal.  Between values of
   different types every comparison fails (`compare_of_type_ne`).
-/

namespace RowStore

/-! ## Types -/

/-- What a column can hold. -/
inductive ColumnType where
  /-- Integers of 32 bits. -/
  | int
  /-- Texts. -/
  | string
  deriving DecidableEq

namespace ColumnType

/-- The name of a type. -/
def name : ColumnType → String
  | .int => "int"
  | .string => "string"

/-- Number of bytes of a stored integer, and of the length in front of a stored text. -/
def intWidth : Nat := 4

/-- Number of bytes kept for the characters of a stored text. -/
def textWidth : Nat := 128

/-- Number of bytes that a value of the type takes inside a row. -/
def width : ColumnType → Nat
  | .int => intWidth
  | .string => intWidth + textWidth

/-- The type with a given name. -/
def named? (word : String) : Option ColumnType :=
  if word = "int" then some .int
  else if word = "string" then some .string
  else none

theorem named?_name (t : ColumnType) : named? t.name = some t := by
  cases t <;> decide

theorem width_pos (t : ColumnType) : 0 < t.width := by
  cases t <;> decide

/-- Number of bytes that values of some types take together. -/
def totalWidth : List ColumnType → Nat
  | [] => 0
  | t :: ts => t.width + totalWidth ts

theorem totalWidth_append (ts us : List ColumnType) :
    totalWidth (ts ++ us) = totalWidth ts + totalWidth us := by
  induction ts with
  | nil => simp [totalWidth]
  | cons t ts ih =>
    simp only [List.cons_append, totalWidth, ih]
    omega

end ColumnType

/-! ## Values -/

/-- A value of a row. -/
inductive Value where
  /-- An integer. -/
  | int (n : Int32)
  /-- A text. -/
  | string (s : String)
  deriving DecidableEq

namespace Value

/-- The type of a value. -/
def type : Value → ColumnType
  | .int _ => .int
  | .string _ => .string

/-- A value as it is printed. -/
def text : Value → String
  | .int n => toString n.toInt
  | .string s => s

/-- The order of two values of one type. -/
def order? : Value → Value → Option Ordering
  | .int m, .int n => some (compare m.toInt n.toInt)
  | .string s, .string t => some (compare s t)
  | _, _ => none

theorem order?_eq_none_iff {a b : Value} : order? a b = none ↔ a.type ≠ b.type := by
  cases a <;> cases b <;> simp [order?, type]

end Value

/-! ## Comparisons -/

/-- A question about two values. -/
inductive Comparison where
  | eq
  | ne
  | gt
  | ge
  | lt
  | le
  | like
  deriving DecidableEq

namespace Comparison

/-- How a comparison is written. -/
def symbol : Comparison → String
  | .eq => "="
  | .ne => "<>"
  | .gt => ">"
  | .ge => ">="
  | .lt => "<"
  | .le => "<="
  | .like => "LIKE"

/-- The comparison written as `word`.  Equality and its opposite have a second spelling. -/
def written? (word : String) : Option Comparison :=
  [("=", .eq), ("==", .eq), ("<>", .ne), ("!=", .ne), (">", .gt), (">=", .ge), ("<", .lt),
   ("<=", .le), ("LIKE", .like)].lookup word

theorem written?_symbol (c : Comparison) : written? c.symbol = some c := by
  cases c <;> decide

/-- Whether an order answers the question with yes. -/
def holds (c : Comparison) (o : Ordering) : Bool :=
  match c with
  | .eq | .like => o == .eq
  | .ne => o != .eq
  | .gt => o == .gt
  | .ge => o != .lt
  | .lt => o == .lt
  | .le => o != .gt

end Comparison

/-- Whether `part` occurs inside `whole`. -/
def occursIn (part : List Char) : List Char → Bool
  | [] => part.isEmpty
  | c :: cs => part.isPrefixOf (c :: cs) || occursIn part cs

theorem occursIn_iff {part whole : List Char} : occursIn part whole = true ↔ part <:+: whole := by
  induction whole with
  | nil => simp [occursIn]
  | cons c cs ih => simp [occursIn, ih, List.infix_cons_iff]

/-- Whether `a c b` holds. -/
def Value.compare (c : Comparison) (a b : Value) : Bool :=
  match a, b with
  | .int m, .int n => c.holds (Ord.compare m.toInt n.toInt)
  | .string s, .string t =>
    match c with
    | .like => occursIn t.toList s.toList
    | c => c.holds (Ord.compare s t)
  | _, _ => false

theorem Value.compare_of_type_ne {c : Comparison} {a b : Value} (h : a.type ≠ b.type) :
    Value.compare c a b = false := by
  cases a <;> cases b <;> simp_all [Value.compare, Value.type]

/-! ## Aggregate functions -/

/-- A way to reduce a column to one number. -/
inductive AggregateFunction where
  | min
  | max
  | sum
  | avg
  | count
  deriving DecidableEq

namespace AggregateFunction

/-- The name of a function. -/
def name : AggregateFunction → String
  | .min => "min"
  | .max => "max"
  | .sum => "sum"
  | .avg => "avg"
  | .count => "count"

/-- The function with a given name. -/
def named? (word : String) : Option AggregateFunction :=
  [("min", .min), ("max", .max), ("sum", .sum), ("avg", .avg), ("count", .count)].lookup word

theorem named?_name (f : AggregateFunction) : named? f.name = some f := by
  cases f <;> decide

end AggregateFunction

example : Value.compare .like (.string "grace") (.string "ra") = true := by decide
example : Value.compare .ne (.int 1) (.string "1") = false := by decide
example : Value.order? (.int (-1)) (.int 0) = some .lt := by decide

end RowStore
