/-!
Whole numbers in decimal.

1. A sign is optional, digits are ASCII, and nothing else may stand in the text.
2. The text is read from left to right, and the first thing wrong with it is reported: a digit
   that leaves the range is reported before a later character that is no digit.
3. A signed number has 32 bits (`readInt32`); a natural number has a largest value of the
   caller's choice (`readNatural`), and no minus sign.
-/

namespace RowStore.Text

/-- What is wrong with the text of a number. -/
inductive IntegerFault where
  /-- There is no character. -/
  | empty
  /-- A character is no digit, or a sign stands alone. -/
  | invalidDigit
  /-- The number is above the range. -/
  | tooLarge
  /-- The number is below the range. -/
  | tooSmall
  deriving DecidableEq

/-- The wording of a fault. -/
def IntegerFault.message : IntegerFault → String
  | .empty => "cannot parse integer from empty string"
  | .invalidDigit => "invalid digit found in string"
  | .tooLarge => "number too large to fit in target type"
  | .tooSmall => "number too small to fit in target type"

/-- The value of a decimal digit. -/
def digit? (c : Char) : Option Nat :=
  if '0' ≤ c && c ≤ '9' then some (c.toNat - '0'.toNat) else none

/-- Reads digits after a number `n`, which may not grow above `limit`. -/
def readDigits (limit : Nat) (excess : IntegerFault) (n : Nat) :
    List Char → Except IntegerFault Nat
  | [] => .ok n
  | c :: cs =>
    match digit? c with
    | none => .error .invalidDigit
    | some d =>
      if n * 10 + d ≤ limit then readDigits limit excess (n * 10 + d) cs else .error excess

/-- Reads a signed number of 32 bits. -/
def readInt32 (s : String) : Except IntegerFault Int32 :=
  match s.toList with
  | [] => .error .empty
  | ['+'] | ['-'] => .error .invalidDigit
  | '-' :: ds => (readDigits 2147483648 .tooSmall 0 ds).map fun n => Int32.ofInt (-n)
  | '+' :: ds => (readDigits 2147483647 .tooLarge 0 ds).map fun n => Int32.ofInt n
  | ds => (readDigits 2147483647 .tooLarge 0 ds).map fun n => Int32.ofInt n

/-- Reads a natural number of at most `limit`. -/
def readNatural (limit : Nat) (s : String) : Except IntegerFault Nat :=
  match s.toList with
  | [] => .error .empty
  | ['+'] => .error .invalidDigit
  | '+' :: ds => readDigits limit .tooLarge 0 ds
  | ds => readDigits limit .tooLarge 0 ds

example : readInt32 "-2147483648" = .ok (-2147483648) := by rfl
example : readInt32 "2147483648x" = .error .tooLarge := by rfl
example : readInt32 "2147483647x" = .error .invalidDigit := by rfl
example : readInt32 "+" = .error .invalidDigit := by rfl

end RowStore.Text
