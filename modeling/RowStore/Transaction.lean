/-!
Transactions.  A transaction is a number, given out in rising order; it records who changed a
page last, and nothing else depends on it.
-/

namespace RowStore

/-- A transaction. -/
structure TransactionId where
  /-- Its number. -/
  number : Nat
  deriving DecidableEq

/-- A transaction as it is printed. -/
def TransactionId.text (t : TransactionId) : String := "tx" ++ toString t.number

/-- Gives out transactions. -/
structure Transactions where
  /-- The number of the next one. -/
  next : Nat
  deriving DecidableEq

namespace Transactions

/-- A source that has given out none. -/
def fresh : Transactions := ⟨0⟩

/-- The next transaction, and the source after it. -/
def begin (t : Transactions) : TransactionId × Transactions := (⟨t.next⟩, ⟨t.next + 1⟩)

/-- The next `n` transactions, in the order they are given out. -/
def beginMany (t : Transactions) : Nat → List TransactionId × Transactions
  | 0 => ([], t)
  | n + 1 =>
    let (id, t) := t.begin
    let (ids, t) := t.beginMany n
    (id :: ids, t)

end Transactions

end RowStore
