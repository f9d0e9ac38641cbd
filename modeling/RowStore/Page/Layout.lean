/-!
How many rows a page holds.

A page begins with a bitmap, one bit for each slot, rounded up to whole bytes; the slots follow,
each exactly one row wide.  `slotsPerPage` is the largest number of slots whose bitmap and rows
fit on the page.
-/

namespace RowStore.Page

/-- Number of rows of `rowWidth` bytes that fit on a page: every row costs its bytes and a bit. -/
def slotsPerPage (pageSize rowWidth : Nat) : Nat :=
  if rowWidth = 0 then 0 else pageSize * 8 / (rowWidth * 8 + 1)

/-- Number of bytes of the bitmap for `slots` slots. -/
def headerLength (slots : Nat) : Nat := (slots + 7) / 8

example : slotsPerPage 64 4 = 15 ∧ headerLength 15 = 2 := by decide
example : slotsPerPage 136 136 = 0 ∧ slotsPerPage 137 136 = 1 := by decide

end RowStore.Page
