/-!
Blocks of bytes.

1. `Bytes.read` takes a stretch out of a block, `Bytes.write` puts one in.  Writing never changes
   the size of a block (`size_write`); what would lie past the end is dropped.
2. Inside the block a write replaces exactly the stretch it names (`toList_write`,
   `getElem?_write`), so reading it back gives what was written (`read_write`) and reading
   anywhere else gives what was there (`read_write_disjoint`).
-/

namespace RowStore

/-- A block of bytes. -/
abbrev Bytes := Array UInt8

namespace Bytes

/-- A block of `n` zeros. -/
def zeros (n : Nat) : Bytes := Array.replicate n 0

/-- The `len` bytes from `off` on, or fewer at the end of the block. -/
def read (a : Bytes) (off len : Nat) : List UInt8 := (a.extract off (off + len)).toList

/-- The block with the bytes from `off` on replaced by `chunk`. -/
def write (a : Bytes) (off : Nat) : List UInt8 → Bytes
  | [] => a
  | b :: bs => write (a.setIfInBounds off b) (off + 1) bs

@[simp]
theorem size_write (a : Bytes) (off : Nat) (chunk : List UInt8) :
    (write a off chunk).size = a.size := by
  induction chunk generalizing a off with
  | nil => rfl
  | cons b bs ih => simp [write, ih]

theorem getElem?_write (a : Bytes) (off : Nat) (chunk : List UInt8) (i : Nat) :
    (write a off chunk)[i]? =
      if off ≤ i ∧ i < off + chunk.length ∧ i < a.size then chunk[i - off]? else a[i]? := by
  induction chunk generalizing a off with
  | nil =>
    have : ¬(off ≤ i ∧ i < off + ([] : List UInt8).length ∧ i < a.size) := by
      simp only [List.length_nil]
      omega
    rw [if_neg this, write]
  | cons b bs ih =>
    simp only [write, ih, Array.size_setIfInBounds, List.length_cons]
    by_cases h : off + 1 ≤ i ∧ i < off + 1 + bs.length ∧ i < a.size
    · rw [if_pos h, if_pos (by omega), show i - off = (i - (off + 1)) + 1 by omega,
        List.getElem?_cons_succ]
    · rw [if_neg h]
      by_cases hi : i = off ∧ i < a.size
      · obtain ⟨rfl, hlt⟩ := hi
        rw [if_pos (by omega)]
        simp [hlt]
      · rw [if_neg (by omega), Array.getElem?_setIfInBounds]
        by_cases hoff : off = i
        · subst hoff
          rw [if_pos rfl, if_neg (by omega), Array.getElem?_eq_none (by omega)]
        · rw [if_neg hoff]

theorem toList_write {a : Bytes} {off : Nat} {chunk : List UInt8}
    (h : off + chunk.length ≤ a.size) :
    (write a off chunk).toList =
      a.toList.take off ++ chunk ++ a.toList.drop (off + chunk.length) := by
  apply List.ext_getElem?
  intro i
  have hlen : a.toList.length = a.size := by simp
  rw [Array.getElem?_toList, getElem?_write]
  by_cases h1 : i < off
  · rw [if_neg (by omega), List.getElem?_append_left (by simp; omega),
      List.getElem?_append_left (by simp; omega), List.getElem?_take_of_lt h1,
      Array.getElem?_toList]
  · by_cases h2 : i < off + chunk.length
    · rw [if_pos (by omega), List.getElem?_append_left (by simp; omega),
        List.getElem?_append_right (by simp; omega)]
      congr 1
      simp
      omega
    · rw [if_neg (by omega), List.getElem?_append_right (by simp; omega), List.getElem?_drop,
        Array.getElem?_toList]
      congr 1
      simp
      omega

theorem read_eq (a : Bytes) (off len : Nat) : read a off len = (a.toList.drop off).take len := by
  simp [read]

theorem length_read {a : Bytes} {off len : Nat} (h : off + len ≤ a.size) :
    (read a off len).length = len := by
  rw [read_eq]
  simp
  omega

theorem read_write {a : Bytes} {off : Nat} {chunk : List UInt8}
    (h : off + chunk.length ≤ a.size) : read (write a off chunk) off chunk.length = chunk := by
  have hlen : a.toList.length = a.size := by simp
  rw [read_eq, toList_write h, List.append_assoc,
    List.drop_append_of_le_length (by simp; omega)]
  simp only [List.drop_take, Nat.sub_self, List.take_zero, List.nil_append]
  simp

theorem read_write_disjoint {a : Bytes} {off o len : Nat} {chunk : List UInt8}
    (h : o + len ≤ off ∨ off + chunk.length ≤ o) :
    read (write a off chunk) o len = read a o len := by
  rw [read_eq, read_eq]
  apply List.ext_getElem?
  intro i
  by_cases hi : i < len
  · rw [List.getElem?_take_of_lt hi, List.getElem?_take_of_lt hi, List.getElem?_drop,
      List.getElem?_drop, Array.getElem?_toList, Array.getElem?_toList, getElem?_write,
      if_neg (by omega)]
  · rw [List.getElem?_take_eq_none (by omega), List.getElem?_take_eq_none (by omega)]

end Bytes

end RowStore
