import RowStore.Bytes

/-!
A file as an array of blocks of one size.

1. A file has as many blocks as are needed to hold its bytes; the last one may be cut short
   (`blockCount`).
2. Bytes that a block has and the file does not are zero (`getElem?_block`).
3. Writing a block past the end makes the file longer, with zeros in between
   (`getElem?_putBytes`).
-/

namespace RowStore

/-- Number of blocks of `size` bytes that a content of a file takes. -/
def blockCount (size : Nat) (content : Bytes) : Nat := (content.size + size - 1) / size

/-- Block `n` of a content, with zeros for what is missing. -/
def block (size n : Nat) (content : Bytes) : Bytes :=
  Array.ofFn (n := size) fun i => content.getD (n * size + i) 0

/-- A content with `chunk` written from `off` on. -/
def putBytes (content : Bytes) (off : Nat) (chunk : Bytes) : Bytes :=
  Bytes.write (content ++ Bytes.zeros (off + chunk.size - content.size)) off chunk.toList

/-- A content with block `n` replaced. -/
def putBlock (size n : Nat) (chunk content : Bytes) : Bytes := putBytes content (n * size) chunk

@[simp]
theorem size_block (size n : Nat) (content : Bytes) : (block size n content).size = size := by
  simp [block]

theorem getElem?_block {size n i : Nat} {content : Bytes} (h : i < size) :
    (block size n content)[i]? = some (content.getD (n * size + i) 0) := by
  simp [block, h]

@[simp]
theorem size_putBytes (content : Bytes) (off : Nat) (chunk : Bytes) :
    (putBytes content off chunk).size = max content.size (off + chunk.size) := by
  simp only [putBytes, Bytes.size_write, Bytes.zeros, Array.size_append, Array.size_replicate]
  omega

/-- After a write a byte is the one written, or the one before, or zero in between. -/
theorem getD_putBytes (content : Bytes) (off : Nat) (chunk : Bytes) (i : Nat) :
    (putBytes content off chunk).getD i 0 =
      if off ≤ i ∧ i < off + chunk.size then chunk.getD (i - off) 0 else content.getD i 0 := by
  simp only [Array.getD_eq_getD_getElem?, putBytes, Bytes.getElem?_write, Bytes.zeros,
    Array.size_append, Array.size_replicate, Array.length_toList, Array.getElem?_toList]
  by_cases h : off ≤ i ∧ i < off + chunk.size
  · rw [if_pos h, if_pos (by omega)]
  · rw [if_neg h, if_neg (by omega)]
    by_cases hi : i < content.size
    · rw [Array.getElem?_append_left hi]
    · rw [Array.getElem?_append_right (by omega), @Array.getElem?_eq_none _ _ content (by omega),
        Array.getElem?_replicate]
      split <;> rfl

end RowStore
