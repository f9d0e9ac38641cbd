import RowStore.HeapFile
import RowStore.Page.Fields
import RowStore.Page.InPlace

/-!
Pages that watch their bytes.

The operations of a page as they go about its bytes.  Every stretch of bytes is checked before it is
read or written, and an operation that would leave the block stops there (`Stop.outside`).  A row is
read and written field by field; of a text the length comes first, and what it says may be anything.
A page is read from its file piece by piece, as many bytes at a time as the file hands over.

`RowStore.Proofs.Page.Checked` shows that no operation leaves its block, whatever bytes it finds, and
that each of them does what `RowStore.Page` and `RowStore.HeapFile` say.
-/

namespace RowStore.Checked

/-- Why an operation did not come to its end. -/
inductive Stop where
  /-- It would have left the block, for the bytes from `first` up to `last`. -/
  | outside (first last : Nat)
  /-- It was refused. -/
  | refused (e : Error)

/-- Passes a refusal on. -/
def refuse {α : Type} (result : Except Error α) : Except Stop α := result.mapError .refused

/-- A block of `n` bytes. -/
abbrev Block (n : Nat) := {a : Bytes // a.size = n}

variable {n : Nat}

/-! ## Stretches of bytes -/

/-- The byte at a position. -/
def byteAt (a : Block n) (i : Nat) : Except Stop UInt8 :=
  match a.1[i]? with
  | some b => .ok b
  | none => .error (.outside i (i + 1))

/-- The bytes from `first` up to `last`. -/
def slice (a : Block n) (first last : Nat) : Except Stop (List UInt8) :=
  if first ≤ last ∧ last ≤ n then .ok (Bytes.read a.1 first (last - first))
  else .error (.outside first last)

/-- The block with other bytes from `first` up to `last`. -/
def overwrite (a : Block n) (first last : Nat) (chunk : List UInt8) : Except Stop (Block n) :=
  if first ≤ last ∧ last ≤ n ∧ chunk.length = last - first then
    .ok ⟨Bytes.write a.1 first chunk, by simp [a.2]⟩
  else .error (.outside first last)

/-! ## Fields -/

/-- The integer at an offset. -/
def getInt (a : Block n) (off : Nat) : Except Stop Int32 := do
  let bytes ← slice a off (off + ColumnType.intWidth)
  .ok (decodeInt bytes)

/-- The block with an integer at an offset. -/
def setInt (a : Block n) (off : Nat) (k : Int32) : Except Stop (Block n) :=
  overwrite a off (off + ColumnType.intWidth) (encodeInt k)

/-- The text at an offset.  A length that is none counts as zero or as the whole room. -/
def getText (a : Block n) (off : Nat) : Except Stop String := do
  let length := min (← getInt a off).toInt.toNat ColumnType.textWidth
  let start := off + ColumnType.intWidth
  let bytes ← slice a start (start + length)
  .ok (String.ofList (Text.Utf8.decodeLossy bytes))

/-- The block with a text at an offset. -/
def setText (a : Block n) (off : Nat) (s : String) : Except Stop (Block n) := do
  let bytes := Text.Utf8.encode (Text.Utf8.cutText ColumnType.textWidth s)
  let start := off + ColumnType.intWidth
  let a ← setInt a off (Int32.ofNat bytes.length)
  let a ← overwrite a start (start + bytes.length) bytes
  overwrite a (start + bytes.length) (start + ColumnType.textWidth)
    (List.replicate (ColumnType.textWidth - bytes.length) 0)

/-- The field of a type at an offset. -/
def getField (a : Block n) (off : Nat) : ColumnType → Except Stop Value
  | .int => (getInt a off).map .int
  | .string => (getText a off).map .string

/-- The block with a field at an offset. -/
def setField (a : Block n) (off : Nat) : Value → Except Stop (Block n)
  | .int k => setInt a off k
  | .string s => setText a off s

/-- The fields of some types from an offset on. -/
def getFields (a : Block n) (off : Nat) : List ColumnType → Except Stop (List Value)
  | [] => .ok []
  | t :: ts => do
    let v ← getField a off t
    let vs ← getFields a (off + t.width) ts
    .ok (v :: vs)

/-- The block with some fields from an offset on. -/
def setFields (a : Block n) (off : Nat) : List Value → Except Stop (Block n)
  | [] => .ok a
  | v :: vs => do
    let a ← setField a off v
    setFields a (off + v.type.width) vs

/-! ## Slots -/

section Page

variable (p : Page)

/-- The bytes of a page. -/
def blockOf : Block p.bytes.size := ⟨p.bytes, rfl⟩

/-- The page with other bytes, as many as it has. -/
def withBlock (a : Block p.bytes.size) : Page :=
  { p with
    bytes := a.1
    fits := a.2.symm ▸ p.fits }

/-- Whether a slot holds a row. -/
def isUsed (slot : Nat) : Except Stop Bool :=
  if p.slots ≤ slot then .ok false
  else do
    let b ← byteAt (blockOf p) (slot / 8)
    .ok (b.toNat.testBit (slot % 8))

/-- The page with a slot marked as used or free. -/
def mark (slot : Nat) (used : Bool) : Except Stop Page := do
  let b ← byteAt (blockOf p) (slot / 8)
  let a ← overwrite (blockOf p) (slot / 8) (slot / 8 + 1) [Page.putBit b (slot % 8) used]
  .ok (withBlock p a)

/-- Number of slots without a row. -/
def countFree : Except Stop Nat := do
  let used ← (List.range p.slots).mapM (isUsed p)
  .ok (used.count false)

/-- The first slot without a row. -/
def firstFree : Except Stop (Option Nat) :=
  (List.range p.slots).findM? fun slot => do
    let used ← isUsed p slot
    .ok (!used)

/-! ## Rows -/

/-- The row in a slot, if there is one. -/
def row (slot : Nat) : Except Stop (Option Row) := do
  if ← isUsed p slot then
    let values ← getFields (blockOf p) (p.slotOffset slot) p.schema.types
    let row ← refuse (Row.ofValues p.schema values)
    .ok (some { row with place := some (p.place slot) })
  else .ok none

/-- All rows, by rising slot. -/
def rows : Except Stop (List Row) := do
  let found ← (List.range p.slots).mapM (row p)
  .ok (found.filterMap id)

/-- The page with the bytes of some values written into a slot. -/
def fill (slot : Nat) (values : List Value) : Except Stop Page := do
  let a ← setFields (blockOf p) (p.slotOffset slot) values
  .ok (withBlock p a)

/-- Puts a caller's row into the least free slot. -/
def store (r : Row) : Except Stop Page × Row :=
  if !r.schema.sameTypes p.schema then
    (.error (.refused (.mismatch (.rowOfPage r.schema p.schema))), r)
  else match firstFree p with
    | .error stop => (.error stop, r)
    | .ok none => (.error (.refused (.missing (.freeSlot p.id))), r)
    | .ok (some slot) =>
      match r.shorten with
      | (.error e, r) => (.error (.refused e), r)
      | (.ok (), r) =>
        match fill p slot r.values with
        | .error stop => (.error stop, r)
        | .ok filled =>
          match mark filled slot true with
          | .error stop => (.error stop, r)
          | .ok marked => (.ok marked, { r with place := some (p.place slot) })

/-- Frees the slot that a row names. -/
def delete (place : Option RecordId) : Except Stop Page :=
  match place with
  | none => .error (.refused (.missing .place))
  | some r =>
    if r.page ≠ p.id then .error (.refused (.missing (.placeOnPage r p.id)))
    else do
      if ← isUsed p r.slot then mark p r.slot false
      else .error (.refused (.missing (.liveRow r)))

end Page

/-! ## Files -/

/-- Reads a file from `start` on into a block, from its byte `filled` on, until the block is full or
    the file ends.  The file hands over as many bytes at a time as it likes, but at least one. -/
def load (content : Bytes) (hand : Nat → Nat) (start filled : Nat) (a : Block n) :
    Except Stop (Block n) :=
  if filled < n then
    let given := min (max 1 (hand filled)) (min (n - filled) (content.size - (start + filled)))
    if given = 0 then .ok a
    else do
      let a ← overwrite a filled (filled + given) (Bytes.read content (start + filled) given)
      load content hand start (filled + given) a
  else .ok a
termination_by n - filled

/-- Reads a page. -/
def readPage (h : HeapFile) (files : Files) (hand : Nat → Nat) (id : PageId) : Except Stop Page := do
  refuse (h.checkTable id)
  if h.numPages files ≤ id.number then
    .error (.refused (.missing (.page id (h.numPages files))))
  else
    let blank : Block h.pageSize := ⟨Bytes.zeros h.pageSize, by simp [Bytes.zeros]⟩
    let a ← load (files.content h.path) hand (id.number * h.pageSize) 0 blank
    refuse (Page.ofBytes id h.schema a.1 h.pageSize)

end RowStore.Checked
