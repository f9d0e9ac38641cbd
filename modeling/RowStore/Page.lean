import RowStore.Bytes
import RowStore.Page.Codec
import RowStore.Page.Layout
import RowStore.Transaction

/-!
Pages.

1. A `Page` is a block of bytes: a bitmap that says which slots are used, and the slots.  Bit `i`
   is in byte `i / 8` at position `i % 8`, the lowest bit first.  There is always room for at
   least one slot (`fits`).
2. A row goes into the least free slot and learns its place; it is stored as `Row.clip` says.
3. Freeing a slot clears its bit and nothing else, so the bytes of the row stay behind.
4. A page remembers whether it was changed since it was last written, and by whom.
-/

namespace RowStore

/-- A page of a table. -/
structure Page where
  /-- Which page it is. -/
  id : PageId
  /-- What its rows look like. -/
  schema : Schema
  /-- Its bytes. -/
  bytes : Bytes
  /-- There is room for a slot. -/
  fits : 0 < Page.slotsPerPage bytes.size schema.rowWidth
  /-- Whether it was changed since it was last written. -/
  dirty : Bool
  /-- The transaction that changed it last, if it is changed. -/
  dirtiedBy : Option TransactionId
  deriving DecidableEq

namespace Page

/-- A page with the given bytes, which must be as many as a page has. -/
def ofBytes (id : PageId) (schema : Schema) (bytes : Bytes) (pageSize : Nat) :
    Except Error Page :=
  if bytes.size ≠ pageSize then .error (.mismatch (.pageBytes id bytes.size pageSize))
  else if h : 0 < slotsPerPage bytes.size schema.rowWidth then
    .ok ⟨id, schema, bytes, h, false, none⟩
  else .error (.mismatch (.rowWidth schema.rowWidth pageSize))

/-- A page with no row. -/
def blank (id : PageId) (schema : Schema) (pageSize : Nat) : Except Error Page :=
  ofBytes id schema (Bytes.zeros pageSize) pageSize

/-! ## Slots -/

/-- Number of slots. -/
def slots (p : Page) : Nat := slotsPerPage p.bytes.size p.schema.rowWidth

/-- Whether a slot holds a row. -/
def isUsed (p : Page) (slot : Nat) : Bool :=
  slot < p.slots && (p.bytes.getD (slot / 8) 0).toNat.testBit (slot % 8)

/-- The slots without a row, in order. -/
def freeSlots (p : Page) : List Nat := (List.range p.slots).filter fun i => !p.isUsed i

/-- Where the bytes of a slot begin. -/
def slotOffset (p : Page) (slot : Nat) : Nat :=
  headerLength p.slots + slot * p.schema.rowWidth

/-- The byte `b` with bit `k` set or cleared. -/
def putBit (b : UInt8) (k : Nat) (on : Bool) : UInt8 :=
  UInt8.ofNat (if on then b.toNat ||| 1 <<< k else b.toNat &&& (255 ^^^ 1 <<< k))

/-- The page with a slot marked as used or free. -/
def mark (p : Page) (slot : Nat) (used : Bool) : Page :=
  { p with
    bytes := p.bytes.setIfInBounds (slot / 8)
      (putBit (p.bytes.getD (slot / 8) 0) (slot % 8) used)
    fits := by simpa using p.fits }

/-! ## Rows -/

/-- The place of a slot. -/
def place (p : Page) (slot : Nat) : RecordId := ⟨p.id, slot⟩

/-- The row in a slot, if there is one. -/
def row (p : Page) (slot : Nat) : Option Row :=
  if p.isUsed slot then
    some ⟨p.schema,
      decodeValues p.schema.types (Bytes.read p.bytes (p.slotOffset slot) p.schema.rowWidth),
      some (p.place slot)⟩
  else none

/-- All rows, by rising slot. -/
def rows (p : Page) : List Row := (List.range p.slots).filterMap p.row

/-- The page with the bytes of some values written into a slot. -/
def fill (p : Page) (slot : Nat) (values : List Value) : Page :=
  { p with
    bytes := Bytes.write p.bytes (p.slotOffset slot) (encodeValues values)
    fits := by simpa using p.fits }

/-- Puts a row into the least free slot: the row as it is stored, and the page after it. -/
def insert (p : Page) (r : Row) : Except Error (Row × Page) :=
  if !r.schema.sameTypes p.schema then .error (.mismatch (.rowOfPage r.schema p.schema))
  else match p.freeSlots.head? with
    | none => .error (.missing (.freeSlot p.id))
    | some slot => do
      let r ← r.clip
      .ok ({ r with place := some (p.place slot) }, (p.fill slot r.values).mark slot true)

/-- Frees the slot that a row names. -/
def delete (p : Page) (place : Option RecordId) : Except Error Page :=
  match place with
  | none => .error (.missing .place)
  | some r =>
    if r.page ≠ p.id then .error (.missing (.placeOnPage r p.id))
    else if !p.isUsed r.slot then .error (.missing (.liveRow r))
    else .ok (p.mark r.slot false)

/-! ## Changes -/

/-- The page, changed by a transaction. -/
def touch (p : Page) (tid : Option TransactionId) : Page :=
  { p with dirty := true, dirtiedBy := tid }

/-- The page, written. -/
def clean (p : Page) : Page := { p with dirty := false, dirtiedBy := none }

end Page

end RowStore
