import RowStore.Bytes
import RowStore.Page.Codec
import RowStore.Text.Cut

/-!
Fields in a block of bytes.

A field is read and written where it lies: an integer as four bytes, a text as the number of its
bytes, the bytes and as many zeros as are left of its room.  A row is read and written field by
field, each behind the one before.

`RowStore.Proofs.Page.Fields` shows that this is how pages read and write their rows.
-/

namespace RowStore.Bytes

/-! ## One field -/

/-- The integer at an offset. -/
def getInt (a : Bytes) (off : Nat) : Int32 := decodeInt (read a off ColumnType.intWidth)

/-- The block with an integer at an offset. -/
def setInt (a : Bytes) (off : Nat) (n : Int32) : Bytes := write a off (encodeInt n)

/-- The text at an offset.  A length that is none counts as zero or as the whole room. -/
def getText (a : Bytes) (off : Nat) : String :=
  let length := min (getInt a off).toInt.toNat ColumnType.textWidth
  String.ofList (Text.Utf8.decodeLossy (read a (off + ColumnType.intWidth) length))

/-- The block with a text at an offset. -/
def setText (a : Bytes) (off : Nat) (s : String) : Bytes :=
  let bytes := Text.Utf8.encode (Text.Utf8.cutText ColumnType.textWidth s)
  let start := off + ColumnType.intWidth
  let a := setInt a off (Int32.ofNat bytes.length)
  let a := write a start bytes
  write a (start + bytes.length) (List.replicate (ColumnType.textWidth - bytes.length) 0)

/-- The field of a type at an offset. -/
def getField (a : Bytes) (off : Nat) : ColumnType → Value
  | .int => .int (getInt a off)
  | .string => .string (getText a off)

/-- The block with a field at an offset. -/
def setField (a : Bytes) (off : Nat) : Value → Bytes
  | .int n => setInt a off n
  | .string s => setText a off s

/-! ## One field after the other -/

/-- The fields of some types from an offset on. -/
def getFields (a : Bytes) (off : Nat) : List ColumnType → List Value
  | [] => []
  | t :: ts => getField a off t :: getFields a (off + t.width) ts

/-- The block with some fields from an offset on. -/
def setFields (a : Bytes) (off : Nat) : List Value → Bytes
  | [] => a
  | v :: vs => setFields (setField a off v) (off + v.type.width) vs

end RowStore.Bytes
