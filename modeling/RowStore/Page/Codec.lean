import RowStore.Row
import RowStore.Text.Utf8

/-!
Rows as bytes.

1. An integer is its four bytes, the highest first.
2. A text is the number of its bytes, as an integer, and then 128 bytes: the text in UTF-8,
   clipped to the characters that fit, and zeros.
3. A row is its values one after the other, so a value takes exactly the width of its type
   (`length_encode`).
4. Any bytes can be read: a negative length counts as zero, one that is too large as 128, and
   bytes that are no text are replaced (`RowStore.Text.Utf8`).
-/

namespace RowStore

/-! ## Integers -/

/-- The bytes of an integer. -/
def encodeInt (n : Int32) : List UInt8 :=
  let u := n.toUInt32.toNat
  [UInt8.ofNat (u / 16777216), UInt8.ofNat (u / 65536), UInt8.ofNat (u / 256), UInt8.ofNat u]

/-- The integer with the given bytes. -/
def decodeInt (bytes : List UInt8) : Int32 :=
  (UInt32.ofNat (bytes.foldl (fun n b => n * 256 + b.toNat) 0)).toInt32

/-! ## Texts -/

/-- The characters of a text that are stored. -/
def clipText (s : String) : String :=
  String.ofList (Text.Utf8.clip ColumnType.textWidth s.toList)

/-- The bytes of a text. -/
def encodeText (s : String) : List UInt8 :=
  let bytes := Text.Utf8.encode (clipText s)
  encodeInt (Int32.ofNat bytes.length) ++ bytes
    ++ List.replicate (ColumnType.textWidth - bytes.length) 0

/-- The text with the given bytes. -/
def decodeText (bytes : List UInt8) : String :=
  let length := min (decodeInt (bytes.take ColumnType.intWidth)).toInt.toNat ColumnType.textWidth
  String.ofList (Text.Utf8.decodeLossy ((bytes.drop ColumnType.intWidth).take length))

/-! ## Values and rows -/

/-- The bytes of a value. -/
def Value.encode : Value → List UInt8
  | .int n => encodeInt n
  | .string s => encodeText s

/-- The value of a type with the given bytes. -/
def ColumnType.decode (type : ColumnType) (bytes : List UInt8) : Value :=
  match type with
  | .int => .int (decodeInt bytes)
  | .string => .string (decodeText bytes)

/-- The bytes of some values. -/
def encodeValues (values : List Value) : List UInt8 := values.flatMap Value.encode

/-- The values of the given types, read one after the other. -/
def decodeValues : List ColumnType → List UInt8 → List Value
  | [], _ => []
  | t :: ts, bytes => t.decode (bytes.take t.width) :: decodeValues ts (bytes.drop t.width)

/-- A value as it is stored. -/
def Value.clip : Value → Value
  | .int n => .int n
  | .string s => .string (clipText s)

/-- Whether storing a value drops a part of it. -/
def Value.isLong : Value → Bool
  | .int _ => false
  | .string s => Text.Utf8.size s.toList > ColumnType.textWidth

/-- The values of a row of `schema`, the first of which is at position `i`, as they are stored.
    A text can be replaced by its beginning only in a column of texts. -/
def clipValues (schema : Schema) (i : Nat) : List Value → Except Error (List Value)
  | [] => .ok []
  | v :: vs => do
    let v ←
      if v.isLong then
        match schema.columnType i with
        | .error e => .error e
        | .ok t =>
          if v.type = t then .ok v.clip else .error (.mismatch (.storedType v.type t i))
      else .ok v
    let vs ← clipValues schema (i + 1) vs
    .ok (v :: vs)

/-- The row as it is stored. -/
def Row.clip (r : Row) : Except Error Row :=
  (clipValues r.schema 0 r.values).map fun values => { r with values }

/-! ## Widths -/

@[simp]
theorem length_encodeInt (n : Int32) : (encodeInt n).length = ColumnType.intWidth := rfl

theorem length_encode_clipText (s : String) :
    (Text.Utf8.encode (clipText s)).length ≤ ColumnType.textWidth := by
  simp [Text.Utf8.encode, clipText, Text.Utf8.length_encodeChars, Text.Utf8.size_clip_le]

@[simp]
theorem length_encodeText (s : String) :
    (encodeText s).length = ColumnType.intWidth + ColumnType.textWidth := by
  have := length_encode_clipText s
  simp only [encodeText, List.length_append, length_encodeInt, List.length_replicate]
  omega

/-- A value takes exactly the width of its type. -/
@[simp]
theorem Value.length_encode (v : Value) : v.encode.length = v.type.width := by
  cases v <;> simp [Value.encode, Value.type, ColumnType.width]

theorem length_encodeValues (values : List Value) :
    (encodeValues values).length = ColumnType.totalWidth (values.map Value.type) := by
  induction values with
  | nil => rfl
  | cons v vs ih =>
    rw [List.map_cons, ColumnType.totalWidth, ← ih]
    simp [encodeValues]

@[simp]
theorem ColumnType.type_decode (t : ColumnType) (bytes : List UInt8) :
    (t.decode bytes).type = t := by
  cases t <;> rfl

theorem map_type_decodeValues (ts : List ColumnType) (bytes : List UInt8) :
    (decodeValues ts bytes).map Value.type = ts := by
  induction ts generalizing bytes with
  | nil => rfl
  | cons t ts ih => simp [decodeValues, ih]

example : encodeInt (-2) = [255, 255, 255, 254] ∧ decodeInt [255, 255, 255, 254] = -2 := by decide
example : decodeText [255, 255, 255, 255, 0x61] = "" := by decide
example : decodeText [0, 0, 0, 2, 0x61, 0xFF] = "a\uFFFD" := by decide

end RowStore
