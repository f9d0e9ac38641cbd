import RowStore.Page.InPlace
import RowStore.Proofs.Text.Utf8

/-!
What is stored is read back.

1. An integer comes back as it was (`decodeInt_encodeInt`), a text as the part of it that is
   stored (`decodeText_encodeText`), and so do the values of a row (`decodeValues_encodeValues`).
2. A row that agrees with its schema can always be stored, with each value as it is stored
   (`Row.clip_of_conforms`), and storing the stored row again changes nothing (`Value.clip_clip`).
-/

namespace RowStore

/-! ## Integers and texts -/

theorem decodeInt_encodeInt (n : Int32) : decodeInt (encodeInt n) = n := by
  have hu : n.toUInt32.toNat < 4294967296 := n.toUInt32.toNat_lt
  have hback : (UInt32.ofNat n.toUInt32.toNat).toInt32 = n := by simp
  unfold decodeInt encodeInt
  simp only [List.foldl_cons, List.foldl_nil, UInt8.toNat_ofNat']
  generalize n.toUInt32.toNat = u at hu hback
  have hvalue : (((0 * 256 + u / 16777216 % 2 ^ 8) * 256 + u / 65536 % 2 ^ 8) * 256 +
      u / 256 % 2 ^ 8) * 256 + u % 2 ^ 8 = u := by omega
  rw [hvalue, hback]

theorem toNat_toInt_ofNat {n : Nat} (hn : n ≤ ColumnType.textWidth) :
    (Int32.ofNat n).toInt.toNat = n := by
  have hsmall : n < 2 ^ 31 := by
    unfold ColumnType.textWidth at hn
    omega
  rw [Int32.toInt_ofNat_of_lt hsmall]
  simp

theorem clipText_clipText (s : String) : clipText (clipText s) = clipText s := by
  unfold clipText
  rw [String.toList_ofList, Text.Utf8.clip_clip]

/-- The part of a text that was stored is read back. -/
theorem decodeText_encodeText (s : String) : decodeText (encodeText s) = clipText s := by
  have hlen := length_encode_clipText s
  unfold decodeText encodeText
  simp only
  generalize hbytes : Text.Utf8.encode (clipText s) = bytes at hlen
  have hhead : (encodeInt (Int32.ofNat bytes.length) ++ bytes ++
      List.replicate (ColumnType.textWidth - bytes.length) 0).take ColumnType.intWidth =
        encodeInt (Int32.ofNat bytes.length) := by
    rw [List.append_assoc, List.take_left' (length_encodeInt _)]
  have htail : (encodeInt (Int32.ofNat bytes.length) ++ bytes ++
      List.replicate (ColumnType.textWidth - bytes.length) 0).drop ColumnType.intWidth =
        bytes ++ List.replicate (ColumnType.textWidth - bytes.length) 0 := by
    rw [List.append_assoc, List.drop_left' (length_encodeInt _)]
  rw [hhead, htail, decodeInt_encodeInt, toNat_toInt_ofNat hlen, Nat.min_eq_left hlen,
    List.take_left' rfl, ← hbytes]
  unfold Text.Utf8.encode
  rw [Text.Utf8.decodeLossy_encodeChars, String.ofList_toList]

/-! ## Values and rows -/

namespace Value

@[simp]
theorem type_clip (v : Value) : v.clip.type = v.type := by
  cases v <;> rfl

@[simp]
theorem clip_clip (v : Value) : v.clip.clip = v.clip := by
  cases v with
  | int n => rfl
  | string s => exact congrArg Value.string (clipText_clipText s)

theorem clip_of_not_long {v : Value} (hlong : v.isLong = false) : v.clip = v := by
  cases v with
  | int n => rfl
  | string s =>
    have hsize : Text.Utf8.size s.toList ≤ ColumnType.textWidth := by
      simpa [isLong] using hlong
    simp only [clip, clipText, Text.Utf8.clip_of_size_le hsize, String.ofList_toList]

theorem decode_encode (v : Value) : v.type.decode v.encode = v.clip := by
  cases v with
  | int n => exact congrArg Value.int (decodeInt_encodeInt n)
  | string s => exact congrArg Value.string (decodeText_encodeText s)

end Value

theorem map_type_clip (values : List Value) :
    (values.map Value.clip).map Value.type = values.map Value.type := by
  simp [Function.comp_def]

theorem map_clip_clip (values : List Value) :
    (values.map Value.clip).map Value.clip = values.map Value.clip := by
  simp [Function.comp_def]

/-- The values of a row are read back as they are stored. -/
theorem decodeValues_encodeValues (values : List Value) :
    decodeValues (values.map Value.type) (encodeValues values) = values.map Value.clip := by
  induction values with
  | nil => rfl
  | cons v vs ih =>
    have hsplit : encodeValues (v :: vs) = v.encode ++ encodeValues vs := rfl
    rw [List.map_cons, List.map_cons, decodeValues, hsplit, List.take_left' v.length_encode,
      List.drop_left' v.length_encode, v.decode_encode, ih]

theorem clipValues_eq_ok {schema : Schema} {values : List Value} {i : Nat}
    (htypes : ∀ j v, values[j]? = some v → schema.columnType (i + j) = .ok v.type) :
    clipValues schema i values = .ok (values.map Value.clip) := by
  induction values generalizing i with
  | nil => rfl
  | cons v vs ih =>
    have hfirst : schema.columnType i = .ok v.type := htypes 0 v rfl
    have hrest : clipValues schema (i + 1) vs = .ok (vs.map Value.clip) := by
      refine ih fun j w hw => ?_
      have hnext := htypes (j + 1) w hw
      rwa [show i + (j + 1) = i + 1 + j by omega] at hnext
    unfold clipValues
    by_cases hlong : v.isLong = true
    · simp only [hlong, hfirst, if_true, hrest, bind, Except.bind, List.map_cons]
    · have hsame : v.clip = v := Value.clip_of_not_long (Bool.eq_false_iff.mpr hlong)
      simp only [if_neg hlong, hrest, bind, Except.bind, List.map_cons, hsame]

namespace Row

variable {row : Row}

theorem Conforms.columnType (hrow : row.Conforms) {i : Nat} {v : Value}
    (hv : row.values[i]? = some v) : row.schema.columnType i = .ok v.type := by
  have htypes : row.schema.types[i]? = some v.type := by
    rw [← hrow, List.getElem?_map, hv]
    rfl
  unfold Schema.types at htypes
  rw [List.getElem?_map, Option.map_eq_some_iff] at htypes
  obtain ⟨c, hc, htype⟩ := htypes
  simp only [Schema.columnType, Schema.column, hc, Except.map, htype]

/-- A row that agrees with its schema can be stored. -/
theorem clip_of_conforms (hrow : row.Conforms) :
    row.clip = .ok { row with values := row.values.map Value.clip } := by
  have hvalues : clipValues row.schema 0 row.values = .ok (row.values.map Value.clip) := by
    refine clipValues_eq_ok fun j v hv => ?_
    rw [Nat.zero_add]
    exact hrow.columnType hv
  simp only [clip, hvalues, Except.map]

/-- The caller's row becomes the row as it is stored. -/
theorem shorten_of_conforms (hrow : row.Conforms) :
    row.shorten = (.ok (), { row with values := row.values.map Value.clip }) := by
  have hclip := row.clip_eq_shorten
  rw [clip_of_conforms hrow] at hclip
  rcases hshorten : row.shorten with ⟨result, r⟩
  rw [hshorten] at hclip
  cases result with
  | error e => cases hclip
  | ok done =>
    cases hclip
    rfl

end Row

end RowStore
