import RowStore.Error
import RowStore.Text.Blank

/-!
Rows, and the reading of types, values, comparisons and functions from texts.

1. A `Row` has values, the schema they were made for, and, once it is stored, its place.
2. `Row.ofValues` and `Row.set` accept a value only if its type is the column's; a row made by
   them agrees with its schema (`conforms_ofValues`, `conforms_set`).
3. Words are read without the blanks around them and in either letter case.
-/

namespace RowStore

/-! ## Reading words -/

/-- The type that a text names. -/
def ColumnType.parse (text : String) : Except Error ColumnType :=
  let word := Text.lowercase (Text.trim text)
  (ColumnType.named? word).elim (.error (.mismatch (.unknownType word))) .ok

/-- The comparison that a text writes. -/
def Comparison.parse (text : String) : Except Error Comparison :=
  let word := Text.uppercase (Text.trim text)
  (Comparison.written? word).elim (.error (.missing (.comparison word))) .ok

/-- The function that a text names. -/
def AggregateFunction.parse (text : String) : Except Error AggregateFunction :=
  let word := Text.lowercase (Text.trim text)
  (AggregateFunction.named? word).elim (.error (.missing (.aggregate word))) .ok

/-- The value that a text writes, for a column of type `type`.  Blanks around an integer do not
    count; a text is taken as it is. -/
def Value.parse (type : ColumnType) (text : String) : Except Error Value :=
  match type with
  | .int =>
    match Text.readInt32 (Text.trim text) with
    | .ok n => .ok (.int n)
    | .error fault => .error (.mismatch (.notInteger text fault))
  | .string => .ok (.string text)

/-! ## Schemas -/

namespace Schema

/-- The schema with the given columns. -/
def ofColumns (columns : List Column) : Except Error Schema :=
  if h : columns ≠ [] then .ok ⟨columns, h⟩ else .error (.mismatch .noColumns)

/-- The column at a position. -/
def column (s : Schema) (index : Nat) : Except Error Column :=
  match s.columns[index]? with
  | some c => .ok c
  | none => .error (.missing (.columnAt index s.size))

/-- The type of the column at a position. -/
def columnType (s : Schema) (index : Nat) : Except Error ColumnType :=
  (s.column index).map (·.type)

/-- The position of the first column with a given name. -/
def indexOf (s : Schema) (name : String) : Except Error Nat :=
  match s.columns.findIdx? (·.name == name) with
  | some i => .ok i
  | none => .error (.missing (.column name))

end Schema

/-! ## Rows -/

/-- A row of values. -/
structure Row where
  /-- What the values were made for. -/
  schema : Schema
  /-- The values in order. -/
  values : List Value
  /-- Where the row is stored, if it is. -/
  place : Option RecordId
  deriving DecidableEq

namespace Row

/-- Whether the values have the types of the schema. -/
def Conforms (r : Row) : Prop := r.values.map Value.type = r.schema.types

instance (r : Row) : Decidable r.Conforms := inferInstanceAs (Decidable (_ = _))

/-- The first value from position `i` on that has not the type expected of it. -/
def firstMismatch (i : Nat) : List Value → List ColumnType → Option Mismatch
  | v :: vs, t :: ts =>
    if v.type = t then firstMismatch (i + 1) vs ts else some (.valueType i v.type t)
  | _, _ => none

/-- A row that is not stored. -/
def ofValues (schema : Schema) (values : List Value) : Except Error Row :=
  if values.length ≠ schema.size then
    .error (.mismatch (.valueCount values.length schema))
  else match firstMismatch 0 values schema.types with
    | some cause => .error (.mismatch cause)
    | none => .ok ⟨schema, values, none⟩

/-- The row with another value at a position. -/
def set (r : Row) (index : Nat) (value : Value) : Except Error Row :=
  match r.schema.columnType index with
  | .error e => .error e
  | .ok expected =>
    if value.type = expected then .ok { r with values := r.values.set index value }
    else .error (.mismatch (.storedType value.type expected index))

/-- The values of two rows, one after the other, as a row that is not stored. -/
def append (schema : Schema) (left right : Row) : Row :=
  ⟨schema, left.values ++ right.values, none⟩

/-- A row as it is printed: its values with tabs between them. -/
def text (r : Row) : String := "\t".intercalate (r.values.map Value.text)

/-! ## Rows agree with their schemas -/

theorem firstMismatch_eq_none {vs : List Value} {ts : List ColumnType} {i : Nat}
    (hlen : vs.length = ts.length) :
    firstMismatch i vs ts = none ↔ vs.map Value.type = ts := by
  induction vs generalizing ts i with
  | nil =>
    cases ts with
    | nil => simp [firstMismatch]
    | cons t ts => simp at hlen
  | cons v vs ih =>
    cases ts with
    | nil => simp at hlen
    | cons t ts =>
      simp only [List.length_cons, Nat.add_right_cancel_iff] at hlen
      unfold firstMismatch
      split
      · rename_i h
        simp [ih hlen, h]
      · rename_i h
        simp [h]

theorem conforms_ofValues {schema : Schema} {values : List Value} {r : Row}
    (h : ofValues schema values = .ok r) : r.Conforms := by
  unfold ofValues at h
  split at h
  · cases h
  · rename_i hlen
    split at h
    · cases h
    · rename_i hnone
      cases h
      refine (firstMismatch_eq_none ?_).mp hnone
      simpa [Schema.types, Schema.size] using hlen

/-- A row is accepted exactly when its values have the types of the schema. -/
theorem ofValues_eq_ok_iff {schema : Schema} {values : List Value} {r : Row} :
    ofValues schema values = .ok r ↔
      values.map Value.type = schema.types ∧ r = ⟨schema, values, none⟩ := by
  constructor
  · intro h
    have hr : r = ⟨schema, values, none⟩ := by
      unfold ofValues at h
      split at h
      · cases h
      · split at h
        · cases h
        · cases h
          rfl
    subst hr
    exact ⟨conforms_ofValues h, rfl⟩
  · rintro ⟨htypes, rfl⟩
    have hlen : values.length = schema.size := by
      have := congrArg List.length htypes
      simpa [Schema.types, Schema.size] using this
    have hnone : firstMismatch 0 values schema.types = none :=
      (firstMismatch_eq_none (by simpa [Schema.types, Schema.size] using hlen)).mpr htypes
    simp [ofValues, hlen, hnone]

theorem conforms_set {r s : Row} {index : Nat} {value : Value} (hr : r.Conforms)
    (h : r.set index value = .ok s) : s.Conforms := by
  unfold set at h
  split at h
  · cases h
  · rename_i expected hexp
    split at h
    · rename_i htype
      cases h
      unfold Conforms at *
      simp only [List.map_set, hr, htype]
      unfold Schema.columnType Schema.column at hexp
      split at hexp
      · rename_i c hc
        simp only [Except.map, Except.ok.injEq] at hexp
        subst hexp
        apply List.ext_getElem?
        intro j
        by_cases hj : index = j
        · subst hj
          obtain ⟨hlt, hget⟩ := List.getElem?_eq_some_iff.mp hc
          simp [Schema.types, hlt, hget]
        · simp [hj]
      · cases hexp
    · cases h

end Row

end RowStore
