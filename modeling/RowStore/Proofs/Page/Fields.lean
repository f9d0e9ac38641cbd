import Mathlib.Data.List.Forall2
import RowStore.Page.Fields
import RowStore.Proofs.Page.Map
import RowStore.Proofs.Text.Cut

/-!
What is stored of a row, and that it is the same wherever one looks.

Program.  A row is shortened twice when it is stored: in the caller's hands (`Row.shorten`), and by
the block of bytes, which cuts every text once more (`Bytes.setText`).  It is read back field by
field, from bytes that may have been anything before.

Crux.  Writing fields one after the other is writing their bytes in one stretch (`setFields_eq`),
and reading them is reading that stretch (`getFields_eq`).  So reading back what was written does
not depend on what was there (`getFields_setFields`), and both ways of shortening come to the
longest beginning that fits (`Value.kept_clip`).

`stored_row_is_read_back` puts it together, also for the acts that follow on the page.
-/

namespace RowStore

/-! ## Fields are stretches of bytes -/

namespace Bytes

theorem write_append (a : Bytes) (off : Nat) (chunk chunk' : List UInt8) :
    write a off (chunk ++ chunk') = write (write a off chunk) (off + chunk.length) chunk' := by
  induction chunk generalizing a off with
  | nil => rfl
  | cons b bs ih =>
    rw [List.cons_append, write, ih, write, List.length_cons, Nat.add_assoc, Nat.add_comm 1]

theorem take_read (a : Bytes) (off : Nat) {m n : Nat} (h : m ≤ n) :
    (read a off n).take m = read a off m := by
  rw [read_eq, read_eq, List.take_take, Nat.min_eq_left h]

theorem drop_read (a : Bytes) (off m n : Nat) :
    (read a off (m + n)).drop m = read a (off + m) n := by
  rw [read_eq, read_eq, List.drop_take, List.drop_drop, Nat.add_sub_cancel_left]

theorem setField_eq (a : Bytes) (off : Nat) (v : Value) : setField a off v = write a off v.encode := by
  cases v with
  | int n => rfl
  | string s =>
    have hcut : Text.Utf8.cutText ColumnType.textWidth s = clipText s := Text.Utf8.cutText_eq _ s
    show setText a off s = write a off (encodeText s)
    simp only [setText, encodeText, setInt, hcut, write_append, length_encodeInt,
      List.length_append, Nat.add_assoc]

/-- Fields are written as one stretch. -/
theorem setFields_eq (a : Bytes) (off : Nat) (values : List Value) :
    setFields a off values = write a off (encodeValues values) := by
  induction values generalizing a off with
  | nil => rfl
  | cons v vs ih =>
    have hsplit : encodeValues (v :: vs) = v.encode ++ encodeValues vs := rfl
    rw [setFields, ih, setField_eq, hsplit, write_append, v.length_encode]

theorem getField_eq (a : Bytes) (off : Nat) (t : ColumnType) :
    getField a off t = t.decode (read a off t.width) := by
  cases t with
  | int => rfl
  | string =>
    have hlength : ∀ n, min n ColumnType.textWidth ≤ ColumnType.textWidth :=
      fun n => Nat.min_le_right _ _
    show Value.string (getText a off) =
      .string (decodeText (read a off (ColumnType.intWidth + ColumnType.textWidth)))
    rw [getText, decodeText, take_read a off (Nat.le_add_right _ _), drop_read,
      take_read _ _ (hlength _)]
    rfl

/-- Fields are read from one stretch. -/
theorem getFields_eq (a : Bytes) (off : Nat) (ts : List ColumnType) :
    getFields a off ts = decodeValues ts (read a off (ColumnType.totalWidth ts)) := by
  induction ts generalizing off with
  | nil => rfl
  | cons t ts ih =>
    rw [getFields, getField_eq, ih, decodeValues, ColumnType.totalWidth,
      take_read a off (Nat.le_add_right _ _), drop_read]

/-- What was written is read back, whatever was there before. -/
theorem getFields_setFields {a : Bytes} {off : Nat} {values : List Value}
    (hroom : off + ColumnType.totalWidth (values.map Value.type) ≤ a.size) :
    getFields (setFields a off values) off (values.map Value.type) = values.map Value.clip := by
  rw [← length_encodeValues] at hroom
  rw [getFields_eq, setFields_eq, ← length_encodeValues, read_write hroom,
    decodeValues_encodeValues]

end Bytes

/-- A page reads its rows field by field. -/
theorem Page.row_eq_getFields (p : Page) (i : Nat) :
    p.row i = if p.isUsed i then
      some ⟨p.schema, Bytes.getFields p.bytes (p.slotOffset i) p.schema.types, some (p.place i)⟩
      else none := by
  rw [Bytes.getFields_eq]
  rfl

/-- A page writes its rows field by field. -/
theorem Page.bytes_fill (p : Page) (i : Nat) (values : List Value) :
    (p.fill i values).bytes = Bytes.setFields p.bytes (p.slotOffset i) values :=
  (Bytes.setFields_eq ..).symm

/-! ## What is kept of a value -/

/-- What is kept of a value: all of an integer, and of a text the longest beginning that fits and
    ends where a character ends. -/
inductive Value.Kept : Value → Value → Prop
  | int (n : Int32) : Kept (.int n) (.int n)
  | string {s t : String} (kept : Text.Utf8.LongestBeginning ColumnType.textWidth s t) :
      Kept (.string s) (.string t)

theorem Value.kept_clip (v : Value) : v.Kept v.clip := by
  cases v with
  | int n => exact .int n
  | string s =>
    have hcut : Text.Utf8.cutText ColumnType.textWidth s = clipText s := Text.Utf8.cutText_eq _ s
    exact .string (hcut ▸ Text.Utf8.longestBeginning_cutText _ s)

/-! ## The row stays -/

namespace Page

variable {p p' : Page} {i : Nat} {row : Row}

/-- A row stays in its slot until the slot is freed. -/
theorem Outcome.row_of_live {act : Act} {reply : Reply} (h : p.Outcome act reply p')
    (hrow : p.row i = some row)
    (hkeep : ∀ freed, act = .delete freed → freed.place ≠ some ⟨p.id, i⟩) :
    p'.row i = some row := by
  have hused : p.isUsed i = true := by
    rw [row_eq] at hrow
    by_contra hfree
    rw [if_neg hfree] at hrow
    cases hrow
  cases h with
  | @stored _ j _ _ _ free _ _ same =>
    have hne : i ∉ [j] := by
      rw [List.mem_singleton]
      rintro rfl
      rw [hused] at free
      cases free
    rw [same.row hne, hrow]
  | @freed _ j _ place _ _ same =>
    have hne : i ∉ [j] := by
      rw [List.mem_singleton]
      rintro rfl
      exact hkeep _ rfl place
    rw [same.row hne, hrow]
  | marked | otherTypes | full | unplaced | elsewhere | notLive => exact hrow

theorem id_perform {act : Act} (hact : act.Conforms) (p : Page) : (p.perform act).2.id = p.id :=
  (p.perform_outcome hact).sameOutside_slots.id

theorem row_after {acts : List Act} (hacts : ∀ act ∈ acts, act.Conforms)
    (hrow : p.row i = some row)
    (hkeep : ∀ freed, .delete freed ∈ acts → freed.place ≠ some ⟨p.id, i⟩) :
    (p.after acts).row i = some row := by
  induction acts generalizing p with
  | nil => exact hrow
  | cons act acts ih =>
    obtain ⟨hact, hrest⟩ := List.forall_mem_cons.mp hacts
    refine ih hrest ((p.perform_outcome hact).row_of_live hrow ?_) ?_
    · rintro freed rfl
      exact hkeep freed (List.mem_cons_self ..)
    · rw [id_perform hact]
      exact fun freed hmem => hkeep freed (List.mem_cons_of_mem _ hmem)

/-- Storing a row of which only what is kept is left changes none of its values. -/
theorem values_of_store_again (q : Page) {schema : Schema} {values : List Value}
    {place : Option RecordId} (hvalues : values.map Value.type = schema.types) :
    (q.store ⟨schema, values.map Value.clip, place⟩).2.values = values.map Value.clip := by
  have hrow : Row.Conforms ⟨schema, values.map Value.clip, place⟩ :=
    (map_type_clip values).trans hvalues
  unfold store
  rw [Row.shorten_of_conforms hrow]
  simp only [map_clip_clip]
  split
  · rfl
  · split <;> rfl

end Page

/-- **What is stored of a row is the same wherever one looks.**  Of a row that agrees with its
    schema every integer is kept and of every text the longest beginning that fits.  This is what is
    read back when its fields are written and read one after the other, whatever bytes were there
    before; it is what is left of the row in the caller's hands; and when a page takes the row, which
    it does if the types agree and a slot is free, it is what the page has in the place that the
    caller is told, for as long as nobody frees that place.  Storing the row again changes none of
    its values. -/
theorem stored_row_is_read_back {row : Row} (hrow : row.Conforms) :
    ∃ kept : List Value, List.Forall₂ Value.Kept row.values kept ∧
      (∀ (a : Bytes) (off : Nat), off + row.schema.rowWidth ≤ a.size →
        Bytes.getFields (Bytes.setFields a off row.values) off row.schema.types = kept) ∧
      row.shorten = (.ok (), { row with values := kept }) ∧
      (∀ p : Page, row.schema.types = p.schema.types → (∃ i < p.slots, p.isUsed i = false) →
        ∃ p' place, p.store row = (.ok p', ⟨row.schema, kept, some place⟩) ∧ place.page = p.id ∧
          ∀ acts : List Page.Act, (∀ act ∈ acts, act.Conforms) →
            (∀ freed, .delete freed ∈ acts → freed.place ≠ some place) →
            (p'.after acts).row place.slot = some ⟨p.schema, kept, some place⟩) ∧
      ∀ (q : Page) (place : Option RecordId),
        (q.store ⟨row.schema, kept, place⟩).2.values = kept := by
  refine ⟨row.values.map Value.clip, ?_, ?_, Row.shorten_of_conforms hrow, ?_, ?_⟩
  · rw [List.forall₂_map_right_iff, List.forall₂_same]
    exact fun v _ => v.kept_clip
  · intro a off hroom
    rw [← hrow]
    rw [Schema.rowWidth, ← hrow] at hroom
    exact Bytes.getFields_setFields hroom
  · rintro p htypes ⟨i, hslot, hfree⟩
    -- the page is not full, so the row was taken
    have houtcome := p.perform_insert_outcome hrow
    cases hstore : p.store row with
    | mk result stored =>
      simp only [Page.perform, hstore] at houtcome
      cases result with
      | error e =>
        simp only at houtcome
        cases houtcome with
        | otherTypes other => exact absurd htypes other
        | full _ full =>
          rw [full i hslot] at hfree
          cases hfree
      | ok p' =>
        simp only at houtcome
        generalize hplace : stored.place = place at houtcome
        cases houtcome with
        | @stored _ j _ _ _ _ _ hread same =>
          refine ⟨p', ⟨p.id, j⟩, rfl, rfl, fun acts hacts hkeep => ?_⟩
          exact Page.row_after hacts hread (by rwa [same.id])
  · exact fun q place => q.values_of_store_again hrow

/-- A negative integer and a text of 141 bytes, of which 127 are kept because the 128th is the first
    half of a character. -/
theorem stored_row_is_read_back_in_part :
    let schema : Schema := ⟨[⟨"n", .int⟩, ⟨"s", .string⟩], by simp⟩
    let long := String.ofList ('a' :: List.replicate 70 'é')
    let short := String.ofList ('a' :: List.replicate 63 'é')
    let row : Row := ⟨schema, [.int (-5), .string long], none⟩
    row.Conforms ∧ (Text.Utf8.encode long).length = 141 ∧ (Text.Utf8.encode short).length = 127 ∧
      row.shorten = (.ok (), ⟨schema, [.int (-5), .string short], none⟩) ∧
      ∀ (a : Bytes) (off : Nat), off + 136 ≤ a.size →
        Bytes.getFields (Bytes.setFields a off [.int (-5), .string long]) off schema.types =
          [.int (-5), .string short] := by
  intro schema long short row
  have hrow : row.Conforms := rfl
  obtain ⟨kept, -, hread, hshorten, -⟩ := stored_row_is_read_back hrow
  have hkept : row.shorten = (.ok (), ⟨schema, [.int (-5), .string short], none⟩) := by
    decide +kernel
  obtain rfl : kept = [.int (-5), .string short] := by
    rw [hkept] at hshorten
    cases hshorten
    rfl
  exact ⟨hrow, by decide +kernel, by decide +kernel, hkept, hread⟩

end RowStore
