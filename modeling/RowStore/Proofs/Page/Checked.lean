import RowStore.Page.Checked
import RowStore.Proofs.Page.Fields

/-!
No operation leaves its page.

Program.  The operations of `RowStore.Page.Checked` check every stretch of bytes before they touch it.
Where a stretch lies is computed from the schema, from the number of a slot, and, for a text, from a
length that is read from the page itself.

1. A stretch that lies in the block is read and overwritten (`slice_eq`, `overwrite_eq`).  A field lies in
   the block as soon as the width of its type does (`getField_eq`, `setField_eq`), since the length of a
   text is bounded by its room before it is used; and so do the fields of a row (`getFields_eq`,
   `setFields_eq`).
2. The slots of a page and their bits lie on the page (`Page.slot_on_page`, `Page.bit_on_page`).  So every
   operation of a page does what `RowStore.Page` says (`safe`), and none is stopped at a byte.
3. A page is read from a file of any length, however many bytes the file hands over at a time
   (`readPage_eq`).

Crux.  While a file is read, the bytes before `filled` are those of the file and the others are still zero
(`Loaded`); whoever stops there because the file ends has the block with zeros for what is missing.
-/

namespace RowStore

/-! ## Sizes -/

namespace Bytes

@[simp]
theorem size_setField (a : Bytes) (off : Nat) (v : Value) : (setField a off v).size = a.size := by
  rw [setField_eq, size_write]

@[simp]
theorem size_setFields (a : Bytes) (off : Nat) (values : List Value) :
    (setFields a off values).size = a.size := by
  rw [setFields_eq, size_write]

end Bytes

namespace Checked

variable {n off : Nat}

/-! ## Stretches of bytes -/

theorem byteAt_eq (a : Block n) {i : Nat} (hi : i < n) : byteAt a i = .ok (a.1.getD i 0) := by
  have hin : i < a.1.size := a.2.symm ▸ hi
  simp [byteAt, hin]

theorem slice_eq (a : Block n) {len : Nat} (hroom : off + len ≤ n) :
    slice a off (off + len) = .ok (Bytes.read a.1 off len) := by
  rw [slice, if_pos ⟨by omega, hroom⟩, Nat.add_sub_cancel_left]

theorem overwrite_eq (a : Block n) {chunk : List UInt8} {last : Nat} (hlast : last = off + chunk.length)
    (hroom : last ≤ n) :
    overwrite a off last chunk = .ok ⟨Bytes.write a.1 off chunk, by simp [a.2]⟩ := by
  rw [overwrite, if_pos ⟨by omega, hroom, by omega⟩]

/-! ## Fields -/

theorem getInt_eq (a : Block n) (hroom : off + ColumnType.intWidth ≤ n) :
    getInt a off = .ok (Bytes.getInt a.1 off) := by
  rw [getInt, slice_eq a hroom]
  rfl

theorem setInt_eq (a : Block n) (k : Int32) (hroom : off + ColumnType.intWidth ≤ n) :
    setInt a off k = .ok ⟨Bytes.setInt a.1 off k, by simp [Bytes.setInt, a.2]⟩ :=
  overwrite_eq a (by rw [length_encodeInt]) hroom

/-- Whatever its length says, a text is read inside its room. -/
theorem getText_eq (a : Block n) (hroom : off + (ColumnType.intWidth + ColumnType.textWidth) ≤ n) :
    getText a off = .ok (Bytes.getText a.1 off) := by
  have hint : off + ColumnType.intWidth ≤ n := by omega
  have hlength : min (Bytes.getInt a.1 off).toInt.toNat ColumnType.textWidth ≤ ColumnType.textWidth :=
    Nat.min_le_right _ _
  simp only [getText, getInt_eq a hint, bind, Except.bind]
  rw [slice_eq a (by omega)]
  rfl

theorem length_encode_cutText (s : String) :
    (Text.Utf8.encode (Text.Utf8.cutText ColumnType.textWidth s)).length ≤ ColumnType.textWidth := by
  rw [Text.Utf8.cutText_eq]
  exact length_encode_clipText s

/-- A text is written inside its room, since it is cut before. -/
theorem setText_eq (a : Block n) (s : String)
    (hroom : off + (ColumnType.intWidth + ColumnType.textWidth) ≤ n) :
    setText a off s = .ok ⟨Bytes.setText a.1 off s, by simp [Bytes.setText, Bytes.setInt, a.2]⟩ := by
  have hcut := length_encode_cutText s
  have hint : off + ColumnType.intWidth ≤ n := by omega
  unfold setText Bytes.setText
  generalize Text.Utf8.encode (Text.Utf8.cutText ColumnType.textWidth s) = bytes at hcut ⊢
  simp only [setInt_eq a _ hint, bind, Except.bind]
  rw [overwrite_eq _ rfl (by omega)]
  simp only
  rw [overwrite_eq _ (by rw [List.length_replicate]; omega) (by omega)]

theorem getField_eq (a : Block n) {t : ColumnType} (hroom : off + t.width ≤ n) :
    getField a off t = .ok (Bytes.getField a.1 off t) := by
  cases t with
  | int =>
    rw [getField, getInt_eq a hroom]
    rfl
  | string =>
    rw [getField, getText_eq a hroom]
    rfl

theorem setField_eq (a : Block n) {v : Value} (hroom : off + v.type.width ≤ n) :
    setField a off v = .ok ⟨Bytes.setField a.1 off v, by simp [a.2]⟩ := by
  cases v with
  | int k => exact setInt_eq a k hroom
  | string s => exact setText_eq a s hroom

theorem getFields_eq (a : Block n) {ts : List ColumnType}
    (hroom : off + ColumnType.totalWidth ts ≤ n) :
    getFields a off ts = .ok (Bytes.getFields a.1 off ts) := by
  induction ts generalizing off with
  | nil => rfl
  | cons t ts ih =>
    rw [ColumnType.totalWidth] at hroom
    have hfirst : off + t.width ≤ n := by omega
    have hrest : off + t.width + ColumnType.totalWidth ts ≤ n := by omega
    rw [getFields, getField_eq a hfirst, ih hrest]
    rfl

theorem setFields_eq (a : Block n) {values : List Value}
    (hroom : off + ColumnType.totalWidth (values.map Value.type) ≤ n) :
    setFields a off values = .ok ⟨Bytes.setFields a.1 off values, by simp [a.2]⟩ := by
  induction values generalizing off a with
  | nil => rfl
  | cons v vs ih =>
    rw [List.map_cons, ColumnType.totalWidth] at hroom
    have hfirst : off + v.type.width ≤ n := by omega
    have hrest : off + v.type.width + ColumnType.totalWidth (vs.map Value.type) ≤ n := by omega
    rw [setFields, setField_eq a hfirst]
    exact ih _ hrest

/-! ## Looking at several slots -/

theorem mapM_eq_ok {ε α β : Type} {f : α → Except ε β} {g : α → β} {l : List α}
    (h : ∀ x ∈ l, f x = .ok (g x)) : l.mapM f = .ok (l.map g) := by
  induction l with
  | nil => rfl
  | cons x l ih =>
    rw [List.mapM_cons, h x List.mem_cons_self, ih fun y hy => h y (List.mem_cons_of_mem _ hy)]
    rfl

theorem findM?_eq_ok {ε α : Type} {f : α → Except ε Bool} {g : α → Bool} {l : List α}
    (h : ∀ x ∈ l, f x = .ok (g x)) : l.findM? f = .ok (l.find? g) := by
  induction l with
  | nil => rfl
  | cons x l ih =>
    rw [List.findM?, h x List.mem_cons_self, ih fun y hy => h y (List.mem_cons_of_mem _ hy),
      List.find?_cons]
    cases g x <;> rfl

/-! ## The operations of a page -/

section Page

variable (p : Page)

theorem isUsed_eq (i : Nat) : isUsed p i = .ok (p.isUsed i) := by
  rw [isUsed, Page.isUsed_eq]
  by_cases hi : p.slots ≤ i
  · rw [if_pos hi, decide_eq_false (by omega), Bool.false_and]
  · have hslot : i < p.slots := by omega
    rw [if_neg hi, byteAt_eq _ (Page.bit_on_page hslot), decide_eq_true hslot, Bool.true_and]
    rfl

theorem mark_eq {i : Nat} (hi : i < p.slots) (used : Bool) : mark p i used = .ok (p.mark i used) := by
  have hbyte : i / 8 < p.bytes.size := Page.bit_on_page hi
  have hlast : ∀ b : UInt8, i / 8 + 1 = i / 8 + [b].length := fun _ => rfl
  rw [mark, byteAt_eq _ hbyte]
  simp only [bind, Except.bind]
  rw [overwrite_eq _ (hlast _) hbyte]
  rfl

theorem countFree_eq : countFree p = .ok p.freeSlots.length := by
  rw [countFree, mapM_eq_ok fun i _ => isUsed_eq p i]
  refine congrArg Except.ok ?_
  rw [Page.freeSlots, List.count, List.countP_map, List.countP_eq_length_filter]
  refine congrArg List.length (List.filter_congr fun i _ => ?_)
  cases h : p.isUsed i <;> simp [h]

theorem firstFree_eq : firstFree p = .ok p.freeSlots.head? := by
  have hfree : ∀ i ∈ List.range p.slots,
      (do let used ← isUsed p i; .ok (!used)) = (.ok (!p.isUsed i) : Except Stop Bool) := by
    intro i _
    rw [isUsed_eq]
    rfl
  rw [firstFree, findM?_eq_ok hfree, Page.freeSlots, List.head?_filter]

theorem row_eq (i : Nat) : row p i = .ok (p.row i) := by
  rw [row, isUsed_eq, Page.row_eq_getFields]
  by_cases hused : p.isUsed i = true
  · have hslot : i < p.slots := by
      rw [Page.isUsed_eq, Bool.and_eq_true, decide_eq_true_eq] at hused
      exact hused.1
    have hfields : getFields (blockOf p) (p.slotOffset i) p.schema.types =
        .ok (Bytes.getFields p.bytes (p.slotOffset i) p.schema.types) :=
      getFields_eq _ (Page.slot_on_page hslot)
    -- the values have the types that they were read with
    have hrow : Row.ofValues p.schema (Bytes.getFields p.bytes (p.slotOffset i) p.schema.types) =
        .ok ⟨p.schema, Bytes.getFields p.bytes (p.slotOffset i) p.schema.types, none⟩ := by
      rw [Row.ofValues_eq_ok_iff, Bytes.getFields_eq]
      exact ⟨map_type_decodeValues _ _, rfl⟩
    simp only [bind, Except.bind, if_pos hused, hfields, hrow, refuse, Except.mapError]
  · simp only [bind, Except.bind, if_neg hused]

theorem rows_eq : rows p = .ok p.rows := by
  rw [rows, mapM_eq_ok fun i _ => row_eq p i]
  refine congrArg Except.ok ?_
  rw [List.filterMap_map, Page.rows, Function.id_comp]

theorem fill_eq {i : Nat} (hi : i < p.slots) {values : List Value}
    (htypes : values.map Value.type = p.schema.types) : fill p i values = .ok (p.fill i values) := by
  have hroom : p.slotOffset i + ColumnType.totalWidth (values.map Value.type) ≤ p.bytes.size :=
    htypes.symm ▸ Page.slot_on_page hi
  have hsame : withBlock p ⟨Bytes.setFields p.bytes (p.slotOffset i) values, by simp⟩ =
      p.fill i values := by
    simp only [withBlock, Page.fill, Bytes.setFields_eq]
  rw [fill, setFields_eq _ hroom, ← hsame]
  rfl

theorem lt_slots_of_head?_freeSlots {i : Nat} (hfree : p.freeSlots.head? = some i) : i < p.slots :=
  List.mem_range.mp (List.mem_of_mem_filter (List.mem_of_head? hfree))

theorem store_eq {r : Row} (hr : r.Conforms) :
    store p r = (refuse (p.store r).1, (p.store r).2) := by
  rw [store, Page.store, firstFree_eq, Row.shorten_of_conforms hr]
  by_cases htypes : (!r.schema.sameTypes p.schema) = true
  · rw [if_pos htypes, if_pos htypes]
    rfl
  · rw [if_neg htypes, if_neg htypes]
    have hsame : r.schema.types = p.schema.types := Schema.sameTypes_iff.mp (by simpa using htypes)
    cases hfree : p.freeSlots.head? with
    | none => rfl
    | some i =>
      have hi := lt_slots_of_head?_freeSlots p hfree
      have hfill : fill p i (r.values.map Value.clip) = .ok (p.fill i (r.values.map Value.clip)) :=
        fill_eq p hi ((map_type_clip r.values).trans (hr.trans hsame))
      have hmark := mark_eq (p.fill i (r.values.map Value.clip)) (by rwa [Page.slots_fill]) true
      simp only [hfill, hmark]
      rfl

theorem delete_eq (place : Option RecordId) : delete p place = refuse (p.delete place) := by
  cases place with
  | none => rfl
  | some r =>
    rw [delete, Page.delete, isUsed_eq]
    by_cases hpage : r.page ≠ p.id
    · rw [if_pos hpage, if_pos hpage]
      rfl
    · rw [if_neg hpage, if_neg hpage]
      by_cases hused : p.isUsed r.slot = true
      · have hslot : r.slot < p.slots := by
          rw [Page.isUsed_eq, Bool.and_eq_true, decide_eq_true_eq] at hused
          exact hused.1
        simp only [bind, Except.bind, hused, if_true, mark_eq p hslot]
        rfl
      · simp only [bind, Except.bind, if_neg hused]
        rw [Bool.eq_false_iff.mpr hused]
        rfl

/-- The operations of a page stay on it, whatever its bytes, and do what they are meant to do. -/
structure Safe : Prop where
  /-- Whether a slot holds a row can be told, and how many do not. -/
  used : ∀ i, isUsed p i = .ok (p.isUsed i)
  free : countFree p = .ok p.freeSlots.length
  /-- The row of a slot is read, and all of them are. -/
  row : ∀ i, row p i = .ok (p.row i)
  rows : rows p = .ok p.rows
  /-- A row is stored, or refused as it should be. -/
  store : ∀ r : Row, r.Conforms → store p r = (refuse (p.store r).1, (p.store r).2)
  /-- A slot is freed, or this is refused as it should be. -/
  delete : ∀ place, delete p place = refuse (p.delete place)

theorem safe : Safe p :=
  ⟨isUsed_eq p, countFree_eq p, row_eq p, rows_eq p, fun _ => store_eq p, delete_eq p⟩

end Page

/-! ## Reading a page from its file -/

/-- What was read so far: the bytes before `filled` are those of the file, and the others are zero. -/
def Loaded (content : Bytes) (start filled : Nat) (a : Block n) : Prop :=
  ∀ i < n, a.1[i]? = some (if i < filled then content.getD (start + i) 0 else 0)

theorem loaded_zeros (content : Bytes) (start : Nat) :
    Loaded content start 0 (⟨Bytes.zeros n, by simp [Bytes.zeros]⟩ : Block n) := by
  intro i hi
  rw [if_neg (Nat.not_lt_zero i)]
  simp [Bytes.zeros, hi]

/-- A piece more. -/
theorem Loaded.extend {content : Bytes} {start filled given : Nat} {a : Block n}
    (hloaded : Loaded content start filled a) (hroom : filled + given ≤ n)
    (hthere : start + filled + given ≤ content.size) :
    ∃ b, overwrite a filled (filled + given) (Bytes.read content (start + filled) given) = .ok b ∧
      Loaded content start (filled + given) b := by
  have hlength : (Bytes.read content (start + filled) given).length = given := Bytes.length_read hthere
  refine ⟨_, overwrite_eq a (by rw [hlength]) hroom, ?_⟩
  intro i hi
  show (Bytes.write a.1 filled (Bytes.read content (start + filled) given))[i]? = _
  rw [Bytes.getElem?_write, hlength, a.2]
  by_cases hnew : filled ≤ i ∧ i < filled + given ∧ i < n
  · have hin : start + i < content.size := by omega
    rw [if_pos hnew, if_pos (by omega), Bytes.read_eq, List.getElem?_take_of_lt (by omega),
      List.getElem?_drop, Array.getElem?_toList, show start + filled + (i - filled) = start + i by omega]
    simp [hin]
  · rw [if_neg hnew, hloaded i hi]
    by_cases hold : i < filled
    · rw [if_pos hold, if_pos (by omega)]
    · rw [if_neg hold, if_neg (by omega)]

/-- Where the block is full or the file has ended, the block is read. -/
theorem Loaded.done {content : Bytes} {start filled : Nat} {a : Block n}
    (hloaded : Loaded content start filled a) (hend : n ≤ filled ∨ content.size ≤ start + filled) :
    a.1 = Array.ofFn (n := n) fun i => content.getD (start + i) 0 := by
  apply Array.ext_getElem?
  intro i
  by_cases hi : i < n
  · rw [hloaded i hi]
    by_cases hfilled : i < filled
    · simp [hi, hfilled]
    · have hout : content.size ≤ start + i := by omega
      simp [hi, hfilled, Array.getElem?_eq_none hout]
  · rw [Array.getElem?_eq_none (by rw [a.2]; omega), Array.getElem?_eq_none (by simpa using hi)]

/-- However many bytes the file hands over at a time, the block is read. -/
theorem load_eq (content : Bytes) (hand : Nat → Nat) (start : Nat) {filled : Nat} {a : Block n}
    (hloaded : Loaded content start filled a) :
    ∃ b, load content hand start filled a = .ok b ∧
      b.1 = Array.ofFn (n := n) fun i => content.getD (start + i) 0 := by
  induction filled, a using load.induct content hand start with
  | case1 filled a hmore given hzero =>
    refine ⟨a, ?_, hloaded.done (Or.inr ?_)⟩
    · rw [load, if_pos hmore]
      exact if_pos hzero
    · omega
  | case2 filled a hmore given hsome ih =>
    have hroom : filled + given ≤ n := by omega
    have hthere : start + filled + given ≤ content.size := by omega
    obtain ⟨b, hpiece, hb⟩ := hloaded.extend hroom hthere
    obtain ⟨c, hrest, hc⟩ := ih b hb
    refine ⟨c, ?_, hc⟩
    rw [load, if_pos hmore]
    show (if given = 0 then _ else _) = _
    rw [if_neg hsome, hpiece]
    exact hrest
  | case3 filled a hfull =>
    refine ⟨a, ?_, hloaded.done (Or.inl (by omega))⟩
    rw [load, if_neg hfull]

/-- **Reading a page** of a file of any length, piece by piece. -/
theorem readPage_eq (h : HeapFile) (files : Files) (hand : Nat → Nat) (id : PageId) :
    readPage h files hand id = refuse (h.readPage files id) := by
  rw [readPage, HeapFile.readPage]
  cases h.checkTable id with
  | error e => rfl
  | ok =>
    simp only [bind, Except.bind, refuse, Except.mapError]
    by_cases hn : h.numPages files ≤ id.number
    · rw [if_pos hn, if_pos hn]
    · rw [if_neg hn, if_neg hn]
      obtain ⟨a, hload, ha⟩ := load_eq (files.content h.path) hand (id.number * h.pageSize)
        (loaded_zeros (n := h.pageSize) (files.content h.path) (id.number * h.pageSize))
      rw [hload]
      simp only [ha, block]

end Checked

end RowStore
