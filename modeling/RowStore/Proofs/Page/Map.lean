import RowStore.Page.Acts
import RowStore.Proofs.Page.Slots

/-!
A page is a finite map from its slots to rows.

Program.  `Page.perform` stores, frees and marks; the bitmap, the slots and what is left over share
one block of bytes, which may be any bytes at first.

Crux.  What an act may change is said byte by byte and bit by bit (`SameOutside`): nothing but the
bit and the bytes of one slot.  Rows, occupancy, the bits that belong to no slot and the bytes
behind the last slot are then unchanged for one and the same reason, and so they are after any
number of acts (`after_sameOutside`).

1. `SlotMap` is the map, with acts of its own.  `Shows` says that all a caller can ask of a page is
   answered as the map says.
2. `Outcome` says when an act is done and what it does then (`perform_outcome`).
3. Page and map give the same replies and stay in step (`slotMap_after`, `replies_eq`); a page that
   is made of the bytes of another shows the same map.  All of it is in `acts_as_map`.
-/

namespace RowStore.Page

variable {p p' p'' : Page} {i j : Nat}

/-! ## The map -/

/-- A finite map from slots to the values of rows. -/
structure SlotMap where
  /-- The page that is shown. -/
  id : PageId
  /-- What its rows look like. -/
  schema : Schema
  /-- The slots, each with the values of its row or with nothing. -/
  slots : List (Option (List Value))

namespace SlotMap

/-- What a slot holds; nothing if there is no such slot. -/
def get? (m : SlotMap) (i : Nat) : Option (List Value) := m.slots[i]?.join

/-- The row in a slot, with its place. -/
def row (m : SlotMap) (i : Nat) : Option Row :=
  (m.get? i).map fun values => ⟨m.schema, values, some ⟨m.id, i⟩⟩

/-- All rows, by rising slot. -/
def rows (m : SlotMap) : List Row := (List.range m.slots.length).filterMap m.row

/-- Number of slots with nothing. -/
def empty (m : SlotMap) : Nat := m.slots.countP (·.isNone)

/-- The map with something else in a slot. -/
def put (m : SlotMap) (i : Nat) (content : Option (List Value)) : SlotMap :=
  { m with slots := m.slots.set i content }

/-- Does to the map what is done to the page. -/
def perform (m : SlotMap) : Act → Reply × SlotMap
  | .insert row =>
    if row.schema.types ≠ m.schema.types then
      (⟨.error (.mismatch (.rowOfPage row.schema m.schema)), some row⟩, m)
    else match m.slots.findIdx? (·.isNone) with
      | none => (⟨.error (.missing (.freeSlot m.id)), some row⟩, m)
      | some i =>
        let values := row.values.map Value.clip
        (⟨.ok (some ⟨m.id, i⟩), some ⟨row.schema, values, some ⟨m.id, i⟩⟩⟩, m.put i (some values))
  | .delete row =>
    match row.place with
    | none => (⟨.error (.missing .place), some row⟩, m)
    | some place =>
      if place.page ≠ m.id then (⟨.error (.missing (.placeOnPage place m.id)), some row⟩, m)
      else if (m.get? place.slot).isNone then (⟨.error (.missing (.liveRow place)), some row⟩, m)
      else (⟨.ok none, some row⟩, m.put place.slot none)
  | .markDirty _ _ => (⟨.ok none, none⟩, m)

/-- The map after some acts. -/
def after (m : SlotMap) : List Act → SlotMap
  | [] => m
  | act :: acts => (m.perform act).2.after acts

/-- The replies to some acts. -/
def replies (m : SlotMap) : List Act → List Reply
  | [] => []
  | act :: acts => (m.perform act).1 :: (m.perform act).2.replies acts

end SlotMap

/-- The map that a page is. -/
def slotMap (p : Page) : SlotMap := ⟨p.id, p.schema, p.contents⟩

/-- Whatever is asked of the page is answered as the map says. -/
structure Shows (p : Page) (m : SlotMap) : Prop where
  id : p.id = m.id
  schema : p.schema = m.schema
  slots : p.slots = m.slots.length
  used : ∀ i, p.isUsed i = (m.get? i).isSome
  row : ∀ i, p.row i = m.row i
  rows : p.rows = m.rows
  empty : p.freeSlots.length = m.empty

theorem lt_slots_of_isUsed (hused : p.isUsed i = true) : i < p.slots := by
  unfold isUsed at hused
  rw [Bool.and_eq_true, decide_eq_true_eq] at hused
  exact hused.1

theorem get?_slotMap (p : Page) (i : Nat) :
    p.slotMap.get? i = if p.isUsed i then some (p.valuesAt i) else none := by
  show p.contents[i]?.join = _
  by_cases hi : i < p.slots
  · rw [getElem?_contents hi]
    rfl
  · rw [getElem?_contents_of_le (Nat.le_of_not_lt hi), if_neg (mt lt_slots_of_isUsed hi)]
    rfl

theorem row_slotMap (p : Page) (i : Nat) : p.slotMap.row i = p.row i := by
  unfold SlotMap.row
  rw [get?_slotMap, row_eq]
  cases p.isUsed i <;> rfl

theorem empty_slotMap (p : Page) : p.slotMap.empty = p.freeSlots.length := by
  show p.contents.countP (·.isNone) = _
  unfold contents freeSlots
  rw [List.countP_map, List.countP_eq_length_filter]
  congr 2
  funext i
  simp only [Function.comp_apply, row_eq]
  cases p.isUsed i <;> rfl

/-- A page shows the map that it is. -/
theorem shows_slotMap (p : Page) : p.Shows p.slotMap where
  id := rfl
  schema := rfl
  slots := p.length_contents.symm
  used i := by
    rw [get?_slotMap]
    cases p.isUsed i <;> rfl
  row i := (row_slotMap p i).symm
  rows := by
    unfold SlotMap.rows
    rw [show p.slotMap.row = p.row from funext (row_slotMap p)]
    show _ = (List.range p.contents.length).filterMap p.row
    rw [length_contents]
    rfl
  empty := (empty_slotMap p).symm

/-! ## What stays the same -/

theorem read_congr {a b : Bytes} {off len : Nat}
    (hsame : ∀ n, off ≤ n → n < off + len → a[n]? = b[n]?) :
    Bytes.read a off len = Bytes.read b off len := by
  rw [Bytes.read_eq, Bytes.read_eq]
  apply List.ext_getElem?
  intro n
  by_cases hn : n < len
  · rw [List.getElem?_take_of_lt hn, List.getElem?_take_of_lt hn, List.getElem?_drop,
      List.getElem?_drop, Array.getElem?_toList, Array.getElem?_toList]
    exact hsame _ (by omega) (by omega)
  · rw [List.getElem?_take_eq_none (by omega), List.getElem?_take_eq_none (by omega)]

/-- Two pages differ at most in some slots: in their bits, which say whether they are used, and in
    their bytes. -/
structure SameOutside (p : Page) (touched : List Nat) (p' : Page) : Prop where
  id : p'.id = p.id
  schema : p'.schema = p.schema
  size : p'.bytes.size = p.bytes.size
  bit : ∀ k, k / 8 < headerLength p.slots → k ∉ touched → p'.bit k = p.bit k
  byte : ∀ n, headerLength p.slots ≤ n →
    (∀ i ∈ touched, n < p.slotOffset i ∨ p.slotOffset i + p.schema.rowWidth ≤ n) →
    p'.bytes[n]? = p.bytes[n]?

namespace SameOutside

variable {touched touched' : List Nat}

theorem slots (h : p.SameOutside touched p') : p'.slots = p.slots := by
  unfold Page.slots
  rw [h.size, h.schema]

theorem slotOffset (h : p.SameOutside touched p') (i : Nat) : p'.slotOffset i = p.slotOffset i := by
  unfold Page.slotOffset
  rw [h.slots, h.schema]

/-- A slot that is not touched is used if it was. -/
theorem isUsed (h : p.SameOutside touched p') (hj : j ∉ touched) : p'.isUsed j = p.isUsed j := by
  rw [isUsed_eq, isUsed_eq, h.slots]
  by_cases hslot : j < p.slots
  · rw [h.bit j (bit_in_header hslot) hj]
  · rw [decide_eq_false hslot, Bool.false_and, Bool.false_and]

/-- A slot that is not touched keeps its row. -/
theorem row (h : p.SameOutside touched p') (hj : j ∉ touched) : p'.row j = p.row j := by
  have hvalues : p'.valuesAt j = p.valuesAt j := by
    unfold valuesAt
    rw [h.schema, h.slotOffset]
    congr 1
    refine read_congr fun n hle hlt => h.byte n ?_ fun i hi => ?_
    · unfold Page.slotOffset at hle
      omega
    · rcases slots_apart (p := p) (show i ≠ j from fun hij => hj (hij ▸ hi)) with hapart | hapart
      · exact Or.inr (by omega)
      · exact Or.inl (by omega)
  rw [row_eq, row_eq, h.isUsed hj, hvalues, h.schema, place, place, h.id]

theorem of_bytes (hid : p'.id = p.id) (hschema : p'.schema = p.schema)
    (hbytes : p'.bytes = p.bytes) : p.SameOutside [] p' where
  id := hid
  schema := hschema
  size := congrArg Array.size hbytes
  bit _ _ _ := by
    unfold Page.bit
    rw [hbytes]
  byte _ _ _ := by rw [hbytes]

theorem refl (p : Page) : p.SameOutside [] p := .of_bytes rfl rfl rfl

theorem mono (h : p.SameOutside touched p') (hsub : touched ⊆ touched') :
    p.SameOutside touched' p' :=
  ⟨h.id, h.schema, h.size, fun k hk hnot => h.bit k hk fun hmem => hnot (hsub hmem),
    fun n hn hout => h.byte n hn fun i hi => hout i (hsub hi)⟩

theorem trans (h : p.SameOutside touched p') (h' : p'.SameOutside touched p'') :
    p.SameOutside touched p'' where
  id := h'.id.trans h.id
  schema := h'.schema.trans h.schema
  size := h'.size.trans h.size
  bit _ hk hnot := (h'.bit _ (by rwa [h.slots]) hnot).trans (h.bit _ hk hnot)
  byte _ hn hout := by
    rw [h'.byte _ (by rwa [h.slots]) ?_, h.byte _ hn hout]
    intro i hi
    rw [h.slotOffset, h.schema]
    exact hout i hi

end SameOutside

theorem sameOutside_mark (hi : i < p.slots) (used : Bool) : p.SameOutside [i] (p.mark i used) where
  id := rfl
  schema := rfl
  size := Array.size_setIfInBounds
  bit _ _ hnot := by
    rw [bit_mark hi, if_neg (by simpa using hnot)]
  byte _ hn _ := getElem?_mark hi hn used

theorem sameOutside_fill {values : List Value} (htypes : values.map Value.type = p.schema.types) :
    p.SameOutside [i] (p.fill i values) where
  id := rfl
  schema := rfl
  size := Bytes.size_write ..
  bit _ hk _ := bit_fill hk i values
  byte _ _ hout := getElem?_fill htypes (hout i (List.mem_singleton_self i))

/-! ## One act -/

/-- What becomes of an act.  The cases exclude one another. -/
inductive Outcome (p : Page) : Act → Reply → Page → Prop
  /-- A row of the types of the page goes into the least free slot. -/
  | stored {row : Row} {i : Nat} {p' : Page} (types : row.schema.types = p.schema.types)
      (slot : i < p.slots) (free : p.isUsed i = false) (least : ∀ j < i, p.isUsed j = true)
      (stored : p'.row i = some ⟨p.schema, row.values.map Value.clip, some ⟨p.id, i⟩⟩)
      (same : p.SameOutside [i] p') :
      Outcome p (.insert row)
        ⟨.ok (some ⟨p.id, i⟩), some ⟨row.schema, row.values.map Value.clip, some ⟨p.id, i⟩⟩⟩ p'
  /-- A row of other types is refused. -/
  | otherTypes {row : Row} (types : row.schema.types ≠ p.schema.types) :
      Outcome p (.insert row) ⟨.error (.mismatch (.rowOfPage row.schema p.schema)), some row⟩ p
  /-- A row for which no slot is free is refused. -/
  | full {row : Row} (types : row.schema.types = p.schema.types)
      (full : ∀ i < p.slots, p.isUsed i = true) :
      Outcome p (.insert row) ⟨.error (.missing (.freeSlot p.id)), some row⟩ p
  /-- A live slot of the page is freed. -/
  | freed {row : Row} {i : Nat} {p' : Page} (place : row.place = some ⟨p.id, i⟩)
      (live : p.isUsed i = true) (freed : p'.isUsed i = false)
      (same : p.SameOutside [i] p') : Outcome p (.delete row) ⟨.ok none, some row⟩ p'
  /-- A row without a place is refused. -/
  | unplaced {row : Row} (place : row.place = none) :
      Outcome p (.delete row) ⟨.error (.missing .place), some row⟩ p
  /-- A row of another page is refused. -/
  | elsewhere {row : Row} {r : RecordId} (place : row.place = some r) (page : r.page ≠ p.id) :
      Outcome p (.delete row) ⟨.error (.missing (.placeOnPage r p.id)), some row⟩ p
  /-- A row that names no live slot is refused. -/
  | notLive {row : Row} {r : RecordId} (place : row.place = some r) (page : r.page = p.id)
      (live : p.isUsed r.slot = false) :
      Outcome p (.delete row) ⟨.error (.missing (.liveRow r)), some row⟩ p
  /-- Marking is never refused and changes no byte. -/
  | marked {dirty : Bool} {tid : Option TransactionId} :
      Outcome p (.markDirty dirty tid) ⟨.ok none, none⟩ (p.markDirty dirty tid)

/-- The least free slot. -/
theorem head?_freeSlots_eq_some_iff :
    p.freeSlots.head? = some i ↔ p.isUsed i = false ∧ i < p.slots ∧ ∀ j < i, p.isUsed j = true := by
  unfold freeSlots
  rw [List.head?_filter, List.find?_range_eq_some]
  simp

/-- No slot is free. -/
theorem head?_freeSlots_eq_none_iff :
    p.freeSlots.head? = none ↔ ∀ i < p.slots, p.isUsed i = true := by
  unfold freeSlots
  rw [List.head?_filter, List.find?_eq_none]
  simp

/-- A row that agrees with its schema and has the types of the page goes into the least free slot,
    and the caller's row becomes what is stored of it. -/
theorem store_eq_ok {row : Row} (hrow : row.Conforms)
    (htypes : row.schema.types = p.schema.types) (hi : p.freeSlots.head? = some i) :
    p.store row = (.ok ((p.fill i (row.values.map Value.clip)).mark i true),
      ⟨row.schema, row.values.map Value.clip, some ⟨p.id, i⟩⟩) := by
  simp only [store, Schema.sameTypes_iff.mpr htypes, Bool.not_true, Bool.false_eq_true, if_false,
    hi, Row.shorten_of_conforms hrow, place]

theorem perform_insert_outcome (p : Page) {row : Row} (hrow : row.Conforms) :
    p.Outcome (.insert row) (p.perform (.insert row)).1 (p.perform (.insert row)).2 := by
  by_cases htypes : row.schema.types = p.schema.types
  · cases hhead : p.freeSlots.head? with
    | some i =>
      obtain ⟨hfree, hslot, hleast⟩ := head?_freeSlots_eq_some_iff.mp hhead
      have hvalues : (row.values.map Value.clip).map Value.type = p.schema.types := by
        rw [map_type_clip, hrow, htypes]
      have hmark : i < (p.fill i (row.values.map Value.clip)).slots := by simpa using hslot
      simp only [perform, store_eq_ok hrow htypes hhead]
      refine .stored htypes hslot hfree hleast ?_
        ((sameOutside_fill hvalues).trans (sameOutside_mark hmark true))
      rw [row_eq, isUsed_mark hmark hmark, if_pos rfl, if_pos rfl, valuesAt_mark hmark,
        valuesAt_fill hslot hvalues, if_pos rfl, map_clip_clip]
      rfl
    | none =>
      simp only [perform, store, Schema.sameTypes_iff.mpr htypes, Bool.not_true,
        Bool.false_eq_true, if_false, hhead]
      exact .full htypes (head?_freeSlots_eq_none_iff.mp hhead)
  · have hother : row.schema.sameTypes p.schema = false :=
      Bool.eq_false_iff.mpr (mt Schema.sameTypes_iff.mp htypes)
    simp only [perform, store, hother, Bool.not_false, if_true]
    exact .otherTypes htypes

theorem perform_delete_outcome (p : Page) (row : Row) :
    p.Outcome (.delete row) (p.perform (.delete row)).1 (p.perform (.delete row)).2 := by
  cases hplace : row.place with
  | none =>
    simp only [perform, hplace, delete]
    exact .unplaced hplace
  | some r =>
    by_cases hpage : r.page = p.id
    · cases hused : p.isUsed r.slot with
      | true =>
        have hslot := lt_slots_of_isUsed hused
        simp only [perform, hplace, delete, ne_eq, hpage, not_true_eq_false, if_false, hused,
          Bool.not_true, Bool.false_eq_true]
        refine .freed (by rw [hplace, ← hpage]) hused ?_ (sameOutside_mark hslot false)
        rw [isUsed_mark hslot hslot, if_pos rfl]
      | false =>
        simp only [perform, hplace, delete, ne_eq, hpage, not_true_eq_false, if_false, hused,
          Bool.not_false, if_true]
        exact .notLive hplace hpage hused
    · simp only [perform, hplace, delete, ne_eq, hpage, not_false_eq_true, if_true]
      exact .elsewhere hplace hpage

/-- An act is done exactly when it can be done, and changes at most one slot. -/
theorem perform_outcome (p : Page) {act : Act} (hact : act.Conforms) :
    p.Outcome act (p.perform act).1 (p.perform act).2 := by
  cases act with
  | insert row => exact p.perform_insert_outcome hact
  | delete row => exact p.perform_delete_outcome row
  | markDirty dirty tid => exact .marked

/-! ## Page and map in step -/

/-- If nothing outside of a slot changes, the contents change in that slot. -/
theorem SameOutside.contents (h : p.SameOutside [i] p') :
    p'.contents = p.contents.set i ((p'.row i).map (·.values)) := by
  apply List.ext_getElem?
  intro j
  rw [List.getElem?_set]
  by_cases hij : i = j
  · subst hij
    by_cases hi : i < p.slots
    · simp [Page.contents, h.slots, hi]
    · simp [Page.contents, h.slots, hi]
  · have hj : j ∉ [i] := by simpa using Ne.symm hij
    rw [if_neg hij]
    by_cases hslot : j < p.slots
    · simp [Page.contents, h.slots, hslot, h.row hj]
    · simp [Page.contents, h.slots, hslot]

/-- If nothing changes, the map does not. -/
theorem SameOutside.slotMap (h : p.SameOutside [] p') : p'.slotMap = p.slotMap := by
  have hrow : p'.row = p.row := funext fun j => h.row List.not_mem_nil
  unfold Page.slotMap Page.contents
  rw [h.id, h.schema, h.slots, hrow]

theorem slotMap_of_same {content : Option (List Value)} (h : p.SameOutside [i] p')
    (hrow : (p'.row i).map (·.values) = content) : p'.slotMap = p.slotMap.put i content := by
  unfold slotMap SlotMap.put
  rw [h.id, h.schema, h.contents, hrow]

/-- What becomes of an act becomes of it in the map. -/
theorem Outcome.perform_slotMap {act : Act} {reply : Reply} (h : p.Outcome act reply p') :
    p.slotMap.perform act = (reply, p'.slotMap) := by
  cases h with
  | @stored row i _ types slot free least stored same =>
    have hhead : p.contents.findIdx? (·.isNone) = some i :=
      p.head?_freeSlots ▸ head?_freeSlots_eq_some_iff.mpr ⟨free, slot, least⟩
    have hput : p'.slotMap = p.slotMap.put i (some (row.values.map Value.clip)) := by
      refine slotMap_of_same same ?_
      rw [stored]
      rfl
    rw [hput]
    simp only [SlotMap.perform, slotMap, types, ne_eq, not_true_eq_false, if_false, hhead]
  | otherTypes types => simp only [SlotMap.perform, slotMap, ne_eq, types, not_false_eq_true, if_true]
  | full types full =>
    have hhead : p.contents.findIdx? (·.isNone) = none :=
      p.head?_freeSlots ▸ head?_freeSlots_eq_none_iff.mpr full
    simp only [SlotMap.perform, slotMap, types, ne_eq, not_true_eq_false, if_false, hhead]
  | @freed row i _ place live freed same =>
    have hput : p'.slotMap = p.slotMap.put i none := by
      refine slotMap_of_same same ?_
      rw [row_eq, freed]
      rfl
    have hget : (p.slotMap.get? i).isNone = false := by
      rw [get?_slotMap, live]
      rfl
    have hpage : ¬(p.id ≠ p.slotMap.id) := not_not_intro rfl
    rw [hput]
    simp only [SlotMap.perform, place, if_neg hpage, hget, Bool.false_eq_true, if_false]
  | unplaced place => simp only [SlotMap.perform, place]
  | elsewhere place page =>
    simp only [SlotMap.perform, place, slotMap, ne_eq, page, not_false_eq_true, if_true]
  | @notLive row r place page live =>
    have hget : (p.slotMap.get? r.slot).isNone = true := by
      rw [get?_slotMap, live]
      rfl
    have hpage : ¬(r.page ≠ p.slotMap.id) := not_not_intro page
    simp only [SlotMap.perform, place, if_neg hpage, hget, if_true]
  | marked => rfl

/-! ## Any number of acts -/

/-- The page after an act, with its reply, is what the map says. -/
theorem slotMap_perform (p : Page) {act : Act} (hact : act.Conforms) :
    p.slotMap.perform act = ((p.perform act).1, (p.perform act).2.slotMap) :=
  (p.perform_outcome hact).perform_slotMap

theorem slotMap_after {acts : List Act} (hacts : ∀ act ∈ acts, act.Conforms) (p : Page) :
    p.slotMap.after acts = (p.after acts).slotMap := by
  induction acts generalizing p with
  | nil => rfl
  | cons act acts ih =>
    obtain ⟨hact, hrest⟩ := List.forall_mem_cons.mp hacts
    rw [SlotMap.after, slotMap_perform p hact]
    exact ih hrest _

theorem replies_eq {acts : List Act} (hacts : ∀ act ∈ acts, act.Conforms) (p : Page) :
    p.replies acts = p.slotMap.replies acts := by
  induction acts generalizing p with
  | nil => rfl
  | cons act acts ih =>
    obtain ⟨hact, hrest⟩ := List.forall_mem_cons.mp hacts
    rw [replies, SlotMap.replies, slotMap_perform p hact, ih hrest]

/-- No act changes anything but the slots: the bits that belong to no slot and the bytes behind the
    last slot stay. -/
theorem Outcome.sameOutside_slots {act : Act} {reply : Reply} (h : p.Outcome act reply p') :
    p.SameOutside (List.range p.slots) p' := by
  cases h with
  | stored _ slot _ _ _ same => exact same.mono (by simpa using slot)
  | freed _ live _ same => exact same.mono (by simpa using lt_slots_of_isUsed live)
  | @marked dirty tid =>
    have hsame : p.SameOutside [] (p.markDirty dirty tid) := .of_bytes rfl rfl rfl
    exact hsame.mono (List.nil_subset _)
  | otherTypes | full | unplaced | elsewhere | notLive =>
    exact (SameOutside.refl p).mono (List.nil_subset _)

theorem after_sameOutside {acts : List Act} (hacts : ∀ act ∈ acts, act.Conforms) (p : Page) :
    p.SameOutside (List.range p.slots) (p.after acts) := by
  induction acts generalizing p with
  | nil => exact (SameOutside.refl p).mono (List.nil_subset _)
  | cons act acts ih =>
    obtain ⟨hact, hrest⟩ := List.forall_mem_cons.mp hacts
    have hfirst := (p.perform_outcome hact).sameOutside_slots
    have hthen := ih hrest (p.perform act).2
    rw [hfirst.slots] at hthen
    exact hfirst.trans hthen

/-- **A page is a finite map from its slots to rows.**  Bytes of the right number make a page if
    there is room for a slot, and it shows a map.  Acts on the page are answered as acts on the map
    are, and the page shows the map after them.  Each act is done exactly when it can be done, and
    changes at most the slot that it is about (`Outcome`); all acts together change neither a bit
    that belongs to no slot nor a byte behind the last one.  The bytes of the page make a page again,
    which shows the same map. -/
theorem acts_as_map (id : PageId) {schema : Schema} {bytes : Bytes} {pageSize : Nat}
    (hsize : bytes.size = pageSize) (hfits : 0 < slotsPerPage pageSize schema.rowWidth)
    {acts : List Act} (hacts : ∀ act ∈ acts, act.Conforms) :
    ∃ p m, Page.ofBytes id schema bytes pageSize = .ok p ∧ p.Shows m ∧
      p.replies acts = m.replies acts ∧ (p.after acts).Shows (m.after acts) ∧
      (∀ before act rest, acts = before ++ act :: rest →
        (p.after before).Outcome act ((p.after before).perform act).1
          (p.after (before ++ [act]))) ∧
      p.SameOutside (List.range p.slots) (p.after acts) ∧
      ∃ again, Page.ofBytes id schema (p.after acts).bytes pageSize = .ok again ∧
        again.Shows (m.after acts) := by
  obtain ⟨p, hp⟩ := Page.exists_ofBytes id hsize hfits
  obtain ⟨-, hid, hschema, hbytes, -⟩ := ofBytes_eq_ok_iff.mp hp
  have hsame := p.after_sameOutside hacts
  have hshows : (p.after acts).Shows (p.slotMap.after acts) := by
    rw [slotMap_after hacts p]
    exact shows_slotMap _
  refine ⟨p, p.slotMap, hp, p.shows_slotMap, p.replies_eq hacts, hshows, ?_, hsame, ?_⟩
  · rintro before act rest rfl
    rw [after_concat]
    exact perform_outcome _ (hacts act (by simp))
  · have hlength : (p.after acts).bytes.size = pageSize := by rw [hsame.size, hbytes, hsize]
    obtain ⟨again, hagain⟩ := Page.exists_ofBytes id hlength hfits
    obtain ⟨-, hid', hschema', hbytes', -⟩ := ofBytes_eq_ok_iff.mp hagain
    refine ⟨again, hagain, ?_⟩
    have hagain : (p.after acts).SameOutside [] again := by
      refine .of_bytes ?_ ?_ hbytes'
      · rw [hid', hsame.id, hid]
      · rw [hschema', hsame.schema, hschema]
    rw [slotMap_after hacts p, ← hagain.slotMap]
    exact shows_slotMap _

/-- A page of two slots whose other bits are all set and whose last two bytes are no zeros: a row
    goes into the free slot, the other slot is freed and filled again, and then the page is full. -/
theorem acts_as_map_on_two_slots :
    let id : PageId := ⟨1, 0⟩
    let schema := Schema.single "n" .int
    let bytes : Bytes := #[0xFE, 0, 0, 0, 1, 0, 0, 0, 2, 7, 8]
    let acts : List Act :=
      [.insert ⟨schema, [.int 5], none⟩, .delete ⟨schema, [.int 2], some ⟨id, 1⟩⟩,
       .markDirty true (some ⟨3⟩), .insert ⟨schema, [.int 6], none⟩,
       .insert ⟨schema, [.int 7], none⟩]
    bytes.size = 11 ∧ 0 < slotsPerPage 11 schema.rowWidth ∧ (∀ act ∈ acts, act.Conforms) ∧
      ∃ p m, Page.ofBytes id schema bytes 11 = .ok p ∧ p.Shows m ∧
        p.replies acts = m.replies acts ∧ (p.after acts).Shows (m.after acts) ∧
        p.SameOutside [0, 1] (p.after acts) ∧
        (p.after acts).bytes = #[0xFF, 0, 0, 0, 5, 0, 0, 0, 6, 7, 8] := by
  intro id schema bytes acts
  have hsize : bytes.size = 11 := rfl
  have hfits : 0 < slotsPerPage 11 schema.rowWidth := by decide
  have hacts : ∀ act ∈ acts, act.Conforms := by decide
  obtain ⟨p, m, hp, hshows, hreplies, hafter, -, hsame, -⟩ := acts_as_map id hsize hfits hacts
  let q : Page := ⟨id, schema, bytes, by decide, false, none⟩
  have hq : Page.ofBytes id schema bytes 11 = .ok q :=
    ofBytes_eq_ok_iff.mpr ⟨rfl, rfl, rfl, rfl, rfl, rfl⟩
  obtain rfl : p = q := Except.ok.inj (hp.symm.trans hq)
  have hslots : List.range q.slots = [0, 1] := by decide +kernel
  have hbytes : (q.after acts).bytes = #[0xFF, 0, 0, 0, 5, 0, 0, 0, 6, 7, 8] := by decide +kernel
  exact ⟨hsize, hfits, hacts, q, m, hq, hshows, hreplies, hafter, hslots ▸ hsame, hbytes⟩

end RowStore.Page
