import RowStore.Proofs.Archive.Slots

/-!
Tables without some of their rows.

Program.  Rows are deleted one by one, each at its place; a slot that was given up stays where it is.

1. `t.without id gone` is the table `t` with nothing at the places `gone`.  Deleting one more row that is
   there makes it the table with one more place given up (`delete_without`), and pages on which nothing
   was deleted stay as they are (`getElem?_without`).
2. `t.deleteWhere id p` has nothing where a row satisfied the test `p`.  It is the table without the places
   of these rows (`deleteWhere_eq_without`), and its rows are the others, in their order
   (`rows_deleteWhere`).

Crux.  A place has at most one row, so that a row is told by its place.
-/

namespace RowStore.SlotTable

variable {t : SlotTable} {id : TableId} {n i : Nat} {values : List Value} {place : RecordId}
  {gone : List RecordId} {row : Row} {p : Row → Bool}

/-! ## Rows and their places -/

/-- The rows of a table are what its slots hold, each with its place. -/
theorem mem_rows_iff :
    row ∈ t.rows id ↔ ∃ (n : Nat) (slots : Slots) (i : Nat) (values : List Value),
      t.pages[n]? = some slots ∧ slots[i]? = some (some values) ∧
        row = ⟨t.schema, values, some ⟨⟨id, n⟩, i⟩⟩ := by
  rw [rows, List.mem_flatMap]
  constructor
  · rintro ⟨⟨slots, n⟩, hpage, hrow⟩
    obtain ⟨⟨found, i⟩, hslot, hfound⟩ := List.mem_filterMap.mp hrow
    obtain ⟨values, rfl, rfl⟩ := Option.map_eq_some_iff.mp hfound
    exact ⟨n, slots, i, values, List.mem_zipIdx_iff_getElem?.mp hpage,
      List.mem_zipIdx_iff_getElem?.mp hslot, rfl⟩
  · rintro ⟨n, slots, i, values, hpage, hslot, rfl⟩
    refine ⟨(slots, n), List.mem_zipIdx_iff_getElem?.mpr hpage, List.mem_filterMap.mpr ?_⟩
    exact ⟨(some values, i), List.mem_zipIdx_iff_getElem?.mpr hslot, rfl⟩

/-- A place has at most one row. -/
theorem eq_of_place {other : Row} (hrow : row ∈ t.rows id) (hother : other ∈ t.rows id)
    (hsame : row.place = other.place) : row = other := by
  obtain ⟨n, slots, i, values, hpage, hslot, rfl⟩ := mem_rows_iff.mp hrow
  obtain ⟨n', slots', i', values', hpage', hslot', rfl⟩ := mem_rows_iff.mp hother
  cases hsame
  rw [hpage] at hpage'
  cases hpage'
  rw [hslot] at hslot'
  cases hslot'
  rfl

/-! ## Changing slots -/

/-- The table with each slot changed as its place says. -/
def mapSlots (t : SlotTable) (f : Nat → Nat → Option (List Value) → Option (List Value)) : SlotTable :=
  { t with pages := t.pages.mapIdx fun n slots => slots.mapIdx (f n) }

variable {f g : Nat → Nat → Option (List Value) → Option (List Value)}

theorem getElem?_mapSlots (t : SlotTable) (n : Nat) :
    (t.mapSlots f).pages[n]? = t.pages[n]?.map fun slots => slots.mapIdx (f n) :=
  List.getElem?_mapIdx

/-- Two changes are the same if they are on every slot that there is. -/
theorem mapSlots_congr
    (hsame : ∀ (n : Nat) (slots : Slots) (i : Nat) (c : Option (List Value)),
      t.pages[n]? = some slots → slots[i]? = some c → f n i c = g n i c) :
    t.mapSlots f = t.mapSlots g := by
  show SlotTable.mk _ _ = SlotTable.mk _ _
  congr 1
  refine List.ext_getElem? fun n => ?_
  rw [List.getElem?_mapIdx, List.getElem?_mapIdx]
  cases hpage : t.pages[n]? with
  | none => rfl
  | some slots =>
    rw [Option.map_some, Option.map_some, Option.some.injEq]
    refine List.ext_getElem? fun i => ?_
    rw [List.getElem?_mapIdx, List.getElem?_mapIdx]
    cases hslot : slots[i]? with
    | none => rfl
    | some c => rw [Option.map_some, Option.map_some, hsame n slots i c hpage hslot]

theorem mapIdx_self (slots : Slots) : slots.mapIdx (fun _ c => c) = slots :=
  List.mapIdx_eq_iff.mpr fun i => by rw [Option.map_id']

theorem mapSlots_id (t : SlotTable) : t.mapSlots (fun _ _ c => c) = t := by
  show SlotTable.mk _ _ = t
  congr 1
  refine List.mapIdx_eq_iff.mpr fun n => ?_
  simp only [mapIdx_self, Option.map_id']

theorem mapSlots_mapSlots (t : SlotTable) :
    (t.mapSlots f).mapSlots g = t.mapSlots fun n i c => g n i (f n i c) := by
  show SlotTable.mk _ _ = SlotTable.mk _ _
  congr 1
  simp only [mapSlots, List.mapIdx_mapIdx, Function.comp_def]

/-- Putting something into a slot changes this slot and no other. -/
theorem put_eq_mapSlots (t : SlotTable) (n i : Nat) (c : Option (List Value)) :
    t.put n i c = t.mapSlots fun m j old => if m = n ∧ j = i then c else old := by
  show SlotTable.mk _ _ = SlotTable.mk _ _
  congr 1
  refine List.ext_getElem? fun m => ?_
  rw [List.getElem?_modify, List.getElem?_mapIdx]
  cases hpage : t.pages[m]? with
  | none => simp
  | some slots =>
    show some (if n = m then slots.set i c else slots) = some _
    congr 1
    refine List.ext_getElem? fun j => ?_
    rw [List.getElem?_mapIdx]
    by_cases hm : n = m
    · subst hm
      rw [if_pos rfl, List.getElem?_set]
      by_cases hj : i = j
      · subst hj
        by_cases hlt : i < slots.length
        · simp [hlt]
        · simp [hlt]
      · simp [hj, Ne.symm hj]
    · simp [hm, Ne.symm hm]

/-! ## Places that are given up -/

/-- The table with nothing at some places. -/
def without (t : SlotTable) (id : TableId) (gone : List RecordId) : SlotTable :=
  t.mapSlots fun n i c => if ⟨⟨id, n⟩, i⟩ ∈ gone then none else c

/-- The table without the rows that satisfy a test. -/
def deleteWhere (t : SlotTable) (id : TableId) (p : Row → Bool) : SlotTable :=
  t.mapSlots fun n i c => c.filter fun values => !p ⟨t.schema, values, some ⟨⟨id, n⟩, i⟩⟩

theorem without_nil (t : SlotTable) (id : TableId) : t.without id [] = t :=
  (mapSlots_congr fun _ _ _ _ _ _ => if_neg List.not_mem_nil).trans t.mapSlots_id

/-- Pages on which nothing was given up stay as they are. -/
theorem getElem?_without (hother : ∀ place ∈ gone, place.page.number ≠ n) :
    (t.without id gone).pages[n]? = t.pages[n]? := by
  unfold without
  rw [getElem?_mapSlots]
  have hnone : ∀ i c, (if (⟨⟨id, n⟩, i⟩ : RecordId) ∈ gone then none else c : Option (List Value)) = c :=
    fun i c => if_neg fun hmem => hother _ hmem rfl
  simp only [hnone, mapIdx_self, Option.map_id']

/-- Deleting a row that is there gives up its place. -/
theorem delete_without (hrow : row ∈ t.rows id) (hplace : row.place = some place)
    (hthere : place ∉ gone) :
    (t.without id gone).delete place = .ok (t.without id (gone ++ [place])) := by
  obtain ⟨n, slots, i, values, hpage, hslot, rfl⟩ := mem_rows_iff.mp hrow
  cases hplace
  have hpage' : (t.without id gone).pages[n]? = _ := getElem?_mapSlots t n
  unfold delete
  simp only [hpage', hpage, Option.map_some, List.getElem?_mapIdx, hslot, if_neg hthere]
  congr 1
  rw [put_eq_mapSlots, without, without, mapSlots_mapSlots]
  refine mapSlots_congr fun m _ j c _ _ => ?_
  by_cases hsame : m = n ∧ j = i
  · obtain ⟨rfl, rfl⟩ := hsame
    simp
  · have hne : (⟨⟨id, m⟩, j⟩ : RecordId) ≠ ⟨⟨id, n⟩, i⟩ := by
      rintro heq
      cases heq
      exact hsame ⟨rfl, rfl⟩
    simp [hsame, hne]

/-- A test gives up the places of the rows that satisfy it. -/
theorem deleteWhere_eq_without (t : SlotTable) (id : TableId) (p : Row → Bool) :
    t.deleteWhere id p = t.without id (((t.rows id).filter p).filterMap (·.place)) := by
  refine mapSlots_congr fun n slots i c hpage hslot => ?_
  cases c with
  | none =>
    rw [ite_self]
    rfl
  | some values =>
    have hrow : (⟨t.schema, values, some ⟨⟨id, n⟩, i⟩⟩ : Row) ∈ t.rows id :=
      mem_rows_iff.mpr ⟨n, slots, i, values, hpage, hslot, rfl⟩
    have hgone : (⟨⟨id, n⟩, i⟩ : RecordId) ∈ ((t.rows id).filter p).filterMap (·.place) ↔
        p ⟨t.schema, values, some ⟨⟨id, n⟩, i⟩⟩ = true := by
      rw [List.mem_filterMap]
      constructor
      · rintro ⟨other, hother, hplace⟩
        obtain ⟨hmem, hp⟩ := List.mem_filter.mp hother
        obtain rfl := eq_of_place hrow hmem hplace.symm
        exact hp
      · intro hp
        exact ⟨_, List.mem_filter.mpr ⟨hrow, hp⟩, rfl⟩
    by_cases hp : p ⟨t.schema, values, some ⟨⟨id, n⟩, i⟩⟩ = true
    · rw [if_pos (hgone.mpr hp)]
      simp [hp]
    · rw [if_neg (hgone.not.mpr hp)]
      simp [hp]

theorem zipIdx_mapIdx {α β : Type} (f : Nat → α → β) (l : List α) :
    (l.mapIdx f).zipIdx = l.zipIdx.map fun (a, i) => (f i a, i) := by
  refine List.ext_getElem? fun i => ?_
  simp only [List.getElem?_zipIdx, List.getElem?_mapIdx, List.getElem?_map, Option.map_map, Nat.zero_add,
    Function.comp_def]

/-- The other rows stay, in their order. -/
theorem rows_deleteWhere (t : SlotTable) (id : TableId) (p : Row → Bool) :
    (t.deleteWhere id p).rows id = (t.rows id).filter fun row => !p row := by
  have hslot : ∀ (n i : Nat) (c : Option (List Value)),
      (c.filter fun values => !p ⟨t.schema, values, some ⟨⟨id, n⟩, i⟩⟩).map
          (fun values => (⟨t.schema, values, some ⟨⟨id, n⟩, i⟩⟩ : Row)) =
        (c.map fun values => (⟨t.schema, values, some ⟨⟨id, n⟩, i⟩⟩ : Row)).filter fun row => !p row := by
    intro n i c
    rw [Option.filter_map]
    rfl
  have hpage : ∀ (n : Nat) (slots : Slots),
      Page.liveRows t.schema ⟨id, n⟩
          (slots.mapIdx fun i c => c.filter fun values => !p ⟨t.schema, values, some ⟨⟨id, n⟩, i⟩⟩) =
        (Page.liveRows t.schema ⟨id, n⟩ slots).filter fun row => !p row := by
    intro n slots
    rw [Page.liveRows, Page.liveRows, zipIdx_mapIdx, List.filterMap_map, List.filter_filterMap]
    exact List.filterMap_congr fun e _ => hslot n e.2 e.1
  show ((t.pages.mapIdx _).zipIdx.flatMap _) = _
  rw [zipIdx_mapIdx, List.flatMap_map, rows, List.filter_flatMap]
  exact List.flatMap_congr fun e _ => hpage e.2 e.1

end RowStore.SlotTable
