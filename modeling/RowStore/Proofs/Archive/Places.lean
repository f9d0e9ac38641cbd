import RowStore.Proofs.Archive.Slots
import RowStore.Proofs.Plan.Typed
import RowStore.Proofs.Storage.Operations

/-!
Which places rows get.

Program.  A row goes to the first page that has a free slot, and there into the least free one; when
every page is full, the table gets one page more (`PagedTable.insert`).

1. The free places of a table, by rising page and slot, are used up in this order
   (`Regular.insert_ok`): a row takes the first of them, or there is none and it goes to a new page.
   `Gains` says what becomes of the table.
2. So after some rows were stored, one after the other, the table has the rows that it had and the
   new ones, with their texts cut, and a page that has none of the places that were used up is the
   page that it was (`Regular.insertAll_ok`).

Crux.  Everything about one row is said by the contents of one page, of which one slot changes
(`Page.rows_of_set`, `Page.freeSlots_of_set`).
-/

namespace RowStore

/-! ## One page -/

namespace Page

variable {p p' : Page} {i : Nat} {values : List Value}

/-- The free slots are those with nothing in them. -/
theorem freeSlots_eq (p : Page) :
    p.freeSlots = p.contents.zipIdx.filterMap fun (c, i) => if c.isNone then some i else none := by
  rw [zipIdx_contents, List.filterMap_map]
  unfold freeSlots
  rw [← List.filterMap_eq_filter]
  congr 1
  funext i
  simp only [Function.comp_apply, row_eq, Option.guard]
  by_cases hused : p.isUsed i = true
  · simp [hused]
  · simp [hused]

/-- The first slot with nothing in it splits the slots of a page. -/
theorem exists_split {slots : Slots} (hi : slots.findIdx? (·.isNone) = some i) :
    ∃ before after, slots = before ++ none :: after ∧ before.length = i ∧
      ∀ c ∈ before, c.isNone = false := by
  obtain ⟨hlt, hnone, hbefore⟩ := List.findIdx?_eq_some_iff_getElem.mp hi
  refine ⟨slots.take i, slots.drop (i + 1), ?_, ?_, ?_⟩
  · have hfree : slots[i] = none := Option.isNone_iff_eq_none.mp hnone
    rw [← hfree, ← List.drop_eq_getElem_cons hlt, List.take_append_drop]
  · rw [List.length_take]
    omega
  · intro c hc
    obtain ⟨j, hj, rfl⟩ := List.getElem_of_mem hc
    rw [List.length_take] at hj
    rw [List.getElem_take]
    exact Bool.eq_false_iff.mpr (hbefore j (by omega))

/-- A row more, in the first slot with nothing in it, between those before and after this slot. -/
theorem rows_of_set (hi : p.contents.findIdx? (·.isNone) = some i) (hid : p'.id = p.id)
    (hschema : p'.schema = p.schema) (hset : p'.contents = p.contents.set i (some values)) :
    ∃ before after, p.rows = before ++ after ∧
      p'.rows = before ++ ⟨p.schema, values, some ⟨p.id, i⟩⟩ :: after := by
  obtain ⟨before, after, hsplit, rfl, -⟩ := exists_split hi
  rw [rows_eq_liveRows, rows_eq_liveRows, hset, hsplit, hid, hschema, List.set_append_right _ _ le_rfl]
  simp only [Nat.sub_self, List.set_cons_zero, liveRows, List.zipIdx_append, List.filterMap_append,
    List.zipIdx_cons, List.filterMap_cons, Option.map_some, Option.map_none, Nat.zero_add]
  exact ⟨_, _, rfl, rfl⟩

/-- The first slot with nothing in it is the first of the free slots, and the others stay free. -/
theorem freeSlots_of_set (hi : p.contents.findIdx? (·.isNone) = some i)
    (hset : p'.contents = p.contents.set i (some values)) :
    p.freeSlots = i :: p'.freeSlots := by
  obtain ⟨before, after, hsplit, rfl, hfull⟩ := exists_split hi
  have hnone : (before.zipIdx).filterMap
      (fun (c, i) => if Option.isNone c then some i else none) = [] := by
    rw [List.filterMap_eq_nil_iff]
    rintro ⟨c, n⟩ hc
    have hused := hfull c (List.fst_mem_of_mem_zipIdx hc)
    simp [hused]
  rw [freeSlots_eq, freeSlots_eq, hset, hsplit, List.set_append_right _ _ le_rfl]
  simp only [Nat.sub_self, List.set_cons_zero, List.zipIdx_append, List.filterMap_append, hnone,
    List.zipIdx_cons, List.filterMap_cons, List.nil_append, Option.isNone_none, Option.isNone_some,
    if_true, Bool.false_eq_true, if_false, Nat.zero_add]

/-- A row that a page takes goes to the first free slot, with its texts cut. -/
theorem insert_takes {row row' : Row} (hrow : row.Conforms) (hins : p.insert row = .ok (row', p')) :
    ∃ i, row' = ⟨row.schema, row.values.map Value.clip, some ⟨p.id, i⟩⟩ ∧
      p.freeSlots = i :: p'.freeSlots ∧
      ∃ before after, p.rows = before ++ after ∧
        p'.rows = before ++ ⟨p.schema, row.values.map Value.clip, some ⟨p.id, i⟩⟩ :: after := by
  obtain ⟨hid, hschema, -⟩ := insert_keeps hins
  by_cases htypes : row.schema.sameTypes p.schema = true
  · cases hi : p.contents.findIdx? (·.isNone) with
    | none =>
      unfold insert at hins
      rw [htypes, head?_freeSlots, hi] at hins
      cases hins
    | some i =>
      obtain ⟨p₁, hok, hset⟩ := insert_eq_ok htypes hrow hi
      rw [hok] at hins
      cases hins
      exact ⟨i, rfl, freeSlots_of_set hi hset, rows_of_set hi hid hschema hset⟩
  · unfold insert at hins
    rw [Bool.eq_false_iff.mpr htypes] at hins
    cases hins

end Page

/-! ## One row -/

namespace PagedTable

variable {t t' : PagedTable} {id : TableId} {pageSize : Nat} {row row' : Row}

/-- The places without a row, by rising page and slot. -/
def freePlaces (t : PagedTable) : List RecordId := t.pages.flatMap fun p => p.freeSlots.map p.place

/-- Only rows of the types of the table are taken. -/
theorem sameTypes_of_insert (hins : t.insert id pageSize row = .ok (row', t')) :
    row.schema.sameTypes t.schema = true := by
  by_cases htypes : row.schema.sameTypes t.schema = true
  · exact htypes
  · unfold insert at hins
    rw [Bool.eq_false_iff.mpr htypes] at hins
    cases hins

/-- A row goes to the first page with a free slot, or all pages are full and it goes to a new one. -/
theorem insert_cases (hins : t.insert id pageSize row = .ok (row', t')) :
    (∃ before old after page, t.pages = before ++ old :: after ∧ (∀ p ∈ before, p.freeSlots = []) ∧
      old.insert row = .ok (row', page) ∧
      t' = { t with pages := t.pages.set old.id.number page.clean }) ∨
    (∃ blank page, (∀ p ∈ t.pages, p.freeSlots = []) ∧
      Page.blank ⟨id, t.pages.length⟩ t.schema pageSize = .ok blank ∧
      blank.insert row = .ok (row', page) ∧ t' = { t with pages := t.pages ++ [page.clean] }) := by
  have htypes := sameTypes_of_insert hins
  cases hfind : t.pages.find? fun p => !p.freeSlots.isEmpty with
  | some old =>
    obtain ⟨-, before, after, hpages, hfull⟩ := List.find?_eq_some_iff_append.mp hfind
    rw [insert_of_old htypes hfind] at hins
    cases hpage : old.insert row with
    | error e =>
      rw [hpage] at hins
      cases hins
    | ok placed =>
      rw [hpage] at hins
      cases hins
      refine Or.inl ⟨before, old, after, _, hpages, fun p hp => ?_, hpage, rfl⟩
      simpa using hfull p hp
  | none =>
    have hfull : ∀ p ∈ t.pages, p.freeSlots = [] := by
      intro p hp
      simpa using List.find?_eq_none.mp hfind p hp
    cases hblank : Page.blank ⟨id, t.pages.length⟩ t.schema pageSize with
    | error e =>
      unfold insert at hins
      rw [htypes, hfind, hblank] at hins
      cases hins
    | ok blank =>
      rw [insert_of_full htypes hfind hblank] at hins
      cases hpage : blank.insert row with
      | error e =>
        rw [hpage] at hins
        cases hins
      | ok placed =>
        rw [hpage] at hins
        cases hins
        exact Or.inr ⟨blank, _, hfull, rfl, hpage, rfl⟩

theorem freePlaces_of_full {pages : List Page} (hfull : ∀ p ∈ pages, p.freeSlots = []) :
    (pages.flatMap fun p => p.freeSlots.map p.place) = [] := by
  rw [List.flatMap_eq_nil_iff]
  intro p hp
  rw [hfull p hp]
  rfl

theorem Regular.set (hr : t.Regular id pageSize) {n : Nat} {page : Page} (hid : page.id = ⟨id, n⟩)
    (hschema : page.schema = t.schema) :
    PagedTable.Regular { t with pages := t.pages.set n page } id pageSize where
  fits := hr.fits
  pageId := by
    intro m p hp
    rw [List.getElem?_set] at hp
    split at hp
    · rename_i hm
      split at hp
      · cases hp
        rw [hid, hm]
      · cases hp
    · exact hr.pageId m p hp
  pageSchema := by
    intro m p hp
    rw [List.getElem?_set] at hp
    split at hp
    · split at hp
      · cases hp
        exact hschema
      · cases hp
    · exact hr.pageSchema m p hp

theorem Regular.append (hr : t.Regular id pageSize) {page : Page}
    (hid : page.id = ⟨id, t.pages.length⟩) (hschema : page.schema = t.schema) :
    PagedTable.Regular { t with pages := t.pages ++ [page] } id pageSize := by
  have hlast : ∀ {m : Nat} {p : Page}, (t.pages ++ [page])[m]? = some p →
      t.pages[m]? = some p ∨ (m = t.pages.length ∧ p = page) := by
    intro m p hp
    rw [List.getElem?_append] at hp
    split at hp
    · exact Or.inl hp
    · obtain ⟨hlt, hget⟩ := List.getElem?_eq_some_iff.mp hp
      rw [List.length_singleton] at hlt
      exact Or.inr ⟨by omega, hget.symm.trans (List.getElem_singleton _)⟩
  refine ⟨hr.fits, fun m p hp => ?_, fun m p hp => ?_⟩
  · obtain hp | ⟨rfl, rfl⟩ := hlast hp
    · exact hr.pageId m p hp
    · exact hid
  · obtain hp | ⟨rfl, rfl⟩ := hlast hp
    · exact hr.pageSchema m p hp
    · exact hschema

/-- What it does to a table to store a row at a place. -/
structure Gains (t t' : PagedTable) (row : Row) (place : RecordId) : Prop where
  schema : t'.schema = t.schema
  /-- The row is there, with its texts cut, and so are the others. -/
  rows : t'.rows.Perm (t.rows ++ [⟨t.schema, row.values.map Value.clip, some place⟩])
  /-- Every page keeps its rows in their order, and only the page of the place changes. -/
  pages : ∀ m p, t.pages[m]? = some p → ∃ p', t'.pages[m]? = some p' ∧ p.rows.Sublist p'.rows ∧
    (place.page.number ≠ m → p' = p)
  /-- The place was the first free one, or there was none and it is on a page behind the others. -/
  free : t.freePlaces = place :: t'.freePlaces ∨
    t.freePlaces = [] ∧ t.pages.length ≤ place.page.number ∧
      ∀ free ∈ t'.freePlaces, t.pages.length ≤ free.page.number

/-- The first page that is not full takes the row. -/
theorem Regular.gains_of_old (hr : t.Regular id pageSize) (hrow : row.Conforms)
    {before after : List Page} {old page : Page} (hpages : t.pages = before ++ old :: after)
    (hfull : ∀ p ∈ before, p.freeSlots = []) (hpage : old.insert row = .ok (row', page)) :
    PagedTable.Regular { t with pages := t.pages.set old.id.number page.clean } id pageSize ∧
      ∃ place, Gains t { t with pages := t.pages.set old.id.number page.clean } row place := by
  have hold : t.pages[before.length]? = some old := by
    rw [hpages, List.getElem?_append_right le_rfl, Nat.sub_self]
    rfl
  have hid := hr.pageId _ _ hold
  have hschema := hr.pageSchema _ _ hold
  obtain ⟨hid', hschema', -⟩ := Page.insert_keeps hpage
  obtain ⟨i, -, hfree, first, last, hrows, hrows'⟩ := Page.insert_takes hrow hpage
  have hset : t.pages.set old.id.number page.clean = before ++ page.clean :: after := by
    rw [hid, hpages]
    simp
  have hclean : page.clean.id = ⟨id, old.id.number⟩ := by
    show page.id = _
    rw [hid', hid]
  refine ⟨hr.set hclean (hschema'.trans hschema), ⟨old.id, i⟩, rfl, ?_, ?_, Or.inl ?_⟩
  · show ((t.pages.set old.id.number page.clean).flatMap Page.rows).Perm
      (t.pages.flatMap Page.rows ++ _)
    have hmoved : ∀ (new : Row) (before first last after : List Row),
        (before ++ (first ++ new :: last ++ after)).Perm
          (before ++ (first ++ last ++ after) ++ [new]) := by
      intro new before first last after
      simp only [List.append_assoc, List.cons_append]
      refine .append_left _ (.append_left _ ?_)
      rw [← List.append_assoc]
      exact (List.perm_append_singleton _ _).symm
    rw [hset, hpages, ← hschema]
    simp only [List.flatMap_append, List.flatMap_cons]
    rw [hrows, show page.clean.rows = _ from hrows']
    exact hmoved _ _ _ _ _
  · intro m p hp
    show ∃ p', (t.pages.set old.id.number page.clean)[m]? = some p' ∧ _
    by_cases hm : old.id.number = m
    · have hat : old.id.number = before.length := by rw [hid]
      rw [← hm, hat, hold] at hp
      cases hp
      refine ⟨page.clean, ?_, ?_, fun hne => absurd hm hne⟩
      · rw [hset, ← hm, hat, List.getElem?_append_right le_rfl, Nat.sub_self]
        rfl
      · show old.rows.Sublist page.rows
        rw [hrows, hrows']
        exact (List.sublist_cons_self _ last).append_left first
    · exact ⟨p, (List.getElem?_set_ne hm).trans hp, .refl _, fun _ => rfl⟩
  · show (t.pages.flatMap _) = _ :: ((t.pages.set old.id.number page.clean).flatMap _)
    rw [hset, hpages]
    simp only [List.flatMap_append, List.flatMap_cons, freePlaces_of_full hfull, hfree,
      List.map_cons, List.nil_append, List.cons_append]
    have hplaces : page.clean.freeSlots.map page.clean.place = page.freeSlots.map old.place := by
      show page.freeSlots.map (fun slot => (⟨page.id, slot⟩ : RecordId)) = _
      rw [hid']
      rfl
    rw [hplaces]
    rfl

/-- If all pages are full, a new one takes the row. -/
theorem Regular.gains_of_full (hr : t.Regular id pageSize) (hrow : row.Conforms)
    (hfull : ∀ p ∈ t.pages, p.freeSlots = []) {blank page : Page}
    (hblank : Page.blank ⟨id, t.pages.length⟩ t.schema pageSize = .ok blank)
    (hpage : blank.insert row = .ok (row', page)) :
    PagedTable.Regular { t with pages := t.pages ++ [page.clean] } id pageSize ∧
      ∃ place, Gains t { t with pages := t.pages ++ [page.clean] } row place := by
  obtain ⟨-, hid, hschema, -⟩ := Page.ofBytes_eq_ok_iff.mp hblank
  obtain ⟨hid', hschema', -⟩ := Page.insert_keeps hpage
  obtain ⟨i, -, -, first, last, hrows, hrows'⟩ := Page.insert_takes hrow hpage
  have hclean : page.clean.id = ⟨id, t.pages.length⟩ := hid'.trans hid
  refine ⟨hr.append hclean (hschema'.trans hschema), ⟨blank.id, i⟩, rfl, ?_, ?_, Or.inr ?_⟩
  · show ((t.pages ++ [page.clean]).flatMap Page.rows).Perm (t.pages.flatMap Page.rows ++ _)
    rw [Page.rows_blank hblank] at hrows
    obtain ⟨rfl, rfl⟩ := List.append_eq_nil_iff.mp hrows.symm
    rw [List.flatMap_append, List.flatMap_singleton, ← hschema,
      show page.clean.rows = _ from hrows']
    exact .refl _
  · intro m p hp
    obtain ⟨hm, -⟩ := List.getElem?_eq_some_iff.mp hp
    exact ⟨p, (List.getElem?_append_left hm).trans hp, .refl _, fun _ => rfl⟩
  · refine ⟨freePlaces_of_full hfull, ?_, ?_⟩
    · rw [hid]
    · intro free hmem
      have hmem' : free ∈ (t.pages ++ [page.clean]).flatMap fun p => p.freeSlots.map p.place := hmem
      rw [List.flatMap_append, freePlaces_of_full hfull, List.nil_append, List.flatMap_singleton,
        List.mem_map] at hmem'
      obtain ⟨slot, -, rfl⟩ := hmem'
      show t.pages.length ≤ page.clean.id.number
      rw [hclean]

/-- **One row.**  It takes the first free place, or there is none and it goes to a new page. -/
theorem Regular.insert_ok (hr : t.Regular id pageSize) (hrow : row.Conforms)
    (hins : t.insert id pageSize row = .ok (row', t')) :
    t'.Regular id pageSize ∧ ∃ place, Gains t t' row place := by
  obtain ⟨before, old, after, page, hpages, hfull, hpage, rfl⟩ |
    ⟨blank, page, hfull, hblank, hpage, rfl⟩ := insert_cases hins
  · exact hr.gains_of_old hrow hpages hfull hpage
  · exact hr.gains_of_full hrow hfull hblank hpage

/-! ## Many rows -/

/-- Stores some rows, one after the other. -/
def insertAll (t : PagedTable) (id : TableId) (pageSize : Nat) (rows : List Row) :
    Except Error PagedTable :=
  rows.foldlM (fun t row => (t.insert id pageSize row).map (·.2)) t

/-- A row more. -/
theorem insertAll_concat {rows : List Row} {now : PagedTable}
    (hall : t.insertAll id pageSize rows = .ok now)
    (hins : now.insert id pageSize row = .ok (row', t')) :
    t.insertAll id pageSize (rows ++ [row]) = .ok t' := by
  unfold insertAll at hall ⊢
  rw [List.foldlM_append, hall]
  show List.foldlM (fun (t : PagedTable) row => (t.insert id pageSize row).map (·.2)) now [row] =
    .ok t'
  rw [List.foldlM_cons, hins]
  rfl

/-- **Many rows.**  The table has the rows that it had and the new ones, with their texts cut.  Every
    page keeps its rows in their order, and if it has none of the free places that were used up it is
    the page that it was. -/
theorem Regular.insertAll_ok (hr : t.Regular id pageSize) {rows : List Row}
    (hrows : ∀ row ∈ rows, row.Typed t.schema) (hall : t.insertAll id pageSize rows = .ok t') :
    t'.Regular id pageSize ∧ t'.schema = t.schema ∧
      (∃ added, t'.rows.Perm (t.rows ++ added) ∧
        added.map (·.values) = rows.map fun row => row.values.map Value.clip) ∧
      ∀ m p, t.pages[m]? = some p → ∃ p', t'.pages[m]? = some p' ∧ p.rows.Sublist p'.rows ∧
        ((∀ place ∈ t.freePlaces.take rows.length, place.page.number ≠ m) → p' = p) := by
  induction rows generalizing t with
  | nil =>
    cases hall
    refine ⟨hr, rfl, ⟨[], by rw [List.append_nil], rfl⟩, fun m p hp => ?_⟩
    exact ⟨p, hp, .refl _, fun _ => rfl⟩
  | cons row rows ih =>
    unfold insertAll at hall
    rw [List.foldlM_cons] at hall
    cases hins : t.insert id pageSize row with
    | error e =>
      rw [hins] at hall
      cases hall
    | ok placed =>
      obtain ⟨row', now⟩ := placed
      rw [hins] at hall
      have htypes := Schema.sameTypes_iff.mp (sameTypes_of_insert hins)
      have hrow : row.Conforms := (hrows row List.mem_cons_self).trans htypes.symm
      obtain ⟨hnow, place, hschema, hperm, hpages, hplaces⟩ := hr.insert_ok hrow hins
      obtain ⟨hr', hschema', ⟨added, hadded, hvalues⟩, hpages'⟩ := ih hnow
        (fun row hrow => hschema ▸ hrows row (List.mem_cons_of_mem _ hrow)) hall
      refine ⟨hr', hschema'.trans hschema,
        ⟨⟨t.schema, row.values.map Value.clip, some place⟩ :: added, ?_, ?_⟩, ?_⟩
      · refine hadded.trans ((hperm.append_right added).trans ?_)
        rw [List.append_assoc]
        rfl
      · rw [List.map_cons, List.map_cons, hvalues]
      · intro m p hp
        obtain ⟨p₁, hp₁, hsub₁, hsame₁⟩ := hpages m p hp
        obtain ⟨p₂, hp₂, hsub₂, hsame₂⟩ := hpages' m p₁ hp₁
        refine ⟨p₂, hp₂, hsub₁.trans hsub₂, fun hunused => ?_⟩
        rcases hplaces with hplaces | ⟨hnone, hplace, hlater⟩
        · rw [hplaces, List.length_cons, List.take_succ_cons] at hunused
          have hrest := hsame₂ fun free hfree => hunused free (List.mem_cons_of_mem _ hfree)
          exact hrest.trans (hsame₁ (hunused place List.mem_cons_self))
        · -- the free places are now on a page that comes after all others
          obtain ⟨hm, -⟩ := List.getElem?_eq_some_iff.mp hp
          have hrest := hsame₂ fun free hfree => by
            have hfar := hlater free (List.mem_of_mem_take hfree)
            omega
          exact hrest.trans (hsame₁ (by omega))

end PagedTable

end RowStore
