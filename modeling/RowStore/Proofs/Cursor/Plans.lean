import RowStore.Proofs.Archive.Holds
import RowStore.Proofs.Cursor.Derived
import RowStore.Proofs.Plan.Typed

/-!
What the source of a plan gives.

1. `h.pages s` are the pages of a heap file as they are now, in memory or in the file
   (`HeapFile.holds_pages`).
2. `Shows catalog ids view s`: the catalog knows some tables, and each of them is, page by page,
   what `view` says.  Steps that write none of these tables keep that (`Shows.steps`), and so does
   every scan.
3. In such a storage the source of a plan that was made gives the rows that the plan means, and
   fails only if the storage below fails (`Plan.Made.gives`).

Crux.  The proof is one induction on the plan, and each case is the contract of one source under the
rules for using it.  Nothing is said about the order in which the sources load their pages.
-/

namespace RowStore

open Storage

/-! ## Tables as they are now -/

/-- The pages of a heap file as they are now. -/
def HeapFile.pages (h : HeapFile) (s : Storage) : List Page :=
  (List.range (h.numPages s.files)).filterMap (h.page? s)

/-- A heap file holds its pages. -/
theorem HeapFile.holds_pages {h : HeapFile} {s : Storage} (hc : Coherent h s) (hs : s.pool.Sound) :
    h.Holds ⟨h.schema, h.pages s⟩ s where
  coherent := hc
  schema := rfl
  page? := fun n => by
    show h.page? s n = ((List.range (h.numPages s.files)).filterMap (h.page? s))[n]?
    rw [getElem?_filterMap_range]
    · split
      · rfl
      · rename_i hge
        exact hc.page?_of_ge (Nat.not_lt.mp hge)
    · intro m hm
      obtain ⟨p, hp, -⟩ := hc.page?_of_lt hs hm
      rw [hp]
      rfl

/-- What a heap file holds are its pages. -/
theorem HeapFile.Holds.pages_eq {h : HeapFile} {t : PagedTable} {s : Storage} (hh : h.Holds t s)
    (hs : s.pool.Sound) : h.pages s = t.pages := by
  apply List.ext_getElem?
  intro n
  rw [← hh.page? n]
  exact ((holds_pages hh.coherent hs).page? n).symm

/-- The rows on a page have the types of its schema. -/
theorem Page.typed_of_mem_rows {p : Page} {row : Row} (hrow : row ∈ p.rows) :
    row.Typed p.schema := by
  obtain ⟨i, -, hi⟩ := List.mem_filterMap.mp hrow
  unfold Page.row at hi
  split at hi
  · cases hi
    exact map_type_decodeValues _ _
  · cases hi

/-- A row on a page has a place on that page. -/
theorem Page.place_of_mem_rows {p : Page} {row : Row} (hrow : row ∈ p.rows) :
    ∃ slot, row.place = some ⟨p.id, slot⟩ := by
  obtain ⟨i, -, hi⟩ := List.mem_filterMap.mp hrow
  unfold Page.row at hi
  split at hi
  · cases hi
    exact ⟨i, rfl⟩
  · cases hi

/-- The rows of a table that is held have the types of its schema. -/
theorem HeapFile.Holds.typed {h : HeapFile} {t : PagedTable} {s : Storage} (hh : h.Holds t s)
    (hs : s.pool.Sound) {row : Row} (hrow : row ∈ t.rows) : row.Typed h.schema := by
  obtain ⟨p, hp, hrow⟩ := List.mem_flatMap.mp hrow
  obtain ⟨n, hn⟩ := List.getElem?_of_mem hp
  obtain ⟨-, hschema, -⟩ := hh.shape hs hn
  exact hschema ▸ Page.typed_of_mem_rows hrow

/-! ## Tables that stay what they are -/

namespace Storage

/-- Some tables are known, and each is what `view` says. -/
structure Shows (catalog : Catalog) (ids : List TableId) (view : TableId → PagedTable)
    (s : Storage) : Prop where
  /-- Pool and queue agree. -/
  sound : s.pool.Sound
  /-- Every table is known and held. -/
  held : ∀ id ∈ ids, ∃ h, catalog.file id = .ok h ∧ h.Holds (view id) s

variable {catalog : Catalog} {ids : List TableId} {view : TableId → PagedTable}
  {may : Effect → Prop} {s s' : Storage}

/-- Steps that write none of the tables leave them what they are. -/
theorem Shows.steps (hshows : Shows catalog ids view s) (hno : ∀ id ∈ ids, ¬ may (.write id))
    (hsteps : Steps catalog may s s') : Shows catalog ids view s' where
  sound := hsteps.sound hshows.sound
  held := by
    intro id hid
    obtain ⟨h, hfile, hh⟩ := hshows.held id hid
    obtain rfl := Catalog.id_of_file hfile
    have honly : ∀ g, catalog.file h.id = .ok g → g = h := fun g => Catalog.eq_of_file hfile
    exact ⟨h, hfile, hh.steps hshows.sound honly (hno h.id hid) hsteps⟩

/-- A catalog that knows the tables as before makes no difference. -/
theorem Shows.of_catalog (hshows : Shows catalog ids view s) {catalog' : Catalog}
    (hsame : ∀ id ∈ ids, catalog'.file id = catalog.file id) : Shows catalog' ids view s where
  sound := hshows.sound
  held := by
    intro id hid
    obtain ⟨h, hfile, hh⟩ := hshows.held id hid
    exact ⟨h, (hsame id hid).trans hfile, hh⟩

end Storage

/-! ## Plans -/

namespace Plan

theorem schema_source (plan : Plan) : plan.source.schema = plan.schema := by
  induction plan with
  | rows | scan | aggregate | insert | delete => rfl
  | filter condition child ih => exact ih
  | join condition outer inner ihouter ihinner =>
    show outer.source.schema.append inner.source.schema = outer.schema.append inner.schema
    rw [ihouter, ihinner]

/-- **The sources of plans.**  In circumstances `W` in which a scan of each of its tables gives the
    rows of that table, a plan that was made gives the rows that it means. -/
theorem Made.gives_of_scans {made : Catalog} {plan : Plan} (hmade : plan.Made made)
    {W : Catalog → Storage → Prop} {fails : Error → Prop} {tables : TableId → List Row}
    (hcalm : ∀ {catalog s s'}, W catalog s → Quiet catalog s s' → W catalog s')
    (hscans : ∀ id ∈ plan.tables, ∀ schema, ∃ has, ∀ catalog,
      Source.Gives catalog (W catalog) fails (.ofTable id schema) (tables id) has)
    {rows : List Row} (hmeaning : plan.meaning tables = .ok rows) :
    ∃ has, ∀ catalog,
      Source.Gives catalog (W catalog) fails plan.source rows has := by
  induction hmade generalizing rows with
  | @rows schema given hrows =>
    cases hmeaning
    exact ⟨_, fun _ => Source.gives_ofRows schema given hcalm⟩
  | @scan table plan hmake =>
    obtain ⟨schema, -, rfl⟩ := mkScan_eq_ok hmake
    cases hmeaning
    exact hscans table List.mem_cons_self schema
  | @filter condition child plan _ hmake ih =>
    obtain rfl := mkFilter_eq_ok hmake
    unfold meaning at hmeaning
    rcases hchild : child.meaning tables with e | found
    · rw [hchild] at hmeaning
      cases hmeaning
    · rw [hchild] at hmeaning
      cases hmeaning
      obtain ⟨has, hgives⟩ := ih hscans hchild
      exact ⟨_, fun catalog => Source.gives_filter condition (hgives catalog).guard⟩
  | @join condition outer inner plan _ _ hmake ihouter ihinner =>
    obtain rfl := mkJoin_eq_ok hmake
    unfold meaning at hmeaning
    rcases houter : outer.meaning tables with e | left
    · rw [houter] at hmeaning
      cases hmeaning
    · rw [houter] at hmeaning
      rcases hinner : inner.meaning tables with e | right
      · rw [hinner] at hmeaning
        cases hmeaning
      · rw [hinner] at hmeaning
        cases hmeaning
        obtain ⟨hasOuter, hgivesOuter⟩ :=
          ihouter (fun id hid => hscans id (List.mem_append_left _ hid)) houter
        obtain ⟨hasInner, hgivesInner⟩ :=
          ihinner (fun id hid => hscans id (List.mem_append_right _ hid)) hinner
        rw [← schema_source outer, ← schema_source inner]
        exact ⟨_, fun catalog => Source.gives_join (hgivesOuter catalog).guard
          (hgivesInner catalog).guard⟩
  | @aggregate child plan column group function _ hmake ih =>
    obtain ⟨a, -, rfl⟩ := mkAggregate_eq_ok hmake
    unfold meaning at hmeaning
    rcases hchild : child.meaning tables with e | found
    · rw [hchild] at hmeaning
      cases hmeaning
    · rw [hchild] at hmeaning
      obtain ⟨has, hgives⟩ := ih hscans hchild
      exact ⟨_, fun catalog => Source.gives_aggregate hmeaning (hgives catalog).guard⟩

/-- While its tables are what `view` says, a plan that was made gives the rows that it means. -/
theorem Made.gives {made : Catalog} {plan : Plan} (hmade : plan.Made made) {ids : List TableId}
    (hids : ∀ id ∈ plan.tables, id ∈ ids) {view : TableId → PagedTable} {rows : List Row}
    (hmeaning : plan.meaning (fun id => (view id).rows) = .ok rows) :
    ∃ has, ∀ catalog,
      Source.Gives catalog (Shows catalog ids view) (·.isFatal = true) plan.source rows has := by
  have hcalm : ∀ {catalog : Catalog} {s s' : Storage}, Shows catalog ids view s →
      Quiet catalog s s' → Shows catalog ids view s' :=
    fun hshows hquiet => hshows.steps (fun _ _ hno => hno) hquiet
  refine hmade.gives_of_scans hcalm (fun id hid schema => ?_) hmeaning
  refine ⟨Source.Scan.Has (view id).pages, fun catalog => ?_⟩
  refine HeapFile.Holds.gives_ofTable hcalm ?_ ?_ schema
  · exact fun hshows => ⟨hshows.sound, hshows.held id (hids id hid)⟩
  · exact fun _ _ => rfl

end Plan

end RowStore
