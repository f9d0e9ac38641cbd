import RowStore.Proofs.Cursor.Drains
import RowStore.Proofs.Cursor.Passes
import RowStore.Proofs.Cursor.WellTyped

/-!
What a plan that inserts rows does to its table.

Program.  A row goes to the first free place of the table, and no other place is touched.

1. A plan that was built and does not write gives rows of its schema, as long as the tables that it
   touches are what an archive can have (`Built.safe_reading`).
2. A row that is stored in such a table leaves the rows where they are and takes a place that was free;
   one that is refused changes no row (`Displays.storeRow`).  So does the loop of a plan that inserts
   (`Drains.inserts`).
3. All that a cursor over a plan that writes does is done by its starts (`Cursor.writes_only_on_start`).
4. A table that is registered with another page size while one of its pages is in memory may show rows
   that nobody inserted when that page is written back (`Cursor.insert_shows_other_rows`).
-/

namespace RowStore

open Storage Source

/-! ## Plans that read -/

namespace Plan

/-- No part of the plan writes. -/
def isReading : Plan → Bool
  | .rows _ _ | .scan _ _ => true
  | .filter _ child | .aggregate _ child => child.isReading
  | .join _ outer inner => outer.isReading && inner.isReading
  | .insert _ _ _ | .delete _ _ => false

/-- A plan is the first of its nodes. -/
theorem self_mem_nodes (plan : Plan) : plan ∈ plan.nodes := by
  cases plan <;> exact List.mem_cons_self

variable {made : Catalog} {plan : Plan}

/-- A plan that was built and does not write gives rows of its schema, if the pages of its tables have
    rows of their schemas. -/
theorem Built.safe_reading (hbuilt : plan.Built made) (hreads : plan.isReading = true) :
    ∃ ready, ∀ (catalog : Catalog) (W : Storage → Prop),
      (∀ id ∈ plan.touched, ∀ h, made.file id = .ok h →
        SafePages catalog W (Row.Of h.schema) (fun _ => True) id) →
      Safe catalog W (Row.Of plan.schema) (fun _ => True) plan.source ready := by
  induction hbuilt with
  | @rows schema given hrows => exact ⟨_, fun _ _ _ => safe_ofRows schema hrows⟩
  | @scan table plan hmake =>
    obtain ⟨schema, hschema, rfl⟩ := mkScan_eq_ok hmake
    obtain ⟨h, hfile, rfl⟩ := Catalog.file_of_schema hschema
    refine ⟨_, fun catalog W hpages => safe_ofTable h.schema (fun _ _ => trivial) ?_⟩
    exact hpages table (List.mem_singleton.mpr rfl) h hfile
  | @filter condition child plan _ hmake ih =>
    obtain rfl := mkFilter_eq_ok hmake
    obtain ⟨ready, hchild⟩ := ih hreads
    exact ⟨_, fun catalog W hpages => safe_filter condition (hchild catalog W hpages).guard⟩
  | @join condition outer inner plan _ _ hmake ihouter ihinner =>
    obtain rfl := mkJoin_eq_ok hmake
    obtain ⟨hreadsOuter, hreadsInner⟩ := (Bool.and_eq_true _ _).mp hreads
    obtain ⟨readyOuter, houter⟩ := ihouter hreadsOuter
    obtain ⟨readyInner, hinner⟩ := ihinner hreadsInner
    refine ⟨_, fun catalog W hpages => safe_joined condition (houter catalog W ?_) (hinner catalog W ?_)⟩
    · exact fun id hid => hpages id (List.mem_append_left _ hid)
    · exact fun id hid => hpages id (List.mem_append_right _ hid)
  | @aggregate child plan column group function _ hmake ih =>
    obtain ⟨a, hcolumns, rfl⟩ := mkAggregate_eq_ok hmake
    obtain ⟨ready, hchild⟩ := ih hreads
    exact ⟨_, fun catalog W hpages =>
      safe_aggregated hcolumns (hchild catalog W hpages) fun _ _ => trivial⟩
  | insert _ hmake _ =>
    obtain ⟨schema, -, -, rfl⟩ := mkInsert_eq_ok hmake
    cases hreads
  | delete _ _ _ => cases hreads

end Plan

/-! ## Storing rows -/

/-- No two rows of a table are at the same place. -/
theorem PagedTable.Regular.nodup_places {t : PagedTable} {id : TableId} {pageSize : Nat}
    (hr : t.Regular id pageSize) : (t.rows.map (·.place)).Nodup := by
  have hincreasing := hr.increasing_rows
  rw [List.pairwise_filterMap] at hincreasing
  rw [List.Nodup, List.pairwise_map]
  refine hincreasing.imp_of_mem ?_
  intro row other hrow _ hbefore hsame
  obtain ⟨n, slot, p, hplace, -⟩ := hr.page_of_mem_rows hrow
  have hself : RecordId.Before ⟨⟨id, n⟩, slot⟩ ⟨⟨id, n⟩, slot⟩ := hbefore _ hplace _ (hsame ▸ hplace)
  rcases hself with hlt | ⟨-, hlt⟩
  · exact Nat.lt_irrefl _ hlt
  · exact Nat.lt_irrefl _ hlt

namespace Storage

variable {catalog : Catalog} {ids : List TableId} {view : TableId → PagedTable} {table : TableId}
  {tid : TransactionId} {row : Row} {s s' : Storage}

/-- No two rows of a table that is shown are at the same place. -/
theorem Displays.nodup_places (hdisplays : Displays catalog ids view s) (hid : table ∈ ids) :
    ((view table).rows.map (·.place)).Nodup := by
  obtain ⟨h, -, hh | ⟨-, hnone⟩⟩ := hdisplays.held table hid
  · exact (hh.regular hdisplays.sound).nodup_places
  · rw [PagedTable.rows, hnone]
    exact List.nodup_nil

/-- The pages of a table that is shown have rows of its schema. -/
theorem Displays.safePages {h : HeapFile} (hid : table ∈ ids) (hfile : catalog.file table = .ok h) :
    SafePages catalog (Displays catalog ids view) (Row.Of h.schema) (fun _ => True) table := by
  obtain rfl := Catalog.id_of_file hfile
  intro n s r s' hdisplays hget
  refine ⟨hdisplays.quiet (getPage_steps hdisplays.sound hget), ?_, fun _ _ => trivial⟩
  rintro frame rfl row hrow
  obtain ⟨h', hfile', hd⟩ := hdisplays.held h.id hid
  obtain rfl := Catalog.eq_of_file hfile hfile'
  obtain ⟨hh, hpage⟩ := HeapFile.Displays.getPage_ok hd hdisplays.sound hfile hget
  obtain ⟨-, hschema, -⟩ := hh.shape hdisplays.sound hpage
  have hof : Row.Of frame.page.schema row := Page.of_mem_rows hrow
  rwa [show frame.page.schema = h'.schema from hschema] at hof

/-- Steps that write one table leave the others what they are. -/
theorem Displays.update (hdisplays : Displays catalog ids view s) {h : HeapFile}
    (hfile : catalog.file table = .ok h) (hsteps : Steps catalog (· = .write table) s s') {t : PagedTable}
    (hd : h.Displays t s') : Displays catalog ids (Function.update view table t) s' where
  sound := hsteps.sound hdisplays.sound
  held := by
    intro id hid
    by_cases hsame : id = table
    · subst hsame
      rw [Function.update_self]
      exact ⟨h, hfile, hd⟩
    · rw [Function.update_of_ne hsame]
      obtain ⟨g, hg, hdg⟩ := hdisplays.held id hid
      obtain rfl := Catalog.id_of_file hg
      have hno : Effect.write g.id ≠ .write table := fun heq => hsame (Effect.write.inj heq)
      exact ⟨g, hg, HeapFile.Displays.steps hdg hdisplays.sound
        (fun g' hg' => Catalog.eq_of_file hg hg') hno hsteps⟩

/-- **Storing a row** in a table that is shown.  The rows of all tables stay where they are, and the row
    takes a place of its table that was free; if it is refused, there is no further row. -/
theorem Displays.storeRow (hdisplays : Displays catalog ids view s) (hid : table ∈ ids)
    (hrow : row.Conforms) {r : Except Error Unit}
    (hstore : Storage.storeRow tid table catalog row s = (r, s')) :
    ∃ t, Displays catalog ids (Function.update view table t) s' ∧
      ((∃ place schema, r = .ok () ∧
        t.rows.Perm ((view table).rows ++ [⟨schema, row.values.map Value.clip, some place⟩])) ∨
      (∃ e, r = .error e ∧ t.rows = (view table).rows)) := by
  obtain ⟨h, hfile, hd⟩ := hdisplays.held table hid
  obtain rfl := Catalog.id_of_file hfile
  cases r with
  | ok =>
    obtain ⟨row', hins⟩ := insertRow_of_storeRow hstore
    have hsteps := insertRow_steps hdisplays.sound hins
    obtain ⟨_, t, -, hh, hok, hh'⟩ | ⟨_, _, hno, -⟩ :=
      HeapFile.Displays.insertRow hd hdisplays.sound hfile hrow hins
    · obtain ⟨-, place, hgains⟩ := (hh.regular hdisplays.sound).insert_ok hrow hok
      exact ⟨t, hdisplays.update hfile hsteps (Or.inl hh'), Or.inl ⟨place, _, rfl, hgains.rows⟩⟩
    · cases hno
  | error e =>
    have hins := insertRow_of_not_stored hstore
    have hsteps := insertRow_steps hdisplays.sound hins
    obtain ⟨_, _, hno, -⟩ | ⟨_, t, -, hd', hrows, -⟩ :=
      HeapFile.Displays.insertRow hd hdisplays.sound hfile hrow hins
    · cases hno
    · exact ⟨t, hdisplays.update hfile hsteps hd', Or.inr ⟨e, rfl, hrows⟩⟩

end Storage

/-! ## The loop of a plan that inserts -/

namespace Cursor

variable {catalog : Catalog} {ids : List TableId} {view : TableId → PagedTable} {table : TableId}
  {tid : TransactionId} {child : Plan} {ready : child.source.State → Prop}
  {g : Guarded child.source.State} {rows : List Row} {r : Except Error Unit} {c' : Cursor} {s s' : Storage}

/-- What was stored so far: the table has the rows that it had and new ones, and the other tables are what
    they were. -/
def Added (catalog : Catalog) (ids : List TableId) (table : TableId) (view : TableId → PagedTable)
    (rows : List Row) (s : Storage) : Prop :=
  ∃ t added, Displays catalog ids (Function.update view table t) s ∧
    t.rows.Perm ((view table).rows ++ added) ∧
    added.map (·.values) = rows.map fun row => row.values.map Value.clip

/-- The row that came next was refused. -/
theorem Added.refused {t : PagedTable} (hdisplays : Displays catalog ids (Function.update view table t) s)
    (hrows : t.rows = (view table).rows) : Added catalog ids table view [] s :=
  ⟨t, [], hdisplays, by rw [List.append_nil, hrows], rfl⟩

/-- Nothing was stored. -/
theorem Added.nothing (hdisplays : Displays catalog ids view s) : Added catalog ids table view [] s := by
  rw [← Function.update_eq_self table view] at hdisplays
  exact .refused hdisplays rfl

/-- A row and then others. -/
theorem Added.cons {row : Row} {t : PagedTable} {place : RecordId} {schema : Schema}
    (hrow : t.rows.Perm ((view table).rows ++ [⟨schema, row.values.map Value.clip, some place⟩]))
    (hrest : Added catalog ids table (Function.update view table t) rows s) :
    Added catalog ids table view (row :: rows) s := by
  obtain ⟨t', added, hdisplays, hperm, hvalues⟩ := hrest
  rw [Function.update_idem] at hdisplays
  rw [Function.update_self] at hperm
  refine ⟨t', ⟨schema, row.values.map Value.clip, some place⟩ :: added, hdisplays, ?_, ?_⟩
  · refine hperm.trans ((hrow.append_right added).trans ?_)
    rw [List.append_assoc]
    rfl
  · rw [List.map_cons, List.map_cons, hvalues]

/-- Looking for a further row, as a call. -/
theorem call_of_hasNext {c : Cursor} {any : Except Error Bool} (h : c.hasNext catalog s = (any, c', s')) :
    Cursor.call catalog c s .hasNext = (any.map .more, c', s') := by
  unfold Cursor.call
  rw [h]
  rfl

/-- Taking the next row, as a call. -/
theorem call_of_next {c : Cursor} {found : Except Error Row} (h : c.next catalog s = (found, c', s')) :
    Cursor.call catalog c s .next = (found.map .row, c', s') := by
  unfold Cursor.call
  rw [h]
  rfl

section Reading

variable (hsafe : ∀ view, Safe catalog (Displays catalog ids view) (Row.Of child.schema) (fun _ => True)
  child.source ready)

include hsafe

/-- A row that is taken is a row of the schema, and taking it changes no table. -/
theorem takes {row : Row} {c₁ c₂ : Cursor} {s₁ s₂ : Storage}
    (hg : g.isOpen = true → Guarded.Ready (Row.Of child.schema) ready g) (hdisplays : Displays catalog ids view s)
    (hmore : Cursor.hasNext catalog ⟨child, g⟩ s = (.ok true, c₁, s₁))
    (hnext : c₁.next catalog s₁ = (.ok row, c₂, s₂)) :
    (∃ g₂, c₂ = ⟨child, g₂⟩ ∧ (g₂.isOpen = true → Guarded.Ready (Row.Of child.schema) ready g₂)) ∧
      Displays catalog ids view s₂ ∧ Row.Of child.schema row := by
  obtain ⟨hdisplays₁, -, g₁, rfl, hg₁, -⟩ := call_safe (hsafe view) hg hdisplays (call_of_hasNext hmore)
  obtain ⟨hdisplays₂, hanswered, g₂, rfl, hg₂, -⟩ :=
    call_safe (hsafe view) hg₁ hdisplays₁ (call_of_next hnext)
  cases hanswered with
  | row _ hrow => exact ⟨⟨g₂, rfl, hg₂⟩, hdisplays₂, hrow⟩

/-- **The loop inserts.**  Every row that it takes is a row more of the table. -/
theorem Writes.inserts (hid : table ∈ ids) (hg : g.isOpen = true → Guarded.Ready (Row.Of child.schema) ready g)
    (hdisplays : Displays catalog ids view s)
    (h : Writes catalog (storeRow tid table catalog) ⟨child, g⟩ s rows r c' s') :
    Added catalog ids table view rows s' := by
  generalize hc : (⟨child, g⟩ : Cursor) = c at h
  -- every row that is stored is part of the view that the rest of the loop begins with
  induction h generalizing g view with
  | @ended c c' s s' hmore =>
    subst hc
    exact .nothing (call_safe (hsafe view) hg hdisplays (call_of_hasNext hmore)).1
  | @unread c c' s s' e hmore =>
    subst hc
    exact .nothing (call_safe (hsafe view) hg hdisplays (call_of_hasNext hmore)).1
  | @refused c c₁ c' s s₁ s₂ s' row e hmore hnext hrow =>
    subst hc
    obtain ⟨-, hdisplays₂, hof⟩ := takes hsafe hg hdisplays hmore hnext
    obtain ⟨t, hdisplays', ⟨_, _, hno, -⟩ | ⟨_, -, hrows⟩⟩ := hdisplays₂.storeRow hid hof.2 hrow
    · cases hno
    · exact .refused hdisplays' hrows
  | @wrote c c₁ c₂ c' s s₁ s₂ s₃ s' row rows r hmore hnext hrow _ ih =>
    subst hc
    obtain ⟨⟨g₂, rfl, hg₂⟩, hdisplays₂, hof⟩ := takes hsafe hg hdisplays hmore hnext
    obtain ⟨t, hdisplays', ⟨place, schema, -, hrows⟩ | ⟨_, hno, -⟩⟩ := hdisplays₂.storeRow hid hof.2 hrow
    · exact .cons hrows (ih hg₂ hdisplays' rfl)
    · cases hno

/-- A start and then the loop, whatever was left of the plan below before. -/
theorem Drains.inserts (hid : table ∈ ids) (hdisplays : Displays catalog ids view s)
    (h : Drains catalog (storeRow tid table catalog) ⟨child, g⟩ s rows r c' s') :
    Added catalog ids table view rows s' := by
  have hstarted : ∀ {r₁ : Except Error Unit} {c₁ : Cursor} {s₁ : Storage},
      Cursor.start catalog ⟨child, g⟩ s = (r₁, c₁, s₁) → Displays catalog ids view s₁ ∧
        ∃ g₁, c₁ = ⟨child, g₁⟩ ∧ (r₁ = .ok () → Guarded.Ready (Row.Of child.schema) ready g₁) := by
    intro r₁ c₁ s₁ hstart
    rcases hguard : Guarded.start catalog g s with ⟨r₂, g₁, s₂⟩
    obtain ⟨hdisplays₁, hready, -⟩ := Guarded.start_safe (hsafe view) hdisplays hguard
    unfold Cursor.start at hstart
    rw [hguard] at hstart
    cases hstart
    exact ⟨hdisplays₁, g₁, rfl, hready⟩
  cases h with
  | unopened hstart => exact .nothing (hstarted hstart).1
  | opened hstart hrows =>
    obtain ⟨hdisplays₁, g₁, rfl, hready⟩ := hstarted hstart
    exact Writes.inserts hsafe hid (fun _ => hready rfl) hdisplays₁ hrows

end Reading

end Cursor

/-! ## Runs -/

/-- The rows of a table, as the store shows it. -/
theorem Storage.Displays.tableRows {db : Database} {ids : List TableId} {view : TableId → PagedTable}
    {id : TableId} (hdisplays : Displays db.catalog ids view db.storage) (hid : id ∈ ids) :
    db.tableRows id = (view id).rows := by
  obtain ⟨h, hfile, hd⟩ := hdisplays.held id hid
  obtain rfl := Catalog.id_of_file hfile
  exact HeapFile.Displays.tableRows hd hdisplays.sound hfile

/-- Between two stores a table has got rows with the values of `rows`, cut as the table cuts them.  Its
    other rows are what they were and where they were, and no two rows are at the same place. -/
def Database.Adds (db : Database) (table : TableId) (rows : List Row) (db' : Database) : Prop :=
  ∃ added, (db'.tableRows table).Perm (db.tableRows table ++ added) ∧
    added.map (·.values) = (rows.map fun row => row.values.map Value.clip) ∧
    ((db'.tableRows table).map (·.place)).Nodup

namespace Cursor

/-- What was stored is what the store shows. -/
theorem Added.adds {db db' : Database} {ids : List TableId} {table : TableId} {rows : List Row}
    (hadded : Added db.catalog ids table db.paged rows db'.storage) (hid : table ∈ ids)
    (hcatalog : db'.catalog = db.catalog) :
    db.Adds table rows db' ∧ ∀ id ∈ ids, id ≠ table → db'.tableRows id = db.tableRows id := by
  obtain ⟨t, added, hdisplays, hperm, hvalues⟩ := hadded
  rw [← hcatalog] at hdisplays
  have hrows : db'.tableRows table = t.rows := by
    rw [hdisplays.tableRows hid, Function.update_self]
  have hplaces := hdisplays.nodup_places hid
  rw [Function.update_self] at hplaces
  constructor
  · refine ⟨added, ?_, hvalues, ?_⟩
    · rw [hrows, Database.tableRows_eq]
      exact hperm
    · rw [hrows]
      exact hplaces
  · intro id hid hother
    rw [hdisplays.tableRows hid, Function.update_of_ne hother, Database.tableRows_eq]

/-- **A start of a plan that inserts**, in a store that shows the tables of the plan. -/
theorem Drains.adds {made : Catalog} {tid : TransactionId} {table : TableId} {child : Plan}
    (hbuilt : (Plan.insert tid table child).Built made) (hreads : child.isReading = true) {db : Database}
    (hsame : ∀ id ∈ (Plan.insert tid table child).touched, db.catalog.file id = made.file id)
    (hdisplays : Displays db.catalog (Plan.insert tid table child).touched db.paged db.storage)
    {g : Guarded child.source.State} {rows : List Row} {r : Except Error Unit} {c : Cursor} {s : Storage}
    (h : Drains db.catalog (storeRow tid table db.catalog) ⟨child, g⟩ db.storage rows r c s) :
    db.Adds table rows { db with storage := s } ∧
      ∀ id ∈ child.touched, id ≠ table →
        ({ db with storage := s } : Database).tableRows id = db.tableRows id := by
  have hnode : child ∈ (Plan.insert tid table child).nodes := List.mem_cons_of_mem _ child.self_mem_nodes
  obtain ⟨ready, hsafe⟩ := (hbuilt.of_mem_nodes hnode).1.safe_reading hreads
  have hsource : ∀ view, Safe db.catalog (Displays db.catalog (Plan.insert tid table child).touched view)
      (Row.Of child.schema) (fun _ => True) child.source ready := by
    intro view
    refine hsafe db.catalog _ fun id hid h hfile => ?_
    have htouched : id ∈ (Plan.insert tid table child).touched := List.mem_cons_of_mem _ hid
    intro n s r s' hshown hget
    exact Displays.safePages htouched ((hsame id htouched).trans hfile) hshown hget
  have hadded := Drains.inserts hsource List.mem_cons_self hdisplays h
  have hadds : db.Adds table rows { db with storage := s } ∧
      ∀ id ∈ (Plan.insert tid table child).touched, id ≠ table →
        ({ db with storage := s } : Database).tableRows id = db.tableRows id :=
    Added.adds hadded List.mem_cons_self rfl
  exact ⟨hadds.1, fun id hid => hadds.2 id (List.mem_cons_of_mem _ hid)⟩

variable {operation : Catalog → Row → Storage → Except Error Unit × Storage} {plan child : Plan}

/-- **Only starts write.**  In a run of a cursor over a plan that inserts or deletes, a call that is no start
    leaves the store what it is.  A start takes the rows of the plan below one by one and gives each of them
    to the operation once, as long as this goes well.  If all went well, then until a start succeeds again
    the cursor answers like one over a list with a single row, the number of these rows.

    Let the plan below write nothing, and let every table of the plan be the same file with the same schema
    and page size as long as there was one.  Then a start of a plan that inserts adds these rows to the table,
    at places that were free, whether it succeeds or fails, and changes no other row of the tables. -/
theorem writes_only_on_start {files files' : Files} {directory : String} {config : Config}
    {new db : Database} (hopen : Database.create files directory config = (.ok new, files'))
    {requests : List Request} (hreach : new.after requests = db) (hplan : plan.Writer child operation)
    {moves : List Move} {early late : List Moment} {m : Moment}
    (hrun : (Cursor.ofPlan plan).moments db moves = early ++ m :: late) :
    (∀ call, m.move = .call call → call ≠ .start → m.next.2 = m.db) ∧
    (m.move = .call .start → ∃ rows r,
      m.cursor.below.Drains m.db.catalog (operation m.db.catalog) m.db.storage rows r
        m.next.1.below m.next.2.storage ∧
      m.answer? = some (r.map fun _ => .done) ∧
      (r = .ok () → ∀ used rest, late = used ++ rest → (∀ n ∈ used, n.StartFails) →
        (used.filterMap Moment.use?).map (·.2) =
          ListCursor.answers ⟨[Plan.countRow rows.length], some 0⟩ ((used.filterMap Moment.use?).map (·.1))) ∧
      ∀ tid table, plan = .insert tid table child → plan.Built db.catalog → child.isReading = true →
        (∀ id ∈ plan.touched, ∀ h, db.catalog.file id = .ok h →
          ∀ d ∈ new.states requests, ∀ g, d.catalog.file id = .ok g → g = h) →
        (∀ d ∈ (Cursor.ofPlan plan).stores db moves, ∀ id ∈ plan.touched,
          d.catalog.file id = db.catalog.file id) →
        m.db.Adds table rows m.next.2 ∧
          ∀ id ∈ child.touched, id ≠ table → m.next.2.tableRows id = m.db.tableRows id) := by
  subst hreach
  obtain ⟨first, second, rfl, hearly, hat⟩ := split_of_moments hrun
  obtain ⟨g, hcursor⟩ : ∃ g, ((Cursor.ofPlan plan).after (new.after requests) first).1 = ⟨plan, g⟩ :=
    cursor_of_after first
  obtain ⟨cursor, d, move⟩ := m
  rw [hat] at hcursor
  obtain rfl : cursor = ⟨plan, g⟩ := hcursor
  -- what comes after the moment
  have hlate : (Cursor.move ⟨plan, g⟩ d move).1.moments (Cursor.move ⟨plan, g⟩ d move).2 second = late := by
    rw [moments_append, hearly, hat] at hrun
    exact (List.cons.inj (List.append_cancel_left hrun)).2
  constructor
  · rintro call rfl hcall
    have hstorage : (Cursor.call d.catalog ⟨plan, g⟩ d.storage call).2.2 = d.storage :=
      storage_of_use hplan hcall
    show { d with storage := (Cursor.call d.catalog ⟨plan, g⟩ d.storage call).2.2 } = d
    rw [hstorage]
  · rintro rfl
    rcases hcall : Cursor.call d.catalog ⟨plan, g⟩ d.storage .start with ⟨answer, c, s⟩
    obtain ⟨hnext, hanswer, -⟩ := Moment.of_call (m := ⟨⟨plan, g⟩, d, .call .start⟩) rfl hcall
    obtain ⟨⟨g', rfl⟩, rows, r, hdrains, rfl, hholds, -⟩ := start_of_writer hplan hcall
    rw [hnext, hanswer]
    refine ⟨rows, r, hdrains, rfl, ?_, ?_⟩
    · intro hok used rest hused hfails
      have hmoments : Cursor.moments ⟨plan, g'⟩ { d with storage := s } second = used ++ rest := by
        rw [← hused, ← hlate]
        exact congrArg (fun p => Cursor.moments p.1 p.2 second) hnext.symm
      exact answers_until_start hplan (hholds hok) hmoments hfails
    · rintro tid table rfl hbuilt hreads hone hstays
      have hknown : ∀ id ∈ (Plan.insert tid table child).touched,
          ∃ schema, (new.after requests).catalog.schema id = .ok schema := by
        intro id hid
        obtain ⟨h, hfile⟩ := hbuilt.known id hid
        exact ⟨h.schema, Catalog.schema_of_file hfile⟩
      have hbefore := Database.displays_after hopen hknown hone
      have hdisplays := (displays_after hbefore fun d hd => hstays d (mem_stores_of_first hd)).2
      have hstore := after_mem_stores (Cursor.ofPlan (.insert tid table child)) (new.after requests) first
        (.call .start :: second)
      rw [hat] at hdisplays hstore
      cases hplan
      exact Drains.adds hbuilt hreads (hstays d hstore) hdisplays hdrains

/-- A table with a free place is inserted into itself.  The cursor is asked for the count, rewound and closed
    afterwards. -/
theorem writes_only_on_start_of_self_insertion :
    let schema := Schema.single "n" .int
    let t := tableIdOf ["d", "t.dat"]
    let row (n : Int32) : Row := ⟨schema, [.int n], none⟩
    let placed (n : Int32) (page slot : Nat) : Row := ⟨schema, [.int n], some ⟨⟨t, page⟩, slot⟩⟩
    let requests : List Request :=
      [.task (.createTable "t" schema), .task (.insertRow ⟨0⟩ t (row 1)),
       .task (.insertRow ⟨0⟩ t (row 2)), .task (.insertRow ⟨0⟩ t (row 3)),
       .task (.deleteRow ⟨0⟩ (some ⟨⟨t, 0⟩, 0⟩))]
    let plan := Plan.insert ⟨1⟩ t (.scan t schema)
    let calls : List Call := [.next, .hasNext, .next, .rewind, .next, .close, .next]
    ∃ new files' m late rows, Database.create Files.empty "/d" ⟨9, 2⟩ = (.ok new, files') ∧
      plan.Built (new.after requests).catalog ∧
      (Cursor.ofPlan plan).moments (new.after requests) (.call .start :: calls.map .call) = m :: late ∧
      m.db.tableRows t = [placed 2 0 1, placed 3 1 0] ∧
      m.next.2.tableRows t = [placed 2 0 0, placed 2 0 1, placed 3 1 0, placed 3 1 1] ∧
      (late.filterMap Moment.use?).map (·.2) =
        [.ok (.row (Plan.countRow 2)), .ok (.more false), .error .noMoreRows, .ok .done,
         .ok (.row (Plan.countRow 2)), .ok .done, .error .notOpen] ∧
      m.cursor.below.Drains m.db.catalog (storeRow ⟨1⟩ t m.db.catalog) m.db.storage rows (.ok ())
        m.next.1.below m.next.2.storage ∧
      m.db.Adds t rows m.next.2 ∧
      (late.filterMap Moment.use?).map (·.2) =
        ListCursor.answers ⟨[Plan.countRow rows.length], some 0⟩ calls := by
  intro schema t row placed requests plan calls
  let new : Database := ⟨"/d", ⟨9, 2⟩, Catalog.empty, ⟨⟨[], [["d"]], []⟩, Pool.empty ⟨9, 2⟩⟩⟩
  let db := new.after requests
  let m : Moment := ⟨Cursor.ofPlan plan, db, .call .start⟩
  let late : List Moment := m.next.1.moments m.next.2 (calls.map .call)
  let heap : HeapFile := ⟨["d", "t.dat"], schema, 9⟩
  have hopen : Database.create Files.empty "/d" ⟨9, 2⟩ = (.ok new, ⟨[], [["d"]], []⟩) := rfl
  have hfile : db.catalog.file t = .ok heap := by decide +kernel
  have hbuilt : plan.Built db.catalog := by
    have hschema : db.catalog.schema t = .ok schema := Catalog.schema_of_file hfile
    exact .insert (.scan (Plan.mkScan_of_schema hschema)) (Plan.mkInsert_of_schema hschema (by decide))
  have htables : ∀ id ∈ plan.touched, id = t := by
    intro id hid
    have hboth : id ∈ [t, t] := hid
    simpa using hboth
  have hone : ∀ id ∈ plan.touched, ∀ h, db.catalog.file id = .ok h →
      ∀ d ∈ new.states requests, ∀ g, d.catalog.file id = .ok g → g = h := by
    intro id hid h hh
    obtain rfl := htables id hid
    obtain rfl := Catalog.eq_of_file hfile hh
    decide +kernel
  have hstays : ∀ d ∈ (Cursor.ofPlan plan).stores db (.call .start :: calls.map .call),
      ∀ id ∈ plan.touched, d.catalog.file id = db.catalog.file id := by
    have hsame : ∀ d ∈ (Cursor.ofPlan plan).stores db (.call .start :: calls.map .call),
        d.catalog.file t = .ok heap := by decide +kernel
    intro d hd id hid
    obtain rfl := htables id hid
    rw [hsame d hd, hfile]
  have hrun : (Cursor.ofPlan plan).moments db (.call .start :: calls.map .call) = [] ++ m :: late := rfl
  have hcalls : (late.filterMap Moment.use?).map (·.1) = calls := by decide +kernel
  have hfails : ∀ n ∈ late, n.StartFails := by
    have hothers : ∀ n ∈ late, n.move.call? ≠ some .start := by decide +kernel
    intro n hn hstart
    refine absurd ?_ (hothers n hn)
    rw [hstart]
    rfl
  obtain ⟨rows, r, hdrains, hanswer, hcounts, hinserts⟩ :=
    (writes_only_on_start hopen rfl .insert hrun).2 rfl
  obtain ⟨hadds, -⟩ := hinserts ⟨1⟩ t rfl hbuilt rfl hone hstays
  have hdone : m.answer? = some (.ok .done) := by decide +kernel
  cases r with
  | error e =>
    rw [hdone] at hanswer
    cases hanswer
  | ok =>
    have hcounted := hcounts rfl late [] (List.append_nil late).symm hfails
    rw [hcalls] at hcounted
    exact ⟨new, _, m, late, rows, hopen, hbuilt, rfl, by decide +kernel, by decide +kernel,
      by decide +kernel, hdrains, hadds, hcounted⟩

/-- A table of two pages is written back and then registered with pages of twice the size, of which it has
    one.  A start that says that it inserted one row shows two rows more. -/
theorem insert_shows_other_rows :
    let schema := Schema.single "n" .int
    let t := tableIdOf ["d", "t.dat"]
    let row (n : Int32) : Row := ⟨schema, [.int n], none⟩
    let placed (n : Int32) (page slot : Nat) : Row := ⟨schema, [.int n], some ⟨⟨t, page⟩, slot⟩⟩
    let requests : List Request :=
      [.task (.createTable "t" schema), .task (.insertRow ⟨0⟩ t (row 7)),
       .task (.insertRow ⟨0⟩ t (row 8)), .task (.insertRow ⟨0⟩ t (row 9)), .task .flushAll,
       .addFile "/d/t.dat" "t" "" schema 18]
    let child := Plan.rows schema [row 10]
    let plan := Plan.insert ⟨1⟩ t child
    ∃ new files' m late, Database.create Files.empty "/d" ⟨9, 2⟩ = (.ok new, files') ∧
      plan.Built (new.after requests).catalog ∧ child.isReading = true ∧
      (Cursor.ofPlan plan).moments (new.after requests) [.call .start, .call .next] = m :: late ∧
      m.answer? = some (.ok .done) ∧
      late.map Moment.answer? = [some (.ok (.row (Plan.countRow 1)))] ∧
      m.db.tableRows t = [placed 7 0 0, placed 8 0 1] ∧
      m.next.2.tableRows t = [placed 7 0 0, placed 8 0 1, placed 9 1 0, placed 10 1 1] ∧
      ¬ m.db.Adds t [row 10] m.next.2 := by
  intro schema t row placed requests child plan
  let new : Database := ⟨"/d", ⟨9, 2⟩, Catalog.empty, ⟨⟨[], [["d"]], []⟩, Pool.empty ⟨9, 2⟩⟩⟩
  let m : Moment := ⟨Cursor.ofPlan plan, new.after requests, .call .start⟩
  let late : List Moment := m.next.1.moments m.next.2 [.call .next]
  have hopen : Database.create Files.empty "/d" ⟨9, 2⟩ = (.ok new, ⟨[], [["d"]], []⟩) := rfl
  have hrun : (Cursor.ofPlan plan).moments (new.after requests) [.call .start, .call .next] = m :: late :=
    moments_cons _
  have hbuilt : plan.Built (new.after requests).catalog := by
    have hfile : (new.after requests).catalog.file t = .ok ⟨["d", "t.dat"], schema, 18⟩ := by decide +kernel
    have hplan : Plan.mkInsert (new.after requests).catalog ⟨1⟩ t child = .ok plan :=
      Plan.mkInsert_of_schema (Catalog.schema_of_file hfile) (by decide)
    have hrow : Row.Of schema (row 10) := ⟨rfl, rfl⟩
    exact .insert (.rows fun _ hmem => List.mem_singleton.mp hmem ▸ hrow) hplan
  have hbefore : m.db.tableRows t = [placed 7 0 0, placed 8 0 1] := by decide +kernel
  have hafter : m.next.2.tableRows t = [placed 7 0 0, placed 8 0 1, placed 9 1 0, placed 10 1 1] := by
    decide +kernel
  have hdone : m.answer? = some (.ok .done) := by decide +kernel
  have hcount : late.map Moment.answer? = [some (.ok (.row (Plan.countRow 1)))] := by decide +kernel
  have hnot : ¬ m.db.Adds t [row 10] m.next.2 := by
    rintro ⟨added, hperm, hvalues, -⟩
    have hone : added.length = 1 := by
      rw [← List.length_map (·.values), hvalues]
      rfl
    have hlength := hperm.length_eq
    rw [hbefore, hafter, List.length_append, hone] at hlength
    cases hlength
  exact ⟨new, _, m, late, hopen, hbuilt, rfl, hrun, hdone, hcount, hbefore, hafter, hnot⟩

end Cursor

end RowStore
