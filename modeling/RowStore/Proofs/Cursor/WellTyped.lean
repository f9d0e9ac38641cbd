import RowStore.Proofs.Archive.Ends
import RowStore.Proofs.Cursor.Lifecycle
import RowStore.Proofs.Cursor.Sieves
import RowStore.Proofs.Plan.Tallies

/-!
Plans that were built do not go wrong.

Program.  A plan is checked when it is built and never again: while it is carried out, columns are
looked up by position, joined rows are put under a joined schema, and groups and counts are made into
rows.

1. `Plan.Built catalog plan`: the makers built the plan, from lists of rows of their schemas and tables
   that the catalog knows.  It may write as well; a plan that deletes has only filters above a scan
   below it, so its rows have places.  Every node of such a plan was built (`Built.of_mem_nodes`).
2. The rows of such a plan are rows of its schema (`Row.Of`), and it fails only as `Error.Dynamic` says:
   since a page stands in the way, since a page or a row is not there any more, or since a number of
   rows or a sum is no 32-bit integer (`Built.safe`).
3. So it is in every run of a cursor over any node of the plan (`Cursor.answers_well_typed`).

Crux.  A run may write to the tables that it reads.  What stays true of them is that memory and file
agree and that pages have the columns of the table (`Storage.Tidy`), and that is enough: no row that is
decoded from such a page is of other types.
-/

namespace RowStore

open Storage Source

/-! ## Rows of a schema -/

/-- A row of a schema: its columns are those of the schema, and its values have their types. -/
def Row.Of (schema : Schema) (row : Row) : Prop := row.schema = schema ∧ row.Conforms

theorem Row.Of.typed {schema : Schema} {row : Row} (hrow : Row.Of schema row) : row.Typed schema := by
  obtain ⟨rfl, hconforms⟩ := hrow
  exact hconforms

theorem Row.of_append {left right : Schema} {l r : Row} (hl : Row.Of left l) (hr : Row.Of right r) :
    Row.Of (left.append right) (Row.append (left.append right) l r) :=
  ⟨rfl, Plan.typed_append hl.typed hr.typed⟩

theorem Plan.of_countRow (count : Nat) : Row.Of countSchema (countRow count) := ⟨rfl, rfl⟩

/-- A row on a page is a row of its schema. -/
theorem Page.of_mem_rows {p : Page} {row : Row} (hrow : row ∈ p.rows) : Row.Of p.schema row := by
  obtain ⟨i, values, -, hmade⟩ := mem_rows_iff.mp hrow
  have htyped := typed_of_mem_rows hrow
  subst hmade
  exact ⟨rfl, htyped⟩

/-- The errors that do not come from a column, a type or the shape of a row. -/
inductive Error.Dynamic : Error → Prop
  /-- A page cannot leave memory. -/
  | eviction {victim : PageId} {cause : Error} : Dynamic (.eviction victim cause)
  /-- A page is not there. -/
  | page {id : PageId} {count : Nat} : Dynamic (.missing (.page id count))
  /-- A row is not there any more. -/
  | liveRow {place : RecordId} : Dynamic (.missing (.liveRow place))
  /-- A number of rows or a sum is no 32-bit integer. -/
  | range {f : AggregateFunction} {n : Int} (hf : f = .count ∨ f = .sum) (hn : ¬ IsInt32 n) :
    Dynamic (.mismatch (.aggregateRange f n))

/-! ## Plans that were built -/

namespace Plan

/-- A plan that was built by the makers, from rows of their schemas and known tables. -/
inductive Built (catalog : Catalog) : Plan → Prop
  | rows {schema : Schema} {given : List Row} (hrows : ∀ row ∈ given, Row.Of schema row) :
    Built catalog (.rows schema given)
  | scan {table : TableId} {plan : Plan} (hmake : mkScan catalog table = .ok plan) : Built catalog plan
  | filter {condition : Condition} {child plan : Plan} (hchild : Built catalog child)
    (hmake : mkFilter condition child = .ok plan) : Built catalog plan
  | join {condition : JoinCondition} {outer inner plan : Plan} (houter : Built catalog outer)
    (hinner : Built catalog inner) (hmake : mkJoin condition outer inner = .ok plan) :
    Built catalog plan
  | aggregate {child plan : Plan} {column : Nat} {group : Option Nat} {function : AggregateFunction}
    (hchild : Built catalog child) (hmake : mkAggregate child column group function = .ok plan) :
    Built catalog plan
  | insert {tid : TransactionId} {table : TableId} {child plan : Plan} (hchild : Built catalog child)
    (hmake : mkInsert catalog tid table child = .ok plan) : Built catalog plan
  | delete {tid : TransactionId} {table : TableId} {child : Plan} {p : Row → Bool}
    (hchild : Built catalog child) (hsieves : Sieves table child p) : Built catalog (mkDelete tid child)

/-- The tables that a plan scans and those that it inserts into. -/
def touched : Plan → List TableId
  | .rows _ _ => []
  | .scan table _ => [table]
  | .filter _ child | .aggregate _ child | .delete _ child => child.touched
  | .join _ outer inner => outer.touched ++ inner.touched
  | .insert _ table child => table :: child.touched

/-- A plan and the plans below it. -/
def nodes : Plan → List Plan
  | .rows schema given => [.rows schema given]
  | .scan table schema => [.scan table schema]
  | .filter condition child => .filter condition child :: child.nodes
  | .join condition outer inner => .join condition outer inner :: (outer.nodes ++ inner.nodes)
  | .aggregate aggregation child => .aggregate aggregation child :: child.nodes
  | .insert tid table child => .insert tid table child :: child.nodes
  | .delete tid child => .delete tid child :: child.nodes

variable {made : Catalog} {plan node : Plan} {table : TableId} {p : Row → Bool}

theorem Sieves.mem_touched (hsieves : Sieves table plan p) : table ∈ plan.touched := by
  induction hsieves with
  | scan => exact List.mem_singleton.mpr rfl
  | filter _ ih => exact ih

/-- The tables of a plan that was built are known. -/
theorem Built.known (hbuilt : plan.Built made) : ∀ id ∈ plan.touched, ∃ h, made.file id = .ok h := by
  induction hbuilt with
  | rows => exact nofun
  | scan hmake =>
    obtain ⟨schema, hschema, rfl⟩ := mkScan_eq_ok hmake
    obtain ⟨h, hfile, -⟩ := Catalog.file_of_schema hschema
    intro id hid
    obtain rfl := List.mem_singleton.mp hid
    exact ⟨h, hfile⟩
  | filter _ hmake ih =>
    obtain rfl := mkFilter_eq_ok hmake
    exact ih
  | join _ _ hmake ihouter ihinner =>
    obtain rfl := mkJoin_eq_ok hmake
    intro id hid
    rcases List.mem_append.mp hid with hid | hid
    · exact ihouter id hid
    · exact ihinner id hid
  | aggregate _ hmake ih =>
    obtain ⟨a, -, rfl⟩ := mkAggregate_eq_ok hmake
    exact ih
  | insert _ hmake ih =>
    obtain ⟨schema, hschema, -, rfl⟩ := mkInsert_eq_ok hmake
    obtain ⟨h, hfile, -⟩ := Catalog.file_of_schema hschema
    intro id hid
    rcases List.mem_cons.mp hid with rfl | hid
    · exact ⟨h, hfile⟩
    · exact ih id hid
  | delete _ _ ih => exact ih

/-- **Every node of a plan was built**, and touches no table that the plan does not touch. -/
theorem Built.of_mem_nodes (hbuilt : plan.Built made) (hnode : node ∈ plan.nodes) :
    node.Built made ∧ ∀ id ∈ node.touched, id ∈ plan.touched := by
  have hself : ∀ {plan : Plan}, plan.Built made →
      plan.Built made ∧ ∀ id ∈ plan.touched, id ∈ plan.touched := fun hbuilt => ⟨hbuilt, fun _ => id⟩
  induction hbuilt with
  | rows hrows =>
    obtain rfl := List.mem_singleton.mp hnode
    exact hself (.rows hrows)
  | scan hmake =>
    obtain ⟨schema, -, rfl⟩ := mkScan_eq_ok hmake
    obtain rfl := List.mem_singleton.mp hnode
    exact hself (.scan hmake)
  | filter hchild hmake ih =>
    obtain rfl := mkFilter_eq_ok hmake
    rcases List.mem_cons.mp hnode with rfl | hnode
    · exact hself (.filter hchild hmake)
    · exact ih hnode
  | join houter hinner hmake ihouter ihinner =>
    obtain rfl := mkJoin_eq_ok hmake
    rcases List.mem_cons.mp hnode with rfl | hnode
    · exact hself (.join houter hinner hmake)
    · rcases List.mem_append.mp hnode with hnode | hnode
      · obtain ⟨hbuilt, hsub⟩ := ihouter hnode
        exact ⟨hbuilt, fun id hid => List.mem_append_left _ (hsub id hid)⟩
      · obtain ⟨hbuilt, hsub⟩ := ihinner hnode
        exact ⟨hbuilt, fun id hid => List.mem_append_right _ (hsub id hid)⟩
  | aggregate hchild hmake ih =>
    obtain ⟨a, -, rfl⟩ := mkAggregate_eq_ok hmake
    rcases List.mem_cons.mp hnode with rfl | hnode
    · exact hself (.aggregate hchild hmake)
    · exact ih hnode
  | insert hchild hmake ih =>
    obtain ⟨schema, -, -, rfl⟩ := mkInsert_eq_ok hmake
    rcases List.mem_cons.mp hnode with rfl | hnode
    · exact hself (.insert hchild hmake)
    · obtain ⟨hbuilt, hsub⟩ := ih hnode
      exact ⟨hbuilt, fun id hid => List.mem_cons_of_mem _ (hsub id hid)⟩
  | delete hchild hsieves ih =>
    rcases List.mem_cons.mp hnode with rfl | hnode
    · exact hself (.delete hchild hsieves)
    · exact ih hnode

end Plan

/-! ## Tables that are read and written -/

namespace Storage

variable {made catalog : Catalog} {ids : List TableId} {table : TableId} {h : HeapFile}
  {may : Effect → Prop} {tid : TransactionId} {Q : Row → Prop} {row : Row} {s s' : Storage}

/-- Memory and file agree on some of the tables that a catalog knows. -/
structure Tidy (known : Catalog) (ids : List TableId) (s : Storage) : Prop where
  /-- Pool and queue agree. -/
  sound : s.pool.Sound
  /-- Every page has the columns and the size of its table. -/
  coherent : ∀ id ∈ ids, ∀ h, known.file id = .ok h → Coherent h s

/-- Steps keep that, whatever they write, if they take the tables for the same files. -/
theorem Tidy.steps (htidy : Tidy made ids s) (hsame : ∀ id ∈ ids, catalog.file id = made.file id)
    (hsteps : Steps catalog may s s') : Tidy made ids s' where
  sound := hsteps.sound htidy.sound
  coherent := by
    intro id hid h hfile
    obtain rfl := Catalog.id_of_file hfile
    refine (hsteps.coherent_keeps (htidy.coherent h.id hid h hfile) htidy.sound ?_).1
    intro g hg
    rw [hsame h.id hid] at hg
    exact Catalog.eq_of_file hfile hg

section Tables

variable (hsame : ∀ id ∈ ids, catalog.file id = made.file id) (hid : table ∈ ids)
  (hfile : made.file table = .ok h)

include hsame hid hfile

/-- The pages of a table have rows of its schema, each with a place in the table. -/
theorem safe_scan (hQ : ∀ {row place}, Row.Of h.schema row → row.place = some place →
    place.page.table = table → Q row) (schema : Schema) :
    Safe catalog (Tidy made ids) Q Error.Dynamic (ofTable table schema)
      fun scan => ∀ row ∈ scan.buffer, Q row := by
  obtain rfl := Catalog.id_of_file hfile
  have hknown : catalog.file h.id = .ok h := (hsame h.id hid).trans hfile
  refine safe_ofTable schema ?_ ?_
  · intro e he
    rw [hknown] at he
    cases he
  · intro n s r s' htidy hget
    have hh := HeapFile.holds_pages (htidy.coherent h.id hid h hfile) htidy.sound
    have hquiet : Quiet catalog s s' := getPage_steps htidy.sound hget
    refine ⟨htidy.steps hsame hquiet, ?_⟩
    obtain ⟨frame, rfl, hpage⟩ | ⟨-, rfl⟩ | ⟨victim, e, -, rfl⟩ := hh.getPage_ends htidy.sound hknown hget
    · refine ⟨?_, nofun⟩
      rintro _ ⟨⟩ row hrow
      obtain ⟨hpageId, hschema, -⟩ := hh.shape htidy.sound hpage
      obtain ⟨slot, hplace⟩ := Page.place_of_mem_rows hrow
      have hof : Row.Of frame.page.schema row := Page.of_mem_rows hrow
      refine hQ ?_ hplace ?_
      · rwa [show frame.page.schema = h.schema from hschema] at hof
      · show frame.page.id.table = h.id
        rw [show frame.page.id = ⟨h.id, n⟩ from hpageId]
    · refine ⟨nofun, ?_⟩
      rintro _ ⟨⟩
      exact .page
    · refine ⟨nofun, ?_⟩
      rintro _ ⟨⟩
      exact .eviction

/-- Storing a row of the types of the table fails only since a page stands in the way. -/
theorem Tidy.storeRow (htidy : Tidy made ids s) (hrow : row.Conforms)
    (htypes : row.schema.types = h.schema.types) {r : Except Error Unit}
    (hstore : Storage.storeRow tid table catalog row s = (r, s')) :
    Tidy made ids s' ∧ ∀ e, r = .error e → e.Dynamic := by
  obtain rfl := Catalog.id_of_file hfile
  have hknown : catalog.file h.id = .ok h := (hsame h.id hid).trans hfile
  have hcoherent := htidy.coherent h.id hid h hfile
  cases r with
  | ok =>
    obtain ⟨row', hins⟩ := insertRow_of_storeRow hstore
    exact ⟨htidy.steps hsame (insertRow_steps htidy.sound hins), nofun⟩
  | error e =>
    have hins := insertRow_of_not_stored hstore
    refine ⟨htidy.steps hsame (insertRow_steps htidy.sound hins), ?_⟩
    rintro _ ⟨⟩
    have hd : h.Displays ⟨h.schema, h.pages s⟩ s := Or.inl (HeapFile.holds_pages hcoherent htidy.sound)
    obtain ⟨_, _, hr, -⟩ | ⟨_, _, hr, -, -, hcause⟩ := hd.insertRow htidy.sound hknown hrow hins
    · cases hr
    · cases hr
      obtain ⟨victim, cause, rfl⟩ := hcause hcoherent.fits (Schema.sameTypes_iff.mpr htypes)
      exact .eviction

/-- Deleting a row at a place in the table fails only since a page stands in the way, or since the row
    is not there any more. -/
theorem Tidy.deleteRow (htidy : Tidy made ids s) {place : RecordId} (hplace : place.page.table = table)
    {r : Except Error Unit} (hdel : s.deleteRow catalog tid (some place) = (r, s')) :
    Tidy made ids s' ∧ ∀ e, r = .error e → e.Dynamic := by
  obtain rfl := Catalog.id_of_file hfile
  have hknown : catalog.file h.id = .ok h := (hsame h.id hid).trans hfile
  have hsteps : Steps catalog (fun _ => True) s s' := deleteRow_steps htidy.sound (fun _ _ => trivial) hdel
  refine ⟨htidy.steps hsame hsteps, ?_⟩
  rintro e rfl
  have hcoherent := htidy.coherent h.id hid h hfile
  have hh := HeapFile.holds_pages hcoherent htidy.sound
  have hd : h.Displays ⟨h.schema, h.pages s⟩ s := Or.inl hh
  obtain ⟨_, hr, -⟩ | ⟨_, hr, -, hcause⟩ := hd.deleteRow htidy.sound hknown hplace hdel
  · cases hr
  · cases hr
    rcases hcause hcoherent.fits with herror | ⟨victim, cause, rfl⟩
    · obtain rfl | rfl := (hh.regular htidy.sound).error_of_delete hplace herror
      · exact .page
      · exact .liveRow
    · exact .eviction

end Tables

end Storage

/-! ## Sources of plans that were built -/

namespace Plan

variable {made : Catalog} {plan : Plan} {ids : List TableId}

section Nodes

variable {catalog : Catalog} {W : Storage → Prop} {fails : Error → Prop}

/-- Rows of two schemas are joined to rows of the joined schema. -/
theorem safe_joined (condition : JoinCondition) {outer inner : Plan}
    {readyOuter : outer.source.State → Prop} {readyInner : inner.source.State → Prop}
    (houter : Safe catalog W (Row.Of outer.schema) fails outer.source readyOuter)
    (hinner : Safe catalog W (Row.Of inner.schema) fails inner.source readyInner) :
    Safe catalog W (Row.Of (Plan.join condition outer inner).schema) fails
      (Plan.join condition outer inner).source
      (Joining.Ready (Row.Of outer.schema) (Guarded.Ready (Row.Of outer.schema) readyOuter)
        (Guarded.Ready (Row.Of inner.schema) readyInner)) := by
  refine safe_join houter.guard hinner.guard ?_
  intro left right hl hr
  show Row.Of (outer.schema.append inner.schema)
    (Row.append (outer.source.schema.append inner.source.schema) left right)
  rw [schema_source, schema_source]
  exact Row.of_append hl hr

/-- An aggregation that was set up for the columns of its child fails only since a number of rows or a sum
    is too large or too small. -/
theorem safe_aggregated {a : Aggregation} {child : Plan} {column : Nat} {group : Option Nat}
    {function : AggregateFunction} (hcolumns : Aggregation.ofColumns child.schema column group function = .ok a)
    {ready : child.source.State → Prop}
    (hchild : Safe catalog W (Row.Of child.schema) fails child.source ready)
    (hrange : ∀ {f n}, f = .count ∨ f = .sum → ¬ IsInt32 n → fails (.mismatch (.aggregateRange f n))) :
    Safe catalog W (Row.Of (Plan.aggregate a child).schema) fails (Plan.aggregate a child).source fun st =>
      ∀ rows pos, st.results = some (rows, pos) → ∀ row ∈ rows, Row.Of (Plan.aggregate a child).schema row := by
  have hsuits := Aggregation.suits_of_ofColumns hcolumns
  obtain ⟨htype, htexts⟩ := Aggregation.type_of_ofColumns hcolumns
  refine safe_aggregate hchild.guard (Aggregation.tallied_nil (a := a)) ?_ ?_
  · intro row groups hrow hgroups
    obtain ⟨groups₁, hadd, hgroups₁⟩ := Aggregation.add_tallied hsuits htype hrow.typed hgroups
    rw [hadd]
    refine ⟨?_, nofun⟩
    rintro _ ⟨⟩
    exact hgroups₁
  · intro groups hgroups
    obtain ⟨rows, hrows, hall⟩ | ⟨n, herror, hn, hf⟩ := Aggregation.groupRows_ends htexts hgroups
    · rw [hrows]
      refine ⟨?_, nofun⟩
      rintro _ ⟨⟩
      exact hall
    · rw [herror]
      refine ⟨nofun, ?_⟩
      rintro _ ⟨⟩
      exact hrange hf hn

end Nodes

/-- The rows that come through filters above a scan have places in the table. -/
theorem Sieves.safe {table : TableId} {p : Row → Bool} (hsieves : Sieves table plan p) (hid : table ∈ ids)
    {h : HeapFile} (hfile : made.file table = .ok h) :
    ∃ ready, ∀ catalog, (∀ id ∈ ids, catalog.file id = made.file id) →
      Safe catalog (Tidy made ids) (fun row => ∃ place, row.place = some place ∧ place.page.table = table)
        Error.Dynamic plan.source ready := by
  induction hsieves with
  | @scan schema =>
    refine ⟨_, fun catalog hsame => safe_scan hsame hid hfile ?_ schema⟩
    exact fun _ hplace htable => ⟨_, hplace, htable⟩
  | @filter condition child p _ ih =>
    obtain ⟨ready, hchild⟩ := ih
    exact ⟨_, fun catalog hsame => safe_filter condition (hchild catalog hsame).guard⟩

/-- **Plans that were built do not go wrong.**  As long as its tables are the files that they were when
    the plan was built, the source of such a plan gives rows of its schema, whoever asks for them and
    whatever is written meanwhile, and it fails only as `Error.Dynamic` says. -/
theorem Built.safe (hbuilt : plan.Built made) (hids : ∀ id ∈ plan.touched, id ∈ ids) :
    ∃ ready, ∀ catalog, (∀ id ∈ ids, catalog.file id = made.file id) →
      Safe catalog (Tidy made ids) (Row.Of plan.schema) Error.Dynamic plan.source ready := by
  induction hbuilt with
  | @rows schema given hrows => exact ⟨_, fun _ _ => safe_ofRows schema hrows⟩
  | @scan table plan hmake =>
    obtain ⟨schema, hschema, rfl⟩ := mkScan_eq_ok hmake
    obtain ⟨h, hfile, rfl⟩ := Catalog.file_of_schema hschema
    have hid : table ∈ ids := hids table (List.mem_singleton.mpr rfl)
    exact ⟨_, fun catalog hsame => safe_scan hsame hid hfile (fun hrow _ _ => hrow) h.schema⟩
  | @filter condition child plan _ hmake ih =>
    obtain rfl := mkFilter_eq_ok hmake
    obtain ⟨ready, hchild⟩ := ih hids
    exact ⟨_, fun catalog hsame => safe_filter condition (hchild catalog hsame).guard⟩
  | @join condition outer inner plan _ _ hmake ihouter ihinner =>
    obtain rfl := mkJoin_eq_ok hmake
    obtain ⟨readyOuter, houter⟩ := ihouter fun id hid => hids id (List.mem_append_left _ hid)
    obtain ⟨readyInner, hinner⟩ := ihinner fun id hid => hids id (List.mem_append_right _ hid)
    exact ⟨_, fun catalog hsame => safe_joined condition (houter catalog hsame) (hinner catalog hsame)⟩
  | @aggregate child plan column group function _ hmake ih =>
    obtain ⟨a, hcolumns, rfl⟩ := mkAggregate_eq_ok hmake
    obtain ⟨ready, hchild⟩ := ih hids
    exact ⟨_, fun catalog hsame => safe_aggregated hcolumns (hchild catalog hsame) .range⟩
  | @insert tid table child plan _ hmake ih =>
    obtain ⟨schema, hschema, htypes, rfl⟩ := mkInsert_eq_ok hmake
    obtain ⟨h, hfile, rfl⟩ := Catalog.file_of_schema hschema
    have hid : table ∈ ids := hids table List.mem_cons_self
    obtain ⟨ready, hchild⟩ := ih fun id hid => hids id (List.mem_cons_of_mem _ hid)
    refine ⟨_, fun catalog hsame => safe_write (hchild catalog hsame).guard ?_ of_countRow⟩
    intro row s r s' hrow htidy hstore
    obtain ⟨hrowSchema, hconforms⟩ := hrow
    exact htidy.storeRow hsame hid hfile hconforms (by rw [hrowSchema, htypes]) hstore
  | @delete tid table child p hchild hsieves _ =>
    have hid : table ∈ ids := hids table hsieves.mem_touched
    obtain ⟨h, hfile⟩ := hchild.known table hsieves.mem_touched
    -- what matters here are the places of the rows, not their types
    obtain ⟨ready, hplaced⟩ := hsieves.safe hid hfile
    refine ⟨_, fun catalog hsame => safe_write (hplaced catalog hsame).guard ?_ of_countRow⟩
    rintro row s r s' ⟨place, hplace, htable⟩ htidy hdel
    rw [hplace] at hdel
    exact htidy.deleteRow hsame hid hfile htable hdel

end Plan

/-! ## Runs -/

namespace Cursor

/-- **Well-typed plans do not go wrong.**  In a store that was opened and asked, take any node of a plan
    that was built, and any calls of a cursor over it in any order, with any requests to the store
    between them: those of a client, or what the nodes above and beside it do.  Every row that it gives
    is a row of its schema, and every call that fails says that the cursor is closed, that there are no
    more rows, or something about the moment: never that a column, a type or the shape of a row is wrong.

    Each table of the plan must have been the same file with the same schema and page size as long as
    there was one, its rows must fit on a page, and it must stay registered. -/
theorem answers_well_typed {files files' : Files} {directory : String} {config : Config}
    {new db : Database} (hopen : Database.create files directory config = (.ok new, files'))
    {requests : List Request} (hreach : new.after requests = db) {plan node : Plan}
    (hbuilt : plan.Built db.catalog) (hnode : node ∈ plan.nodes)
    (hone : ∀ id ∈ plan.touched, ∀ h, db.catalog.file id = .ok h →
      h.Fits ∧ ∀ d ∈ new.states requests, ∀ g, d.catalog.file id = .ok g → g = h)
    {moves : List Move}
    (hstays : ∀ d ∈ (Cursor.ofPlan node).stores db moves, ∀ id ∈ plan.touched,
      d.catalog.file id = db.catalog.file id)
    {call : Call} {answer : Except Error Reply}
    (hlog : (call, answer) ∈ (Cursor.ofPlan node).log db moves) :
    (∀ row, answer = .ok (.row row) → Row.Of node.schema row) ∧
      ∀ e, answer = .error e → e = .notOpen ∨ e = .noMoreRows ∨ e.Dynamic := by
  subst hreach
  obtain ⟨hnodeBuilt, hsub⟩ := hbuilt.of_mem_nodes hnode
  have hs : (new.after requests).storage.pool.Sound := (Database.sound_of_create hopen requests).1
  obtain ⟨-, hpool, -, rfl⟩ := Database.create_cases hopen
  generalize hdb : Database.after _ requests = db at *
  have htidy : Tidy db.catalog plan.touched db.storage := by
    refine ⟨hs, fun id hid h hfile => ?_⟩
    obtain ⟨hfits, honly⟩ := hone id hid h hfile
    obtain rfl := Catalog.id_of_file hfile
    rw [← hdb]
    exact Database.coherent_after (Pool.sound_empty hpool) (.of_none hfits fun _ => rfl) honly
  obtain ⟨ready, hsafe⟩ := hnodeBuilt.safe hsub
  -- the tables are the files that they were, and tidy
  let agrees : Database → Prop := fun d =>
    (∀ id ∈ plan.touched, d.catalog.file id = db.catalog.file id) ∧
      Tidy db.catalog plan.touched d.storage
  have hsource : ∀ d, agrees d → Safe d.catalog (fun s => agrees { d with storage := s })
      (Row.Of node.schema) Error.Dynamic node.source ready := by
    intro d hd
    have hall : (fun s => agrees { d with storage := s }) = Tidy db.catalog plan.touched := by
      funext s
      exact propext ⟨And.right, fun hs => ⟨hd.1, hs⟩⟩
    rw [hall]
    exact hsafe d.catalog hd.1
  obtain ⟨before, after, hsplit⟩ := List.append_of_mem hlog
  have hanswered : Answered (Row.Of node.schema) Error.Dynamic (Call.openAfter before) call answer := by
    refine answered_of_safe hsource ?_ ?_ ⟨fun _ _ => rfl, htidy⟩ hsplit
    · intro d request _ hstore hd
      exact ⟨hstays _ hstore, hd.2.steps hd.1 (Database.perform_steps hd.2.sound request)⟩
    · exact fun hnever => absurd hnever Bool.false_ne_true
  cases hanswered with
  | refused _ _ =>
    refine ⟨nofun, ?_⟩
    rintro _ ⟨⟩
    exact Or.inl rfl
  | failed _ he =>
    refine ⟨nofun, ?_⟩
    rintro _ ⟨⟩
    exact Or.inr (Or.inr he)
  | ended _ =>
    refine ⟨nofun, ?_⟩
    rintro _ ⟨⟩
    exact Or.inr (Or.inl rfl)
  | row _ hrow =>
    refine ⟨?_, nofun⟩
    rintro _ ⟨⟩
    exact hrow
  | more _ => exact ⟨nofun, nofun⟩
  | done _ => exact ⟨nofun, nofun⟩

/-- The sum of a table is to be inserted into another one.  It is no 32-bit integer at first, and after a
    row was deleted it is one. -/
theorem answers_well_typed_of_sums :
    let schema := Schema.single "n" .int
    let t := tableIdOf ["d", "t.dat"]
    let u := tableIdOf ["d", "u.dat"]
    let row (n : Int32) : Row := ⟨schema, [.int n], none⟩
    let requests : List Request :=
      [.task (.createTable "t" schema), .task (.createTable "u" schema),
       .task (.insertRow ⟨0⟩ t (row 2147483647)), .task (.insertRow ⟨0⟩ t (row 1))]
    let sums := Plan.aggregate ⟨.sum, 0, none, .int, Schema.single "sum(n)" .int⟩ (.scan t schema)
    let plan := Plan.insert ⟨0⟩ u sums
    let moves : List Move :=
      [.call .start, .request (.task (.deleteRow ⟨1⟩ (some ⟨⟨t, 0⟩, 1⟩))), .call .start, .call .next]
    let range : Error := .mismatch (.aggregateRange .sum 2147483648)
    let sum : Row := ⟨sums.schema, [.int 2147483647], none⟩
    ∃ new files', Database.create Files.empty "/d" ⟨64, 2⟩ = (.ok new, files') ∧
      plan.Built (new.after requests).catalog ∧
      (Cursor.ofPlan sums).log (new.after requests) moves =
        [(.start, .error range), (.start, .ok .done), (.next, .ok (.row sum))] ∧
      (range = .notOpen ∨ range = .noMoreRows ∨ range.Dynamic) ∧ Row.Of sums.schema sum := by
  intro schema t u row requests sums plan moves range sum
  let new : Database := ⟨"/d", ⟨64, 2⟩, Catalog.empty, ⟨⟨[], [["d"]], []⟩, Pool.empty ⟨64, 2⟩⟩⟩
  have hopen : Database.create Files.empty "/d" ⟨64, 2⟩ = (.ok new, ⟨[], [["d"]], []⟩) := rfl
  have hfiles : (new.after requests).catalog.file t = .ok ⟨["d", "t.dat"], schema, 64⟩ ∧
      (new.after requests).catalog.file u = .ok ⟨["d", "u.dat"], schema, 64⟩ := by decide +kernel
  have hbuilt : plan.Built (new.after requests).catalog := by
    have hscan : Plan.mkScan (new.after requests).catalog t = .ok (.scan t schema) :=
      Plan.mkScan_of_schema (Catalog.schema_of_file hfiles.1)
    have hsums : Plan.mkAggregate (.scan t schema) 0 none .sum = .ok sums := rfl
    have hplan : Plan.mkInsert (new.after requests).catalog ⟨0⟩ u sums = .ok plan :=
      Plan.mkInsert_of_schema (Catalog.schema_of_file hfiles.2) (by decide)
    exact .insert (.aggregate (.scan hscan) hsums) hplan
  have hnode : sums ∈ plan.nodes := List.mem_cons_of_mem _ List.mem_cons_self
  have htables : ∀ id ∈ plan.touched, id = t ∨ id = u := by
    intro id hid
    have hboth : id ∈ [u, t] := hid
    simpa [or_comm] using hboth
  have hone : ∀ id ∈ plan.touched, ∀ h, (new.after requests).catalog.file id = .ok h →
      h.Fits ∧ ∀ d ∈ new.states requests, ∀ g, d.catalog.file id = .ok g → g = h := by
    intro id hid h hfile
    obtain rfl | rfl := htables id hid
    · obtain rfl := Catalog.eq_of_file hfiles.1 hfile
      exact ⟨by decide +kernel, by decide +kernel⟩
    · obtain rfl := Catalog.eq_of_file hfiles.2 hfile
      exact ⟨by decide +kernel, by decide +kernel⟩
  have hstays : ∀ d ∈ (Cursor.ofPlan sums).stores (new.after requests) moves,
      ∀ id ∈ plan.touched, d.catalog.file id = (new.after requests).catalog.file id := by
    have hsame : ∀ d ∈ (Cursor.ofPlan sums).stores (new.after requests) moves,
        d.catalog.file t = .ok ⟨["d", "t.dat"], schema, 64⟩ ∧
        d.catalog.file u = .ok ⟨["d", "u.dat"], schema, 64⟩ := by decide +kernel
    intro d hd id hid
    obtain rfl | rfl := htables id hid
    · rw [(hsame d hd).1, hfiles.1]
    · rw [(hsame d hd).2, hfiles.2]
  have hlog : (Cursor.ofPlan sums).log (new.after requests) moves =
      [(.start, .error range), (.start, .ok .done), (.next, .ok (.row sum))] := by decide +kernel
  have hfirst : (Call.start, Except.error range) ∈ (Cursor.ofPlan sums).log (new.after requests) moves := by
    rw [hlog]
    exact List.mem_cons_self
  have hlast : (Call.next, Except.ok (Reply.row sum)) ∈
      (Cursor.ofPlan sums).log (new.after requests) moves := by
    rw [hlog]
    exact List.mem_of_mem_getLast? rfl
  exact ⟨new, _, hopen, hbuilt, hlog,
    (answers_well_typed hopen rfl hbuilt hnode hone hstays hfirst).2 range rfl,
    (answers_well_typed hopen rfl hbuilt hnode hone hstays hlast).1 sum rfl⟩

end Cursor

end RowStore
