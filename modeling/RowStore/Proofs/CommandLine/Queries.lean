import RowStore.Proofs.Catalog.Reload
import RowStore.Proofs.CommandLine.Ledger
import RowStore.Proofs.Cursor.Deletes
import RowStore.Proofs.Cursor.Served

/-!
Queries are answered as on tables of slots.

Program.  A query is made a plan, the plan is started, and all its rows are taken.

1. `Query.Answered`: the plan cannot be made, and nothing happens; or it fails when it is started, and
   pages were loaded; or it gives its rows, and of all tables only this one was written.
2. Every query on a known table is answered so, as `Sheet.answer` says (`Query.answered`); there is one
   lemma for each kind of query.
-/

namespace RowStore

open Storage Source

/-! ## Rows and conditions that are read -/

/-- A constant that is read has the type that it is read as. -/
theorem Value.type_of_parse {type : ColumnType} {text : String} {value : Value}
    (hparse : Value.parse type text = .ok value) : value.type = type := by
  cases type with
  | string =>
    cases hparse
    rfl
  | int =>
    simp only [Value.parse] at hparse
    split at hparse <;> cases hparse
    rfl

namespace CommandLine

variable {schema : Schema} {words : List String}

/-- A condition that is read can be asked of the rows of the schema. -/
theorem validate_of_readCondition {condition : Condition}
    (hread : readCondition schema words = .ok condition) : condition.validate schema = .ok () := by
  unfold readCondition at hread
  split at hread
  · obtain ⟨index, -, hread⟩ := ok_of_bind (ok_of_mapError hread)
    obtain ⟨comparison, -, hread⟩ := ok_of_bind hread
    obtain ⟨type, htype, hread⟩ := ok_of_bind hread
    obtain ⟨value, hvalue, hread⟩ := ok_of_bind hread
    cases hread
    unfold Condition.validate
    simp only [htype, Value.type_of_parse hvalue, if_true]
  · cases hread

/-- A row that is read is one of the schema. -/
theorem conforms_of_readRow {row : Row} (hread : readRow schema words = .ok row) :
    row.schema = schema ∧ row.Conforms := by
  unfold readRow at hread
  split at hread
  · cases hread
  · obtain ⟨values, -, hrow⟩ := ok_of_bind (ok_of_mapError hread)
    exact ⟨by rw [(Row.ofValues_eq_ok_iff.mp hrow).2], Row.conforms_ofValues hrow⟩

/-! ## All rows of a plan -/

variable {plan : Plan} {db : Database} {st₁ st₂ : plan.source.State} {s₁ s₂ : Storage}

/-- Opening a cursor over a plan is opening the guard of its source. -/
theorem start_ofPlan {r : Except Error Unit} {g : Guarded plan.source.State}
    (hopen : plan.source.guard.start db.catalog plan.source.guard.initial db.storage = (r, g, s₁)) :
    (Cursor.ofPlan plan).start db.catalog db.storage = (r, ⟨plan, g⟩, s₁) := by
  show (match plan.source.guard.start db.catalog plan.source.guard.initial db.storage with
    | (result, state, s) => (result, (⟨plan, state⟩ : Cursor), s)) = _
  rw [hopen]

/-- A plan that cannot be started gives no row. -/
theorem allRows_of_error {e : Error}
    (hstart : plan.source.start db.catalog plan.source.initial db.storage = (.error e, st₁, s₁)) :
    allRows plan db = ([], some e, { db with storage := s₁ }) := by
  unfold allRows
  simp only [Database.run, start_ofPlan (guard_start_error hstart)]

/-- A plan that was started gives the rows of its source. -/
theorem allRows_of_source {taken : List Row}
    (hstart : plan.source.start db.catalog plan.source.initial db.storage = (.ok (), st₁, s₁))
    (heach : plan.source.each db.catalog takeRow st₁ [] s₁ = (.exhausted, st₂, taken, s₂)) :
    allRows plan db = (taken.reverse, none, { db with storage := s₂ }) := by
  unfold allRows
  simp only [Database.run, start_ofPlan (guard_start hstart), Cursor.collect_of_source heach]

/-! ## How queries end -/

/-- How a query on table `id` ends that has the plan `made`, as far as rows and tables are concerned. -/
inductive Query.Answered (db : Database) (view : TableId → PagedTable) (id : TableId)
    (made : Except Failure Plan) : Except Failure (Schema × Except Error (List Row × SlotTable)) → Prop
  /-- There is no plan. -/
  | refused {failure : Failure} (hmade : made = .error failure) : Answered db view id made (.error failure)
  /-- The plan fails when it is started. -/
  | failed {plan : Plan} {e : Error} {s : Storage} (hmade : made = .ok plan)
    (hrows : allRows plan db = ([], some e, { db with storage := s }))
    (hquiet : Quiet db.catalog db.storage s) : Answered db view id made (.ok (plan.schema, .error e))
  /-- The plan gives its rows. -/
  | rows {plan : Plan} {rows : List Row} {t : PagedTable} {s : Storage} (hmade : made = .ok plan)
    (hrows : allRows plan db = (rows, none, { db with storage := s }))
    (hsteps : Steps db.catalog (· = .write id) db.storage s)
    (hserves : Serves db.catalog (Function.update view id t) s) :
    Answered db view id made (.ok (plan.schema, .ok (rows, t.slots)))

section Queries

variable {tid : TransactionId} {view : TableId → PagedTable} {h : HeapFile} {name : String}

/-- A plan that reads, and whose table has rows of its schema, is answered by the rows that it means. -/
theorem Query.answered_of_meaning (hserves : Serves db.catalog view db.storage)
    (hmade : plan.Made db.catalog) {rows : List Row}
    (hmeaning : plan.meaning (fun id => (view id).rows) = .ok rows) (id : TableId) :
    Query.Answered db view id (.ok plan) (.ok (plan.schema, .ok (rows, (view id).slots))) := by
  obtain ⟨st₁, s₁, st₂, s₂, hstart, heach, hquiet⟩ :=
    hserves.reads hmade hmeaning plan.source.initial
  have hrows := allRows_of_source hstart heach
  rw [List.reverse_reverse] at hrows
  refine .rows rfl hrows hquiet.steps ?_
  rw [Function.update_eq_self]
  exact hserves.quiet hquiet

theorem mkScan_of_file {catalog : Catalog} (hfile : catalog.file h.id = .ok h) :
    Plan.mkScan catalog h.id = .ok (.scan h.id h.schema) :=
  Plan.mkScan_of_schema (Catalog.schema_of_file hfile)

theorem mkFilter_of_read {condition : Condition} {child : Plan}
    (hread : readCondition child.schema words = .ok condition) :
    Plan.mkFilter condition child = .ok (.filter condition child) := by
  unfold Plan.mkFilter
  rw [validate_of_readCondition hread]
  rfl

/-- A condition on a known table makes a filter above a scan. -/
theorem filtered_of_file {catalog : Catalog} (hfile : catalog.file h.id = .ok h) (words : List String) :
    filtered catalog h.id h.schema words =
      (readCondition h.schema words).map fun condition => .filter condition (.scan h.id h.schema) := by
  unfold filtered
  cases hread : readCondition h.schema words with
  | error failure => rfl
  | ok condition =>
    have hmake : Plan.mkFilter condition (.scan h.id h.schema) = _ := mkFilter_of_read hread
    simp only [bind, Except.bind, mkScan_of_file hfile, hmake]
    rfl

theorem ofColumns_of_readAggregation {function : AggregateFunction} {column : String}
    {group : Option String} {a : Aggregation}
    (hread : readAggregation schema function column group = .ok a) :
    ∃ index key, Aggregation.ofColumns schema index key function = .ok a := by
  obtain ⟨index, -, hread⟩ := ok_of_bind (ok_of_mapError hread)
  obtain ⟨key, -, hread⟩ := ok_of_bind hread
  exact ⟨index, key, hread⟩

/-- An aggregation of a known table is one above a scan. -/
theorem aggregate_of_file {catalog : Catalog} (hfile : catalog.file h.id = .ok h)
    (function : AggregateFunction) (column : String) (group : Option String) :
    Query.plan catalog tid h.id h.schema (.aggregate function column group) =
      (readAggregation h.schema function column group).map
        fun a => .aggregate a (.scan h.id h.schema) := by
  have hplan : Query.plan catalog tid h.id h.schema (.aggregate function column group) =
      Except.mapError Failure.store (do
        let index ← h.schema.indexOf column
        let key ← readGroup h.schema group
        let scan ← Plan.mkScan catalog h.id
        Plan.mkAggregate scan index key function) := by
    cases group <;> rfl
  rw [hplan, mkScan_of_file hfile]
  unfold readAggregation
  cases h.schema.indexOf column with
  | error e => rfl
  | ok index =>
    cases readGroup h.schema group with
    | error e => rfl
    | ok key =>
      show Except.mapError _ ((Aggregation.ofColumns h.schema index key function).map _) =
        Except.map _ (Except.mapError _ (Aggregation.ofColumns h.schema index key function))
      cases Aggregation.ofColumns h.schema index key function <;> rfl

/-- An insertion into a known table is one of the row that is read. -/
theorem insert_of_file {catalog : Catalog} (hfile : catalog.file h.id = .ok h) (texts : List String) :
    Query.plan catalog tid h.id h.schema (.insert texts) =
      (readRow h.schema texts).map fun row => .insert tid h.id (.rows h.schema [row]) := by
  have hmake : ∀ row, Plan.mkInsert catalog tid h.id (.rows h.schema [row]) =
      .ok (.insert tid h.id (.rows h.schema [row])) :=
    fun row => Plan.mkInsert_of_schema (Catalog.schema_of_file hfile) (Schema.sameTypes_iff.mpr rfl)
  unfold Query.plan
  simp only [hmake]
  cases readRow h.schema texts <;> rfl

/-- A deletion from a known table is one of a filter above a scan. -/
theorem delete_of_file {catalog : Catalog} (hfile : catalog.file h.id = .ok h) (words : List String) :
    Query.plan catalog tid h.id h.schema (.delete words) =
      (readCondition h.schema words).map fun condition =>
        .delete tid (.filter condition (.scan h.id h.schema)) := by
  show (filtered catalog h.id h.schema words).map (Plan.mkDelete tid) = _
  rw [filtered_of_file hfile]
  cases readCondition h.schema words <;> rfl

/-- A row given outright is stored when the plan that inserts it is started. -/
theorem drain_row {catalog : Catalog} {operation : Row → Storage → Except Error Unit × Storage} {row : Row}
    {s s' : Storage} (hrow : operation row s = (.ok (), s')) (g : (ofRows schema [row]).guard.State) :
    ∃ g', (ofRows schema [row]).guard.drain catalog (counted operation) g 0 s = (.ok 1, g', s') := by
  have hfed : feed (counted operation) row (.ok 0) s = (.yield (.ok 1), s') := by
    simp only [feed, counted, hrow]
  rcases hdrain : (ofRows schema [row]).guard.drain catalog (counted operation) g 0 s with ⟨r, g', s₁⟩
  obtain ⟨e, hfailed, -⟩ | ⟨ending, result, hruns, hends⟩ := drain_cases hdrain
  · have hstart : (ofRows schema [row]).guard.start catalog g s = (.ok (), _, s) := guard_start rfl
    cases hstart.symm.trans hfailed
  · obtain ⟨st, st₁, s₂, st₂, hstart, heach⟩ := hruns.of_guard
    cases hstart
    replace heach : eachOf [row] (feed (counted operation)) 0 (.ok 0) s = (ending, st₂, result, s₁) := heach
    simp only [eachOf, List.drop_zero, deliver, hfed] at heach
    cases heach
    exact ⟨g', by rw [hends]; rfl⟩

/-- A plan that inserts one row stores it when it is started. -/
theorem start_of_storeRow {catalog : Catalog} {table : TableId} {row : Row} {s s' : Storage}
    (hstore : storeRow tid table catalog row s = (.ok (), s'))
    (st : (Plan.insert tid table (.rows schema [row])).source.State) :
    ∃ st' : WriteState (Plan.rows schema [row]).source.guard.State,
      (Plan.insert tid table (.rows schema [row])).source.start catalog st s = (.ok (), st', s') ∧
        st'.results = (some (Plan.countRow 1), false) := by
  obtain ⟨inner, results⟩ := st
  obtain ⟨g, hdrain⟩ : ∃ g, (ofRows schema [row]).guard.drain catalog
      (counted (storeRow tid table catalog)) inner 0 s = (.ok 1, g, s') := drain_row hstore inner
  rcases hstart : (Plan.insert tid table (.rows schema [row])).source.start catalog ⟨inner, results⟩ s
    with ⟨r, st', s₁⟩
  obtain ⟨result, c, hdrain', hresult⟩ := start_write_cases hstart
  cases hdrain.symm.trans hdrain'
  obtain ⟨e, herror, -⟩ | ⟨count, hcount, rfl, rfl⟩ := hresult
  · cases herror
  · cases hcount
    exact ⟨_, rfl, rfl⟩

variable (hserves : Serves db.catalog view db.storage) (hfile : db.catalog.file h.id = .ok h)
  (pageSize : Nat)
include hserves hfile

/-- A scan prints the rows of the table. -/
theorem Query.answered_scan :
    Query.Answered db view h.id (Query.plan db.catalog tid h.id h.schema (.scan none))
      (Sheet.answer pageSize ⟨name, h.id, (view h.id).slots⟩ (.scan none)) := by
  have hh := hserves.held h.id h hfile
  have hplan : Query.plan db.catalog tid h.id h.schema (.scan none) = .ok (.scan h.id h.schema) := by
    unfold Query.plan
    rw [mkScan_of_file hfile]
    rfl
  have hanswer : Sheet.answer pageSize ⟨name, h.id, (view h.id).slots⟩ (.scan none) =
      .ok (h.schema, .ok ((view h.id).rows, (view h.id).slots)) := by
    unfold Sheet.answer
    rw [← hh.schema, ← (hh.regular hserves.sound).rows_slots]
    rfl
  rw [hplan, hanswer]
  exact Query.answered_of_meaning hserves (.scan (mkScan_of_file hfile)) rfl h.id

/-- A scan with a condition prints the rows that satisfy it. -/
theorem Query.answered_filter (words : List String) :
    Query.Answered db view h.id (Query.plan db.catalog tid h.id h.schema (.scan (some words)))
      (Sheet.answer pageSize ⟨name, h.id, (view h.id).slots⟩ (.scan (some words))) := by
  have hh := hserves.held h.id h hfile
  have hplan : Query.plan db.catalog tid h.id h.schema (.scan (some words)) = _ :=
    filtered_of_file hfile words
  have hanswer : Sheet.answer pageSize ⟨name, h.id, (view h.id).slots⟩ (.scan (some words)) =
      (readCondition h.schema words).bind fun condition =>
        .ok (h.schema, .ok ((view h.id).rows.filter condition.holds, (view h.id).slots)) := by
    unfold Sheet.answer
    rw [← hh.schema, ← (hh.regular hserves.sound).rows_slots]
    rfl
  rw [hplan, hanswer]
  cases hread : readCondition h.schema words with
  | error failure => exact .refused rfl
  | ok condition =>
    have hmade : (Plan.filter condition (.scan h.id h.schema)).Made db.catalog :=
      .filter (.scan (mkScan_of_file hfile)) (mkFilter_of_read hread)
    exact Query.answered_of_meaning hserves hmade rfl h.id

/-- An aggregation prints the groups of the rows, unless a number is too large. -/
theorem Query.answered_aggregate (function : AggregateFunction) (column : String)
    (group : Option String) :
    Query.Answered db view h.id (Query.plan db.catalog tid h.id h.schema (.aggregate function column group))
      (Sheet.answer pageSize ⟨name, h.id, (view h.id).slots⟩ (.aggregate function column group)) := by
  have hh := hserves.held h.id h hfile
  have hanswer : Sheet.answer pageSize ⟨name, h.id, (view h.id).slots⟩ (.aggregate function column group) =
      (readAggregation h.schema function column group).bind fun a =>
        .ok (a.schema, (a.reduce (view h.id).rows).map fun rows => (rows, (view h.id).slots)) := by
    unfold Sheet.answer
    rw [← hh.schema, ← (hh.regular hserves.sound).rows_slots]
    rfl
  rw [aggregate_of_file hfile, hanswer]
  cases hread : readAggregation h.schema function column group with
  | error failure => exact .refused rfl
  | ok a =>
    obtain ⟨index, key, hcolumns⟩ := ofColumns_of_readAggregation hread
    have hscan : (Plan.scan h.id h.schema).Made db.catalog := .scan (mkScan_of_file hfile)
    cases hreduce : a.reduce (view h.id).rows with
    | ok rows =>
      have hmake : Plan.mkAggregate (.scan h.id h.schema) index key function =
          .ok (.aggregate a (.scan h.id h.schema)) := by
        unfold Plan.mkAggregate
        rw [show (Plan.scan h.id h.schema).schema = h.schema from rfl, hcolumns]
        rfl
      show Query.Answered db view h.id (.ok (.aggregate a (.scan h.id h.schema)))
        (.ok (a.schema, (a.reduce (view h.id).rows).map _))
      rw [hreduce]
      exact Query.answered_of_meaning hserves (.aggregate hscan hmake) hreduce h.id
    | error e =>
      obtain ⟨st', s', hstart, hquiet⟩ := hserves.aggregate_fails hscan rfl
        (Aggregation.suits_of_ofColumns hcolumns) (fun row hrow => hh.typed hserves.sound hrow) hreduce
        (Plan.aggregate a (.scan h.id h.schema)).source.initial
      show Query.Answered db view h.id (.ok (.aggregate a (.scan h.id h.schema)))
        (.ok (a.schema, (a.reduce (view h.id).rows).map _))
      rw [hreduce]
      exact .failed rfl (allRows_of_error hstart) hquiet

/-- An insertion prints that it stored one row, and the table has it at the least free place. -/
theorem Query.answered_insert (hsize : h.pageSize = pageSize) (texts : List String) :
    Query.Answered db view h.id (Query.plan db.catalog tid h.id h.schema (.insert texts))
      (Sheet.answer pageSize ⟨name, h.id, (view h.id).slots⟩ (.insert texts)) := by
  have hh := hserves.held h.id h hfile
  have hr := hh.regular hserves.sound
  have hanswer : Sheet.answer pageSize ⟨name, h.id, (view h.id).slots⟩ (.insert texts) =
      (readRow h.schema texts).bind fun row => .ok (Plan.countSchema,
        ((view h.id).slots.insert h.id pageSize row).map fun taken => ([Plan.countRow 1], taken.2)) := by
    unfold Sheet.answer
    rw [← hh.schema]
    rfl
  rw [insert_of_file hfile, hanswer]
  cases hread : readRow h.schema texts with
  | error failure => exact .refused rfl
  | ok row =>
    obtain ⟨hschema, hrow⟩ := conforms_of_readRow hread
    have htypes : row.schema.sameTypes (view h.id).schema = true := by
      rw [hschema, hh.schema]
      simp [Schema.sameTypes]
    obtain ⟨row', t', htakes⟩ := hr.insert_takes hrow htypes
    obtain ⟨s', hrun, hh'⟩ := hh.store hserves.sound hserves.attended hfile hrow htakes
    have hstore : storeRow tid h.id db.catalog row db.storage = (.ok (), s') := by
      unfold storeRow
      rw [hrun]
    let plan : Plan := .insert tid h.id (.rows h.schema [row])
    obtain ⟨st', hstart, hresults⟩ := start_of_storeRow hstore plan.source.initial
    have hrows := allRows_of_source hstart (Cursor.each_of_write hresults db.catalog s')
    have hanswered : Query.Answered db view h.id (.ok plan) _ :=
      .rows rfl hrows (insertRow_steps hserves.sound hrun) (hserves.write hfile
        (insertRow_steps hserves.sound hrun) hh')
    have hslots := hr.insert_slots hrow
    rw [htakes, hsize] at hslots
    show Query.Answered db view h.id _
      (.ok (Plan.countSchema, ((view h.id).slots.insert h.id pageSize row).map _))
    rw [hslots]
    exact hanswered

/-- A deletion prints the number of the rows that satisfy the condition, and the table loses them. -/
theorem Query.answered_delete (words : List String) :
    Query.Answered db view h.id (Query.plan db.catalog tid h.id h.schema (.delete words))
      (Sheet.answer pageSize ⟨name, h.id, (view h.id).slots⟩ (.delete words)) := by
  have hh := hserves.held h.id h hfile
  have hanswer : Sheet.answer pageSize ⟨name, h.id, (view h.id).slots⟩ (.delete words) =
      (readCondition h.schema words).bind fun condition => .ok (Plan.countSchema,
        .ok ([Plan.countRow ((view h.id).rows.filter condition.holds).length],
          (view h.id).slots.deleteWhere h.id condition.holds)) := by
    unfold Sheet.answer
    rw [← hh.schema, ← (hh.regular hserves.sound).rows_slots]
    rfl
  rw [delete_of_file hfile, hanswer]
  cases hread : readCondition h.schema words with
  | error failure => exact .refused rfl
  | ok condition =>
    have hsieves : (Plan.filter condition (.scan h.id h.schema)).Sieves h.id condition.holds := by
      have hsame : (fun row => condition.holds row && true) = condition.holds :=
        funext fun row => Bool.and_true _
      exact hsame ▸ .filter .scan
    let plan : Plan := .delete tid (.filter condition (.scan h.id h.schema))
    rcases hstart : plan.source.start db.catalog plan.source.initial db.storage with ⟨r, st', s'⟩
    obtain ⟨rfl, hresults, hsteps, now, hh', hslots⟩ :=
      hh.write_deletes hserves.sound hfile hsieves hstart hserves.attended
    have hrows := allRows_of_source hstart (Cursor.each_of_write hresults db.catalog s')
    have hanswered : Query.Answered db view h.id (.ok plan) _ :=
      .rows rfl hrows hsteps (hserves.write hfile hsteps hh')
    rw [hslots] at hanswered
    exact hanswered

/-- **Queries.**  A query on a known table is answered as on the slots of that table. -/
theorem Query.answered (hsize : h.pageSize = pageSize) (query : Query) :
    Query.Answered db view h.id (Query.plan db.catalog tid h.id h.schema query)
      (Sheet.answer pageSize ⟨name, h.id, (view h.id).slots⟩ query) := by
  cases query with
  | scan condition =>
    cases condition with
    | none => exact answered_scan hserves hfile pageSize
    | some words => exact answered_filter hserves hfile pageSize words
  | insert texts => exact answered_insert hserves hfile pageSize hsize texts
  | aggregate function column group =>
    exact answered_aggregate hserves hfile pageSize function column group
  | delete words => exact answered_delete hserves hfile pageSize words

end Queries

end CommandLine

end RowStore
