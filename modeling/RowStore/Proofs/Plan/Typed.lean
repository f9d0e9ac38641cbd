import RowStore.Plan.Meaning

/-!
Plans that were made have rows of their schemas, and one way to fail.

1. `Plan.Made catalog plan`: the makers built `plan` over tables that `catalog` knows, from lists of
   rows that have the types of their schemas.  Such a plan only reads.
2. If the rows of every table have the types of its schema, the rows of a plan that was made have
   the types of its schema (`Made.typed`).
3. The meaning of such a plan fails only because a result of an aggregation is no 32-bit integer
   (`Made.error`): no value is ever missing, and no row of a result is refused.

Crux.  A key of a group is a value of the group column, so the key with an integer behind it has the
types of the result (`Aggregation.Keyed`).  That is kept while the rows are added one by one.
-/

namespace RowStore

/-- The values of a row have the types of a schema. -/
def Row.Typed (schema : Schema) (row : Row) : Prop := row.values.map Value.type = schema.types

/-! ## Aggregations -/

/-- The value that tells the group of a row. -/
def groupKey (group : Option Nat) (row : Row) : Option Value := group.bind (row.values[·]?)

namespace Aggregation

variable {a : Aggregation} {child : Schema} {row : Row} {groups : Groups}

/-- What an aggregation needs of the rows that it reduces. -/
structure Suits (a : Aggregation) (child : Schema) : Prop where
  /-- There is a column to reduce. -/
  column : a.column < child.types.length
  /-- The result has the type of the group column, if there is one, and an integer. -/
  group : match a.group with
    | none => a.schema.types = [.int]
    | some index => ∃ type, child.types[index]? = some type ∧ a.schema.types = [type, .int]

/-- A column that is there has its type in the list of types. -/
theorem getElem?_types_of_column {index : Nat} {c : Column} (h : child.column index = .ok c) :
    child.types[index]? = some c.type := by
  unfold Schema.column at h
  unfold Schema.types
  rw [List.getElem?_map]
  split at h
  · rename_i found
    cases h
    rw [found]
    rfl
  · cases h

/-- An aggregation that was made reduces the column that was asked for, and so on. -/
theorem fields_of_ofColumns {column : Nat} {group : Option Nat} {function : AggregateFunction}
    (h : ofColumns child column group function = .ok a) :
    a.column = column ∧ a.group = group ∧ a.function = function := by
  unfold ofColumns at h
  simp only [bind, Except.bind] at h
  split at h
  · cases h
  · split at h
    · cases h
    · cases group with
      | none =>
        cases h
        exact ⟨rfl, rfl, rfl⟩
      | some index =>
        simp only at h
        split at h
        · cases h
        · cases h
          exact ⟨rfl, rfl, rfl⟩

/-- An aggregation that was made suits the rows that it was made for. -/
theorem suits_of_ofColumns {column : Nat} {group : Option Nat} {function : AggregateFunction}
    (h : ofColumns child column group function = .ok a) : a.Suits child := by
  unfold ofColumns at h
  simp only [bind, Except.bind] at h
  split at h
  · cases h
  · rename_i reduced hreduced
    obtain ⟨hcolumn, -⟩ := List.getElem?_eq_some_iff.mp (getElem?_types_of_column hreduced)
    split at h
    · cases h
    · split at h
      · cases h
        exact ⟨hcolumn, rfl⟩
      · split at h
        · cases h
        · rename_i key hkey
          cases h
          exact ⟨hcolumn, key.type, getElem?_types_of_column hkey, rfl⟩

/-- The keys of the groups, with an integer behind them, have the types of the result. -/
def Keyed (a : Aggregation) (groups : Groups) : Prop :=
  ∀ key ∈ Assoc.keys groups, key.toList.map Value.type ++ [.int] = a.schema.types

/-- A row of the right types has a key, which has the type that the result wants. -/
theorem key_of_typed (ha : a.Suits child) (hrow : row.Typed child) :
    a.key row = .ok (groupKey a.group row) ∧
      (groupKey a.group row).toList.map Value.type ++ [.int] = a.schema.types := by
  have hgroup := ha.group
  unfold key groupKey
  cases hindex : a.group with
  | none =>
    rw [hindex] at hgroup
    exact ⟨rfl, hgroup.symm⟩
  | some index =>
    rw [hindex] at hgroup
    obtain ⟨type, htype, hschema⟩ := hgroup
    rw [← hrow, List.getElem?_map, Option.map_eq_some_iff] at htype
    obtain ⟨v, hv, rfl⟩ := htype
    simp only [hv, Option.bind_some]
    exact ⟨trivial, hschema.symm⟩

/-- A row of the right types has a value to reduce. -/
theorem value_of_typed {type : ColumnType} (htype : child.types[a.column]? = some type)
    (hrow : row.Typed child) :
    ∃ v, a.value row = .ok v ∧ row.values[a.column]? = some v ∧ v.type = type := by
  rw [← hrow, List.getElem?_map, Option.map_eq_some_iff] at htype
  obtain ⟨v, hv, hvtype⟩ := htype
  refine ⟨v, ?_, hv, hvtype⟩
  unfold value
  rw [hv]

/-- Such a row can be added. -/
theorem add_of_typed (ha : a.Suits child) (hrow : row.Typed child) (hgroups : a.Keyed groups) :
    ∃ groups', a.add row groups = .ok groups' ∧ a.Keyed groups' := by
  obtain ⟨hkey, htypes⟩ := key_of_typed ha hrow
  obtain ⟨v, hvalue, -⟩ := value_of_typed (List.getElem?_eq_getElem ha.column) hrow
  refine ⟨_, by simp only [add, hkey, hvalue, bind, Except.bind]; rfl, ?_⟩
  intro other hother
  by_cases hold : groupKey a.group row ∈ Assoc.keys groups
  · rw [Assoc.keys_put_of_mem hold] at hother
    exact hgroups other hother
  · rw [Assoc.keys_put_of_not_mem hold] at hother
    rcases List.mem_append.mp hother with hother | hother
    · exact hgroups other hother
    · rw [List.mem_singleton.mp hother]
      exact htypes

/-- Rows of the right types can be added one after the other. -/
theorem foldlM_add_of_typed (ha : a.Suits child) {rows : List Row}
    (hrows : ∀ row ∈ rows, row.Typed child) (hgroups : a.Keyed groups) :
    ∃ groups', rows.foldlM (fun groups row => a.add row groups) groups = .ok groups' ∧
      a.Keyed groups' := by
  induction rows generalizing groups with
  | nil => exact ⟨groups, rfl, hgroups⟩
  | cons row rows ih =>
    obtain ⟨groups₁, hadd, hgroups₁⟩ :=
      add_of_typed ha (hrows row List.mem_cons_self) hgroups
    rw [List.foldlM_cons, hadd]
    exact ih (fun row hrow => hrows row (List.mem_cons_of_mem _ hrow)) hgroups₁

/-- The row of a group agrees with the columns of the result, unless the result is no 32-bit integer. -/
theorem groupRow_cases {group : Option Value × Tally}
    (hkey : group.1.toList.map Value.type ++ [.int] = a.schema.types) :
    (∃ row, a.groupRow group = .ok row ∧ row.schema = a.schema ∧ row.Conforms) ∨
      (a.groupRow group =
          .error (.mismatch (.aggregateRange a.function (group.2.result a.function))) ∧
        ¬ (Int32.minValue.toInt ≤ group.2.result a.function ∧
          group.2.result a.function ≤ Int32.maxValue.toInt)) := by
  unfold groupRow inRange
  by_cases hrange : Int32.minValue.toInt ≤ group.2.result a.function ∧
      group.2.result a.function ≤ Int32.maxValue.toInt
  · rw [if_pos hrange]
    have hrow : (group.1.toList ++ [Value.int (Int32.ofInt (group.2.result a.function))]).map
        Value.type = a.schema.types := by
      rw [List.map_append]
      exact hkey
    exact Or.inl ⟨_, Row.ofValues_eq_ok_iff.mpr ⟨hrow, rfl⟩, rfl, hrow⟩
  · rw [if_neg hrange]
    exact Or.inr ⟨rfl, hrange⟩

theorem groupRows_cases (hgroups : a.Keyed groups) :
    (∃ rows, a.groupRows groups = .ok rows ∧ ∀ row ∈ rows, row.schema = a.schema ∧ row.Conforms) ∨
      (∃ group ∈ groups, a.groupRows groups =
          .error (.mismatch (.aggregateRange a.function (group.2.result a.function))) ∧
        ¬ (Int32.minValue.toInt ≤ group.2.result a.function ∧
          group.2.result a.function ≤ Int32.maxValue.toInt)) := by
  induction groups with
  | nil => exact Or.inl ⟨[], rfl, fun row hrow => by cases hrow⟩
  | cons group groups ih =>
    have hkey := hgroups group.1 List.mem_cons_self
    have hrest : a.Keyed groups := fun key hmem => hgroups key (List.mem_cons_of_mem _ hmem)
    unfold groupRows
    obtain ⟨row, hrow, hconforms⟩ | ⟨hrow, hn⟩ := groupRow_cases hkey
    · rw [hrow]
      obtain ⟨rows, hrows, hall⟩ | ⟨late, hlate, hrows, hn⟩ := ih hrest
      · rw [hrows]
        exact Or.inl ⟨row :: rows, rfl, List.forall_mem_cons.mpr ⟨hconforms, hall⟩⟩
      · rw [hrows]
        exact Or.inr ⟨late, List.mem_cons_of_mem _ hlate, rfl, hn⟩
    · rw [hrow]
      exact Or.inr ⟨group, List.mem_cons_self, rfl, hn⟩

/-- Rows of the right types are reduced to rows of the right types, unless a result is no 32-bit
    integer. -/
theorem reduce_cases (ha : a.Suits child) {rows : List Row}
    (hrows : ∀ row ∈ rows, row.Typed child) :
    (∃ result, a.reduce rows = .ok result ∧ ∀ row ∈ result, row.Typed a.schema) ∨
      (∃ n, a.reduce rows = .error (.mismatch (.aggregateRange a.function n)) ∧
        ¬ (Int32.minValue.toInt ≤ n ∧ n ≤ Int32.maxValue.toInt)) := by
  have hempty : a.Keyed [] := fun key hkey => by cases hkey
  obtain ⟨groups, hfold, hgroups⟩ := foldlM_add_of_typed ha hrows hempty
  have hreduce : a.reduce rows = a.groupRows groups := by
    unfold reduce
    rw [hfold]
    rfl
  rw [hreduce]
  obtain ⟨result, hresult, hall⟩ | ⟨group, -, herror, hn⟩ := groupRows_cases hgroups
  · refine Or.inl ⟨result, hresult, fun row hrow => ?_⟩
    obtain ⟨hschema, hconforms⟩ := hall row hrow
    exact hschema ▸ hconforms
  · exact Or.inr ⟨_, herror, hn⟩

end Aggregation

/-! ## Plans that were made -/

namespace Plan

/-- The tables that a plan scans. -/
def tables : Plan → List TableId
  | .rows _ _ => []
  | .scan table _ => [table]
  | .filter _ child | .aggregate _ child | .insert _ _ child | .delete _ child => child.tables
  | .join _ outer inner => outer.tables ++ inner.tables

/-- A plan that only reads, built by the makers from rows of the right types and known tables. -/
inductive Made (catalog : Catalog) : Plan → Prop
  | rows {schema : Schema} {given : List Row} (hrows : ∀ row ∈ given, row.Typed schema) :
    Made catalog (.rows schema given)
  | scan {table : TableId} {plan : Plan} (hmake : mkScan catalog table = .ok plan) :
    Made catalog plan
  | filter {condition : Condition} {child plan : Plan} (hchild : Made catalog child)
    (hmake : mkFilter condition child = .ok plan) : Made catalog plan
  | join {condition : JoinCondition} {outer inner plan : Plan} (houter : Made catalog outer)
    (hinner : Made catalog inner) (hmake : mkJoin condition outer inner = .ok plan) :
    Made catalog plan
  | aggregate {child plan : Plan} {column : Nat} {group : Option Nat}
    {function : AggregateFunction} (hchild : Made catalog child)
    (hmake : mkAggregate child column group function = .ok plan) : Made catalog plan

variable {catalog : Catalog} {tables : TableId → List Row} {plan : Plan}

/-! ### What the makers make -/

theorem mkScan_eq_ok {table : TableId} (hmake : mkScan catalog table = .ok plan) :
    ∃ schema, catalog.schema table = .ok schema ∧ plan = .scan table schema := by
  unfold mkScan at hmake
  rcases hschema : catalog.schema table with e | schema
  · rw [hschema] at hmake
    cases hmake
  · rw [hschema] at hmake
    cases hmake
    exact ⟨schema, rfl, rfl⟩

/-- A known table can be scanned. -/
theorem mkScan_of_schema {table : TableId} {schema : Schema} (h : catalog.schema table = .ok schema) :
    mkScan catalog table = .ok (.scan table schema) := by
  unfold mkScan
  rw [h]
  rfl

theorem mkFilter_eq_ok {condition : Condition} {child : Plan}
    (hmake : mkFilter condition child = .ok plan) : plan = .filter condition child := by
  unfold mkFilter at hmake
  rcases hvalid : condition.validate child.schema with e | _
  · rw [hvalid] at hmake
    cases hmake
  · rw [hvalid] at hmake
    cases hmake
    rfl

theorem mkJoin_eq_ok {condition : JoinCondition} {outer inner : Plan}
    (hmake : mkJoin condition outer inner = .ok plan) : plan = .join condition outer inner := by
  unfold mkJoin at hmake
  rcases hvalid : condition.validate outer.schema inner.schema with e | _
  · rw [hvalid] at hmake
    cases hmake
  · rw [hvalid] at hmake
    cases hmake
    rfl

theorem mkAggregate_eq_ok {child : Plan} {column : Nat} {group : Option Nat}
    {function : AggregateFunction} (hmake : mkAggregate child column group function = .ok plan) :
    ∃ a, Aggregation.ofColumns child.schema column group function = .ok a ∧
      plan = .aggregate a child := by
  unfold mkAggregate at hmake
  rcases hcolumns : Aggregation.ofColumns child.schema column group function with e | a
  · rw [hcolumns] at hmake
    cases hmake
  · rw [hcolumns] at hmake
    cases hmake
    exact ⟨a, rfl, rfl⟩

theorem mkInsert_eq_ok {tid : TransactionId} {table : TableId} {child : Plan}
    (hmake : mkInsert catalog tid table child = .ok plan) :
    ∃ schema, catalog.schema table = .ok schema ∧ child.schema.types = schema.types ∧
      plan = .insert tid table child := by
  unfold mkInsert at hmake
  rcases hschema : catalog.schema table with e | schema
  · rw [hschema] at hmake
    cases hmake
  · rw [hschema] at hmake
    by_cases htypes : child.schema.sameTypes schema = true
    · simp only [htypes, if_true] at hmake
      cases hmake
      exact ⟨schema, rfl, Schema.sameTypes_iff.mp htypes, rfl⟩
    · simp only [if_neg htypes] at hmake
      cases hmake

/-- Rows of the types of a known table can be inserted into it. -/
theorem mkInsert_of_schema {tid : TransactionId} {table : TableId} {child : Plan} {schema : Schema}
    (h : catalog.schema table = .ok schema) (htypes : child.schema.sameTypes schema = true) :
    mkInsert catalog tid table child = .ok (.insert tid table child) := by
  unfold mkInsert
  rw [h]
  simp only [htypes, if_true]

/-- A plan that was made scans tables that the catalog knows. -/
theorem Made.known (hmade : plan.Made catalog) :
    ∀ id ∈ plan.tables, ∃ schema, catalog.schema id = .ok schema := by
  induction hmade with
  | rows hrows =>
    intro id hid
    cases hid
  | scan hmake =>
    obtain ⟨schema, hschema, rfl⟩ := mkScan_eq_ok hmake
    intro id hid
    obtain rfl := List.mem_singleton.mp hid
    exact ⟨schema, hschema⟩
  | filter _ hmake ih =>
    obtain rfl := mkFilter_eq_ok hmake
    exact ih
  | join _ _ hmake ihouter ihinner =>
    obtain rfl := mkJoin_eq_ok hmake
    intro id hid
    rcases List.mem_append.mp hid with hid | hid
    · exact ihouter id hid
    · exact ihinner id hid
  | aggregate _ hmake ih =>
    obtain ⟨a, -, rfl⟩ := mkAggregate_eq_ok hmake
    exact ih

/-! ### Types and errors -/

/-- The values of two rows, one after the other, have the types of both schemas. -/
theorem typed_append {left right : Schema} {l r : Row} (hl : l.Typed left) (hr : r.Typed right) :
    (Row.append (left.append right) l r).Typed (left.append right) := by
  have htypes : (left.append right).types = left.types ++ right.types := List.map_append
  show (l.values ++ r.values).map Value.type = _
  rw [List.map_append, htypes, ← hl, ← hr]

/-- **Plans that were made are well typed.**  Their rows have the types of their schemas, and the
    only way to have no meaning is a result that is no 32-bit integer. -/
theorem Made.meaning_cases (hmade : plan.Made catalog)
    (htables : ∀ table ∈ plan.tables, ∀ schema, catalog.schema table = .ok schema →
      ∀ row ∈ tables table, row.Typed schema) :
    (∃ rows, plan.meaning tables = .ok rows ∧ ∀ row ∈ rows, row.Typed plan.schema) ∨
      (∃ f n, plan.meaning tables = .error (.mismatch (.aggregateRange f n)) ∧
        ¬ (Int32.minValue.toInt ≤ n ∧ n ≤ Int32.maxValue.toInt)) := by
  induction hmade with
  | rows hrows => exact Or.inl ⟨_, rfl, hrows⟩
  | @scan table plan hmake =>
    obtain ⟨schema, hschema, rfl⟩ := mkScan_eq_ok hmake
    exact Or.inl ⟨tables table, rfl, htables table List.mem_cons_self schema hschema⟩
  | filter _ hmake ih =>
    obtain rfl := mkFilter_eq_ok hmake
    unfold meaning
    obtain ⟨rows, hrows, htyped⟩ | ⟨f, n, herror, hn⟩ := ih htables
    · rw [hrows]
      refine Or.inl ⟨_, rfl, fun row hrow => ?_⟩
      exact htyped row (List.mem_filter.mp hrow).1
    · rw [herror]
      exact Or.inr ⟨f, n, rfl, hn⟩
  | join _ _ hmake ihouter ihinner =>
    obtain rfl := mkJoin_eq_ok hmake
    unfold meaning
    obtain ⟨left, hleft, hltyped⟩ | ⟨f, n, herror, hn⟩ :=
      ihouter fun table htable => htables table (List.mem_append_left _ htable)
    · rw [hleft]
      obtain ⟨right, hright, hrtyped⟩ | ⟨f, n, herror, hn⟩ :=
        ihinner fun table htable => htables table (List.mem_append_right _ htable)
      · rw [hright]
        refine Or.inl ⟨_, rfl, fun row hrow => ?_⟩
        obtain ⟨l, hl, r, hr, -, rfl⟩ := JoinCondition.mem_pairs.mp hrow
        exact typed_append (hltyped l hl) (hrtyped r hr)
      · rw [herror]
        exact Or.inr ⟨f, n, rfl, hn⟩
    · rw [herror]
      exact Or.inr ⟨f, n, rfl, hn⟩
  | aggregate _ hmake ih =>
    obtain ⟨a, hcolumns, rfl⟩ := mkAggregate_eq_ok hmake
    unfold meaning
    obtain ⟨rows, hrows, htyped⟩ | ⟨f, n, herror, hn⟩ := ih htables
    · rw [hrows]
      obtain ⟨result, hreduce, hresult⟩ | ⟨n, herror, hn⟩ :=
        Aggregation.reduce_cases (Aggregation.suits_of_ofColumns hcolumns) htyped
      · exact Or.inl ⟨result, hreduce, hresult⟩
      · exact Or.inr ⟨a.function, n, herror, hn⟩
    · rw [herror]
      exact Or.inr ⟨f, n, rfl, hn⟩

end Plan

end RowStore
