import RowStore.Proofs.Cursor.Derived
import RowStore.Proofs.Plan.Typed

/-!
Plans that only select rows, and filters above a scan.

1. A plan that is built from rows, scans, filters and joins always has a meaning
   (`Plan.meaning_of_isSelection`).
2. If such a plan scans a table, either there are only filters above that scan, or the plan has more
   columns than the table (`Plan.Made.sieves_or_wider`).
3. Filters above a scan run as the scan runs with a consumer who passes over the rows that the filters
   hold back, whatever becomes of the pages under way (`Plan.Sieves.runs`).
-/

namespace RowStore.Plan

open Storage Source

variable {catalog : Catalog} {table : TableId} {plan : Plan} {p : Row → Bool}

/-- Built from rows, scans, filters and joins. -/
def isSelection : Plan → Bool
  | .rows _ _ | .scan _ _ => true
  | .filter _ child => child.isSelection
  | .join _ outer inner => outer.isSelection && inner.isSelection
  | .aggregate _ _ | .insert _ _ _ | .delete _ _ => false

theorem meaning_of_isSelection (hplan : plan.isSelection = true) (tables : TableId → List Row) :
    ∃ rows, plan.meaning tables = .ok rows := by
  induction plan with
  | rows schema given => exact ⟨given, rfl⟩
  | scan table schema => exact ⟨tables table, rfl⟩
  | filter condition child ih =>
    obtain ⟨rows, hrows⟩ := ih hplan
    exact ⟨rows.filter condition.holds, by rw [meaning, hrows]; rfl⟩
  | join condition outer inner ihouter ihinner =>
    obtain ⟨houter, hinner⟩ := Bool.and_eq_true_iff.mp hplan
    obtain ⟨left, hleft⟩ := ihouter houter
    obtain ⟨right, hright⟩ := ihinner hinner
    exact ⟨_, by rw [meaning, hleft, hright]; rfl⟩
  | aggregate | insert | delete => cases hplan

/-! ## Filters above a scan -/

/-- Filters above a scan of a table, and what they let through. -/
inductive Sieves (table : TableId) : Plan → (Row → Bool) → Prop
  | scan {schema : Schema} : Sieves table (.scan table schema) fun _ => true
  | filter {condition : Condition} {child : Plan} {p : Row → Bool} (hchild : Sieves table child p) :
    Sieves table (.filter condition child) fun row => condition.holds row && p row

theorem Sieves.meaning_eq (hplan : Sieves table plan p) (tables : TableId → List Row) :
    plan.meaning tables = .ok ((tables table).filter p) := by
  induction hplan with
  | scan =>
    rw [List.filter_eq_self.mpr fun _ _ => rfl]
    rfl
  | filter _ ih =>
    rw [meaning, ih, ← List.filter_filter]
    rfl

/-- **Running through filters.**  They run as the scan below them, whose consumer passes over the rows
    that they hold back. -/
theorem Sieves.runs (hplan : Sieves table plan p) {α : Type} {consume : Consumer α} {a a' : α}
    {s s' : Storage} {ending : Ending}
    (hruns : plan.source.Runs catalog consume a s ending a' s') :
    ∃ file scan, catalog.file table = .ok file ∧
      Scan.eachPage table catalog (fun row a s => if p row then consume row a s else (.yield a, s))
        (file.numPages s.files) ⟨file.numPages s.files, 0, []⟩ a s = (ending, scan, a', s') := by
  induction hplan generalizing consume with
  | scan =>
    obtain ⟨st, st₁, s₁, st₂, hstart, heach⟩ := hruns
    replace hstart : Scan.start table catalog st s = (.ok (), st₁, s₁) := hstart
    obtain ⟨rfl, ⟨e, -, he, -⟩ | ⟨file, hfile, -, rfl⟩⟩ := Scan.start_cases hstart
    · cases he
    · exact ⟨file, st₂, hfile, heach⟩
  | @filter condition child p _ ih =>
    obtain ⟨st, st₁, s₁, st₂, hstart, heach⟩ := hruns
    have hchild : child.source.guard.Runs catalog
        (fun row a s => if condition.holds row then consume row a s else (.yield a, s)) a s ending
        a' s' := ⟨st, st₁, s₁, st₂, hstart, heach⟩
    obtain ⟨file, scan, hfile, hscan⟩ := ih hchild.of_guard
    refine ⟨file, scan, hfile, ?_⟩
    rw [← hscan]
    congr 1
    funext row a s
    show (if (condition.holds row && p row) = true then consume row a s else (.yield a, s)) = _
    cases condition.holds row <;> cases p row <;> rfl

/-- **Scans of the table below the plan.**  Either there are only filters above it, or the plan has
    more columns than the table. -/
theorem Made.sieves_or_wider (hmade : plan.Made catalog) (hplan : plan.isSelection = true)
    (htable : table ∈ plan.tables) {schema : Schema} (hschema : catalog.schema table = .ok schema) :
    ((∃ p, Sieves table plan p) ∧ plan.schema = schema) ∨
      schema.types.length < plan.schema.types.length := by
  induction hmade with
  | rows hrows => cases htable
  | scan hmake =>
    obtain ⟨own, hown, rfl⟩ := mkScan_eq_ok hmake
    obtain rfl := List.mem_singleton.mp htable
    rw [hschema] at hown
    cases hown
    exact Or.inl ⟨⟨_, .scan⟩, rfl⟩
  | filter _ hmake ih =>
    obtain rfl := mkFilter_eq_ok hmake
    obtain ⟨⟨p, hsieves⟩, hsame⟩ | hwider := ih hplan htable
    · exact Or.inl ⟨⟨_, .filter hsieves⟩, hsame⟩
    · exact Or.inr hwider
  | @join condition outer inner plan _ _ hmake ihouter ihinner =>
    obtain rfl := mkJoin_eq_ok hmake
    obtain ⟨houter, hinner⟩ := Bool.and_eq_true_iff.mp hplan
    -- the columns of the other side come on top
    have hsum : (outer.schema.append inner.schema).types.length =
        outer.schema.types.length + inner.schema.types.length := by
      simp [Schema.append, Schema.types]
    have hsome : ∀ s : Schema, 0 < s.types.length := by
      intro s
      rw [Schema.types, List.length_map]
      exact List.length_pos_iff.mpr s.ne_nil
    have houterPos := hsome outer.schema
    have hinnerPos := hsome inner.schema
    right
    show schema.types.length < (outer.schema.append inner.schema).types.length
    rw [hsum]
    rcases List.mem_append.mp htable with htable | htable
    · obtain ⟨-, rfl⟩ | hwider := ihouter houter htable
      · omega
      · omega
    · obtain ⟨-, rfl⟩ | hwider := ihinner hinner htable
      · omega
      · omega
  | aggregate _ hmake =>
    obtain ⟨a, -, rfl⟩ := mkAggregate_eq_ok hmake
    cases hplan

end RowStore.Plan
