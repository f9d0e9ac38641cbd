import RowStore.Proofs.Archive.Serves
import RowStore.Proofs.Cursor.WellTyped

/-!
Plans in a storage that serves its tables.

Program.  A plan that was made is started and asked for all its rows, while every known table is held and
no page stands in the way.

1. Such a plan gives the rows that it means, and nothing can fail under way (`Serves.gives`,
   `Serves.reads`).
2. Only the result of an aggregation can be too large; then the plan fails when it is started, after all
   rows were read (`Serves.aggregate_fails`).
3. In both cases pages are loaded, and nothing else happens to the storage.
-/

namespace RowStore.Storage

open Source

variable {catalog : Catalog} {view : TableId → PagedTable} {plan : Plan} {rows : List Row} {s s' : Storage}

/-- A plan that was made gives the rows that it means. -/
theorem Serves.gives (hmade : plan.Made catalog)
    (hmeaning : plan.meaning (fun id => (view id).rows) = .ok rows) :
    ∃ has, Gives catalog
      (fun s => (∀ id ∈ plan.tables, ∃ h, catalog.file id = .ok h) ∧ Serves catalog view s)
      (fun _ => False) plan.source rows has := by
  let W : Catalog → Storage → Prop := fun catalog s =>
    (∀ id ∈ plan.tables, ∃ h, catalog.file id = .ok h) ∧ Serves catalog view s
  have hcalm : ∀ {catalog : Catalog} {s s' : Storage}, W catalog s → Quiet catalog s s' → W catalog s' :=
    fun ⟨hknown, hserves⟩ hquiet => ⟨hknown, hserves.quiet hquiet⟩
  have hscans : ∀ id ∈ plan.tables, ∀ schema, ∃ has, ∀ catalog,
      Gives catalog (W catalog) (fun _ => False) (.ofTable id schema) (view id).rows has := by
    intro id hid schema
    refine ⟨Scan.Has (view id).pages, fun catalog => ?_⟩
    refine HeapFile.Holds.gives_ofTable hcalm ?_ ?_ schema
    · rintro s ⟨hknown, hserves⟩
      obtain ⟨h, hfile⟩ := hknown id hid
      exact ⟨hserves.sound, h, hfile, hserves.held id h hfile⟩
    · rintro s victim e ⟨-, hserves⟩ hstuck
      exact hserves.attended.not_stuck victim e hstuck
  obtain ⟨has, hgives⟩ := hmade.gives_of_scans (W := W) hcalm hscans hmeaning
  exact ⟨has, hgives catalog⟩

/-- The tables of a plan that was made are known. -/
theorem known_of_made (hmade : plan.Made catalog) :
    ∀ id ∈ plan.tables, ∃ h, catalog.file id = .ok h := by
  intro id hid
  obtain ⟨schema, hschema⟩ := hmade.known id hid
  obtain ⟨h, hfile, -⟩ := Catalog.file_of_schema hschema
  exact ⟨h, hfile⟩

/-- **Reading.**  A plan that was made is started and gives the rows that it means, to the last one. -/
theorem Serves.reads (hserves : Serves catalog view s) (hmade : plan.Made catalog)
    (hmeaning : plan.meaning (fun id => (view id).rows) = .ok rows) (st : plan.source.State) :
    ∃ st₁ s₁ st₂ s₂, plan.source.start catalog st s = (.ok (), st₁, s₁) ∧
      plan.source.each catalog takeRow st₁ [] s₁ = (.exhausted, st₂, rows.reverse, s₂) ∧
      Quiet catalog s s₂ := by
  obtain ⟨has, hgives⟩ := Serves.gives hmade hmeaning
  have hw := And.intro (known_of_made hmade) hserves
  rcases hstart : plan.source.start catalog st s with ⟨r, st₁, s₁⟩
  obtain ⟨hquiet, hbegun⟩ := hgives.start hw hstart
  cases hbegun with
  | error hno => exact hno.elim
  | ok hst =>
    rcases heach : plan.source.each catalog takeRow st₁ [] s₁ with ⟨ending, st₂, taken, s₂⟩
    have hcalm : ∀ {s' s'' : Storage},
        (∀ id ∈ plan.tables, ∃ h, catalog.file id = .ok h) ∧ Serves catalog view s' ∧ Quiet catalog s s' →
        Quiet catalog s' s'' →
        (∀ id ∈ plan.tables, ∃ h, catalog.file id = .ok h) ∧ Serves catalog view s'' ∧
          Quiet catalog s s'' :=
      fun ⟨hknown, hserves, hbefore⟩ hquiet => ⟨hknown, hserves.quiet hquiet, hbefore.trans hquiet⟩
    have hended := hgives.each (takeRow_consumes hcalm rows) (fun hinv => ⟨hinv.1.1, hinv.1.2.1⟩) hst
      ⟨⟨hw.1, hserves.quiet hquiet, hquiet⟩, rfl⟩ heach
    cases hended with
    | exhausted _ hdone =>
      obtain ⟨⟨-, -, hquiet'⟩, hrows⟩ := hdone
      rw [List.append_nil] at hrows
      refine ⟨st₁, s₁, st₂, s₂, rfl, ?_, hquiet'⟩
      rw [heach, hrows, List.reverse_reverse]
    | stopped _ hno => exact hno.elim
    | failed hno _ => exact hno.elim

/-- **A result that is too large.**  If the rows of its child cannot be reduced, an aggregation fails when
    it is started. -/
theorem Serves.aggregate_fails (hserves : Serves catalog view s) (hmade : plan.Made catalog)
    (hmeaning : plan.meaning (fun id => (view id).rows) = .ok rows) {a : Aggregation}
    (hsuits : a.Suits plan.schema) (htyped : ∀ row ∈ rows, row.Typed plan.schema) {e : Error}
    (hreduce : a.reduce rows = .error e) (st : (Plan.aggregate a plan).source.State) :
    ∃ st' s', (Plan.aggregate a plan).source.start catalog st s = (.error e, st', s') ∧
      Quiet catalog s s' := by
  obtain ⟨has, hgives⟩ := Serves.gives hmade hmeaning
  have hw := And.intro (known_of_made hmade) hserves
  -- every row can be added to the groups, so it is a result that cannot be given
  have hnone : a.Keyed [] := nofun
  obtain ⟨groups, hfold, -⟩ := Aggregation.foldlM_add_of_typed hsuits htyped hnone
  have hgroups : a.groupRows groups = .error e := by
    unfold Aggregation.reduce at hreduce
    rw [hfold] at hreduce
    exact hreduce
  rcases hdrain : plan.source.guard.drain catalog (fun row groups s => (a.add row groups, s))
    st.child [] s with ⟨r, c, s'⟩
  obtain ⟨hquiet, rfl | ⟨_, -, hno⟩⟩ := fold_ends hgives.guard hfold hw hdrain
  · refine ⟨{ st with child := c }, s', ?_, hquiet⟩
    show (Source.aggregate a plan.source.guard).start catalog st s = _
    simp only [Source.aggregate, hdrain, hgroups]
    rfl
  · exact hno.elim

end RowStore.Storage
