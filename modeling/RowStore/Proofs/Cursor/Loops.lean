import RowStore.Proofs.Cursor.Machine

/-!
Plans come to an end.

Program.  The loops of a plan have no counter.  Meanwhile an insertion may lengthen the table that its own
child scans, and every rewind of a scan reads the length of the table anew.

1. A machine `Follows` a source if each of its calls ends, with what the source gives.  All machines of
   plans do (`Plan.machine_follows`), by induction on the plan.
2. So a plan that is opened and asked for its rows comes to an end, in any state of the storage
   (`Cursor.comes_to_an_end`).

Crux.  No measure is needed that grows and shrinks with the tables.  A scan ends since the number of its
pages is fixed when it starts.  Every other loop takes rows from a node below, and a source that is stepwise
gives them in a loop that ends (`Source.Pulled`), whatever is done to the storage between two rows: the
induction on that loop is the one that counts the rounds.
-/

namespace RowStore

open Storage Source

/-! ## The loops end -/

namespace Machine

variable {α : Type} {catalog : Catalog} {src : Source} {s s' : Storage}

/-- Every call comes to an end, with what the source gives. -/
structure Follows (catalog : Catalog) (src : Source) (m : Machine src.State) : Prop where
  start (st : src.State) (s : Storage) : (m.start st s).EndsWith (src.start catalog st s)
  fetch (st : src.State) (s : Storage) : (m.fetch st s).EndsWith (src.fetch catalog st s)
  rewind (st : src.State) (s : Storage) : (m.rewind st s).EndsWith (src.rewind catalog st s)

namespace Follows

variable {m : Machine src.State} (h : m.Follows catalog src) (g : Guarded src.State) (s : Storage)
include h

theorem opening : (m.opening g s).EndsWith (src.guard.start catalog g s) := by
  show (m.opening g s).EndsWith (Guarded.start catalog g s)
  refine Run.bind_ends (h.start g.inner s) ?_
  unfold Guarded.start
  rcases src.start catalog g.inner s with ⟨r, inner, s₁⟩
  cases r with
  | error e => exact Run.step_ends _
  | ok => exact Run.step_ends _

theorem hasNext : (m.hasNext g s).EndsWith (Guarded.hasNext catalog g s) := by
  unfold Machine.hasNext Guarded.hasNext
  by_cases hopen : (!g.isOpen) = true
  · rw [if_pos hopen, if_pos hopen]
    exact Run.step_ends _
  · rw [if_neg hopen, if_neg hopen]
    cases g.ahead with
    | some row => exact Run.step_ends _
    | none =>
      refine Run.bind_ends (h.fetch g.inner s) ?_
      rcases src.fetch catalog g.inner s with ⟨r, inner, s₁⟩
      cases r with
      | error e => exact Run.step_ends _
      | ok row => exact Run.step_ends _

theorem next : (m.next g s).EndsWith (Guarded.next catalog g s) := by
  refine Run.bind_ends (h.hasNext g s) ?_
  unfold Guarded.next
  rcases Guarded.hasNext catalog g s with ⟨r, ⟨isOpen, ahead, inner⟩, s₁⟩
  cases r with
  | error e => exact Run.step_ends _
  | ok more =>
    cases ahead with
    | none => exact Run.step_ends _
    | some row => exact Run.step_ends _

theorem rewinding : (m.rewinding g s).EndsWith (src.guard.rewind catalog g s) := by
  show (m.rewinding g s).EndsWith (Guarded.rewind catalog g s)
  unfold Machine.rewinding Guarded.rewind
  by_cases hopen : (!g.isOpen) = true
  · rw [if_pos hopen, if_pos hopen]
    exact Run.step_ends _
  · rw [if_neg hopen, if_neg hopen]
    refine Run.bind_ends (h.rewind g.inner s) ?_
    rcases src.rewind catalog g.inner s with ⟨r, inner, s₁⟩
    cases r with
    | error e => exact Run.step_ends _
    | ok => exact Run.step_ends _

/-- To ask for a row and take it is to fetch one under the rules. -/
theorem take : (m.take g s).EndsWith (src.guard.fetch catalog g s) := by
  rcases hfetch : src.guard.fetch catalog g s with ⟨r, g', s'⟩
  have hcalls := Guarded.calls_of_fetch hfetch
  cases r with
  | error e =>
    refine Run.bind_ends (h.hasNext g s) ?_
    rw [hcalls]
    exact Run.done_ends _
  | ok found =>
    cases found with
    | none =>
      refine Run.bind_ends (h.hasNext g s) ?_
      rw [hcalls]
      exact Run.done_ends _
    | some row =>
      obtain ⟨g₁, hmore, hnext⟩ := hcalls
      refine Run.bind_ends (h.hasNext g s) ?_
      rw [hmore]
      refine Run.bind_ends (h.next g₁ s') ?_
      rw [hnext]
      exact Run.done_ends _

end Follows

/-! ### Taking rows from a child -/

section Loops

variable {m : Machine src.State}

/-- How a search ends, and the row that is found. -/
def endingOf : Except Error (Option Row) → Ending × Option Row
  | .error e => (.failed e, none)
  | .ok none => (.exhausted, none)
  | .ok (some row) => (.stopped, some row)

/-- A search comes to an end: it goes through the rows until one is wanted. -/
theorem search_ends (h : m.Follows catalog src) {wanted : Row → Bool} {make : Row → Row}
    {g : src.guard.State} {found : Option Row} (hfound : found = none)
    {result : Ending × src.guard.State × Option Row × Storage}
    (hpulled : Pulled src.guard catalog
      (fun row found s => if wanted row then (.done (some (make row)), s) else (.yield found, s))
      g found s result) :
    ∃ r g' s', (m.search wanted make g s).EndsWith (r, g', s') ∧
      result = ((endingOf r).1, g', (endingOf r).2, s') := by
  -- the induction is on the rows of the child
  induction hpulled with
  | @failed g g' a s s' e hfetch =>
    subst hfound
    refine ⟨.error e, g', s', Run.loop_of_leave (Run.bind_ends (h.take g s) ?_), rfl⟩
    rw [hfetch]
    exact Run.done_ends _
  | @exhausted g g' a s s' hfetch =>
    subst hfound
    refine ⟨.ok none, g', s', Run.loop_of_leave (Run.bind_ends (h.take g s) ?_), rfl⟩
    rw [hfetch]
    exact Run.done_ends _
  | @stopped g g' a a' s s₁ s' row hfetch hstep =>
    have hwanted : wanted row = true := by
      by_contra hno
      rw [if_neg hno] at hstep
      cases hstep
    rw [if_pos hwanted] at hstep
    cases hstep
    refine ⟨.ok (some (make row)), g', s₁, Run.loop_of_leave (Run.bind_ends (h.take g s) ?_), rfl⟩
    rw [hfetch]
    simp only [if_pos hwanted]
    exact Run.done_ends _
  | @again g g₁ a a₁ s s₁ s₂ row result hfetch hstep _ ih =>
    have hunwanted : ¬ wanted row = true := by
      intro hwanted
      rw [if_pos hwanted] at hstep
      cases hstep
    rw [if_neg hunwanted] at hstep
    cases hstep
    obtain ⟨r, g', s', hrest, hresult⟩ := ih hfound
    refine ⟨r, g', s', Run.loop_of_again (Run.bind_ends (h.take g s) ?_) hrest, hresult⟩
    rw [hfetch]
    simp only [if_neg hunwanted]
    exact Run.done_ends _

/-- What a loop that feeds an operation gives: the error of the source, or what was fed. -/
def fedOutcome {σ : Type} : Ending × σ × Except Error α × Storage → Called α σ
  | (ending, st, fed, s) =>
    match ending with
    | .failed e => (.error e, st, s)
    | .exhausted | .stopped => (fed, st, s)

/-- A loop that gives its rows to an operation comes to an end. -/
theorem feed_ends (h : m.Follows catalog src)
    {operation : Row → α → Storage → Except Error α × Storage} {g : src.guard.State}
    {fed : Except Error α} {a : α} (hfed : fed = .ok a)
    {result : Ending × src.guard.State × Except Error α × Storage}
    (hpulled : Pulled src.guard catalog (Source.feed operation) g fed s result) :
    (m.feed operation g a s).EndsWith (fedOutcome result) := by
  -- the induction is on the rows of the child
  induction hpulled generalizing a with
  | @failed g g' fed s s' e hfetch =>
    refine Run.loop_of_leave (Run.bind_ends (h.take g s) ?_)
    rw [hfetch]
    exact Run.done_ends _
  | @exhausted g g' fed s s' hfetch =>
    subst hfed
    refine Run.loop_of_leave (Run.bind_ends (h.take g s) ?_)
    rw [hfetch]
    exact Run.done_ends _
  | @stopped g g' fed fed' s s₁ s' row hfetch hstep =>
    subst hfed
    refine Run.loop_of_leave (Run.bind_ends (h.take g s) ?_)
    rw [hfetch]
    refine Run.bind_ends (Run.step_ends _) ?_
    simp only [Source.feed] at hstep
    rcases hrow : operation row a s₁ with ⟨r, s₂⟩
    rw [hrow] at hstep
    cases r with
    | ok b => cases hstep
    | error e =>
      cases hstep
      exact Run.done_ends _
  | @again g g₁ fed fed₁ s s₁ s₂ row result hfetch hstep _ ih =>
    subst hfed
    simp only [Source.feed] at hstep
    rcases hrow : operation row a s₁ with ⟨r, s₃⟩
    rw [hrow] at hstep
    cases r with
    | error e => cases hstep
    | ok b =>
      cases hstep
      refine Run.loop_of_again (Run.bind_ends (h.take g s) ?_) (ih rfl)
      rw [hfetch]
      refine Run.bind_ends (Run.step_ends _) ?_
      rw [hrow]
      exact Run.done_ends _

theorem drain_ends (h : m.Follows catalog src) (hsrc : src.Stepwise)
    (operation : Row → α → Storage → Except Error α × Storage) (g : src.guard.State) (a : α)
    (s : Storage) :
    (m.drain operation g a s).EndsWith (src.guard.drain catalog operation g a s) := by
  refine Run.bind_ends (h.opening g s) ?_
  unfold Source.drain
  rcases src.guard.start catalog g s with ⟨r, g₁, s₁⟩
  cases r with
  | error e => exact Run.done_ends _
  | ok =>
    exact feed_ends h rfl (stepwise_guard hsrc _ catalog (Source.feed operation) g₁ (Except.ok a) s₁)

end Loops

/-! ### Leaves -/

theorem follows_ofRows (catalog : Catalog) (schema : Schema) (rows : List Row) :
    (ofRows rows).Follows catalog (Source.ofRows schema rows) where
  start _ _ := Run.step_ends _
  rewind _ _ := Run.step_ends _
  fetch := by
    intro (pos : Nat) s
    simp only [Source.fetch, Source.ofRows, eachOf_eq, ofRows]
    rcases rows[pos]? with _ | row
    · exact Run.step_ends _
    · exact Run.step_ends _

/-- A scan comes to an end: the number of its pages does not change while it runs. -/
theorem follows_ofTable (catalog : Catalog) (table : TableId) (schema : Schema) :
    (ofTable catalog table).Follows catalog (Source.ofTable table schema) where
  start _ _ := Run.step_ends _
  rewind _ _ := Run.step_ends _
  fetch scan s := by
    obtain ⟨count, next, buffer⟩ := scan
    -- the induction is on the number of pages to come
    induction hpages : count - next generalizing next buffer s with
    | zero =>
      cases buffer with
      | cons row rows =>
        rw [Scan.next_of_cons.fetch_eq]
        exact Run.loop_of_leave (Run.done_ends _)
      | nil =>
        have hle : count ≤ next := by omega
        rw [(Scan.next_of_last hle).fetch_eq]
        refine Run.loop_of_leave ?_
        simp only [if_pos hle]
        exact Run.done_ends _
    | succ pages ih =>
      cases buffer with
      | cons row rows =>
        rw [Scan.next_of_cons.fetch_eq]
        exact Run.loop_of_leave (Run.done_ends _)
      | nil =>
        have hlt : next < count := by omega
        have hmore : ¬ count ≤ next := by omega
        unfold Source.fetch
        rw [Scan.each_of_nil hlt]
        rcases hget : s.getPage catalog ⟨table, next⟩ with ⟨r, s₁⟩
        cases r with
        | error e =>
          refine Run.loop_of_leave ?_
          simp only [if_neg hmore]
          refine Run.bind_ends (Run.step_ends _) ?_
          rw [hget]
          exact Run.done_ends _
        | ok frame =>
          refine Run.loop_of_again ?_ (ih s₁ (next + 1) frame.page.rows (by omega))
          simp only [if_neg hmore]
          refine Run.bind_ends (Run.step_ends _) ?_
          rw [hget]
          exact Run.done_ends _

/-! ### Filter -/

/-- The consumer who takes one row. -/
def takeOne : Consumer (Option Row) := fun row _ s => (.done (some row), s)

/-- To fetch a row is to give the rows to the consumer who takes one. -/
theorem fetch_of_each {st st' : src.State} {r : Except Error (Option Row)}
    (h : src.each catalog takeOne st none s = ((endingOf r).1, st', (endingOf r).2, s')) :
    src.fetch catalog st s = (r, st', s') := by
  unfold takeOne at h
  unfold Source.fetch
  rw [h]
  cases r with
  | error e => rfl
  | ok row => cases row <;> rfl

/-- If a source gives its rows as from another state on, it fetches the same row. -/
theorem fetch_of_skips {st st' : src.State}
    (h : src.each catalog takeOne st none s = src.each catalog takeOne st' none s') :
    src.fetch catalog st s = src.fetch catalog st' s' := by
  unfold takeOne at h
  unfold Source.fetch
  rw [h]

theorem follows_filter (condition : Condition) {m : Machine src.State} (h : m.Follows catalog src)
    (hsrc : src.Stepwise) : (filter condition m).Follows catalog (Source.filter condition src.guard) where
  start := h.opening
  rewind := h.rewinding
  fetch g s := by
    obtain ⟨r, g', s', hends, heach⟩ := search_ends h rfl
      (stepwise_guard hsrc _ catalog
        (fun row found s => if condition.holds row then (.done (some (id row)), s) else (.yield found, s))
        g none s)
    have hfilter : (Source.filter condition src.guard).each catalog takeOne g none s = _ := heach
    exact hends.of_eq (fetch_of_each hfilter)

/-! ### Join -/

section Join

variable {outer inner : Source} {mo : Machine outer.State} {mi : Machine inner.State}
  {condition : JoinCondition} {schema : Schema}

theorem both_ends {onOuter : Guarded outer.State → Storage → Run (Called Unit (Guarded outer.State))}
    {onInner : Guarded inner.State → Storage → Run (Called Unit (Guarded inner.State))}
    {outerCall : Catalog → outer.guard.State → Storage → Except Error Unit × outer.guard.State × Storage}
    {innerCall : Catalog → inner.guard.State → Storage → Except Error Unit × inner.guard.State × Storage}
    (ho : ∀ g s, (onOuter g s).EndsWith (outerCall catalog g s))
    (hi : ∀ g s, (onInner g s).EndsWith (innerCall catalog g s))
    (st : Joining outer.guard.State inner.guard.State) (s : Storage) :
    (both onOuter onInner st s).EndsWith
      (joinBoth outer.guard inner.guard catalog outerCall innerCall st s) := by
  refine Run.bind_ends (ho st.outer s) ?_
  unfold joinBoth
  generalize outerCall catalog st.outer s = called
  obtain ⟨r, o, s₁⟩ := called
  cases r with
  | error e => exact Run.done_ends _
  | ok =>
    refine Run.bind_ends (hi st.inner s₁) ?_
    simp only
    generalize innerCall catalog st.inner s₁ = called
    obtain ⟨r, i, s₂⟩ := called
    cases r with
    | error e => exact Run.done_ends _
    | ok => exact Run.done_ends _

/-- A run through the inner child comes to an end: at the next pair, or with the child rewound. -/
theorem partner_ends (h : mi.Follows catalog inner) (hinner : inner.Stepwise) (row : Row)
    (i : inner.guard.State) (s : Storage) :
    ∃ r i' s', (partner condition schema mi row i s).EndsWith (r, i', s') ∧
      joinRow condition schema inner.guard catalog takeOne row i none s =
        match r with
        | .error e => (some (.failed e), i', none, s')
        | .ok none => (none, i', none, s')
        | .ok (some found) => (some .stopped, i', some found, s') := by
  obtain ⟨r, i₁, s₁, hends, heach⟩ := search_ends h rfl
    (stepwise_guard hinner _ catalog
      (fun right found s => if condition.holds row right then
        (.done (some (Row.append schema row right)), s) else (.yield found, s)) i none s)
  unfold joinRow takeOne
  rw [heach]
  cases r with
  | error e => exact ⟨.error e, i₁, s₁, Run.bind_ends hends (Run.done_ends _), rfl⟩
  | ok right =>
    cases right with
    | some right => exact ⟨.ok (some right), i₁, s₁, Run.bind_ends hends (Run.done_ends _), rfl⟩
    | none =>
      have hrewinds := h.rewinding i₁ s₁
      simp only [endingOf]
      generalize inner.guard.rewind catalog i₁ s₁ = rewound at hrewinds
      obtain ⟨r, i₂, s₂⟩ := rewound
      cases r with
      | error e =>
        exact ⟨.error e, i₂, s₂, Run.bind_ends hends (Run.bind_ends hrewinds (Run.done_ends _)), rfl⟩
      | ok =>
        exact ⟨.ok none, i₂, s₂, Run.bind_ends hends (Run.bind_ends hrewinds (Run.done_ends _)), rfl⟩

/-- A round with an outer row comes to an end: with what the join gives, or with the inner child rewound. -/
theorem pair_ends (h : mi.Follows catalog inner) (hinner : inner.Stepwise) (row : Row)
    (o : outer.guard.State) (i : inner.guard.State) (s : Storage) :
    let schema := outer.guard.schema.append inner.guard.schema
    let src := Source.join condition outer.guard inner.guard
    (∃ found, (pair condition schema mi row o i s).EndsWith (.leave found) ∧
      src.fetch catalog ⟨o, i, some row⟩ s = found) ∨
    ∃ i' s', (pair condition schema mi row o i s).EndsWith (.again (⟨o, i', none⟩, s')) ∧
      joinRow condition schema inner.guard catalog takeOne row i none s = (none, i', none, s') ∧
      src.fetch catalog ⟨o, i, some row⟩ s = src.fetch catalog ⟨o, i', none⟩ s' := by
  intro schema src
  have heach : src.each catalog takeOne ⟨o, i, some row⟩ none s = _ := each_join_of_some
  obtain ⟨r, i', s', hends, hrow⟩ := partner_ends h hinner row i s
  rw [hrow] at heach
  cases r with
  | error e => exact .inl ⟨_, Run.bind_ends hends (Run.done_ends _), fetch_of_each heach⟩
  | ok found =>
    cases found with
    | some found => exact .inl ⟨_, Run.bind_ends hends (Run.done_ends _), fetch_of_each heach⟩
    | none => exact .inr ⟨i', s', Run.bind_ends hends (Run.done_ends _), hrow, fetch_of_skips heach⟩

/-- With no row kept, a join fetches the next outer row. -/
theorem fetch_join_of_none (houter : outer.Stepwise) {o : outer.State} {i : inner.State} {s : Storage} :
    (Source.join condition outer inner).fetch catalog ⟨o, i, none⟩ s =
      match outer.fetch catalog o s with
      | (.error e, o, s) => (.error e, ⟨o, i, none⟩, s)
      | (.ok none, o, s) => (.ok none, ⟨o, i, none⟩, s)
      | (.ok (some row), o, s) => (Source.join condition outer inner).fetch catalog ⟨o, i, some row⟩ s := by
  have heach : (Source.join condition outer inner).each catalog takeOne ⟨o, i, none⟩ none s = _ :=
    each_join_of_none houter
  rcases hfetch : outer.fetch catalog o s with ⟨r, o₁, s₁⟩
  rw [hfetch] at heach
  cases r with
  | error e =>
    have hfound : (Source.join condition outer inner).fetch catalog ⟨o, i, none⟩ s =
        (.error e, ⟨o₁, i, none⟩, s₁) := fetch_of_each heach
    exact hfound
  | ok found =>
    cases found with
    | none =>
      have hfound : (Source.join condition outer inner).fetch catalog ⟨o, i, none⟩ s =
          (.ok none, ⟨o₁, i, none⟩, s₁) := fetch_of_each heach
      exact hfound
    | some row => exact fetch_of_skips heach

/-- With no row kept, a join goes through the outer rows that are left. -/
theorem join_ends_of_none (ho : mo.Follows catalog outer) (hi : mi.Follows catalog inner)
    (houter : outer.Stepwise) (hinner : inner.Stepwise) {o : outer.guard.State}
    {carried : Carried inner.guard.State (Option Row)} (hvalue : carried.value = none)
    {result : Ending × outer.guard.State × Carried inner.guard.State (Option Row) × Storage}
    (hpulled : Pulled outer.guard catalog (carryRow condition
      (outer.guard.schema.append inner.guard.schema) inner.guard catalog takeOne) o carried s result) :
    ((join condition (outer.guard.schema.append inner.guard.schema) mo mi).fetch
      ⟨o, carried.inner, none⟩ s).EndsWith
      ((Source.join condition outer.guard inner.guard).fetch catalog ⟨o, carried.inner, none⟩ s) := by
  have hnone := @fetch_join_of_none catalog outer.guard inner.guard condition (stepwise_guard houter)
  -- the induction is on the rows of the outer child
  induction hpulled with
  | @failed o o₁ c s s₁ e hfetch | @exhausted o o₁ c s s₁ hfetch =>
    have hfound := @hnone o c.inner s
    rw [hfetch] at hfound
    refine Run.EndsWith.of_eq (Run.loop_of_leave ?_) hfound
    exact Run.bind_ends ((ho.take o s).of_eq hfetch.symm) (Run.done_ends _)
  | @stopped o o₁ c c₁ s s₁ s₂ row hfetch hstep =>
    have hfound := @hnone o c.inner s
    rw [hfetch] at hfound
    obtain ⟨found, hends, hpair⟩ | ⟨i', s', -, hrow, -⟩ := pair_ends hi hinner row o₁ c.inner s₁
    · refine Run.EndsWith.of_eq (Run.loop_of_leave ?_) (hfound.trans hpair)
      exact Run.bind_ends ((ho.take o s).of_eq hfetch.symm) hends
    · simp only [carryRow, hvalue, hrow] at hstep
      cases hstep
  | @again o o₁ c c₁ s s₁ s₂ row result hfetch hstep _ ih =>
    have hfound := @hnone o c.inner s
    rw [hfetch] at hfound
    have htake := (ho.take o s).of_eq hfetch.symm
    obtain ⟨found, hends, hpair⟩ | ⟨i', s', hends, hrow, hpair⟩ := pair_ends hi hinner row o₁ c.inner s₁
    · exact (Run.loop_of_leave (Run.bind_ends htake hends)).of_eq (hfound.trans hpair)
    · simp only [carryRow, hvalue, hrow] at hstep
      cases hstep
      exact (Run.loop_of_again (Run.bind_ends htake hends) (ih rfl)).of_eq (hfound.trans hpair)

theorem follows_join (ho : mo.Follows catalog outer) (hi : mi.Follows catalog inner)
    (houter : outer.Stepwise) (hinner : inner.Stepwise) :
    (join condition (outer.guard.schema.append inner.guard.schema) mo mi).Follows catalog
      (Source.join condition outer.guard inner.guard) where
  start := both_ends ho.opening hi.opening
  rewind := both_ends ho.rewinding hi.rewinding
  fetch := by
    let src := Source.join condition outer.guard inner.guard
    have hnone : ∀ (o : outer.guard.State) (i : inner.guard.State) (s : Storage),
        ((join condition src.schema mo mi).fetch ⟨o, i, none⟩ s).EndsWith
          (src.fetch catalog ⟨o, i, none⟩ s) := by
      intro o i s
      let carried : Carried inner.guard.State (Option Row) := ⟨i, none, none⟩
      have hcarried : carried.value = none := rfl
      exact join_ends_of_none ho hi houter hinner hcarried (stepwise_guard houter _ catalog _ o carried s)
    rintro ⟨o, i, pending⟩ s
    cases pending with
    | none => exact hnone o i s
    | some row =>
      obtain ⟨found, hends, hpair⟩ | ⟨i', s', hends, -, hpair⟩ := pair_ends hi hinner row o i s
      · exact (Run.loop_of_leave hends).of_eq hpair
      · exact (Run.loop_of_again hends (hnone o i' s')).of_eq hpair

end Join

/-! ### Plans that read all rows first -/

theorem follows_aggregate (aggregation : Aggregation) {m : Machine src.State} (h : m.Follows catalog src)
    (hsrc : src.Stepwise) :
    (aggregate aggregation m).Follows catalog (Source.aggregate aggregation src.guard) where
  start st s := by
    refine Run.bind_ends (drain_ends h hsrc _ st.child [] s) ?_
    unfold Source.aggregate
    simp only
    generalize src.guard.drain catalog _ st.child [] s = drained
    obtain ⟨r, c, s₁⟩ := drained
    cases r with
    | error e => exact Run.done_ends _
    | ok groups =>
      simp only
      cases aggregation.groupRows groups with
      | error e => exact Run.done_ends _
      | ok rows => exact Run.done_ends _
  rewind _ _ := Run.step_ends _
  fetch := by
    rintro ⟨c, results⟩ s
    cases results with
    | none => exact Run.step_ends _
    | some found =>
      obtain ⟨rows, pos⟩ := found
      simp only [Source.fetch, Source.aggregate, eachOf_eq, aggregate, ofRows]
      cases rows[pos]? with
      | none => exact Run.bind_ends (Run.step_ends _) (Run.done_ends _)
      | some row => exact Run.bind_ends (Run.step_ends _) (Run.done_ends _)

theorem follows_write (operation : Catalog → Row → Storage → Except Error Unit × Storage)
    {m : Machine src.State} (h : m.Follows catalog src) (hsrc : src.Stepwise) :
    (write (operation catalog) m).Follows catalog (Source.write operation src.guard) where
  start st s := by
    rcases hstart : (Source.write operation src.guard).start catalog st s with ⟨r, st', s'⟩
    obtain ⟨result, c, hdrain, hends⟩ := start_write_cases hstart
    refine Run.bind_ends ((drain_ends h hsrc _ st.child 0 s).of_eq hdrain.symm) ?_
    obtain ⟨e, rfl, rfl, rfl⟩ | ⟨count, rfl, rfl, rfl⟩ := hends
    · exact Run.done_ends _
    · exact Run.done_ends _
  rewind _ _ := Run.step_ends _
  fetch := by
    rintro ⟨c, held, served⟩ s
    cases served with
    | true => exact Run.step_ends _
    | false => cases held with
      | none => exact Run.step_ends _
      | some row => exact Run.step_ends _

end Machine

/-! ## Plans -/

/-- **Every call ends.**  Whatever its state and that of the storage, each call of a plan is a loop that
    comes to an end, with what the source of the plan gives. -/
theorem Plan.machine_follows (catalog : Catalog) (plan : Plan) :
    (plan.machine catalog).Follows catalog plan.source := by
  induction plan with
  | rows schema given => exact Machine.follows_ofRows catalog schema given
  | scan table schema => exact Machine.follows_ofTable catalog table schema
  | filter condition child ih => exact Machine.follows_filter condition ih child.stepwise
  | join condition outer inner iho ihi =>
    exact Machine.follows_join iho ihi outer.stepwise inner.stepwise
  | aggregate aggregation child ih => exact Machine.follows_aggregate aggregation ih child.stepwise
  | insert tid table child ih => exact Machine.follows_write (storeRow tid table) ih child.stepwise
  | delete tid child ih =>
    exact Machine.follows_write (fun catalog row s => s.deleteRow catalog tid row.place) ih child.stepwise

namespace Cursor

/-- The loop that asks a plan for its rows comes to an end. -/
theorem collecting_ends {plan : Plan} {g : plan.source.guard.State} {s : Storage} {rows : List Row}
    {result : Ending × plan.source.guard.State × List Row × Storage}
    (hpulled : Pulled plan.source.guard catalog (fun row (rows : List Row) s => (.yield (row :: rows), s))
      g rows s result) :
    (collecting catalog plan rows.reverse g s).EndsWith
      (result.2.2.1.reverse, match result.1 with
        | .failed e => some e
        | .exhausted | .stopped => none, ⟨plan, result.2.1⟩, result.2.2.2) := by
  have hfollows := plan.machine_follows catalog
  -- the induction is on the rows of the plan
  induction hpulled with
  | @failed g g' rows s s' e hfetch | @exhausted g g' rows s s' hfetch =>
    refine Run.loop_of_leave ?_
    exact Run.bind_ends ((hfollows.take g s).of_eq hfetch.symm) (Run.done_ends _)
  | @stopped g g' rows rows' s s₁ s' row hfetch hstep => cases hstep
  | @again g g₁ rows rows₁ s s₁ s₂ row result hfetch hstep _ ih =>
    cases hstep
    rw [List.reverse_cons] at ih
    refine Run.loop_of_again ?_ ih
    exact Run.bind_ends ((hfollows.take g s).of_eq hfetch.symm) (Run.done_ends _)

/-- **Plans come to an end.**  Whatever the plan and the storage, opening the plan and then asking it for
    rows ends after finitely many steps: with an error, or with all its rows.  These, the error and the
    storage are what `start` and `collect` give. -/
theorem comes_to_an_end (catalog : Catalog) (c : Cursor) (s : Storage) :
    ∃ steps, (c.draining catalog s).Ends steps (match c.start catalog s with
      | (.error e, c, s) => ([], some e, c, s)
      | (.ok (), c, s) => c.collect catalog s) := by
  obtain ⟨plan, g⟩ := c
  have hopening := (plan.machine_follows catalog).opening g s
  rcases hstart : plan.source.guard.start catalog g s with ⟨r, g₁, s₁⟩
  have hcursor : Cursor.start catalog ⟨plan, g⟩ s = (r, ⟨plan, g₁⟩, s₁) := by
    have hguard : Guarded.start catalog g s = (r, g₁, s₁) := hstart
    simp only [Cursor.start, hguard]
  rw [hcursor]
  refine Run.bind_ends (hopening.of_eq hstart.symm) ?_
  cases r with
  | error e => exact Run.done_ends _
  | ok => exact collecting_ends (stepwise_guard plan.stepwise _ catalog _ g₁ [] s₁)

end Cursor

end RowStore
