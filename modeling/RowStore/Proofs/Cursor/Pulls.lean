import RowStore.Proofs.Cursor.Derived

/-!
Giving rows one by one.

Program.  A source gives its rows to a consumer, who looks at one row after the other and may change the
storage in between.  A cursor is asked for one row at a time.

1. `Pulled` is the loop that fetches a row, hands it to the consumer, and goes on until one of them stops.
2. A source is `Stepwise` if giving its rows to any consumer is this loop, with the same pages loaded at
   the same moments.  Then there is a law for the next step, whoever the consumer is
   (`Stepwise.next`).
3. Every source of a plan is stepwise (`Plan.stepwise`): those at the leaves, by induction on what they
   have left, and those above others, by induction on the loops of these.

Crux.  A filter and a join pass over rows of the sources below without giving one.  Such a step is the
same for all consumers, the one who takes a single row among them, and so it may be left out of the loop
(`Pulled.of_skips`).
-/

namespace RowStore.Source

open Storage

variable {α : Type} {catalog : Catalog} {consume : Consumer α} {src : Source}

/-! ## Loops -/

/-- How the rows that are left are given: the next one is fetched and handed to the consumer, and so on
    until there is none, one cannot be fetched, or the consumer has enough. -/
inductive Pulled (src : Source) (catalog : Catalog) (consume : Consumer α) :
    src.State → α → Storage → Ending × src.State × α × Storage → Prop
  | failed {st st' : src.State} {a : α} {s s' : Storage} {e : Error}
    (hfetch : src.fetch catalog st s = (.error e, st', s')) :
    Pulled src catalog consume st a s (.failed e, st', a, s')
  | exhausted {st st' : src.State} {a : α} {s s' : Storage}
    (hfetch : src.fetch catalog st s = (.ok none, st', s')) :
    Pulled src catalog consume st a s (.exhausted, st', a, s')
  | stopped {st st' : src.State} {a a' : α} {s s₁ s' : Storage} {row : Row}
    (hfetch : src.fetch catalog st s = (.ok (some row), st', s₁))
    (hstep : consume row a s₁ = (.done a', s')) :
    Pulled src catalog consume st a s (.stopped, st', a', s')
  | again {st st₁ : src.State} {a a₁ : α} {s s₁ s₂ : Storage} {row : Row}
    {result : Ending × src.State × α × Storage}
    (hfetch : src.fetch catalog st s = (.ok (some row), st₁, s₁))
    (hstep : consume row a s₁ = (.yield a₁, s₂))
    (hrest : Pulled src catalog consume st₁ a₁ s₂ result) :
    Pulled src catalog consume st a s result

/-- A source gives its rows one by one, whoever consumes them. -/
def Stepwise (src : Source) : Prop :=
  ∀ (α : Type) (catalog : Catalog) (consume : Consumer α) (st : src.State) (a : α) (s : Storage),
    Pulled src catalog consume st a s (src.each catalog consume st a s)

/-- A loop ends in one way only. -/
theorem Pulled.unique {st : src.State} {a : α} {s : Storage}
    {first second : Ending × src.State × α × Storage} (h : Pulled src catalog consume st a s first)
    (h' : Pulled src catalog consume st a s second) : first = second := by
  induction h with
  | failed hfetch =>
    cases h' with
    | failed hfetch' =>
      cases hfetch.symm.trans hfetch'
      rfl
    | exhausted hfetch' | stopped hfetch' | again hfetch' => cases hfetch.symm.trans hfetch'
  | exhausted hfetch =>
    cases h' with
    | exhausted hfetch' =>
      cases hfetch.symm.trans hfetch'
      rfl
    | failed hfetch' | stopped hfetch' | again hfetch' => cases hfetch.symm.trans hfetch'
  | stopped hfetch hstep =>
    cases h' with
    | stopped hfetch' hstep' =>
      cases hfetch.symm.trans hfetch'
      cases hstep.symm.trans hstep'
      rfl
    | again hfetch' hstep' =>
      cases hfetch.symm.trans hfetch'
      cases hstep.symm.trans hstep'
    | failed hfetch' | exhausted hfetch' => cases hfetch.symm.trans hfetch'
  | again hfetch hstep _ ih =>
    cases h' with
    | again hfetch' hstep' hrest' =>
      cases hfetch.symm.trans hfetch'
      cases hstep.symm.trans hstep'
      exact ih hrest'
    | stopped hfetch' hstep' =>
      cases hfetch.symm.trans hfetch'
      cases hstep.symm.trans hstep'
    | failed hfetch' | exhausted hfetch' => cases hfetch.symm.trans hfetch'

/-! ### One step for all consumers -/

/-- What comes next, for all consumers alike: an error, the end, or a row, from which it goes on. -/
def Next (src : Source) (catalog : Catalog) (st : src.State) (s : Storage)
    (next : Except Error (Option Row) × src.State × Storage) : Prop :=
  ∀ (β : Type) (c : Consumer β) (b : β), src.each catalog c st b s = match next with
    | (.error e, st, s) => (.failed e, st, b, s)
    | (.ok none, st, s) => (.exhausted, st, b, s)
    | (.ok (some row), st, s) =>
      match c row b s with
      | (.done b, s) => (.stopped, st, b, s)
      | (.yield b, s) => src.each catalog c st b s

section Steps

variable {st st' : src.State} {a : α} {s s' : Storage}
  {coming : Except Error (Option Row) × src.State × Storage}

theorem Next.fetch_eq (h : src.Next catalog st s coming) : src.fetch catalog st s = coming := by
  obtain ⟨r, st', s'⟩ := coming
  unfold fetch
  rw [h]
  cases r with
  | error e => rfl
  | ok found => cases found <;> rfl

/-- A stepwise source goes on with what it fetches. -/
theorem Stepwise.next (hsrc : src.Stepwise) (st : src.State) (s : Storage) :
    src.Next catalog st s (src.fetch catalog st s) := by
  intro β c b
  have hpulled := hsrc β catalog c st b s
  generalize src.each catalog c st b s = result at hpulled
  cases hpulled with
  | failed hfetch => rw [hfetch]
  | exhausted hfetch => rw [hfetch]
  | stopped hfetch hstep =>
    rw [hfetch]
    simp only [hstep]
  | again hfetch hstep hrest =>
    rw [hfetch]
    simp only [hstep]
    exact hrest.unique (hsrc β catalog c _ _ _)

/-- A loop goes on with what comes next. -/
theorem Pulled.of_next (h : src.Next catalog st s coming)
    (hrest : ∀ row st' s' b s₁, coming = (.ok (some row), st', s') → consume row a s' = (.yield b, s₁) →
      Pulled src catalog consume st' b s₁ (src.each catalog consume st' b s₁)) :
    Pulled src catalog consume st a s (src.each catalog consume st a s) := by
  have hfetch := h.fetch_eq
  obtain ⟨r, st', s'⟩ := coming
  rw [h]
  cases r with
  | error e => exact .failed hfetch
  | ok found =>
    cases found with
    | none => exact .exhausted hfetch
    | some row =>
      rcases hstep : consume row a s' with ⟨step, s₁⟩
      simp only [hstep]
      cases step with
      | done b => exact .stopped hfetch hstep
      | yield b => exact .again hfetch hstep (hrest row st' s' b s₁ rfl hstep)

/-- A loop ends when the next row cannot be fetched. -/
theorem Pulled.of_failed {e : Error} (h : src.Next catalog st s (.error e, st', s')) :
    Pulled src catalog consume st a s (src.each catalog consume st a s) := by
  rw [h]
  exact .failed h.fetch_eq

/-- A loop ends when there is no further row. -/
theorem Pulled.of_exhausted (h : src.Next catalog st s (.ok none, st', s')) :
    Pulled src catalog consume st a s (src.each catalog consume st a s) := by
  rw [h]
  exact .exhausted h.fetch_eq

/-- The source does as it would from another state on, without giving a row before. -/
theorem Pulled.of_skips (h : ∀ (β : Type) (c : Consumer β) (b : β),
    src.each catalog c st b s = src.each catalog c st' b s')
    (hrest : Pulled src catalog consume st' a s' (src.each catalog consume st' a s')) :
    Pulled src catalog consume st a s (src.each catalog consume st a s) := by
  have hsame : src.fetch catalog st s = src.fetch catalog st' s' := by
    unfold fetch
    rw [h]
  rw [h]
  generalize src.each catalog consume st' a s' = result at hrest
  cases hrest with
  | failed hfetch => exact .failed (hsame.trans hfetch)
  | exhausted hfetch => exact .exhausted (hsame.trans hfetch)
  | stopped hfetch hstep => exact .stopped (hsame.trans hfetch) hstep
  | again hfetch hstep hrest => exact .again (hsame.trans hfetch) hstep hrest

end Steps

/-! ## Rows from a list -/

/-- The row at a position comes next. -/
theorem eachOf_eq (rows : List Row) (consume : Consumer α) (pos : Nat) (a : α) (s : Storage) :
    eachOf rows consume pos a s = match rows[pos]? with
      | none => (.exhausted, rows.length, a, s)
      | some row =>
        match consume row a s with
        | (.done a, s) => (.stopped, pos + 1, a, s)
        | (.yield a, s) => eachOf rows consume (pos + 1) a s := by
  rcases Nat.lt_or_ge pos rows.length with hlt | hge
  · have hleft : rows.length - (rows.drop (pos + 1)).length = pos + 1 := by
      rw [List.length_drop]
      omega
    unfold eachOf
    rw [List.getElem?_eq_getElem hlt, List.drop_eq_getElem_cons hlt]
    rcases hstep : consume rows[pos] a s with ⟨step, s₁⟩
    cases step with
    | done b => simp only [deliver, hstep, if_true, hleft]
    | yield b => simp only [deliver, hstep]
  · unfold eachOf
    rw [List.getElem?_eq_none hge, List.drop_of_length_le hge]
    rfl

/-- A source that goes through a list like `eachOf` does so row by row. -/
theorem pulled_of_eachOf {rows : List Row} {state : Nat → src.State}
    (heach : ∀ {β : Type} (c : Consumer β) (pos : Nat) (b : β) (s : Storage),
      src.each catalog c (state pos) b s = match eachOf rows c pos b s with
        | (ending, pos, b, s) => (ending, state pos, b, s)) (pos : Nat) (a : α) (s : Storage) :
    Pulled src catalog consume (state pos) a s (src.each catalog consume (state pos) a s) := by
  -- the induction is on the number of rows that are left
  induction hleft : rows.length - pos generalizing pos a s with
  | zero =>
    have hnone : rows[pos]? = none := List.getElem?_eq_none (by omega)
    have hnext : src.Next catalog (state pos) s (.ok none, state rows.length, s) := by
      intro β c b
      rw [heach, eachOf_eq, hnone]
    exact .of_exhausted hnext
  | succ n ih =>
    have hlt : pos < rows.length := by omega
    have hnext : src.Next catalog (state pos) s (.ok (some rows[pos]), state (pos + 1), s) := by
      intro β c b
      rw [heach, eachOf_eq, List.getElem?_eq_getElem hlt]
      simp only
      rcases c rows[pos] b s with ⟨step, s₁⟩
      cases step with
      | done b => rfl
      | yield b => exact (heach c (pos + 1) b s₁).symm
    refine .of_next hnext ?_
    rintro row st' s' b s₁ ⟨⟩ -
    exact ih (pos + 1) b s₁ (by omega)

theorem stepwise_ofRows (schema : Schema) (rows : List Row) : (ofRows schema rows).Stepwise := by
  intro α catalog consume pos a s
  have heach : ∀ {β : Type} (c : Consumer β) (pos : Nat) (b : β) (s : Storage),
      (ofRows schema rows).each catalog c pos b s = match eachOf rows c pos b s with
        | (ending, pos, b, s) => (ending, pos, b, s) := fun _ _ _ _ => rfl
  exact pulled_of_eachOf heach pos a s

/-! ## Rows of a table -/

section Table

variable {table : TableId} {schema : Schema} {count next : Nat} {a : α} {s s' : Storage}

/-- A row that is left of the present page comes next. -/
theorem Scan.next_of_cons {row : Row} {rows : List Row} :
    (ofTable table schema).Next catalog ⟨count, next, row :: rows⟩ s
      (.ok (some row), ⟨count, next, rows⟩, s) := by
  intro β c b
  show Scan.each table catalog c _ b s = match c row b s with
    | (.done b, s) => (.stopped, ⟨count, next, rows⟩, b, s)
    | (.yield b, s) => Scan.each table catalog c ⟨count, next, rows⟩ b s
  unfold Scan.each
  rcases hstep : c row b s with ⟨step, s₁⟩
  cases hpages : count - next with
  | zero | succ pages =>
    cases step with
    | done b => simp only [Scan.eachPage, deliver, hstep, if_true]
    | yield b => simp only [Scan.eachPage, deliver, hstep]

/-- The last page was taken. -/
theorem Scan.next_of_last (hle : count ≤ next) :
    (ofTable table schema).Next catalog ⟨count, next, []⟩ s (.ok none, ⟨count, next, []⟩, s) := by
  intro β c b
  show Scan.each table catalog c _ b s = _
  unfold Scan.each
  rw [Nat.sub_eq_zero_of_le hle]
  rfl

/-- When nothing is left of the present page, the next page is taken. -/
theorem Scan.each_of_nil {consume : Consumer α} (hlt : next < count) :
    (ofTable table schema).each catalog consume ⟨count, next, []⟩ a s =
      match s.getPage catalog ⟨table, next⟩ with
      | (.error e, s) => (.failed e, ⟨count, next, []⟩, a, s)
      | (.ok frame, s) =>
        (ofTable table schema).each catalog consume ⟨count, next + 1, frame.page.rows⟩ a s := by
  obtain ⟨pages, hpages⟩ : ∃ pages, count - next = pages + 1 := ⟨count - next - 1, by omega⟩
  have hrest : count - (next + 1) = pages := by omega
  show Scan.each table catalog consume _ a s = match s.getPage catalog ⟨table, next⟩ with
    | (.error e, s) => (.failed e, ⟨count, next, []⟩, a, s)
    | (.ok frame, s) => Scan.each table catalog consume ⟨count, next + 1, frame.page.rows⟩ a s
  unfold Scan.each
  simp only [hpages, hrest]
  rfl

theorem stepwise_ofTable (table : TableId) (schema : Schema) : (ofTable table schema).Stepwise := by
  intro α catalog consume scan a s
  obtain ⟨count, next, buffer⟩ := scan
  -- what is left of the present page is given before the next page is taken
  have hbuffer : ∀ {next : Nat}, (∀ a s, Pulled (ofTable table schema) catalog consume ⟨count, next, []⟩ a s
        ((ofTable table schema).each catalog consume ⟨count, next, []⟩ a s)) →
      ∀ buffer a s, Pulled (ofTable table schema) catalog consume ⟨count, next, buffer⟩ a s
        ((ofTable table schema).each catalog consume ⟨count, next, buffer⟩ a s) := by
    intro next hpage buffer
    induction buffer with
    | nil => exact hpage
    | cons row rows ih =>
      intro a s
      refine .of_next Scan.next_of_cons ?_
      rintro found st' s' b s₁ ⟨⟩ -
      exact ih b s₁
  -- the induction is on the number of pages to come
  induction hpages : count - next generalizing next buffer a s with
  | zero =>
    have hle : count ≤ next := by omega
    exact hbuffer (fun a s => .of_exhausted (Scan.next_of_last hle)) buffer a s
  | succ pages ih =>
    have hlt : next < count := by omega
    refine hbuffer (fun a s => ?_) buffer a s
    have htakes : ∀ (β : Type) (c : Consumer β) (b : β),
        (ofTable table schema).each catalog c ⟨count, next, []⟩ b s = _ :=
      fun _ _ _ => Scan.each_of_nil hlt
    rcases hget : s.getPage catalog ⟨table, next⟩ with ⟨r, s₁⟩
    simp only [hget] at htakes
    cases r with
    | error e =>
      have hnext : (ofTable table schema).Next catalog ⟨count, next, []⟩ s
          (.error e, ⟨count, next, []⟩, s₁) := htakes
      exact .of_failed hnext
    | ok frame => exact .of_skips htakes (ih a s₁ (next + 1) frame.page.rows (by omega))

end Table

/-! ## Filter -/

/-- The next row of the child is passed on or passed over. -/
theorem each_filter {condition : Condition} {child : Source} (hchild : child.Stepwise)
    {st : child.State} {a : α} {s : Storage} :
    (filter condition child).each catalog consume st a s = match child.fetch catalog st s with
      | (.error e, st, s) => (.failed e, st, a, s)
      | (.ok none, st, s) => (.exhausted, st, a, s)
      | (.ok (some row), st, s) =>
        if condition.holds row then
          match consume row a s with
          | (.done a, s) => (.stopped, st, a, s)
          | (.yield a, s) => (filter condition child).each catalog consume st a s
        else (filter condition child).each catalog consume st a s := by
  show child.each catalog (fun row a s => if condition.holds row then consume row a s else (.yield a, s))
    st a s = _
  rw [hchild.next st s]
  rcases child.fetch catalog st s with ⟨r, st₁, s₁⟩
  cases r with
  | error e => rfl
  | ok found =>
    cases found with
    | none => rfl
    | some row =>
      simp only
      by_cases hrow : condition.holds row = true
      · simp only [if_pos hrow]
        rfl
      · simp only [if_neg hrow]
        rfl

theorem stepwise_filter (condition : Condition) {child : Source} (hchild : child.Stepwise) :
    (filter condition child).Stepwise := by
  intro α catalog consume st a s
  -- the induction is on the loop of the child
  have hloop : ∀ {st : child.State} {a : α} {s : Storage} {result : Ending × child.State × α × Storage},
      Pulled child catalog
        (fun row a s => if condition.holds row then consume row a s else (.yield a, s)) st a s result →
      Pulled (filter condition child) catalog consume st a s
        ((filter condition child).each catalog consume st a s) := by
    intro st a s result hpulled
    induction hpulled with
    | @failed st st' a s s' e hfetch =>
      have hnext : (filter condition child).Next catalog st s (.error e, st', s') := by
        intro β c b
        rw [each_filter hchild, hfetch]
      exact .of_failed hnext
    | @exhausted st st' a s s' hfetch =>
      have hnext : (filter condition child).Next catalog st s (.ok none, st', s') := by
        intro β c b
        rw [each_filter hchild, hfetch]
      exact .of_exhausted hnext
    | @stopped st st' a a' s s₁ s' row hfetch hstep =>
      have hrow : condition.holds row = true := by
        by_contra hno
        rw [if_neg hno] at hstep
        cases hstep
      rw [if_pos hrow] at hstep
      have hnext : (filter condition child).Next catalog st s (.ok (some row), st', s₁) := by
        intro β c b
        rw [each_filter hchild, hfetch]
        simp only [if_pos hrow]
      refine .of_next hnext ?_
      rintro row st' s' b s₁ ⟨⟩ hmore
      cases hstep.symm.trans hmore
    | @again st st₁ a a₁ s s₁ s₂ row result hfetch hstep _ ih =>
      by_cases hrow : condition.holds row = true
      · rw [if_pos hrow] at hstep
        have hnext : (filter condition child).Next catalog st s (.ok (some row), st₁, s₁) := by
          intro β c b
          rw [each_filter hchild, hfetch]
          simp only [if_pos hrow]
        refine .of_next hnext ?_
        rintro row st' s' b s₁ ⟨⟩ hmore
        cases hstep.symm.trans hmore
        exact ih
      · rw [if_neg hrow] at hstep
        cases hstep
        refine .of_skips (fun β c b => ?_) ih
        rw [each_filter hchild, hfetch]
        simp only [if_neg hrow]
  exact hloop (hchild α catalog _ st a s)

/-! ## The rules for using a source -/

namespace Guarded

/-- With no row looked at, an open source fetches what the source itself does. -/
theorem fetch_of_none (inner : src.State) (s : Storage) :
    src.guard.fetch catalog ⟨true, none, inner⟩ s = match src.fetch catalog inner s with
      | (r, inner, s) => (r, ⟨true, none, inner⟩, s) := by
  unfold fetch
  rcases hrun : src.each catalog (fun row _ s => (.done (some row), s)) inner (none : Option Row) s
    with ⟨ending, inner₁, found, s₁⟩
  have heach : src.guard.each catalog (fun row _ s => (.done (some row), s)) ⟨true, none, inner⟩
      (none : Option Row) s = (ending, ⟨true, none, inner₁⟩, found, s₁) := by
    show Guarded.each catalog _ (⟨true, none, inner⟩ : Guarded src.State) none s = _
    rw [Guarded.each_eq, if_neg Bool.false_ne_true.symm]
    simp only [hrun]
    rfl
  rw [heach]
  cases ending <;> rfl

/-- The row that was looked at comes first. -/
theorem next_of_some {row : Row} {inner : src.State} {s : Storage} :
    src.guard.Next catalog ⟨true, some row, inner⟩ s (.ok (some row), ⟨true, none, inner⟩, s) := by
  intro β c b
  show Guarded.each catalog c (⟨true, some row, inner⟩ : Guarded src.State) b s = match c row b s with
    | (.done b, s) => (.stopped, ⟨true, none, inner⟩, b, s)
    | (.yield b, s) => Guarded.each catalog c ⟨true, none, inner⟩ b s
  rw [Guarded.each_eq, if_neg Bool.false_ne_true.symm]
  simp only
  rcases c row b s with ⟨step, s₁⟩
  cases step <;> rfl

end Guarded

/-- With no row looked at, the loop of the source itself goes on. -/
theorem Pulled.guard {inner : src.State} {a : α} {s : Storage}
    {result : Ending × src.State × α × Storage} (h : Pulled src catalog consume inner a s result) :
    Pulled src.guard catalog consume ⟨true, none, inner⟩ a s
      (result.1, ⟨true, none, result.2.1⟩, result.2.2) := by
  induction h with
  | failed hfetch => exact .failed (by rw [Guarded.fetch_of_none, hfetch])
  | exhausted hfetch => exact .exhausted (by rw [Guarded.fetch_of_none, hfetch])
  | stopped hfetch hstep => exact .stopped (by rw [Guarded.fetch_of_none, hfetch]) hstep
  | again hfetch hstep _ ih => exact .again (by rw [Guarded.fetch_of_none, hfetch]) hstep ih

theorem stepwise_guard (hsrc : src.Stepwise) : src.guard.Stepwise := by
  intro α catalog consume g a s
  obtain ⟨isOpen, ahead, inner⟩ := g
  have hinner : ∀ a s, Pulled src.guard catalog consume ⟨true, none, inner⟩ a s
      (src.guard.each catalog consume ⟨true, none, inner⟩ a s) :=
    fun a s => (hsrc α catalog consume inner a s).guard
  cases isOpen with
  | false =>
    have hnext : src.guard.Next catalog ⟨false, ahead, inner⟩ s
        (.error .notOpen, ⟨false, ahead, inner⟩, s) := fun _ _ _ => rfl
    exact .of_failed hnext
  | true =>
    cases ahead with
    | none => exact hinner a s
    | some row =>
      refine .of_next Guarded.next_of_some ?_
      rintro found st' s' b s₁ ⟨⟩ -
      exact hinner b s₁

/-! ## Join -/

section Join

variable {condition : JoinCondition} {schema : Schema} {outer inner : Source} {o : outer.State}
  {i : inner.State} {row : Row} {a : α} {s : Storage}

/-- With no row kept, a join takes the next outer row. -/
theorem each_join_of_none (houter : outer.Stepwise) :
    (join condition outer inner).each catalog consume ⟨o, i, none⟩ a s =
      match outer.fetch catalog o s with
      | (.error e, o, s) => (.failed e, ⟨o, i, none⟩, a, s)
      | (.ok none, o, s) => (.exhausted, ⟨o, i, none⟩, a, s)
      | (.ok (some row), o, s) => (join condition outer inner).each catalog consume ⟨o, i, some row⟩ a s := by
  let schema := outer.schema.append inner.schema
  show joinRows condition schema outer inner catalog consume ⟨o, i, none⟩ a s =
    match outer.fetch catalog o s with
    | (.error e, o, s) => (.failed e, ⟨o, i, none⟩, a, s)
    | (.ok none, o, s) => (.exhausted, ⟨o, i, none⟩, a, s)
    | (.ok (some row), o, s) =>
      joinEach condition schema outer inner catalog consume ⟨o, i, some row⟩ a s
  unfold joinRows
  simp only [houter.next o s _ _]
  rcases outer.fetch catalog o s with ⟨r, o₁, s₁⟩
  cases r with
  | error e => rfl
  | ok found =>
    cases found with
    | none => rfl
    | some row =>
      unfold joinEach joinRows
      rcases hrow : joinRow condition schema inner catalog consume row i a s₁ with ⟨ended, i₁, b, s₂⟩
      cases ended <;> simp only [hrow]

/-- With a row kept, a join goes on with the run through the inner source. -/
theorem each_join_of_some :
    (join condition outer inner).each catalog consume ⟨o, i, some row⟩ a s =
      match joinRow condition (outer.schema.append inner.schema) inner catalog consume row i a s with
      | (some ending, i, a, s) => (ending, ⟨o, i, keptRow row ending⟩, a, s)
      | (none, i, a, s) => (join condition outer inner).each catalog consume ⟨o, i, none⟩ a s := by
  let schema := outer.schema.append inner.schema
  show joinEach condition schema outer inner catalog consume ⟨o, i, some row⟩ a s =
    match joinRow condition schema inner catalog consume row i a s with
    | (some ending, i, a, s) => (ending, ⟨o, i, keptRow row ending⟩, a, s)
    | (none, i, a, s) => joinEach condition schema outer inner catalog consume ⟨o, i, none⟩ a s
  rcases hrow : joinRow condition schema inner catalog consume row i a s with ⟨ended, i₁, b, s₁⟩
  conv_lhs => unfold joinEach
  simp only [hrow]
  cases ended <;> rfl

/-- The next inner row goes with the outer row or does not. -/
theorem joinRow_eq (hinner : inner.Stepwise) :
    joinRow condition schema inner catalog consume row i a s = match inner.fetch catalog i s with
      | (.error e, i, s) => (some (.failed e), i, a, s)
      | (.ok none, i, s) =>
        match inner.rewind catalog i s with
        | (.error e, i, s) => (some (.failed e), i, a, s)
        | (.ok (), i, s) => (none, i, a, s)
      | (.ok (some right), i, s) =>
        if condition.holds row right then
          match consume (Row.append schema row right) a s with
          | (.done a, s) => (some .stopped, i, a, s)
          | (.yield a, s) => joinRow condition schema inner catalog consume row i a s
        else joinRow condition schema inner catalog consume row i a s := by
  unfold joinRow
  rw [hinner.next i s]
  rcases inner.fetch catalog i s with ⟨r, i₁, s₁⟩
  cases r with
  | error e => rfl
  | ok found =>
    cases found with
    | none => rfl
    | some right =>
      simp only
      by_cases hholds : condition.holds row right = true
      · simp only [if_pos hholds]
        rcases consume (Row.append schema row right) a s₁ with ⟨step, s₂⟩
        cases step <;> rfl
      · simp only [if_neg hholds]

/-- With a row kept, a pair comes next, and the run through the inner source goes on. -/
theorem next_pair (hinner : inner.Stepwise) {i₁ : inner.State} {s₁ : Storage} {right : Row}
    (hfetch : inner.fetch catalog i s = (.ok (some right), i₁, s₁))
    (hholds : condition.holds row right = true) :
    (join condition outer inner).Next catalog ⟨o, i, some row⟩ s
      (.ok (some (Row.append (outer.schema.append inner.schema) row right)), ⟨o, i₁, some row⟩, s₁) := by
  intro β c b
  rw [each_join_of_some, joinRow_eq hinner, hfetch]
  simp only [if_pos hholds]
  rcases c (Row.append (outer.schema.append inner.schema) row right) b s₁ with ⟨step, s₂⟩
  cases step with
  | done b => rfl
  | yield b => exact each_join_of_some.symm

/-- The row is given up if the inner source fails. -/
theorem next_unfetched (hinner : inner.Stepwise) {i₁ : inner.State} {s₁ : Storage} {e : Error}
    (hfetch : inner.fetch catalog i s = (.error e, i₁, s₁)) :
    (join condition outer inner).Next catalog ⟨o, i, some row⟩ s (.error e, ⟨o, i₁, none⟩, s₁) := by
  intro β c b
  rw [each_join_of_some, joinRow_eq hinner, hfetch]
  rfl

/-- It is given up too if the inner source ends and cannot be rewound. -/
theorem next_unrewound (hinner : inner.Stepwise) {i₁ i₂ : inner.State} {s₁ s₂ : Storage} {e : Error}
    (hfetch : inner.fetch catalog i s = (.ok none, i₁, s₁))
    (hrewind : inner.rewind catalog i₁ s₁ = (.error e, i₂, s₂)) :
    (join condition outer inner).Next catalog ⟨o, i, some row⟩ s (.error e, ⟨o, i₂, none⟩, s₂) := by
  intro β c b
  rw [each_join_of_some, joinRow_eq hinner, hfetch]
  simp only [hrewind]
  rfl

/-- **One outer row.**  With a row kept, a join gives its pairs one by one, if it does so afterwards. -/
theorem pulled_of_kept (hinner : inner.Stepwise)
    (hafter : ∀ i' a' s', joinRow condition (outer.schema.append inner.schema) inner catalog consume row i a s =
        (none, i', a', s') →
      Pulled (join condition outer inner) catalog consume ⟨o, i', none⟩ a' s'
        ((join condition outer inner).each catalog consume ⟨o, i', none⟩ a' s')) :
    Pulled (join condition outer inner) catalog consume ⟨o, i, some row⟩ a s
      ((join condition outer inner).each catalog consume ⟨o, i, some row⟩ a s) := by
  -- the induction is on the run through the inner source
  have hpulled := hinner α catalog (fun right a s => if condition.holds row right then
    consume (Row.append (outer.schema.append inner.schema) row right) a s else (.yield a, s)) i a s
  generalize inner.each catalog _ i a s = result at hpulled
  induction hpulled with
  | failed hfetch => exact .of_failed (next_unfetched hinner hfetch)
  | @exhausted i i₁ a s s₁ hfetch =>
    rcases hrewind : inner.rewind catalog i₁ s₁ with ⟨r, i₂, s₂⟩
    cases r with
    | error e => exact .of_failed (next_unrewound hinner hfetch hrewind)
    | ok =>
      refine .of_skips (fun β c b => ?_) (hafter i₂ a s₂ ?_)
      · rw [each_join_of_some, joinRow_eq hinner, hfetch]
        simp only [hrewind]
      · rw [joinRow_eq hinner, hfetch]
        simp only [hrewind]
  | @stopped i i₁ a a₁ s s₁ s₂ right hfetch hstep =>
    have hholds : condition.holds row right = true := by
      by_contra hno
      rw [if_neg hno] at hstep
      cases hstep
    rw [if_pos hholds] at hstep
    refine .of_next (next_pair hinner hfetch hholds) ?_
    rintro found st' s' b s₃ ⟨⟩ hmore
    cases hstep.symm.trans hmore
  | @again i i₁ a a₁ s s₁ s₂ right result hfetch hstep _ ih =>
    have hsame : joinRow condition (outer.schema.append inner.schema) inner catalog consume row i a s =
        joinRow condition (outer.schema.append inner.schema) inner catalog consume row i₁ a₁ s₂ := by
      rw [joinRow_eq hinner, hfetch]
      by_cases hholds : condition.holds row right = true
      · rw [if_pos hholds] at hstep
        simp only [if_pos hholds, hstep]
      · rw [if_neg hholds] at hstep
        cases hstep
        simp only [if_neg hholds]
    have hlater := ih fun i' a' s' hdone => hafter i' a' s' (hsame.trans hdone)
    by_cases hholds : condition.holds row right = true
    · rw [if_pos hholds] at hstep
      refine .of_next (next_pair hinner hfetch hholds) ?_
      rintro found st' s' b s₃ ⟨⟩ hmore
      cases hstep.symm.trans hmore
      exact hlater
    · rw [if_neg hholds] at hstep
      cases hstep
      refine .of_skips (fun β c b => ?_) hlater
      rw [each_join_of_some, each_join_of_some, joinRow_eq hinner, hfetch]
      simp only [if_neg hholds]

/-- The outer rows that are left, when no row is kept. -/
theorem pulled_of_none (houter : outer.Stepwise) (hinner : inner.Stepwise) :
    Pulled (join condition outer inner) catalog consume ⟨o, i, none⟩ a s
      ((join condition outer inner).each catalog consume ⟨o, i, none⟩ a s) := by
  have hskips : ∀ {o o₁ : outer.State} {s s₁ : Storage} {row : Row} (i : inner.State),
      outer.fetch catalog o s = (.ok (some row), o₁, s₁) → ∀ (β : Type) (c : Consumer β) (b : β),
      (join condition outer inner).each catalog c ⟨o, i, none⟩ b s =
        (join condition outer inner).each catalog c ⟨o₁, i, some row⟩ b s₁ := by
    intro o o₁ s s₁ row i hfetch β c b
    rw [each_join_of_none houter, hfetch]
  -- the induction is on the run through the outer source, which carries the inner source along
  have hloop : ∀ {o : outer.State} {carried : Carried inner.State α} {s : Storage}
      {result : Ending × outer.State × Carried inner.State α × Storage},
      Pulled outer catalog (carryRow condition (outer.schema.append inner.schema) inner catalog consume) o
        carried s result →
      Pulled (join condition outer inner) catalog consume ⟨o, carried.inner, none⟩ carried.value s
        ((join condition outer inner).each catalog consume ⟨o, carried.inner, none⟩ carried.value s) := by
    intro o carried s result hpulled
    induction hpulled with
    | @failed o o₁ c s s₁ e hfetch =>
      have hnext : (join condition outer inner).Next catalog ⟨o, c.inner, none⟩ s
          (.error e, ⟨o₁, c.inner, none⟩, s₁) := by
        intro β c b
        rw [each_join_of_none houter, hfetch]
      exact .of_failed hnext
    | @exhausted o o₁ c s s₁ hfetch =>
      have hnext : (join condition outer inner).Next catalog ⟨o, c.inner, none⟩ s
          (.ok none, ⟨o₁, c.inner, none⟩, s₁) := by
        intro β c b
        rw [each_join_of_none houter, hfetch]
      exact .of_exhausted hnext
    | @stopped o o₁ c c₁ s s₁ s₂ row hfetch hstep =>
      refine .of_skips (hskips c.inner hfetch) (pulled_of_kept hinner fun i' a' s' hdone => ?_)
      simp only [carryRow, hdone] at hstep
      cases hstep
    | @again o o₁ c c₁ s s₁ s₂ row result hfetch hstep _ ih =>
      refine .of_skips (hskips c.inner hfetch) (pulled_of_kept hinner fun i' a' s' hdone => ?_)
      simp only [carryRow, hdone] at hstep
      cases hstep
      exact ih
  let carried : Carried inner.State α := ⟨i, a, none⟩
  exact hloop (houter _ catalog _ o carried s)

theorem stepwise_join (condition : JoinCondition) (houter : outer.Stepwise) (hinner : inner.Stepwise) :
    (join condition outer inner).Stepwise := by
  intro α catalog consume st a s
  obtain ⟨o, i, pending⟩ := st
  cases pending with
  | none => exact pulled_of_none houter hinner
  | some row => exact pulled_of_kept hinner fun _ _ _ _ => pulled_of_none houter hinner

end Join

/-! ## Sources that read all rows first -/

/-- An aggregation gives the rows that it holds. -/
theorem stepwise_aggregate (aggregation : Aggregation) (child : Source) :
    (aggregate aggregation child).Stepwise := by
  intro α catalog consume st a s
  obtain ⟨below, results⟩ := st
  cases results with
  | none =>
    have hnext : (aggregate aggregation child).Next catalog ⟨below, none⟩ s (.ok none, ⟨below, none⟩, s) :=
      fun _ _ _ => rfl
    exact .of_exhausted hnext
  | some found =>
    obtain ⟨rows, pos⟩ := found
    have heach : ∀ {β : Type} (c : Consumer β) (pos : Nat) (b : β) (s : Storage),
        (aggregate aggregation child).each catalog c ⟨below, some (rows, pos)⟩ b s =
          match eachOf rows c pos b s with
          | (ending, pos, b, s) => (ending, ⟨below, some (rows, pos)⟩, b, s) := fun _ _ _ _ => rfl
    exact pulled_of_eachOf heach pos a s

/-- A source that writes gives the row that it holds, once. -/
theorem stepwise_write (operation : Catalog → Row → Storage → Except Error Unit × Storage) (child : Source) :
    (write operation child).Stepwise := by
  intro α catalog consume st a s
  obtain ⟨below, held, served⟩ := st
  -- after it was asked, it has nothing left
  have hserved : ∀ a s, Pulled (write operation child) catalog consume ⟨below, held, true⟩ a s
      ((write operation child).each catalog consume ⟨below, held, true⟩ a s) := by
    intro a s
    have hnext : (write operation child).Next catalog ⟨below, held, true⟩ s
        (.ok none, ⟨below, held, true⟩, s) := fun _ _ _ => rfl
    exact .of_exhausted hnext
  cases served with
  | true => exact hserved a s
  | false =>
    cases held with
    | none =>
      have hnext : (write operation child).Next catalog ⟨below, none, false⟩ s
          (.ok none, ⟨below, none, true⟩, s) := fun _ _ _ => rfl
      exact .of_exhausted hnext
    | some row =>
      have hnext : (write operation child).Next catalog ⟨below, some row, false⟩ s
          (.ok (some row), ⟨below, some row, true⟩, s) := by
        intro β c b
        simp only [write, Bool.false_eq_true, if_false]
        rcases c row b s with ⟨step, s₁⟩
        cases step <;> rfl
      refine .of_next hnext ?_
      rintro found st' s' b s₁ ⟨⟩ -
      exact hserved b s₁

end RowStore.Source

namespace RowStore

/-- **Row by row.**  Every plan gives its rows to a consumer as if they were fetched one by one, each
    before the consumer sees it. -/
theorem Plan.stepwise (plan : Plan) : plan.source.Stepwise := by
  induction plan with
  | rows schema given => exact Source.stepwise_ofRows schema given
  | scan table schema => exact Source.stepwise_ofTable table schema
  | filter condition child ih => exact Source.stepwise_filter condition (Source.stepwise_guard ih)
  | join condition outer inner ihouter ihinner =>
    exact Source.stepwise_join condition (Source.stepwise_guard ihouter) (Source.stepwise_guard ihinner)
  | aggregate aggregation child _ => exact Source.stepwise_aggregate aggregation _
  | insert tid table child _ => exact Source.stepwise_write _ _
  | delete tid child _ => exact Source.stepwise_write _ _

end RowStore
