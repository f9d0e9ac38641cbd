import RowStore.Proofs.Cursor.Drains
import RowStore.Proofs.Plan.Exact
import RowStore.Proofs.Plan.Words

/-!
What an aggregation does, call by call.

Program.  An aggregation takes all rows of its child when it is started, reduces them, and keeps the
rows of the result.  Afterwards it gives these, as often as it is rewound.

1. Whatever the child is, its rows are those that its calls give: `Cursor.Drains` with a consumer
   that does nothing (`Cursor.taken`).  The aggregation takes just these (`drain_of_drains`).
2. While it is open, an aggregation is at a position of the list of its results (`Serving`).  Calls
   other than a start leave the storage alone, and the child unless they close it (`use_of_serving`);
   so does a run of them, with any requests to the store in between (`serves_of_serving`).

Crux.  The program gives each row of the child to the aggregation from inside the child.  That this is
the loop of calls is what it means for the child to be stepwise, as for plans that write.

`aggregate_exact` is the whole of it: the rows that a start leaves are the exact ones of
`RowStore.Proofs.Plan.Exact`, and words are wide enough for them.
-/

namespace RowStore

open Storage Source

namespace Cursor

variable {catalog : Catalog} {s s' : Storage}

/-! ## Taking all rows of the child -/

/-- A row is taken, and nothing is done with it. -/
def taken (_ : Row) (s : Storage) : Except Error Unit × Storage := (.ok (), s)

/-- The ending of a run that took all rows. -/
def endingOf : Except Error Unit → Ending
  | .ok () => .exhausted
  | .error e => .failed e

variable {plan : Plan} {g : plan.source.guard.State} {c c' : Cursor}

/-- A cursor that has no further row has fetched none. -/
theorem fetch_of_ended (hmore : Cursor.hasNext catalog ⟨plan, g⟩ s = (.ok false, c', s')) :
    ∃ g' : plan.source.guard.State, c' = ⟨plan, g'⟩ ∧
      plan.source.guard.fetch catalog g s = (.ok none, g', s') := by
  rcases hfetch : plan.source.guard.fetch catalog g s with ⟨r, g', s₁⟩
  have hcalls := calls_of_fetch hfetch
  rcases r with e | _ | row
  · cases hcalls.symm.trans hmore
  · cases hcalls.symm.trans hmore
    exact ⟨g', rfl, rfl⟩
  · obtain ⟨c, hmore', -⟩ := hcalls
    cases hmore'.symm.trans hmore

/-- A cursor that cannot have a further row could not fetch one. -/
theorem fetch_of_unread {e : Error}
    (hmore : Cursor.hasNext catalog ⟨plan, g⟩ s = (.error e, c', s')) :
    ∃ g' : plan.source.guard.State, c' = ⟨plan, g'⟩ ∧
      plan.source.guard.fetch catalog g s = (.error e, g', s') := by
  rcases hfetch : plan.source.guard.fetch catalog g s with ⟨r, g', s₁⟩
  have hcalls := calls_of_fetch hfetch
  rcases r with e' | _ | row
  · cases hcalls.symm.trans hmore
    exact ⟨g', rfl, rfl⟩
  · cases hcalls.symm.trans hmore
  · obtain ⟨c, hmore', -⟩ := hcalls
    cases hmore'.symm.trans hmore

/-- A cursor that gives a row has fetched it. -/
theorem fetch_of_given {row : Row} {s₁ : Storage}
    (hmore : Cursor.hasNext catalog ⟨plan, g⟩ s = (.ok true, c, s₁))
    (hnext : c.next catalog s₁ = (.ok row, c', s')) :
    ∃ g' : plan.source.guard.State, c' = ⟨plan, g'⟩ ∧
      plan.source.guard.fetch catalog g s = (.ok (some row), g', s') := by
  rcases hfetch : plan.source.guard.fetch catalog g s with ⟨r, g', s₂⟩
  have hcalls := calls_of_fetch hfetch
  rcases r with e | _ | row'
  · cases hcalls.symm.trans hmore
  · cases hcalls.symm.trans hmore
  · obtain ⟨c₁, hmore', hnext'⟩ := hcalls
    cases hmore'.symm.trans hmore
    cases hnext'.symm.trans hnext
    exact ⟨g', rfl, rfl⟩

section Taking

variable {a : Aggregation} {rows : List Row} {outcome : Except Error Unit} {groups groups' : Groups}

/-- A row is given to an aggregation. -/
def reducing (a : Aggregation) (row : Row) (groups : Groups) (s : Storage) :
    Except Error Groups × Storage :=
  (a.add row groups, s)

/-- Rows that calls give one by one are given to an aggregation one by one. -/
theorem each_of_writes (h : Writes catalog taken ⟨plan, g⟩ s rows outcome c' s')
    (hfold : rows.foldlM (fun groups row => a.add row groups) groups = .ok groups') :
    ∃ g' : plan.source.guard.State, c' = ⟨plan, g'⟩ ∧
      plan.source.guard.each catalog (feed (reducing a)) g (.ok groups) s =
        (endingOf outcome, g', .ok groups', s') := by
  have hstep : ∀ (g : plan.source.guard.State) (s : Storage),
      plan.source.guard.Next catalog g s (plan.source.guard.fetch catalog g s) :=
    (stepwise_guard plan.stepwise).next
  generalize hc : (⟨plan, g⟩ : Cursor) = c at h
  induction h generalizing g groups with
  | ended hmore =>
    subst hc
    cases hfold
    obtain ⟨g', rfl, hfetch⟩ := fetch_of_ended hmore
    exact ⟨g', rfl, by rw [hstep g _ _ _ _, hfetch]; rfl⟩
  | unread hmore =>
    subst hc
    cases hfold
    obtain ⟨g', rfl, hfetch⟩ := fetch_of_unread hmore
    exact ⟨g', rfl, by rw [hstep g _ _ _ _, hfetch]; rfl⟩
  | refused _ _ hrow => cases hrow
  | @wrote c c₁ c₂ c' s s₁ s₂ s₃ s' row rows r hmore hnext hrow hrest ih =>
    subst hc
    cases hrow
    obtain ⟨g₂, rfl, hfetch⟩ := fetch_of_given hmore hnext
    rw [List.foldlM_cons] at hfold
    cases hadd : a.add row groups with
    | error e =>
      rw [hadd] at hfold
      cases hfold
    | ok groups₁ =>
      rw [hadd] at hfold
      obtain ⟨g', rfl, hlater⟩ := ih hfold rfl
      refine ⟨g', rfl, ?_⟩
      rw [hstep g _ _ _ _, hfetch]
      simp only [feed, reducing, hadd]
      exact hlater

/-- An aggregation takes from its child the rows that the calls of a cursor take. -/
theorem drain_of_drains (h : Drains catalog taken ⟨plan, g⟩ s rows outcome c' s')
    (hfold : rows.foldlM (fun groups row => a.add row groups) [] = .ok groups) :
    ∃ g' : plan.source.guard.State, c' = ⟨plan, g'⟩ ∧
      plan.source.guard.drain catalog (reducing a) g [] s = (outcome.map fun _ => groups, g', s') := by
  have hstarts : ∀ {r : Except Error Unit} {c₁ : Cursor} {s₁ : Storage},
      Cursor.start catalog ⟨plan, g⟩ s = (r, c₁, s₁) →
      ∃ g₁ : plan.source.guard.State, c₁ = ⟨plan, g₁⟩ ∧
        plan.source.guard.start catalog g s = (r, g₁, s₁) := by
    intro r c₁ s₁ hstart
    rcases hguard : Guarded.start catalog g s with ⟨r₁, g₁, s₂⟩
    simp only [Cursor.start, hguard] at hstart
    cases hstart
    exact ⟨g₁, rfl, hguard⟩
  cases h with
  | unopened hstart =>
    cases hfold
    obtain ⟨g₁, rfl, hguard⟩ := hstarts hstart
    refine ⟨g₁, rfl, ?_⟩
    unfold drain
    rw [hguard]
    rfl
  | @opened _ _ s₁ _ _ _ hstart hrows =>
    obtain ⟨g₁, rfl, hguard⟩ := hstarts hstart
    obtain ⟨g', rfl, heach⟩ := each_of_writes hrows hfold
    refine ⟨g', rfl, ?_⟩
    unfold drain
    rw [hguard]
    split
    · rename_i herror
      cases herror
    · rename_i hok
      cases hok
      split
      rename_i ending st result s₂ hruns
      -- the consumer that the program writes out is `feed`
      cases hruns.symm.trans heach
      cases outcome <;> rfl

end Taking

/-! ## What a start leaves -/

/-- The cursor over the child of an aggregation. -/
def reduced : Cursor → Cursor
  | ⟨.aggregate _ child, g⟩ => ⟨child, g.inner.child⟩
  | c => c

/-- An aggregation that holds its results is at a position of them, if it is open. -/
inductive ServingState {σ : Type} (rows : List Row) :
    Guarded (AggregateState σ) → Option Nat → Prop
  | closed {ahead : Option Row} {st : AggregateState σ} : ServingState rows ⟨false, ahead, st⟩ none
  | between {below : σ} {n : Nat} (hn : n ≤ rows.length) :
    ServingState rows ⟨true, none, ⟨below, some (rows, n)⟩⟩ (some n)
  | seen {below : σ} {n : Nat} {row : Row} (hrow : rows[n]? = some row) :
    ServingState rows ⟨true, some row, ⟨below, some (rows, n + 1)⟩⟩ (some n)

/-- The same of a cursor. -/
def Serving (rows : List Row) (position : Option Nat) : Cursor → Prop
  | ⟨.aggregate _ _, g⟩ => ServingState rows g position
  | _ => False

section Starting

variable {a : Aggregation} {child : Plan} {rows : List Row} {outcome : Except Error Unit}

/-- What an aggregation makes of what it took. -/
theorem start_of_drain {below : Source} {st : AggregateState below.State} {taken : below.State}
    {result : Except Error Groups}
    (hdrain : below.drain catalog (reducing a) st.child [] s = (result, taken, s')) :
    (Source.aggregate a below).start catalog st s =
      match result.bind a.groupRows with
      | .error e => (.error e, ⟨taken, st.results⟩, s')
      | .ok rows => (.ok (), ⟨taken, some (rows, 0)⟩, s') := by
  have hprogram : below.drain catalog (fun row groups s => (a.add row groups, s)) st.child [] s =
      (result, taken, s') := hdrain
  unfold Source.aggregate
  simp only [hprogram]
  cases result with
  | error e => rfl
  | ok groups => rfl

/-- **A start.**  It takes the rows of the child, and if they can be reduced it holds the result. -/
theorem start_of_aggregate {g : Guarded (Plan.aggregate a child).source.State} {groups : Groups}
    (hdrains : Drains catalog taken (reduced ⟨.aggregate a child, g⟩) s rows outcome c' s')
    (hfold : rows.foldlM (fun groups row => a.add row groups) [] = .ok groups) :
    ∃ answer c, Cursor.start catalog ⟨.aggregate a child, g⟩ s = (answer, c, s') ∧ reduced c = c' ∧
      answer = (outcome.bind fun _ => a.reduce rows).map (fun _ => ()) ∧
      ∀ result, answer = .ok () → a.reduce rows = .ok result → Serving result (some 0) c := by
  have hreduce : a.reduce rows = a.groupRows groups := by
    unfold Aggregation.reduce
    rw [hfold]
    rfl
  obtain ⟨below, rfl, hdrain⟩ := drain_of_drains hdrains hfold
  have hinner : (Plan.aggregate a child).source.start catalog g.inner s = _ := start_of_drain hdrain
  rw [hreduce]
  cases outcome with
  | error e => exact ⟨_, _, start_of_error hinner, rfl, rfl, nofun⟩
  | ok done =>
    change (Plan.aggregate a child).source.start catalog g.inner s =
      match a.groupRows groups with
      | .error e => (.error e, ⟨below, g.inner.results⟩, s')
      | .ok rows => (.ok (), ⟨below, some (rows, 0)⟩, s') at hinner
    cases hrows : a.groupRows groups with
    | error e =>
      rw [hrows] at hinner
      exact ⟨_, _, start_of_error hinner, rfl, rfl, nofun⟩
    | ok result =>
      rw [hrows] at hinner
      refine ⟨_, _, start_of_ok hinner, rfl, rfl, ?_⟩
      rintro result' - ⟨⟩
      exact .between (Nat.zero_le _)

end Starting

/-! ## What it does until it is started again -/

section Using

variable {a : Aggregation} {child : Plan} {rows : List Row}

/-- An aggregation gives the row at its position. -/
theorem fetch_of_aggregate (below : child.source.guard.State) (n : Nat) :
    (Source.aggregate a child.source.guard).fetch catalog ⟨below, some (rows, n)⟩ s =
      match rows[n]? with
      | none => (.ok none, ⟨below, some (rows, rows.length)⟩, s)
      | some row => (.ok (some row), ⟨below, some (rows, n + 1)⟩, s) := by
  have heach : (Source.aggregate a child.source.guard).each catalog
      (fun row (_ : Option Row) s => (.done (some row), s)) ⟨below, some (rows, n)⟩ none s =
      match eachOf rows (fun row (_ : Option Row) s => (.done (some row), s)) n none s with
      | (ending, pos, b, s) => (ending, ⟨below, some (rows, pos)⟩, b, s) := rfl
  unfold fetch
  rw [heach, eachOf_eq]
  cases rows[n]? <;> rfl

/-- Looking for a further row of the result. -/
theorem look_of_serving (catalog : Catalog) (s : Storage)
    {g : Guarded (Plan.aggregate a child).source.State} {n : Nat} (hserving : ServingState rows g (some n)) :
    (n = rows.length ∧ Guarded.hasNext catalog g s =
      (.ok false, ⟨true, none, ⟨g.inner.child, some (rows, n)⟩⟩, s)) ∨
    ∃ row, rows[n]? = some row ∧ Guarded.hasNext catalog g s =
      (.ok true, ⟨true, some row, ⟨g.inner.child, some (rows, n + 1)⟩⟩, s) := by
  cases hserving with
  | @between below _ hn =>
    have hfetch : (Plan.aggregate a child).source.fetch catalog ⟨below, some (rows, n)⟩ s = _ :=
      fetch_of_aggregate below n
    unfold Guarded.hasNext
    cases hrow : rows[n]? with
    | none =>
      obtain rfl : n = rows.length := Nat.le_antisymm hn (List.getElem?_eq_none_iff.mp hrow)
      rw [hrow] at hfetch
      simp only [hfetch]
      exact Or.inl ⟨trivial, rfl⟩
    | some row =>
      rw [hrow] at hfetch
      simp only [hfetch]
      exact Or.inr ⟨row, rfl, rfl⟩
  | seen hrow => exact Or.inr ⟨_, hrow, rfl⟩

/-- **Using the result.**  Calls other than a start answer like a cursor over the list of the result, and
    leave the storage alone.  Only closing does something to the child. -/
theorem use_of_serving (catalog : Catalog) (s : Storage)
    {g : Guarded (Plan.aggregate a child).source.State} {position : Option Nat}
    (hserving : Serving rows position ⟨.aggregate a child, g⟩) {call : Call} (hcall : call ≠ .start) :
    ∃ g', Cursor.call catalog ⟨.aggregate a child, g⟩ s call =
        ((ListCursor.call ⟨rows, position⟩ call).1, ⟨.aggregate a child, g'⟩, s) ∧
      Serving rows (ListCursor.call ⟨rows, position⟩ call).2.position ⟨.aggregate a child, g'⟩ ∧
      (call ≠ .close → reduced ⟨.aggregate a child, g'⟩ = reduced ⟨.aggregate a child, g⟩) := by
  replace hserving : ServingState rows g position := hserving
  have hlooks := fun n (hserving : ServingState rows g (some n)) => look_of_serving catalog s hserving
  cases call with
  | start => exact absurd rfl hcall
  | close => exact ⟨_, rfl, .closed, fun hno => absurd rfl hno⟩
  | rewind =>
    cases hserving with
    | closed => exact ⟨_, rfl, .closed, fun _ => rfl⟩
    | between | seen => exact ⟨_, rfl, .between (Nat.zero_le _), fun _ => rfl⟩
  | hasNext =>
    cases position with
    | none =>
      cases hserving
      exact ⟨_, rfl, .closed, fun _ => rfl⟩
    | some n =>
      obtain ⟨rfl, hlook⟩ | ⟨row, hrow, hlook⟩ := hlooks n hserving
      · refine ⟨_, ?_, .between (Nat.le_refl _), fun _ => rfl⟩
        simp only [Cursor.call, Cursor.hasNext, hlook, Reply.of, ListCursor.call, Nat.lt_irrefl,
          decide_false]
        rfl
      · have hlt : n < rows.length := (List.getElem?_eq_some_iff.mp hrow).1
        refine ⟨_, ?_, .seen hrow, fun _ => rfl⟩
        simp only [Cursor.call, Cursor.hasNext, hlook, Reply.of, ListCursor.call, hlt, decide_true]
        rfl
  | next =>
    cases position with
    | none =>
      cases hserving
      exact ⟨_, rfl, .closed, fun _ => rfl⟩
    | some n =>
      obtain ⟨rfl, hlook⟩ | ⟨row, hrow, hlook⟩ := hlooks n hserving
      · have hnone : rows[rows.length]? = none := List.getElem?_eq_none_iff.mpr (Nat.le_refl _)
        simp only [ListCursor.call, hnone]
        refine ⟨_, ?_, .between (Nat.le_refl _), fun _ => rfl⟩
        simp only [Cursor.call, Cursor.next, Guarded.next, hlook, Reply.of]
        rfl
      · have hlt : n < rows.length := (List.getElem?_eq_some_iff.mp hrow).1
        simp only [ListCursor.call, hrow]
        refine ⟨_, ?_, .between hlt, fun _ => rfl⟩
        simp only [Cursor.call, Cursor.next, Guarded.next, hlook, Reply.of]
        rfl

end Using

/-! ## Runs -/

end Cursor

/-- The request, if a move is one. -/
def Move.request? : Move → Option Request
  | .call _ => none
  | .request asked => some asked

namespace Cursor

/-- Until it is started again, a cursor that was just started answers like a cursor over a list, whatever is
    asked of the store meanwhile.  Its calls leave the store to these requests, and until it is closed they
    ask nothing of the source that its plan reduces. -/
def Serves (rows : List Row) (c : Cursor) : Prop :=
  ∀ (db : Database) (moves : List Move), .call .start ∉ moves →
    c.answers db moves = ListCursor.answers ⟨rows, some 0⟩ (moves.filterMap Move.call?) ∧
    (c.after db moves).2 = db.after (moves.filterMap Move.request?) ∧
    (.call .close ∉ moves → reduced (c.after db moves).1 = reduced c)

section Running

variable {a : Aggregation} {child : Plan} {rows : List Row}

/-- The same from every position on. -/
theorem serves_of_serving {g : Guarded (Plan.aggregate a child).source.State} {position : Option Nat}
    (hserving : Serving rows position ⟨.aggregate a child, g⟩) (db : Database) {moves : List Move}
    (hmoves : .call .start ∉ moves) :
    Cursor.answers ⟨.aggregate a child, g⟩ db moves =
        ListCursor.answers ⟨rows, position⟩ (moves.filterMap Move.call?) ∧
      (Cursor.after ⟨.aggregate a child, g⟩ db moves).2 = db.after (moves.filterMap Move.request?) ∧
      (.call .close ∉ moves → reduced (Cursor.after ⟨.aggregate a child, g⟩ db moves).1 =
        reduced ⟨.aggregate a child, g⟩) := by
  induction moves generalizing g position db with
  | nil => exact ⟨rfl, rfl, fun _ => rfl⟩
  | cons move moves ih =>
    obtain ⟨hmove, hlater⟩ := not_or.mp (mt List.mem_cons.mpr hmoves)
    cases move with
    | request request =>
      obtain ⟨hanswers, hstore, hchild⟩ := ih hserving (db.perform request).2 hlater
      exact ⟨hanswers, hstore, fun hclose => hchild (mt (List.mem_cons_of_mem _) hclose)⟩
    | call call =>
      have hcall : call ≠ .start := fun hsame => hmove (congrArg Move.call hsame.symm)
      obtain ⟨g', hcalled, hnext, hsame⟩ :=
        use_of_serving db.catalog db.storage hserving hcall
      have hafter : Cursor.move ⟨.aggregate a child, g⟩ db (.call call) = (⟨.aggregate a child, g'⟩, db) := by
        simp only [Cursor.move, hcalled]
      have hlist := ListCursor.call_eq rows position call
      obtain ⟨hanswers, hstore, hchild⟩ := ih hnext db hlater
      refine ⟨?_, ?_, fun hclose => ?_⟩
      · show _ :: _ = (ListCursor.call ⟨rows, position⟩ call).1 ::
          (ListCursor.call ⟨rows, position⟩ call).2.answers (moves.filterMap Move.call?)
        rw [hcalled, hafter, hanswers, hlist]
      · show (Cursor.after _ _ moves).2 = db.after (moves.filterMap Move.request?)
        rw [hafter, hstore]
      · obtain ⟨hother, hclose⟩ := not_or.mp (mt List.mem_cons.mpr hclose)
        show reduced (Cursor.after _ _ moves).1 = _
        rw [hafter, hchild hclose]
        exact hsame fun hno => hother (congrArg Move.call hno.symm)

end Running

/-- All rows of a cursor can be taken, one way or the other. -/
theorem exists_drains (catalog : Catalog) (c : Cursor) (s : Storage) :
    ∃ rows outcome c' s', Drains catalog taken c s rows outcome c' s' := by
  obtain ⟨plan, g⟩ := c
  rcases hdrain : plan.source.guard.drain catalog (counted taken) g 0 s with ⟨result, g', s'⟩
  obtain ⟨rows, outcome, hdrains, -⟩ := drains_of_drain hdrain
  exact ⟨rows, outcome, _, _, hdrains⟩

/-- The rows that are left of rows given outright are taken one by one. -/
theorem writes_rows (schema : Schema) (rows : List Row) {n : Nat} (hn : n ≤ rows.length) :
    Writes catalog taken ⟨.rows schema rows, ⟨true, none, n⟩⟩ s (rows.drop n) (.ok ())
      ⟨.rows schema rows, ⟨true, none, rows.length⟩⟩ s := by
  have hfetch : (Plan.rows schema rows).source.fetch catalog n s =
      match rows[n]? with
      | none => (.ok none, rows.length, s)
      | some row => (.ok (some row), n + 1, s) := by
    have heach : (Plan.rows schema rows).source.each catalog
        (fun row (_ : Option Row) s => (.done (some row), s)) n none s =
        eachOf rows (fun row (_ : Option Row) s => (.done (some row), s)) n none s := rfl
    unfold fetch
    rw [heach, eachOf_eq]
    cases rows[n]? <;> rfl
  rcases Nat.eq_or_lt_of_le hn with rfl | hlt
  · rw [List.getElem?_eq_none_iff.mpr (Nat.le_refl _)] at hfetch
    rw [List.drop_length]
    refine .ended ?_
    simp only [Cursor.hasNext, Guarded.hasNext, hfetch]
    rfl
  · rw [List.getElem?_eq_getElem hlt] at hfetch
    rw [List.drop_eq_getElem_cons hlt]
    have hmore : Cursor.hasNext catalog ⟨.rows schema rows, ⟨true, none, n⟩⟩ s =
        (.ok true, ⟨.rows schema rows, ⟨true, some rows[n], n + 1⟩⟩, s) := by
      simp only [Cursor.hasNext, Guarded.hasNext, hfetch]
      rfl
    exact .wrote hmore rfl rfl (writes_rows schema rows hlt)
termination_by rows.length - n

/-- Rows given outright are taken as they are. -/
theorem drains_rows (schema : Schema) (rows : List Row) (g : Guarded (Plan.rows schema rows).source.State) :
    Drains catalog taken ⟨.rows schema rows, g⟩ s rows (.ok ())
      ⟨.rows schema rows, ⟨true, none, rows.length⟩⟩ s :=
  .opened rfl (writes_rows schema rows (Nat.zero_le _))

/-- **An aggregation is exact.**  Whatever rows of its schema the child gives, fewer than 2³² of them: it can
    be started exactly if the child can and no group has a number of rows or a sum beyond 32 bits.  Then it
    serves one row for each group, in the order in which the groups are first met, with the exact number of
    the group, and rewinding it asks nothing of the child. -/
theorem aggregate_exact {child plan : Plan} {column : Nat} {group : Option Nat} {function : AggregateFunction}
    (hmake : Plan.mkAggregate child column group function = .ok plan) {g : Guarded plan.source.State}
    {rows : List Row} {outcome : Except Error Unit} {c' : Cursor}
    (hdrains : Drains catalog taken (reduced ⟨plan, g⟩) s rows outcome c' s')
    (htyped : ∀ row ∈ rows, row.Typed child.schema) (hfew : rows.length < 4294967296) :
    ∃ a answer c, plan = .aggregate a child ∧
      a.column = column ∧ a.group = group ∧ a.function = function ∧
      a.materialize rows = a.reduce rows ∧
      (group = none → groupKeys group rows = if rows = [] then [] else [none]) ∧
      Cursor.start catalog ⟨plan, g⟩ s = (answer, c, s') ∧ reduced c = c' ∧
      match outcome with
      | .error e => answer = .error e
      | .ok () =>
        ((∀ key ∈ groupKeys group rows, IsInt32 (a.exact rows key)) ∧
          answer = .ok () ∧ c.Serves (a.exactRows rows)) ∨
        ∃ key ∈ groupKeys group rows, ¬ IsInt32 (a.exact rows key) ∧
          (function = .count ∨ function = .sum) ∧
          answer = .error (.mismatch (.aggregateRange function (a.exact rows key))) := by
  cases hcolumns : Aggregation.ofColumns child.schema column group function with
  | error e =>
    rw [Plan.mkAggregate, hcolumns] at hmake
    cases hmake
  | ok a =>
    rw [Plan.mkAggregate, hcolumns] at hmake
    cases hmake
    obtain ⟨rfl, rfl, rfl⟩ := Aggregation.fields_of_ofColumns hcolumns
    have hfold := Aggregation.foldlM_add_groupsOf (Aggregation.suits_of_ofColumns hcolumns) htyped
    obtain ⟨answer, c, hstart, hchild, hanswer, hserving⟩ := start_of_aggregate hdrains hfold
    refine ⟨a, answer, c, rfl, rfl, rfl, rfl, a.materialize_eq_reduce hfew, ?_, hstart, hchild, ?_⟩
    · intro hgroup
      rw [hgroup, groupKeys_none]
    · cases outcome with
      | error e => exact hanswer
      | ok done =>
        obtain ⟨hall, hreduce⟩ | ⟨key, hkey, hout, hfunction, hreduce⟩ :=
          Aggregation.reduce_exact hcolumns htyped
        · rw [hreduce] at hanswer
          obtain ⟨g', rfl⟩ : ∃ g', c = ⟨.aggregate a child, g'⟩ := by
            rw [Cursor.start] at hstart
            cases hstart
            exact ⟨_, rfl⟩
          exact Or.inl ⟨hall, hanswer, fun db moves =>
            serves_of_serving (hserving _ hanswer hreduce) db⟩
        · rw [hreduce] at hanswer
          exact Or.inr ⟨key, hkey, hout, hfunction, hanswer⟩

/-- Two groups take turns, and the average of one is negative: it is rounded toward zero. -/
theorem aggregate_exact_of_turns :
    let schema : Schema := ⟨[⟨"name", .string⟩, ⟨"n", .int⟩], by simp⟩
    let row (name : String) (n : Int32) : Row := ⟨schema, [.string name, .int n], none⟩
    let child := Plan.rows schema [row "a" (-7), row "b" 5, row "a" 2]
    let averages : Aggregation :=
      ⟨.avg, 1, some 0, .int, ⟨[⟨"name", .string⟩, ⟨"avg(n)", .int⟩], by simp⟩⟩
    let storage : Storage := ⟨Files.empty, Pool.empty Config.standard⟩
    Plan.mkAggregate child 1 (some 0) .avg = .ok (.aggregate averages child) ∧
      ∃ c, (Cursor.ofPlan (.aggregate averages child)).start Catalog.empty storage = (.ok (), c, storage) ∧
        c.Serves [⟨averages.schema, [.string "a", .int (-2)], none⟩,
          ⟨averages.schema, [.string "b", .int 5], none⟩] := by
  intro schema row child averages storage
  have hmake : Plan.mkAggregate child 1 (some 0) .avg = .ok (.aggregate averages child) := by
    have hcolumns : Aggregation.ofColumns child.schema 1 (some 0) .avg = .ok averages := by
      decide +kernel
    unfold Plan.mkAggregate
    rw [hcolumns]
    rfl
  let g := (Plan.aggregate averages child).source.guard.initial
  have hdrains : Drains Catalog.empty taken (reduced ⟨.aggregate averages child, g⟩) storage
      [row "a" (-7), row "b" 5, row "a" 2] (.ok ()) _ storage := drains_rows schema _ _
  have htyped : ∀ r ∈ [row "a" (-7), row "b" 5, row "a" 2], r.Typed child.schema := by
    simp only [Row.Typed]
    decide
  obtain ⟨a, answer, c, hplan, -, -, -, -, -, hstart, -, hresult⟩ :=
    aggregate_exact hmake hdrains htyped (by decide)
  obtain rfl : averages = a := (Plan.aggregate.inj hplan).1
  obtain ⟨-, rfl, hserves⟩ | ⟨_, -, -, hfunction, -⟩ := hresult
  · have hrows : averages.exactRows [row "a" (-7), row "b" 5, row "a" 2] =
        [⟨averages.schema, [.string "a", .int (-2)], none⟩,
          ⟨averages.schema, [.string "b", .int 5], none⟩] := by decide +kernel
    rw [hrows] at hserves
    exact ⟨hmake, c, hstart, hserves⟩
  · cases hfunction with
    | inl hcount => cases hcount
    | inr hsum => cases hsum

end Cursor

end RowStore
