import RowStore.Proofs.Cursor.Moments
import RowStore.Proofs.Cursor.Pulls

/-!
What a plan that writes does, call by call.

Program.  A plan that inserts or deletes rows does so when it is started: as long as its child has a
further row, it takes that row and writes it.  Then it holds one row, the number of rows that it wrote,
and gives it after the start and after every rewind.

1. `Cursor.Writes` is that loop in terms of the calls of a cursor over the child, and `Cursor.Drains` is
   the start of the child and then the loop.
2. A start of a plan that writes drains its child, and if it fails the row that was held stays
   (`Cursor.start_of_writer`).
3. All other calls leave the storage alone, and they answer like a cursor over a list with the row that
   is held as its only row (`Cursor.use_of_writer`).  So does every run until a start succeeds again
   (`Cursor.answers_until_start`).

Crux.  The program of the plan gives each row of the child to the operation from inside the child.  That
this is the loop of calls is what it means for the child to be stepwise.
-/

namespace RowStore

open Storage Source

/-! ## Looking and taking -/

/-- What a source fetches under the rules is what its calls find. -/
theorem Source.Guarded.calls_of_fetch {src : Source} {catalog : Catalog} {g g' : Guarded src.State}
    {s s' : Storage} {r : Except Error (Option Row)} (h : src.guard.fetch catalog g s = (r, g', s')) :
    match r with
    | .error e => Guarded.hasNext catalog g s = (.error e, g', s')
    | .ok none => Guarded.hasNext catalog g s = (.ok false, g', s')
    | .ok (some row) => ∃ g₁, Guarded.hasNext catalog g s = (.ok true, g₁, s') ∧
        Guarded.next catalog g₁ s' = (.ok row, g', s') := by
  obtain ⟨isOpen, ahead, inner⟩ := g
  cases isOpen with
  | false =>
    have hnext : src.guard.Next catalog ⟨false, ahead, inner⟩ s
        (.error .notOpen, ⟨false, ahead, inner⟩, s) := fun _ _ _ => rfl
    cases hnext.fetch_eq.symm.trans h
    rfl
  | true =>
    cases ahead with
    | some row =>
      cases Guarded.next_of_some.fetch_eq.symm.trans h
      exact ⟨_, rfl, rfl⟩
    | none =>
      rw [Guarded.fetch_of_none] at h
      rcases hfetch : src.fetch catalog inner s with ⟨found, inner₁, s₁⟩
      rw [hfetch] at h
      cases h
      have hnext : Guarded.hasNext catalog (⟨true, none, inner⟩ : Guarded src.State) s = match r with
          | .error e => (.error e, ⟨true, none, inner₁⟩, s')
          | .ok row => (.ok row.isSome, ⟨true, row, inner₁⟩, s') := by
        unfold Guarded.hasNext
        simp only [Bool.not_true, Bool.false_eq_true, if_false, hfetch]
        cases r <;> rfl
      cases r with
      | error e => exact hnext
      | ok found =>
        cases found with
        | none => exact hnext
        | some row => exact ⟨_, hnext, rfl⟩

namespace Cursor

/-- What the source of a plan fetches is what the calls of a cursor find. -/
theorem calls_of_fetch {plan : Plan} {catalog : Catalog} {g g' : plan.source.guard.State}
    {s s' : Storage} {r : Except Error (Option Row)}
    (h : plan.source.guard.fetch catalog g s = (r, g', s')) :
    match r with
    | .error e => Cursor.hasNext catalog ⟨plan, g⟩ s = (.error e, ⟨plan, g'⟩, s')
    | .ok none => Cursor.hasNext catalog ⟨plan, g⟩ s = (.ok false, ⟨plan, g'⟩, s')
    | .ok (some row) => ∃ c, Cursor.hasNext catalog ⟨plan, g⟩ s = (.ok true, c, s') ∧
        c.next catalog s' = (.ok row, ⟨plan, g'⟩, s') := by
  have hfound := Guarded.calls_of_fetch h
  cases r with
  | error e => simp only [Cursor.hasNext, hfound]
  | ok found =>
    cases found with
    | none => simp only [Cursor.hasNext, hfound]
    | some row =>
      obtain ⟨g₁, hmore, hnext⟩ := hfound
      refine ⟨⟨plan, g₁⟩, ?_, ?_⟩
      · simp only [Cursor.hasNext, hmore]
      · simp only [Cursor.next, hnext]

end Cursor

/-! ## Starting and reading -/

/-- A guard is opened if the source below it can be started. -/
theorem Source.guard_start {src : Source} {catalog : Catalog} {s s' : Storage} {g : Guarded src.State}
    {inner : src.State} (hstart : src.start catalog g.inner s = (.ok (), inner, s')) :
    src.guard.start catalog g s = (.ok (), ⟨true, none, inner⟩, s') := by
  show Guarded.start catalog g s = _
  simp only [Guarded.start, hstart]
  rfl

/-- A guard stays as it is if the source below it cannot be started. -/
theorem Source.guard_start_error {src : Source} {catalog : Catalog} {s s' : Storage}
    {g : Guarded src.State} {inner : src.State} {e : Error}
    (hstart : src.start catalog g.inner s = (.error e, inner, s')) :
    src.guard.start catalog g s = (.error e, { g with inner := inner }, s') := by
  show Guarded.start catalog g s = _
  simp only [Guarded.start, hstart]
  rfl

namespace Cursor

variable {plan : Plan} {catalog : Catalog} {s s' : Storage} {g : Guarded plan.source.State}
  {st : plan.source.State}

/-- A cursor is opened if its source can be started. -/
theorem start_of_ok (hstart : plan.source.start catalog g.inner s = (.ok (), st, s')) :
    Cursor.start catalog ⟨plan, g⟩ s = (.ok (), ⟨plan, ⟨true, none, st⟩⟩, s') := by
  have hguard : Guarded.start catalog g s = _ := guard_start hstart
  simp only [Cursor.start, hguard]

/-- It is as open as before if its source cannot be started. -/
theorem start_of_error {e : Error} (hstart : plan.source.start catalog g.inner s = (.error e, st, s')) :
    Cursor.start catalog ⟨plan, g⟩ s = (.error e, ⟨plan, { g with inner := st }⟩, s') := by
  have hguard : Guarded.start catalog g s = _ := guard_start_error hstart
  simp only [Cursor.start, hguard]

/-- A cursor gives the rows that its source gives. -/
theorem collect_of_source {st₁ : plan.source.State} {rows : List Row}
    (heach : plan.source.each catalog takeRow st [] s = (.exhausted, st₁, rows, s')) :
    Cursor.collect catalog ⟨plan, ⟨true, none, st⟩⟩ s =
      (rows.reverse, none, ⟨plan, ⟨true, none, st₁⟩⟩, s') := by
  unfold Cursor.collect
  rw [show (fun row (rows : List Row) (s : Storage) => (ForInStep.yield (row :: rows), s)) = takeRow
    from rfl, Guarded.each_eq]
  simp only [heach]
  rfl

end Cursor

/-! ## The loop of a plan that writes -/

namespace Cursor

variable {catalog : Catalog} {operation : Row → Storage → Except Error Unit × Storage}

/-- As long as a cursor has a further row, it is taken and written: the rows that were, and how that
    ends. -/
inductive Writes (catalog : Catalog) (operation : Row → Storage → Except Error Unit × Storage) :
    Cursor → Storage → List Row → Except Error Unit → Cursor → Storage → Prop
  /-- There is no further row. -/
  | ended {c c' : Cursor} {s s' : Storage} (hmore : c.hasNext catalog s = (.ok false, c', s')) :
    Writes catalog operation c s [] (.ok ()) c' s'
  /-- The next row cannot be had. -/
  | unread {c c' : Cursor} {s s' : Storage} {e : Error}
    (hmore : c.hasNext catalog s = (.error e, c', s')) :
    Writes catalog operation c s [] (.error e) c' s'
  /-- The next row cannot be written. -/
  | refused {c c₁ c' : Cursor} {s s₁ s₂ s' : Storage} {row : Row} {e : Error}
    (hmore : c.hasNext catalog s = (.ok true, c₁, s₁))
    (hnext : c₁.next catalog s₁ = (.ok row, c', s₂)) (hrow : operation row s₂ = (.error e, s')) :
    Writes catalog operation c s [] (.error e) c' s'
  /-- The next row is written. -/
  | wrote {c c₁ c₂ c' : Cursor} {s s₁ s₂ s₃ s' : Storage} {row : Row} {rows : List Row}
    {r : Except Error Unit} (hmore : c.hasNext catalog s = (.ok true, c₁, s₁))
    (hnext : c₁.next catalog s₁ = (.ok row, c₂, s₂)) (hrow : operation row s₂ = (.ok (), s₃))
    (hrest : Writes catalog operation c₂ s₃ rows r c' s') :
    Writes catalog operation c s (row :: rows) r c' s'

/-- A cursor is started and all its rows are written: those that were, and how that ends. -/
inductive Drains (catalog : Catalog) (operation : Row → Storage → Except Error Unit × Storage)
    (c : Cursor) (s : Storage) : List Row → Except Error Unit → Cursor → Storage → Prop
  /-- It cannot be started. -/
  | unopened {c' : Cursor} {s' : Storage} {e : Error} (hstart : c.start catalog s = (.error e, c', s')) :
    Drains catalog operation c s [] (.error e) c' s'
  /-- Its rows are written, one by one. -/
  | opened {c₁ c' : Cursor} {s₁ s' : Storage} {rows : List Row} {r : Except Error Unit}
    (hstart : c.start catalog s = (.ok (), c₁, s₁))
    (hrows : Writes catalog operation c₁ s₁ rows r c' s') :
    Drains catalog operation c s rows r c' s'

variable {plan : Plan} {g g' : Guarded plan.source.State} {s s' : Storage}

/-- How a loop that was fed to an operation ended: with the error of the source, or as it was fed. -/
def fedResult {σ : Type} (all : Ending × σ × Except Error Nat × Storage) : Except Error Nat :=
  match all.1 with
  | .failed e => .error e
  | .exhausted | .stopped => all.2.2.1

/-- Feeding the rows of a plan to an operation that is counted is the loop of calls. -/
theorem writes_of_pulled {fed : Except Error Nat} {count : Nat} (hfed : fed = .ok count)
    {g : plan.source.guard.State} {all : Ending × plan.source.guard.State × Except Error Nat × Storage}
    (h : Pulled plan.source.guard catalog (feed (counted operation)) g fed s all) :
    ∃ rows r, Writes catalog operation ⟨plan, g⟩ s rows r ⟨plan, all.2.1⟩ all.2.2.2 ∧
      fedResult all = r.map fun _ => count + rows.length := by
  induction h generalizing count with
  | failed hfetch => exact ⟨[], _, .unread (calls_of_fetch hfetch), rfl⟩
  | exhausted hfetch => exact ⟨[], _, .ended (calls_of_fetch hfetch), hfed⟩
  | @stopped g g' _ _ s s₁ s' row hfetch hstep =>
    -- the consumer has enough only when the operation failed
    obtain ⟨c, hmore, hnext⟩ := calls_of_fetch hfetch
    subst hfed
    rcases hwritten : operation row s₁ with ⟨r, s₂⟩
    simp only [feed, counted, hwritten] at hstep
    cases r with
    | ok => cases hstep
    | error e =>
      cases hstep
      exact ⟨[], _, .refused hmore hnext hwritten, rfl⟩
  | @again g g₂ _ _ s s₁ s₂ row _ hfetch hstep _ ih =>
    obtain ⟨c, hmore, hnext⟩ := calls_of_fetch hfetch
    subst hfed
    rcases hwritten : operation row s₁ with ⟨r, s₃⟩
    simp only [feed, counted, hwritten] at hstep
    cases r with
    | error e => cases hstep
    | ok =>
      cases hstep
      obtain ⟨rows, r, hrest, hresult⟩ := ih rfl
      refine ⟨row :: rows, r, .wrote hmore hnext hwritten hrest, ?_⟩
      rw [hresult, List.length_cons]
      congr 1
      funext _
      omega

/-- Draining the source of a plan into an operation that is counted is the start of a cursor over it and
    the loop of its calls. -/
theorem drains_of_drain {result : Except Error Nat}
    (h : plan.source.guard.drain catalog (counted operation) g 0 s = (result, g', s')) :
    ∃ rows r, Drains catalog operation ⟨plan, g⟩ s rows r ⟨plan, g'⟩ s' ∧
      result = r.map fun _ => rows.length := by
  have hstarts : ∀ {r : Except Error Unit} {g₁ : Guarded plan.source.State} {s₁ : Storage},
      plan.source.guard.start catalog g s = (r, g₁, s₁) →
      Cursor.start catalog ⟨plan, g⟩ s = (r, ⟨plan, g₁⟩, s₁) := by
    intro r g₁ s₁ hstart
    have hguard : Guarded.start catalog g s = (r, g₁, s₁) := hstart
    simp only [Cursor.start, hguard]
  unfold drain at h
  split at h
  · rename_i e g₁ s₁ hstart
    cases h
    exact ⟨[], _, .unopened (hstarts hstart), rfl⟩
  · rename_i g₁ s₁ hstart
    split at h
    rename_i ending g₂ fed s₂ heach
    have hpulled : Pulled plan.source.guard catalog (feed (counted operation)) g₁ (Except.ok 0) s₁
        (ending, g₂, fed, s₂) := by
      rw [← heach]
      exact stepwise_guard plan.stepwise _ catalog _ g₁ _ s₁
    obtain ⟨rows, r, hrows, hresult⟩ := writes_of_pulled rfl hpulled
    rw [Nat.zero_add] at hresult
    refine ⟨rows, r, ?_⟩
    cases ending with
    | failed e | exhausted | stopped =>
      cases h
      exact ⟨.opened (hstarts hstart) hrows, hresult⟩

end Cursor

/-! ## Plans that write -/

/-- A plan that writes the rows of a child, and what it does with each of them. -/
inductive Plan.Writer : Plan → Plan → (Catalog → Row → Storage → Except Error Unit × Storage) → Prop
  | insert {tid : TransactionId} {table : TableId} {child : Plan} :
    Writer (.insert tid table child) child (storeRow tid table)
  | delete {tid : TransactionId} {child : Plan} :
    Writer (.delete tid child) child fun catalog row s => s.deleteRow catalog tid row.place

/-- A plan that writes holds a row: it is at a position of the list of this row, if it is open. -/
inductive Source.Counting {σ : Type} (row : Row) : Guarded (WriteState σ) → Option Nat → Prop
  | closed {ahead : Option Row} {st : WriteState σ} : Counting row ⟨false, ahead, st⟩ none
  | fresh {below : σ} : Counting row ⟨true, none, ⟨below, some row, false⟩⟩ (some 0)
  | seen {below : σ} : Counting row ⟨true, some row, ⟨below, some row, true⟩⟩ (some 0)
  | given {below : σ} : Counting row ⟨true, none, ⟨below, some row, true⟩⟩ (some 1)

namespace Cursor

/-- The cursor over the child of a plan that writes. -/
def below : Cursor → Cursor
  | ⟨.insert _ _ child, g⟩ => ⟨child, g.inner.child⟩
  | ⟨.delete _ child, g⟩ => ⟨child, g.inner.child⟩
  | c => c

/-- A cursor over a plan that writes holds a row. -/
def Holds (row : Row) (position : Option Nat) : Cursor → Prop
  | ⟨.insert _ _ _, g⟩ => Counting row g position
  | ⟨.delete _ _, g⟩ => Counting row g position
  | _ => False

variable {catalog : Catalog} {operation : Catalog → Row → Storage → Except Error Unit × Storage}
  {plan child : Plan} {g : Guarded plan.source.State} {s s' : Storage}

/-- A start that succeeds puts the number of rows into the place of the row that is held; one that fails
    leaves it. -/
theorem start_of_write {st st' : WriteState child.source.guard.State} {r : Except Error Unit}
    (h : (write operation child.source.guard).start catalog st s = (r, st', s')) :
    ∃ rows, Drains catalog (operation catalog) ⟨child, st.child⟩ s rows r ⟨child, st'.child⟩ s' ∧
      st'.results = match r with
        | .ok () => (some (Plan.countRow rows.length), false)
        | .error _ => st.results := by
  obtain ⟨result, c, hdrain, hends⟩ := start_write_cases h
  obtain ⟨rows, r', hdrains, hresult⟩ := drains_of_drain hdrain
  obtain ⟨e, rfl, rfl, rfl⟩ | ⟨count, rfl, rfl, rfl⟩ := hends
  · cases r' with
    | ok => cases hresult
    | error e' =>
      cases hresult
      exact ⟨rows, hdrains, rfl⟩
  · cases r' with
    | error e => cases hresult
    | ok =>
      cases hresult
      exact ⟨rows, hdrains, rfl⟩

/-- The same under the rules for using a source. -/
theorem guarded_start_of_write {g g' : Guarded (write operation child.source.guard).State}
    {r : Except Error Unit} (h : Guarded.start catalog g s = (r, g', s')) :
    ∃ rows, Drains catalog (operation catalog) ⟨child, g.inner.child⟩ s rows r ⟨child, g'.inner.child⟩ s' ∧
      (r = .ok () → Counting (Plan.countRow rows.length) g' (some 0)) ∧
      ∀ e, r = .error e → ∀ row position, Counting row g position → Counting row g' position := by
  unfold Guarded.start at h
  rcases hinner : (write operation child.source.guard).start catalog g.inner s with ⟨r₁, st', s₁⟩
  obtain ⟨rows, hdrains, hresults⟩ := start_of_write hinner
  obtain ⟨below, results⟩ := st'
  rw [hinner] at h
  cases r₁ with
  | error e =>
    cases h
    obtain rfl : results = g.inner.results := hresults
    refine ⟨rows, hdrains, nofun, fun _ _ row position hcounting => ?_⟩
    cases hcounting with
    | closed => exact .closed
    | fresh => exact .fresh
    | seen => exact .seen
    | given => exact .given
  | ok =>
    cases h
    obtain rfl : results = (some (Plan.countRow rows.length), false) := hresults
    exact ⟨rows, hdrains, fun _ => .fresh, nofun⟩

/-- **A start writes.**  It drains the cursor below, and holds the number of the rows that were written;
    if it fails, it holds what it held. -/
theorem start_of_writer (hplan : plan.Writer child operation) {answer : Except Error Reply} {c : Cursor}
    (h : Cursor.call catalog ⟨plan, g⟩ s .start = (answer, c, s')) :
    (∃ g', c = ⟨plan, g'⟩) ∧ ∃ rows r,
      Drains catalog (operation catalog) (below ⟨plan, g⟩) s rows r (below c) s' ∧
      answer = r.map (fun _ => .done) ∧ (r = .ok () → Holds (Plan.countRow rows.length) (some 0) c) ∧
      ∀ e, r = .error e → ∀ row position, Holds row position ⟨plan, g⟩ → Holds row position c := by
  unfold Cursor.call Cursor.start at h
  rcases hstart : Guarded.start catalog g s with ⟨r, g', s₁⟩
  rw [hstart] at h
  cases h
  cases hplan with
  | insert | delete =>
    obtain ⟨rows, hdrains, hok, herror⟩ := guarded_start_of_write hstart
    exact ⟨⟨g', rfl⟩, rows, r, hdrains, rfl, hok, herror⟩

/-- A source that wrote gives the row that it holds. -/
theorem each_of_write {child : Source} {st : WriteState child.State} {row : Row}
    (hresults : st.results = (some row, false)) (catalog : Catalog) (s : Storage) :
    (write operation child).each catalog takeRow st [] s =
      (.exhausted, { st with results := (some row, true) }, [row], s) := by
  obtain ⟨inner, results⟩ := st
  obtain rfl : results = (some row, false) := hresults
  rfl

/-- Giving the row that is held leaves the storage alone. -/
theorem fetch_of_write {st : WriteState child.source.guard.State} :
    ((write operation child.source.guard).fetch catalog st s).2.2 = s := by
  obtain ⟨below, held, served⟩ := st
  cases served with
  | true => rfl
  | false => cases held <;> rfl

theorem hasNext_of_write (g : Guarded (write operation child.source.guard).State) :
    (Guarded.hasNext catalog g s).2.2 = s := by
  have hfetch : ((write operation child.source.guard).fetch catalog g.inner s).2.2 = s := fetch_of_write
  unfold Guarded.hasNext
  split
  · rfl
  · split
    · rfl
    · split
      all_goals
        rename_i hfound
        rw [hfound] at hfetch
        exact hfetch

theorem next_of_write (g : Guarded (write operation child.source.guard).State) :
    (Guarded.next catalog g s).2.2 = s := by
  have hmore : (Guarded.hasNext catalog g s).2.2 = s := hasNext_of_write g
  rcases hfound : Guarded.hasNext catalog g s with ⟨r, g₁, s₁⟩
  rw [hfound] at hmore
  unfold Guarded.next
  rw [hfound]
  cases r with
  | error e => exact hmore
  | ok any =>
    simp only
    split <;> exact hmore

/-- Calls other than a start leave the storage alone. -/
theorem storage_of_use (hplan : plan.Writer child operation) {call : Call} (hcall : call ≠ .start) :
    (Cursor.call catalog ⟨plan, g⟩ s call).2.2 = s := by
  cases hplan with
  | insert | delete =>
    cases call with
    | start => exact absurd rfl hcall
    | close => rfl
    | rewind =>
      obtain ⟨isOpen, ahead, st⟩ := g
      cases isOpen <;> rfl
    | hasNext => exact hasNext_of_write g
    | next => exact next_of_write g

/-- **The row that is held.**  Calls other than a start answer like a cursor over the list of this row. -/
theorem use_of_writer (hplan : plan.Writer child operation) {call : Call} (hcall : call ≠ .start)
    {row : Row} {position : Option Nat} (hholds : Holds row position ⟨plan, g⟩) :
    (Cursor.call catalog ⟨plan, g⟩ s call).1 = (ListCursor.call ⟨[row], position⟩ call).1 ∧
      Holds row (ListCursor.call ⟨[row], position⟩ call).2.position
        (Cursor.call catalog ⟨plan, g⟩ s call).2.1 := by
  cases hplan with
  | insert | delete =>
    cases hholds with
    | closed =>
      cases call with
      | start => exact absurd rfl hcall
      | hasNext | next | rewind | close => exact ⟨rfl, .closed⟩
    | fresh =>
      cases call with
      | start => exact absurd rfl hcall
      | hasNext => exact ⟨rfl, .seen⟩
      | next => exact ⟨rfl, .given⟩
      | rewind => exact ⟨rfl, .fresh⟩
      | close => exact ⟨rfl, .closed⟩
    | seen =>
      cases call with
      | start => exact absurd rfl hcall
      | hasNext => exact ⟨rfl, .seen⟩
      | next => exact ⟨rfl, .given⟩
      | rewind => exact ⟨rfl, .fresh⟩
      | close => exact ⟨rfl, .closed⟩
    | given =>
      cases call with
      | start => exact absurd rfl hcall
      | hasNext | next => exact ⟨rfl, .given⟩
      | rewind => exact ⟨rfl, .fresh⟩
      | close => exact ⟨rfl, .closed⟩

/-! ## Runs -/

end Cursor

/-- A call that is no start, with its answer. -/
def Moment.use? (m : Moment) : Option (Call × Except Error Reply) :=
  match m.move with
  | .call .start | .request _ => none
  | .call call => some (call, (m.cursor.call m.db.catalog m.db.storage call).1)

/-- A start that fails. -/
def Moment.StartFails (m : Moment) : Prop := m.move = .call .start → ∃ e, m.answer? = some (.error e)

namespace Cursor

variable {operation : Catalog → Row → Storage → Except Error Unit × Storage} {plan child : Plan}

/-- A cursor over a plan stays one. -/
theorem cursor_of_call {catalog : Catalog} {g : Guarded plan.source.State} {s : Storage} (call : Call) :
    ∃ g', (Cursor.call catalog ⟨plan, g⟩ s call).2.1 = ⟨plan, g'⟩ := by
  cases call <;> exact ⟨_, rfl⟩

theorem cursor_of_after {g : Guarded plan.source.State} {db : Database} (moves : List Move) :
    ∃ g', (Cursor.after ⟨plan, g⟩ db moves).1 = ⟨plan, g'⟩ := by
  induction moves generalizing g db with
  | nil => exact ⟨g, rfl⟩
  | cons move moves ih =>
    cases move with
    | request request => exact ih
    | call call =>
      obtain ⟨g₁, hcall⟩ : ∃ g₁, (Cursor.call db.catalog ⟨plan, g⟩ db.storage call).2.1 = ⟨plan, g₁⟩ :=
        cursor_of_call call
      have hmove : (Cursor.move ⟨plan, g⟩ db (.call call)).1 = ⟨plan, g₁⟩ := hcall
      show ∃ g', (Cursor.after (Cursor.move ⟨plan, g⟩ db (.call call)).1 _ moves).1 = ⟨plan, g'⟩
      rw [hmove]
      exact ih

/-- **Until a start succeeds again**, a cursor over a plan that writes answers like a cursor over the list
    of the row that it holds, whatever is asked of the store meanwhile. -/
theorem answers_until_start (hplan : plan.Writer child operation) {g : Guarded plan.source.State}
    {row : Row} {position : Option Nat} (hholds : Holds row position ⟨plan, g⟩) {db : Database}
    {moves : List Move} {used rest : List Moment} (hmoments : Cursor.moments ⟨plan, g⟩ db moves = used ++ rest)
    (hfails : ∀ m ∈ used, m.StartFails) :
    (used.filterMap Moment.use?).map (·.2) =
      ListCursor.answers ⟨[row], position⟩ ((used.filterMap Moment.use?).map (·.1)) := by
  induction moves generalizing g position db used with
  | nil =>
    obtain ⟨rfl, -⟩ := List.append_eq_nil_iff.mp hmoments.symm
    rfl
  | cons move moves ih =>
    cases used with
    | nil => rfl
    | cons m used =>
      obtain ⟨rfl, hlater⟩ := List.cons.inj hmoments
      obtain ⟨hfirst, hothers⟩ := List.forall_mem_cons.mp hfails
      cases move with
      | request request =>
        have hmoments' : Cursor.moments ⟨plan, g⟩ (db.perform request).2 moves = used ++ rest := hlater
        have hrest := ih hholds hmoments' hothers
        exact hrest
      | call call =>
        rcases hcall : Cursor.call db.catalog ⟨plan, g⟩ db.storage call with ⟨answer, c, s⟩
        have hmove : Cursor.move ⟨plan, g⟩ db (.call call) = (c, { db with storage := s }) := by
          simp only [Cursor.move, hcall]
        have hmoments' : Cursor.moments c { db with storage := s } moves = used ++ rest := by
          rw [hmove] at hlater
          exact hlater
        by_cases hstart : call = .start
        · subst hstart
          -- the start fails, and what is held stays
          obtain ⟨⟨g', rfl⟩, rows, r, -, hanswer, -, hkeeps⟩ := start_of_writer hplan hcall
          obtain ⟨e, herror⟩ := hfirst rfl
          have hsaid : some answer = some (.error e) := by
            rw [← herror]
            show some answer = some (Cursor.call db.catalog ⟨plan, g⟩ db.storage .start).1
            rw [hcall]
          cases r with
          | ok =>
            rw [hanswer] at hsaid
            cases hsaid
          | error e' =>
            have hrest := ih (hkeeps e' rfl _ _ hholds) hmoments' hothers
            exact hrest
        · have huse : Moment.use? ⟨⟨plan, g⟩, db, .call call⟩ = some (call, answer) := by
            cases call with
            | start => exact absurd rfl hstart
            | hasNext | next | rewind | close =>
              unfold Moment.use?
              simp only [hcall]
          have hcalled : (Cursor.call db.catalog ⟨plan, g⟩ db.storage call).1 =
                (ListCursor.call ⟨[row], position⟩ call).1 ∧
              Holds row (ListCursor.call ⟨[row], position⟩ call).2.position
                (Cursor.call db.catalog ⟨plan, g⟩ db.storage call).2.1 := use_of_writer hplan hstart hholds
          obtain ⟨g', hsame⟩ : ∃ g', (Cursor.call db.catalog ⟨plan, g⟩ db.storage call).2.1 = ⟨plan, g'⟩ :=
            cursor_of_call call
          rw [hcall] at hcalled hsame
          obtain rfl : c = ⟨plan, g'⟩ := hsame
          obtain ⟨hanswer, hnext⟩ := hcalled
          have hrest := ih hnext hmoments' hothers
          have hlist := ListCursor.call_eq [row] position call
          rw [List.filterMap_cons_some huse, List.map_cons, List.map_cons, hrest, ← hlist]
          exact congrArg (· :: _) hanswer

end Cursor

end RowStore
