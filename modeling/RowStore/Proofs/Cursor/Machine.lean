import RowStore.Proofs.Cursor.Drains

/-!
Plans as loops of calls.

Program.  The nodes of a plan are loops of calls, and none of them has a counter.  A scan takes page after
page until one of them has a row.  A filter asks its child for rows until one satisfies the condition.  A
join takes an outer row, asks its inner child for rows until one goes with it, and rewinds the inner child
when it has no more.  An aggregation, an insertion and a deletion ask their child for rows until it has
none.

1. A `Run` is a computation that need not end: it says after how many steps it ends, and with what.  A loop
   (`Run.loop`) ends only if some round of it is the last one (`Run.loop_forever`).
2. A `Machine` is a node as the nodes above it see it, with a run for every call.  `Plan.machine` puts the
   loops of a plan together, each written with the calls of the nodes below.
3. `Cursor.draining` opens a plan and asks it for its rows until it has none.

A request to the storage is one step: it goes through the pages of a file, and their number is known when it
begins.
-/

namespace RowStore

open Storage Source

/-! ## Computations that may go on forever -/

/-- A computation: after how many steps it ends, and with what. -/
structure Run (α : Type) where
  /-- It ends after so many steps, with this. -/
  Ends : Nat → α → Prop
  /-- It ends in one way only. -/
  unique : ∀ {m n : Nat} {a b : α}, Ends m a → Ends n b → m = n ∧ a = b

/-- How a round of a loop ends. -/
inductive Round (σ α : Type) where
  /-- There is another round. -/
  | again (st : σ)
  /-- It was the last one. -/
  | leave (a : α)

namespace Run

variable {σ α β : Type}

/-- Nothing is left to be done. -/
def done (a : α) : Run α where
  Ends n b := n = 0 ∧ b = a
  unique := by
    rintro m n b c ⟨rfl, rfl⟩ ⟨rfl, rfl⟩
    exact ⟨rfl, rfl⟩

/-- One step is left to be done. -/
def step (a : α) : Run α where
  Ends n b := n = 1 ∧ b = a
  unique := by
    rintro m n b c ⟨rfl, rfl⟩ ⟨rfl, rfl⟩
    exact ⟨rfl, rfl⟩

/-- One computation after the other. -/
def next (x : Run α) (f : α → Run β) : Run β where
  Ends n b := ∃ k m a, x.Ends k a ∧ (f a).Ends m b ∧ n = k + m
  unique := by
    rintro n n' b b' ⟨k, m, a, hx, hf, rfl⟩ ⟨k', m', a', hx', hf', rfl⟩
    obtain ⟨rfl, rfl⟩ := x.unique hx hx'
    obtain ⟨rfl, rfl⟩ := (f a).unique hf hf'
    exact ⟨rfl, rfl⟩

instance : Monad Run where
  pure := done
  bind := next

/-- The rounds of a loop, each of them one step. -/
inductive Rounds (body : σ → Run (Round σ α)) : σ → Nat → α → Prop
  | last {st : σ} {n : Nat} {a : α} (hround : (body st).Ends n (.leave a)) : Rounds body st (n + 1) a
  | again {st st' : σ} {n m : Nat} {a : α} (hround : (body st).Ends n (.again st'))
    (hrest : Rounds body st' m a) : Rounds body st (n + 1 + m) a

/-- Round after round, until one of them is the last. -/
def loop (body : σ → Run (Round σ α)) (st : σ) : Run α where
  Ends := Rounds body st
  unique := by
    intro m n a b h
    induction h generalizing n b with
    | @last st k a hround =>
      rintro (@⟨_, k', _, hround'⟩ | @⟨_, _, k', _, _, hround', -⟩)
      · obtain ⟨rfl, ⟨⟩⟩ := (body st).unique hround hround'
        exact ⟨rfl, rfl⟩
      · cases ((body st).unique hround hround').2
    | @again st st' k m a hround _ ih =>
      rintro (@⟨_, k', _, hround'⟩ | @⟨_, _, k', _, _, hround', hrest'⟩)
      · cases ((body st).unique hround hround').2
      · obtain ⟨rfl, ⟨⟩⟩ := (body st).unique hround hround'
        obtain ⟨rfl, rfl⟩ := ih hrest'
        exact ⟨rfl, rfl⟩

/-- It comes to an end, with this. -/
def EndsWith (x : Run α) (a : α) : Prop := ∃ steps, x.Ends steps a

theorem done_ends (a : α) : (pure a : Run α).EndsWith a := ⟨0, rfl, rfl⟩

theorem step_ends (a : α) : (step a).EndsWith a := ⟨1, rfl, rfl⟩

theorem bind_ends {x : Run α} {f : α → Run β} {a : α} {b : β} (hx : x.EndsWith a)
    (hf : (f a).EndsWith b) : (x >>= f).EndsWith b := by
  obtain ⟨k, hk⟩ := hx
  obtain ⟨m, hm⟩ := hf
  exact ⟨k + m, k, m, a, hk, hm, rfl⟩

variable {body : σ → Run (Round σ α)} {st st' : σ} {a : α}

theorem EndsWith.of_eq {x : Run α} {a b : α} (h : x.EndsWith a) (hab : b = a) : x.EndsWith b := by
  rw [hab]
  exact h

theorem loop_of_leave (hround : (body st).EndsWith (.leave a)) : (loop body st).EndsWith a := by
  obtain ⟨n, hn⟩ := hround
  exact ⟨n + 1, .last hn⟩

theorem loop_of_again (hround : (body st).EndsWith (.again st')) (hrest : (loop body st').EndsWith a) :
    (loop body st).EndsWith a := by
  obtain ⟨n, hn⟩ := hround
  obtain ⟨m, hm⟩ := hrest
  exact ⟨n + 1 + m, .again hn hm⟩

/-- A loop does not end if every round of it is followed by another. -/
theorem loop_forever (h : ∀ st, ∃ n st', (body st).Ends n (.again st')) : ¬ (loop body st).EndsWith a := by
  rintro ⟨n, hn⟩
  have hrounds : Rounds body st n a := hn
  induction hrounds with
  | @last st n a hround =>
    obtain ⟨m, st', hagain⟩ := h st
    cases ((body st).unique hround hagain).2
  | again _ hrest ih => exact ih hrest

end Run

/-! ## The loops of the nodes -/

/-- What a call gives, with the state after it. -/
abbrev Called (α σ : Type) := Except Error α × σ × Storage

/-- The calls of a node, without the rules for using it. -/
structure Machine (σ : Type) where
  /-- Begins with the first row. -/
  start : σ → Storage → Run (Called Unit σ)
  /-- The next row, if there is one. -/
  fetch : σ → Storage → Run (Called (Option Row) σ)
  /-- Begins with the first row again. -/
  rewind : σ → Storage → Run (Called Unit σ)

namespace Machine

variable {σ τ α : Type}

/-! ### The rules for using a node -/

/-- Opens a node, or starts it again. -/
def opening (m : Machine σ) (g : Guarded σ) (s : Storage) : Run (Called Unit (Guarded σ)) := do
  match ← m.start g.inner s with
  | (.error e, inner, s) => Run.step (.error e, { g with inner := inner }, s)
  | (.ok (), inner, s) => Run.step (.ok (), ⟨true, none, inner⟩, s)

/-- Whether there is a further row; it is looked at. -/
def hasNext (m : Machine σ) (g : Guarded σ) (s : Storage) : Run (Called Bool (Guarded σ)) :=
  if !g.isOpen then Run.step (.error .notOpen, g, s)
  else match g.ahead with
    | some _ => Run.step (.ok true, g, s)
    | none => do
      match ← m.fetch g.inner s with
      | (.error e, inner, s) => Run.step (.error e, { g with inner := inner }, s)
      | (.ok row, inner, s) => Run.step (.ok row.isSome, { g with ahead := row, inner := inner }, s)

/-- The next row. -/
def next (m : Machine σ) (g : Guarded σ) (s : Storage) : Run (Called Row (Guarded σ)) := do
  match ← m.hasNext g s with
  | (.error e, g, s) => Run.step (.error e, g, s)
  | (.ok _, g, s) =>
    match g.ahead with
    | some row => Run.step (.ok row, { g with ahead := none }, s)
    | none => Run.step (.error .noMoreRows, g, s)

/-- Rewinds a node. -/
def rewinding (m : Machine σ) (g : Guarded σ) (s : Storage) : Run (Called Unit (Guarded σ)) :=
  if !g.isOpen then Run.step (.error .notOpen, g, s)
  else do
    match ← m.rewind g.inner s with
    | (.error e, inner, s) => Run.step (.error e, { g with inner := inner }, s)
    | (.ok (), inner, s) => Run.step (.ok (), { g with ahead := none, inner := inner }, s)

/-- Asks whether there is a further row, and takes it if there is. -/
def take (m : Machine σ) (g : Guarded σ) (s : Storage) : Run (Called (Option Row) (Guarded σ)) := do
  match ← m.hasNext g s with
  | (.error e, g, s) => return (.error e, g, s)
  | (.ok false, g, s) => return (.ok none, g, s)
  | (.ok true, g, s) =>
    match ← m.next g s with
    | (.error e, g, s) => return (.error e, g, s)
    | (.ok row, g, s) => return (.ok (some row), g, s)

/-- Takes rows until one of them is wanted, and makes a row of it. -/
def search (wanted : Row → Bool) (make : Row → Row) (m : Machine σ) (g : Guarded σ) (s : Storage) :
    Run (Called (Option Row) (Guarded σ)) :=
  Run.loop (fun (g, s) => do
    match ← m.take g s with
    | (.error e, g, s) => return .leave (.error e, g, s)
    | (.ok none, g, s) => return .leave (.ok none, g, s)
    | (.ok (some row), g, s) =>
      if wanted row then return .leave (.ok (some (make row)), g, s) else return .again (g, s))
    (g, s)

/-- Gives the rows that are left to an operation, which may fail. -/
def feed (operation : Row → α → Storage → Except Error α × Storage) (m : Machine σ) (g : Guarded σ)
    (a : α) (s : Storage) : Run (Called α (Guarded σ)) :=
  Run.loop (fun (g, a, s) => do
    match ← m.take g s with
    | (.error e, g, s) => return .leave (.error e, g, s)
    | (.ok none, g, s) => return .leave (.ok a, g, s)
    | (.ok (some row), g, s) =>
      match ← Run.step (operation row a s) with
      | (.error e, s) => return .leave (.error e, g, s)
      | (.ok a, s) => return .again (g, a, s))
    (g, a, s)

/-- Opens a node and gives all its rows to an operation. -/
def drain (operation : Row → α → Storage → Except Error α × Storage) (m : Machine σ) (g : Guarded σ)
    (a : α) (s : Storage) : Run (Called α (Guarded σ)) := do
  match ← m.opening g s with
  | (.error e, g, s) => return (.error e, g, s)
  | (.ok (), g, s) => m.feed operation g a s

/-! ### The nodes -/

/-- The rows of a list. -/
def ofRows (rows : List Row) : Machine Nat where
  start _ s := Run.step (.ok (), 0, s)
  fetch pos s :=
    match rows[pos]? with
    | some row => Run.step (.ok (some row), pos + 1, s)
    | none => Run.step (.ok none, rows.length, s)
  rewind _ s := Run.step (.ok (), 0, s)

/-- The rows of a table: page after page is taken, until one has a row. -/
def ofTable (catalog : Catalog) (table : TableId) : Machine Scan where
  start scan s := Run.step (Scan.start table catalog scan s)
  fetch scan s :=
    Run.loop (fun (scan, s) =>
      match scan.buffer with
      | row :: rows => return .leave (.ok (some row), { scan with buffer := rows }, s)
      | [] =>
        if scan.count ≤ scan.next then return .leave (.ok none, scan, s)
        else do
          match ← Run.step (s.getPage catalog ⟨table, scan.next⟩) with
          | (.error e, s) => return .leave (.error e, scan, s)
          | (.ok frame, s) => return .again (⟨scan.count, scan.next + 1, frame.page.rows⟩, s))
      (scan, s)
  rewind _ s := Run.step (Scan.start table catalog Scan.nothing s)

/-- The rows of a child that satisfy a condition. -/
def filter (condition : Condition) (child : Machine σ) : Machine (Guarded σ) where
  start := child.opening
  fetch := child.search condition.holds id
  rewind := child.rewinding

section Join

variable (condition : JoinCondition) (schema : Schema) (outer : Machine σ) (inner : Machine τ)

/-- The next row that goes with an outer row; if there is none, the inner child is rewound. -/
def partner (row : Row) (g : Guarded τ) (s : Storage) : Run (Called (Option Row) (Guarded τ)) := do
  match ← inner.search (condition.holds row) (Row.append schema row) g s with
  | (.ok none, g, s) =>
    match ← inner.rewinding g s with
    | (.error e, g, s) => return (.error e, g, s)
    | (.ok (), g, s) => return (.ok none, g, s)
  | found => return found

/-- Does something to the outer child and then to the inner one. -/
def both (onOuter : Guarded σ → Storage → Run (Called Unit (Guarded σ)))
    (onInner : Guarded τ → Storage → Run (Called Unit (Guarded τ)))
    (st : Joining (Guarded σ) (Guarded τ)) (s : Storage) :
    Run (Called Unit (Joining (Guarded σ) (Guarded τ))) := do
  match ← onOuter st.outer s with
  | (.error e, o, s) => return (.error e, { st with outer := o }, s)
  | (.ok (), o, s) =>
    match ← onInner st.inner s with
    | (.error e, i, s) => return (.error e, { st with outer := o, inner := i }, s)
    | (.ok (), i, s) => return (.ok (), ⟨o, i, none⟩, s)

/-- A round of a join with an outer row: the next pair, or the outer row is given up. -/
def pair (row : Row) (o : Guarded σ) (i : Guarded τ) (s : Storage) :
    Run (Round (Joining (Guarded σ) (Guarded τ) × Storage)
      (Called (Option Row) (Joining (Guarded σ) (Guarded τ)))) := do
  match ← partner condition schema inner row i s with
  | (.error e, i, s) => return .leave (.error e, ⟨o, i, none⟩, s)
  | (.ok none, i, s) => return .again (⟨o, i, none⟩, s)
  | (.ok (some found), i, s) => return .leave (.ok (some found), ⟨o, i, some row⟩, s)

/-- Every row of the outer child with every row of the inner one that goes with it. -/
def join : Machine (Joining (Guarded σ) (Guarded τ)) where
  start := both outer.opening inner.opening
  fetch st s :=
    Run.loop (fun (st, s) =>
      match st.pending with
      | some row => pair condition schema inner row st.outer st.inner s
      | none => do
        match ← outer.take st.outer s with
        | (.error e, o, s) => return .leave (.error e, ⟨o, st.inner, none⟩, s)
        | (.ok none, o, s) => return .leave (.ok none, ⟨o, st.inner, none⟩, s)
        | (.ok (some row), o, s) => pair condition schema inner row o st.inner s)
      (st, s)
  rewind := both outer.rewinding inner.rewinding

end Join

/-- One row for each group of the rows of a child. -/
def aggregate (aggregation : Aggregation) (child : Machine σ) : Machine (AggregateState (Guarded σ)) where
  start st s := do
    match ← child.drain (fun row groups s => (aggregation.add row groups, s)) st.child [] s with
    | (.error e, c, s) => return (.error e, { st with child := c }, s)
    | (.ok groups, c, s) =>
      match aggregation.groupRows groups with
      | .error e => return (.error e, { st with child := c }, s)
      | .ok rows => return (.ok (), ⟨c, some (rows, 0)⟩, s)
  fetch st s :=
    match st.results with
    | none => Run.step (.ok none, st, s)
    | some (rows, pos) => do
      match ← (ofRows rows).fetch pos s with
      | (found, pos, s) => return (found, { st with results := some (rows, pos) }, s)
  rewind st s := Run.step (.ok (), { st with results := st.results.map fun (rows, _) => (rows, 0) }, s)

/-- Writes all rows of a child and says how many they were. -/
def write (operation : Row → Storage → Except Error Unit × Storage) (child : Machine σ) :
    Machine (WriteState (Guarded σ)) where
  start st s := do
    match ← child.drain (counted operation) st.child 0 s with
    | (.error e, c, s) => return (.error e, { st with child := c }, s)
    | (.ok count, c, s) => return (.ok (), ⟨c, some (Plan.countRow count), false⟩, s)
  fetch st s :=
    if st.results.2 then Run.step (.ok none, st, s)
    else Run.step (.ok st.results.1, { st with results := (st.results.1, true) }, s)
  rewind st s := Run.step (.ok (), { st with results := (st.results.1, false) }, s)

end Machine

/-- The loops of a plan. -/
def Plan.machine (catalog : Catalog) : (plan : Plan) → Machine plan.source.State
  | .rows _ given => Machine.ofRows given
  | .scan table _ => Machine.ofTable catalog table
  | .filter condition child => Machine.filter condition (child.machine catalog)
  | .join condition outer inner =>
    Machine.join condition (outer.source.schema.append inner.source.schema) (outer.machine catalog)
      (inner.machine catalog)
  | .aggregate aggregation child => Machine.aggregate aggregation (child.machine catalog)
  | .insert tid table child => Machine.write (storeRow tid table catalog) (child.machine catalog)
  | .delete tid child =>
    Machine.write (fun row s => s.deleteRow catalog tid row.place) (child.machine catalog)

/-- A plan is asked for rows as long as it has any: the rows that were taken before and those that it gave,
    and the error if one ended it. -/
def Cursor.collecting (catalog : Catalog) (plan : Plan) (rows : List Row) (g : Guarded plan.source.State)
    (s : Storage) : Run (List Row × Option Error × Cursor × Storage) :=
  Run.loop (fun (rows, g, s) => do
    match ← (plan.machine catalog).take g s with
    | (.error e, g, s) => return .leave (rows, some e, ⟨plan, g⟩, s)
    | (.ok none, g, s) => return .leave (rows, none, ⟨plan, g⟩, s)
    | (.ok (some row), g, s) => return .again (rows ++ [row], g, s))
    (rows, g, s)

/-- A plan is opened, and asked for all its rows. -/
def Cursor.draining (catalog : Catalog) (c : Cursor) (s : Storage) :
    Run (List Row × Option Error × Cursor × Storage) := do
  match ← (c.plan.machine catalog).opening c.state s with
  | (.error e, g, s) => return ([], some e, { c with state := g }, s)
  | (.ok (), g, s) => Cursor.collecting catalog c.plan [] g s

end RowStore
