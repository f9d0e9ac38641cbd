import RowStore.Proofs.Cursor.Derived

/-!
What sources keep, whoever asks them.

Program.  Sources are nested, and each may load pages, write rows and fail in the middle of its work.
What was begun before the failure stays as it is: a source that could not be started again keeps the
rows that it had looked at, and an outer row that was given up is gone.

1. `Respects W Q inv consume`: as long as `W` holds of the storage and `Q` of the rows that he is given,
   a consumer keeps `W` and `inv`.
2. `Safe catalog W Q fails src ready` is the contract of a source, whatever rows it has.  It gives only
   rows of `Q`, it fails only as `fails` allows, it keeps `W`, and `ready` holds of its states from the
   first start that succeeds on.
3. One lemma for each kind of source (`safe_ofRows`, …, `safe_write`), and one for the rules that hold
   for all of them (`Safe.guard`), which also hold when a row is taken at a time.

Crux.  Nothing is said about which rows come when, so the contract also holds after a failed start, after
a failed rewind and while tables change under way: all that a state must remember is that the rows it
holds are rows of `Q`, and that the sources below it are open.
-/

namespace RowStore.Source

open Storage

variable {α : Type} {catalog : Catalog} {W : Storage → Prop} {P Q : Row → Prop}
  {fails : Error → Prop} {inv : α → Prop} {consume : Consumer α} {a a' : α} {s s' : Storage}
  {ending : Ending}

/-! ## Contracts -/

/-- What a consumer keeps when he is given rows of `Q`. -/
def Respects (W : Storage → Prop) (Q : Row → Prop) (inv : α → Prop) (consume : Consumer α) : Prop :=
  ∀ {row a s step s'}, Q row → W s → inv a → consume row a s = (step, s') → W s' ∧ inv step.value

/-- What a source keeps, and how it may fail. -/
structure Safe (catalog : Catalog) (W : Storage → Prop) (Q : Row → Prop) (fails : Error → Prop)
    (src : Source) (ready : src.State → Prop) : Prop where
  /-- A start that fails leaves a source ready that was. -/
  start : ∀ {st s r st' s'}, W s → src.start catalog st s = (r, st', s') →
    W s' ∧ (r = .ok () → ready st') ∧ ∀ e, r = .error e → fails e ∧ (ready st → ready st')
  rewind : ∀ {st s r st' s'}, W s → ready st → src.rewind catalog st s = (r, st', s') →
    W s' ∧ ready st' ∧ ∀ e, r = .error e → fails e
  each : ∀ {α : Type} {consume : Consumer α} {inv : α → Prop} {st a s ending st' a' s'},
    Respects W Q inv consume → W s → ready st → inv a →
    src.each catalog consume st a s = (ending, st', a', s') →
    W s' ∧ ready st' ∧ inv a' ∧ ∀ e, ending = .failed e → fails e

/-- A consumer who passes over some rows and turns the others into rows for another consumer. -/
theorem Respects.passed (hconsume : Respects W Q inv consume) {p : Row → Bool} {f : Row → Row}
    (hf : ∀ {row}, P row → Q (f row)) :
    Respects W P inv fun row a s => if p row then consume (f row) a s else (.yield a, s) := by
  intro row a s step s' hrow hs ha hstep
  by_cases hp : p row = true
  · simp only [if_pos hp] at hstep
    exact hconsume (hf hrow) hs ha hstep
  · simp only [if_neg hp] at hstep
    cases hstep
    exact ⟨hs, ha⟩

/-! ## Rows from a list -/

theorem deliver_safe (hconsume : Respects W Q inv consume) {rows left : List Row} {stopped : Bool}
    (hrows : ∀ row ∈ rows, Q row) (hs : W s) (ha : inv a)
    (h : deliver consume rows a s = (stopped, left, a', s')) :
    W s' ∧ inv a' ∧ ∀ row ∈ left, Q row := by
  induction rows generalizing a s with
  | nil =>
    cases h
    exact ⟨hs, ha, hrows⟩
  | cons row rows ih =>
    obtain ⟨hrow, hrows⟩ := List.forall_mem_cons.mp hrows
    unfold deliver at h
    rcases hstep : consume row a s with ⟨step, s₁⟩
    obtain ⟨hs₁, ha₁⟩ := hconsume hrow hs ha hstep
    rw [hstep] at h
    cases step with
    | done b =>
      cases h
      exact ⟨hs₁, ha₁, hrows⟩
    | yield b => exact ih hrows hs₁ ha₁ h

theorem eachOf_safe (hconsume : Respects W Q inv consume) {rows : List Row} {pos pos' : Nat}
    (hrows : ∀ row ∈ rows, Q row) (hs : W s) (ha : inv a)
    (h : eachOf rows consume pos a s = (ending, pos', a', s')) :
    W s' ∧ inv a' ∧ ∀ e, ending ≠ .failed e := by
  unfold eachOf at h
  rcases hdeliver : deliver consume (rows.drop pos) a s with ⟨stopped, left, b, s₁⟩
  obtain ⟨hs₁, hb, -⟩ := deliver_safe hconsume (fun row hrow => hrows row (List.mem_of_mem_drop hrow))
    hs ha hdeliver
  rw [hdeliver] at h
  cases h
  refine ⟨hs₁, hb, fun e => ?_⟩
  cases stopped <;> nofun

theorem safe_ofRows (schema : Schema) {rows : List Row} (hrows : ∀ row ∈ rows, Q row) :
    Safe catalog W Q fails (ofRows schema rows) fun _ => True where
  start := by
    intro st s r st' s' hs h
    cases h
    exact ⟨hs, fun _ => trivial, nofun⟩
  rewind := by
    intro st s r st' s' hs _ h
    cases h
    exact ⟨hs, trivial, nofun⟩
  each := by
    intro α consume inv st a s ending st' a' s' hconsume hs _ ha h
    obtain ⟨hs', ha', hended⟩ := eachOf_safe hconsume hrows hs ha h
    exact ⟨hs', trivial, ha', fun e he => absurd he (hended e)⟩

/-! ## Rows of a table -/

section Table

variable {table : TableId}

/-- The pages of a table have rows of `Q`, and not having one is an allowed failure. -/
def SafePages (catalog : Catalog) (W : Storage → Prop) (Q : Row → Prop) (fails : Error → Prop)
    (table : TableId) : Prop :=
  ∀ {n s r s'}, W s → s.getPage catalog ⟨table, n⟩ = (r, s') →
    W s' ∧ (∀ frame, r = .ok frame → ∀ row ∈ frame.page.rows, Q row) ∧ ∀ e, r = .error e → fails e

/-- The loop over the pages: the rows that are left of the present page are rows of `Q`. -/
theorem Scan.eachPage_safe (hpages : SafePages catalog W Q fails table)
    (hconsume : Respects W Q inv consume) {pages : Nat} {scan scan' : Scan}
    (hbuffer : ∀ row ∈ scan.buffer, Q row) (hs : W s) (ha : inv a)
    (h : Scan.eachPage table catalog consume pages scan a s = (ending, scan', a', s')) :
    W s' ∧ (∀ row ∈ scan'.buffer, Q row) ∧ inv a' ∧ ∀ e, ending = .failed e → fails e := by
  induction pages generalizing scan a s with
  | zero =>
    unfold Scan.eachPage at h
    rcases hdeliver : deliver consume scan.buffer a s with ⟨stopped, left, b, s₁⟩
    obtain ⟨hs₁, hb, hleft⟩ := deliver_safe hconsume hbuffer hs ha hdeliver
    rw [hdeliver] at h
    cases h
    refine ⟨hs₁, hleft, hb, ?_⟩
    cases stopped <;> nofun
  | succ pages ih =>
    unfold Scan.eachPage at h
    rcases hdeliver : deliver consume scan.buffer a s with ⟨stopped, left, b, s₁⟩
    obtain ⟨hs₁, hb, hleft⟩ := deliver_safe hconsume hbuffer hs ha hdeliver
    rw [hdeliver] at h
    cases stopped with
    | true =>
      cases h
      exact ⟨hs₁, hleft, hb, nofun⟩
    | false =>
      simp only [Bool.false_eq_true, if_false] at h
      rcases hget : s₁.getPage catalog ⟨table, scan.next⟩ with ⟨r, s₂⟩
      obtain ⟨hs₂, hrows, hfails⟩ := hpages hs₁ hget
      rw [hget] at h
      cases r with
      | error e =>
        cases h
        refine ⟨hs₂, hleft, hb, ?_⟩
        rintro _ ⟨⟩
        exact hfails e rfl
      | ok frame => exact ih (hrows frame rfl) hs₂ hb h

theorem safe_ofTable (schema : Schema) (hknown : ∀ e, catalog.file table = .error e → fails e)
    (hpages : SafePages catalog W Q fails table) :
    Safe catalog W Q fails (ofTable table schema) fun scan => ∀ row ∈ scan.buffer, Q row := by
  have hstart : ∀ {scan scan' : Scan} {s s' : Storage} {r : Except Error Unit}, W s →
      Scan.start table catalog scan s = (r, scan', s') →
      W s' ∧ (r = .ok () → ∀ row ∈ scan'.buffer, Q row) ∧
        ∀ e, r = .error e → fails e ∧ scan' = scan := by
    intro scan scan' s s' r hs h
    obtain ⟨rfl, ⟨e, hfile, rfl, rfl⟩ | ⟨file, -, rfl, rfl⟩⟩ := Scan.start_cases h
    · refine ⟨hs, nofun, ?_⟩
      rintro _ ⟨⟩
      exact ⟨hknown e hfile, rfl⟩
    · exact ⟨hs, fun _ row hrow => absurd hrow List.not_mem_nil, nofun⟩
  constructor
  · intro scan s r scan' s' hs h
    obtain ⟨hs', hready, hfails⟩ := hstart hs h
    refine ⟨hs', hready, fun e he => ?_⟩
    obtain ⟨hallowed, rfl⟩ := hfails e he
    exact ⟨hallowed, id⟩
  · intro scan s r scan' s' hs _ h
    obtain ⟨hs', hready, hfails⟩ := hstart hs h
    refine ⟨hs', ?_, fun e he => (hfails e he).1⟩
    cases r with
    | ok => exact hready rfl
    | error e =>
      -- the scan was closed before it was begun again, so it holds no row
      obtain ⟨-, rfl⟩ := hfails e rfl
      exact fun row hrow => absurd hrow List.not_mem_nil
  · intro α consume inv scan a s ending scan' a' s' hconsume hs hbuffer ha h
    exact Scan.eachPage_safe hpages hconsume hbuffer hs ha h

end Table

/-! ## Filter -/

theorem safe_filter (condition : Condition) {child : Source} {ready : child.State → Prop}
    (hchild : Safe catalog W Q fails child ready) :
    Safe catalog W Q fails (filter condition child) ready where
  start := hchild.start
  rewind := hchild.rewind
  each := fun hconsume hs hst ha h => hchild.each (hconsume.passed (f := id) id) hs hst ha h

/-! ## Join -/

section Join

variable {condition : JoinCondition} {schema : Schema} {outer inner : Source}
  {PO PI : Row → Prop} {readyOuter : outer.State → Prop} {readyInner : inner.State → Prop}

/-- What a join keeps: both sources are ready, and a row that is kept is one of the outer source. -/
def Joining.Ready {σ τ : Type} (PO : Row → Prop) (readyOuter : σ → Prop) (readyInner : τ → Prop)
    (st : Joining σ τ) : Prop :=
  readyOuter st.outer ∧ readyInner st.inner ∧ ∀ row, st.pending = some row → PO row

theorem joinRow_safe (hinner : Safe catalog W PI fails inner readyInner)
    (hpair : ∀ {left right}, PO left → PI right → Q (Row.append schema left right))
    (hconsume : Respects W Q inv consume) {row : Row} (hrow : PO row) {st st' : inner.State}
    (hs : W s) (hst : readyInner st) (ha : inv a) {r : Option Ending}
    (h : joinRow condition schema inner catalog consume row st a s = (r, st', a', s')) :
    W s' ∧ readyInner st' ∧ inv a' ∧ ∀ e, r = some (.failed e) → fails e := by
  unfold joinRow at h
  rcases heach : inner.each catalog
      (fun right a s => if condition.holds row right then
        consume (Row.append schema row right) a s else (.yield a, s)) st a s
    with ⟨ending, st₁, b, s₁⟩
  obtain ⟨hs₁, hst₁, hb, hfails⟩ := hinner.each (hconsume.passed (hpair hrow)) hs hst ha heach
  rw [heach] at h
  cases ending with
  | stopped =>
    cases h
    exact ⟨hs₁, hst₁, hb, nofun⟩
  | failed e =>
    cases h
    refine ⟨hs₁, hst₁, hb, ?_⟩
    rintro _ ⟨⟩
    exact hfails e rfl
  | exhausted =>
    simp only at h
    rcases hrewind : inner.rewind catalog st₁ s₁ with ⟨result, st₂, s₂⟩
    obtain ⟨hs₂, hst₂, hfails⟩ := hinner.rewind hs₁ hst₁ hrewind
    rw [hrewind] at h
    cases result with
    | error e =>
      cases h
      refine ⟨hs₂, hst₂, hb, ?_⟩
      rintro _ ⟨⟩
      exact hfails e rfl
    | ok =>
      cases h
      exact ⟨hs₂, hst₂, hb, nofun⟩

theorem ready_keptRow {σ τ : Type} {readyOuter : σ → Prop} {readyInner : τ → Prop} {o : σ} {i : τ}
    {row : Row} (hrow : PO row) (ho : readyOuter o) (hi : readyInner i) (ending : Ending) :
    Joining.Ready PO readyOuter readyInner ⟨o, i, keptRow row ending⟩ := by
  refine ⟨ho, hi, fun kept hkept => ?_⟩
  cases ending <;> cases hkept
  exact hrow

theorem joinRows_safe (houter : Safe catalog W PO fails outer readyOuter)
    (hinner : Safe catalog W PI fails inner readyInner)
    (hpair : ∀ {left right}, PO left → PI right → Q (Row.append schema left right))
    (hconsume : Respects W Q inv consume) {st st' : Joining outer.State inner.State} (hs : W s)
    (ho : readyOuter st.outer) (hi : readyInner st.inner) (ha : inv a)
    (h : joinRows condition schema outer inner catalog consume st a s = (ending, st', a', s')) :
    W s' ∧ st'.Ready PO readyOuter readyInner ∧ inv a' ∧ ∀ e, ending = .failed e → fails e := by
  -- what the run through the outer source carries along
  let carries : Carried inner.State α → Prop := fun c =>
    readyInner c.inner ∧ inv c.value ∧
      ∀ row ending, c.ended = some (row, ending) → PO row ∧ ∀ e, ending = .failed e → fails e
  have hrows : Respects W PO carries (carryRow condition schema inner catalog consume) := by
    rintro row c s step s' hrow hs ⟨hst, hc, -⟩ hstep
    rcases hjoin : joinRow condition schema inner catalog consume row c.inner c.value s
      with ⟨r, st₁, b, s₁⟩
    obtain ⟨hs₁, hst₁, hb, hfails⟩ := joinRow_safe hinner hpair hconsume hrow hs hst hc hjoin
    simp only [carryRow, hjoin] at hstep
    cases r with
    | none =>
      cases hstep
      refine ⟨hs₁, hst₁, hb, ?_⟩
      rintro _ _ ⟨⟩
    | some ended =>
      cases hstep
      refine ⟨hs₁, hst₁, hb, ?_⟩
      rintro _ _ ⟨⟩
      exact ⟨hrow, fun e he => hfails e (congrArg some he)⟩
  rw [joinRows_eq] at h
  split at h
  rename_i ended left carried s₁ heach
  have hbegin : carries ⟨st.inner, a, none⟩ := by
    refine ⟨hi, ha, ?_⟩
    rintro _ _ ⟨⟩
  obtain ⟨hs₁, hleft, ⟨hst₁, hb, hended⟩, hfails⟩ := houter.each hrows hs ho hbegin heach
  cases hlast : carried.ended with
  | none =>
    simp only [hlast] at h
    cases h
    refine ⟨hs₁, ⟨hleft, hst₁, ?_⟩, hb, hfails⟩
    rintro _ ⟨⟩
  | some found =>
    obtain ⟨row, ending₁⟩ := found
    obtain ⟨hrow, hfails₁⟩ := hended row ending₁ hlast
    simp only [hlast] at h
    cases h
    exact ⟨hs₁, ready_keptRow hrow hleft hst₁ _, hb, hfails₁⟩

theorem joinEach_safe (houter : Safe catalog W PO fails outer readyOuter)
    (hinner : Safe catalog W PI fails inner readyInner)
    (hpair : ∀ {left right}, PO left → PI right → Q (Row.append schema left right))
    (hconsume : Respects W Q inv consume) {st st' : Joining outer.State inner.State} (hs : W s)
    (hst : st.Ready PO readyOuter readyInner) (ha : inv a)
    (h : joinEach condition schema outer inner catalog consume st a s = (ending, st', a', s')) :
    W s' ∧ st'.Ready PO readyOuter readyInner ∧ inv a' ∧ ∀ e, ending = .failed e → fails e := by
  obtain ⟨ho, hi, hpending⟩ := hst
  unfold joinEach at h
  cases hrow : st.pending with
  | none =>
    simp only [hrow] at h
    exact joinRows_safe houter hinner hpair hconsume hs ho hi ha h
  | some row =>
    have hkept := hpending row hrow
    simp only [hrow] at h
    rcases hjoin : joinRow condition schema inner catalog consume row st.inner a s
      with ⟨r, left, b, s₁⟩
    obtain ⟨hs₁, hleft, hb, hfails⟩ := joinRow_safe hinner hpair hconsume hkept hs hi ha hjoin
    rw [hjoin] at h
    cases r with
    | none =>
      refine joinRows_safe houter hinner hpair hconsume hs₁ ?_ ?_ hb h
      · exact ho
      · exact hleft
    | some ended =>
      cases h
      exact ⟨hs₁, ready_keptRow hkept ho hleft _, hb, fun e he => hfails e (congrArg some he)⟩

/-- A join gives pairs of rows.  If its inner source cannot be started, its outer source has been, and
    the row that was kept stays. -/
theorem safe_join (houter : Safe catalog W PO fails outer readyOuter)
    (hinner : Safe catalog W PI fails inner readyInner)
    (hpair : ∀ {left right}, PO left → PI right →
      Q (Row.append (outer.schema.append inner.schema) left right)) :
    Safe catalog W Q fails (join condition outer inner)
      (Joining.Ready PO readyOuter readyInner) where
  start := by
    intro st s r st' s' hs h
    simp only [join, joinBoth] at h
    rcases hfirst : outer.start catalog st.outer s with ⟨r₁, o, s₁⟩
    obtain ⟨hs₁, ho, hfails₁⟩ := houter.start hs hfirst
    rw [hfirst] at h
    cases r₁ with
    | error e =>
      cases h
      refine ⟨hs₁, nofun, ?_⟩
      rintro _ ⟨⟩
      obtain ⟨hfails, hkeeps⟩ := hfails₁ e rfl
      exact ⟨hfails, fun ⟨hold, hrest⟩ => ⟨hkeeps hold, hrest⟩⟩
    | ok =>
      simp only at h
      rcases hsecond : inner.start catalog st.inner s₁ with ⟨r₂, i, s₂⟩
      obtain ⟨hs₂, hi, hfails₂⟩ := hinner.start hs₁ hsecond
      rw [hsecond] at h
      cases r₂ with
      | error e =>
        cases h
        refine ⟨hs₂, nofun, ?_⟩
        rintro _ ⟨⟩
        obtain ⟨hfails, hkeeps⟩ := hfails₂ e rfl
        exact ⟨hfails, fun ⟨_, hold, hrest⟩ => ⟨ho rfl, hkeeps hold, hrest⟩⟩
      | ok =>
        cases h
        exact ⟨hs₂, fun _ => ⟨ho rfl, hi rfl, nofun⟩, nofun⟩
  rewind := by
    rintro st s r st' s' hs ⟨hold, hinnerOld, hpending⟩ h
    simp only [join, joinBoth] at h
    rcases hfirst : outer.rewind catalog st.outer s with ⟨r₁, o, s₁⟩
    obtain ⟨hs₁, ho, hfails₁⟩ := houter.rewind hs hold hfirst
    rw [hfirst] at h
    cases r₁ with
    | error e =>
      cases h
      exact ⟨hs₁, ⟨ho, hinnerOld, hpending⟩, hfails₁⟩
    | ok =>
      simp only at h
      rcases hsecond : inner.rewind catalog st.inner s₁ with ⟨r₂, i, s₂⟩
      obtain ⟨hs₂, hi, hfails₂⟩ := hinner.rewind hs₁ hinnerOld hsecond
      rw [hsecond] at h
      cases r₂ with
      | error e =>
        cases h
        exact ⟨hs₂, ⟨ho, hi, hpending⟩, hfails₂⟩
      | ok =>
        cases h
        exact ⟨hs₂, ⟨ho, hi, nofun⟩, nofun⟩
  each := fun hconsume hs hst ha h => joinEach_safe houter hinner hpair hconsume hs hst ha h

end Join

/-! ## Sources that read all rows first -/

section Drain

variable {child : Source} {ready : child.State → Prop}

/-- Draining a source: the operation is given rows of `Q`, and fails only as the source may. -/
theorem drain_safe (hchild : Safe catalog W Q fails child ready)
    {operation : Row → α → Storage → Except Error α × Storage}
    (hoperation : ∀ {row a s r s'}, Q row → W s → inv a → operation row a s = (r, s') →
      W s' ∧ (∀ a', r = .ok a' → inv a') ∧ ∀ e, r = .error e → fails e)
    {st st' : child.State} {r : Except Error α} (hs : W s) (ha : inv a)
    (h : child.drain catalog operation st a s = (r, st', s')) :
    W s' ∧ (∀ b, r = .ok b → inv b) ∧ ∀ e, r = .error e → fails e := by
  let sofar : Except Error α → Prop := fun result =>
    (∀ b, result = .ok b → inv b) ∧ ∀ e, result = .error e → fails e
  have hfeed : Respects W Q sofar (feed operation) := by
    rintro row result s step s' hrow hs ⟨hok, herror⟩ hstep
    unfold feed at hstep
    cases result with
    | error e =>
      cases hstep
      exact ⟨hs, hok, herror⟩
    | ok b =>
      simp only at hstep
      rcases hdone : operation row b s with ⟨r, s₁⟩
      obtain ⟨hs₁, hall⟩ := hoperation hrow hs (hok b rfl) hdone
      rw [hdone] at hstep
      cases r with
      | error e =>
        cases hstep
        exact ⟨hs₁, hall⟩
      | ok c =>
        cases hstep
        exact ⟨hs₁, hall⟩
  unfold drain at h
  split at h
  · rename_i e st₁ s₁ hstart
    obtain ⟨hs₁, -, hfails⟩ := hchild.start hs hstart
    cases h
    refine ⟨hs₁, nofun, ?_⟩
    rintro _ ⟨⟩
    exact (hfails e rfl).1
  · rename_i st₁ s₁ hstart
    obtain ⟨hs₁, hst₁, -⟩ := hchild.start hs hstart
    split at h
    rename_i ended st₂ result s₂ heach
    have hbegin : sofar (.ok a) := by
      refine ⟨?_, nofun⟩
      rintro _ ⟨⟩
      exact ha
    obtain ⟨hs₂, -, hresult, hfails⟩ := hchild.each hfeed hs₁ (hst₁ rfl) hbegin heach
    cases ended with
    | failed e =>
      cases h
      refine ⟨hs₂, nofun, ?_⟩
      rintro _ ⟨⟩
      exact hfails e rfl
    | exhausted =>
      cases h
      exact ⟨hs₂, hresult⟩
    | stopped =>
      cases h
      exact ⟨hs₂, hresult⟩

/-- An aggregation gives the rows of its groups, which it keeps until it is closed or started again
    with success. -/
theorem safe_aggregate {aggregation : Aggregation} {keyed : Groups → Prop}
    (hchild : Safe catalog W P fails child ready) (hnone : keyed [])
    (hadd : ∀ {row groups}, P row → keyed groups →
      (∀ groups', aggregation.add row groups = .ok groups' → keyed groups') ∧
        ∀ e, aggregation.add row groups = .error e → fails e)
    (hrows : ∀ {groups}, keyed groups →
      (∀ rows, aggregation.groupRows groups = .ok rows → ∀ row ∈ rows, Q row) ∧
        ∀ e, aggregation.groupRows groups = .error e → fails e) :
    Safe catalog W Q fails (aggregate aggregation child) fun st =>
      ∀ rows pos, st.results = some (rows, pos) → ∀ row ∈ rows, Q row where
  start := by
    intro st s r st' s' hs h
    simp only [aggregate] at h
    rcases hdrain : child.drain catalog (fun row groups s => (aggregation.add row groups, s))
        st.child [] s with ⟨r₁, c, s₁⟩
    have hadded : ∀ {row : Row} {groups : Groups} {s : Storage} {r : Except Error Groups}
        {s' : Storage}, P row → W s → keyed groups → (aggregation.add row groups, s) = (r, s') →
        W s' ∧ (∀ groups', r = .ok groups' → keyed groups') ∧ ∀ e, r = .error e → fails e := by
      intro row groups s r s' hrow hs hgroups hdone
      obtain ⟨rfl, rfl⟩ := Prod.mk.inj hdone
      exact ⟨hs, hadd hrow hgroups⟩
    obtain ⟨hs₁, hgroups, hfails⟩ := drain_safe hchild hadded hs hnone hdrain
    rw [hdrain] at h
    cases r₁ with
    | error e =>
      cases h
      refine ⟨hs₁, ?_, ?_⟩
      · rintro ⟨⟩
      · rintro _ ⟨⟩
        exact ⟨hfails e rfl, id⟩
    | ok groups =>
      obtain ⟨hall, hrange⟩ := hrows (hgroups groups rfl)
      simp only at h
      cases hmade : aggregation.groupRows groups with
      | error e =>
        rw [hmade] at h
        cases h
        refine ⟨hs₁, ?_, ?_⟩
        · rintro ⟨⟩
        · rintro _ ⟨⟩
          exact ⟨hrange e hmade, id⟩
      | ok rows =>
        rw [hmade] at h
        cases h
        refine ⟨hs₁, ?_, ?_⟩
        · rintro - _ _ ⟨⟩
          exact hall rows hmade
        · rintro _ ⟨⟩
  rewind := by
    intro st s r st' s' hs hst h
    cases h
    refine ⟨hs, ?_, ?_⟩
    · intro rows pos hresults
      obtain ⟨⟨rows, old⟩, hold, hsame⟩ := Option.map_eq_some_iff.mp hresults
      cases hsame
      exact hst rows old hold
    · rintro _ ⟨⟩
  each := by
    intro α consume inv st a s ending st' a' s' hconsume hs hst ha h
    cases hresults : st.results with
    | none =>
      simp only [aggregate, hresults] at h
      cases h
      refine ⟨hs, hst, ha, ?_⟩
      rintro _ ⟨⟩
    | some found =>
      obtain ⟨rows, pos⟩ := found
      simp only [aggregate, hresults] at h
      rcases heach : eachOf rows consume pos a s with ⟨ended, pos', b, s₁⟩
      obtain ⟨hs₁, hb, hended⟩ := eachOf_safe hconsume (hst rows pos hresults) hs ha heach
      rw [heach] at h
      cases h
      refine ⟨hs₁, ?_, hb, fun e he => absurd he (hended e)⟩
      rintro _ _ ⟨⟩
      exact hst rows pos hresults

/-- A source that writes gives the row with the number of rows, if it has one. -/
theorem safe_write {operation : Catalog → Row → Storage → Except Error Unit × Storage}
    (hchild : Safe catalog W P fails child ready)
    (hoperation : ∀ {row s r s'}, P row → W s → operation catalog row s = (r, s') →
      W s' ∧ ∀ e, r = .error e → fails e)
    (hcount : ∀ count, Q (Plan.countRow count)) :
    Safe catalog W Q fails (write operation child) fun st =>
      ∀ row, st.results.1 = some row → Q row where
  start := by
    intro st s r st' s' hs h
    let any : Nat → Prop := fun _ => True
    have hcounted : ∀ {row : Row} {count : Nat} {s : Storage} {r : Except Error Nat} {s' : Storage},
        P row → W s → any count → counted (operation catalog) row count s = (r, s') →
        W s' ∧ (∀ count', r = .ok count' → any count') ∧ ∀ e, r = .error e → fails e := by
      intro row count s r s' hrow hs _ hdone
      unfold counted at hdone
      rcases hwritten : operation catalog row s with ⟨r₁, s₁⟩
      obtain ⟨hs₁, hfails⟩ := hoperation hrow hs hwritten
      rw [hwritten] at hdone
      cases r₁ with
      | error e =>
        cases hdone
        refine ⟨hs₁, ?_, ?_⟩
        · rintro _ ⟨⟩
        · rintro _ ⟨⟩
          exact hfails e rfl
      | ok =>
        cases hdone
        refine ⟨hs₁, fun _ _ => trivial, ?_⟩
        rintro _ ⟨⟩
    obtain ⟨result, c, hdrain, hcases⟩ := start_write_cases h
    obtain ⟨hs₁, -, hfails⟩ := drain_safe hchild hcounted hs (show any 0 from trivial) hdrain
    refine ⟨hs₁, ?_⟩
    obtain ⟨e, rfl, rfl, rfl⟩ | ⟨count, rfl, rfl, rfl⟩ := hcases
    · constructor
      · rintro ⟨⟩
      · rintro _ ⟨⟩
        exact ⟨hfails e rfl, id⟩
    · constructor
      · rintro - _ ⟨⟩
        exact hcount count
      · rintro _ ⟨⟩
  rewind := by
    intro st s r st' s' hs hst h
    cases h
    refine ⟨hs, hst, ?_⟩
    rintro _ ⟨⟩
  each := by
    intro α consume inv st a s ending st' a' s' hconsume hs hst ha h
    obtain ⟨c, held, served⟩ := st
    cases served with
    | true =>
      cases h
      refine ⟨hs, hst, ha, ?_⟩
      rintro _ ⟨⟩
    | false =>
      cases held with
      | none =>
        cases h
        refine ⟨hs, ?_, ha, ?_⟩
        · rintro _ ⟨⟩
        · rintro _ ⟨⟩
      | some row =>
        simp only [write, Bool.false_eq_true, if_false] at h
        rcases hstep : consume row a s with ⟨step, s₁⟩
        obtain ⟨hs₁, hb⟩ := hconsume (hst row rfl) hs ha hstep
        rw [hstep] at h
        cases step with
        | done b =>
          cases h
          refine ⟨hs₁, hst, hb, ?_⟩
          rintro _ ⟨⟩
        | yield b =>
          cases h
          refine ⟨hs₁, hst, hb, ?_⟩
          rintro _ ⟨⟩

end Drain

/-! ## The rules for using a source -/

namespace Guarded

variable {src : Source} {ready : src.State → Prop} {g g' : Guarded src.State}

/-- The source is open and ready, and the row that was looked at is a row of `Q`. -/
def Ready (Q : Row → Prop) (ready : src.State → Prop) (g : Guarded src.State) : Prop :=
  g.isOpen = true ∧ ready g.inner ∧ ∀ row, g.ahead = some row → Q row

/-- A start that succeeds opens; one that fails changes nothing but the source itself. -/
theorem start_safe (hsrc : Safe catalog W Q fails src ready) {r : Except Error Unit} (hs : W s)
    (h : Guarded.start catalog g s = (r, g', s')) :
    W s' ∧ (r = .ok () → Ready Q ready g') ∧
      ∀ e, r = .error e → fails e ∧ g'.isOpen = g.isOpen ∧ (Ready Q ready g → Ready Q ready g') := by
  unfold Guarded.start at h
  rcases hstart : src.start catalog g.inner s with ⟨result, inner, s₁⟩
  obtain ⟨hs₁, hst, hfails⟩ := hsrc.start hs hstart
  rw [hstart] at h
  cases result with
  | ok =>
    cases h
    exact ⟨hs₁, fun _ => ⟨rfl, hst rfl, nofun⟩, nofun⟩
  | error e =>
    cases h
    refine ⟨hs₁, nofun, ?_⟩
    rintro _ ⟨⟩
    obtain ⟨hallowed, hkeeps⟩ := hfails e rfl
    exact ⟨hallowed, rfl, fun ⟨hopen, hold, hahead⟩ => ⟨hopen, hkeeps hold, hahead⟩⟩

theorem rewind_safe (hsrc : Safe catalog W Q fails src ready) {r : Except Error Unit} (hs : W s)
    (hg : Ready Q ready g) (h : Guarded.rewind catalog g s = (r, g', s')) :
    W s' ∧ Ready Q ready g' ∧ ∀ e, r = .error e → fails e := by
  obtain ⟨hopen, hst, hahead⟩ := hg
  unfold Guarded.rewind at h
  rw [hopen] at h
  simp only [Bool.not_true, Bool.false_eq_true, if_false] at h
  rcases hrewind : src.rewind catalog g.inner s with ⟨result, inner, s₁⟩
  obtain ⟨hs₁, hst₁, hfails⟩ := hsrc.rewind hs hst hrewind
  rw [hrewind] at h
  cases result with
  | ok =>
    cases h
    exact ⟨hs₁, ⟨rfl, hst₁, nofun⟩, nofun⟩
  | error e =>
    cases h
    exact ⟨hs₁, ⟨rfl, hst₁, hahead⟩, hfails⟩

theorem each_safe (hsrc : Safe catalog W Q fails src ready) (hconsume : Respects W Q inv consume)
    (hs : W s) (hg : Ready Q ready g) (ha : inv a)
    (h : Guarded.each catalog consume g a s = (ending, g', a', s')) :
    W s' ∧ Ready Q ready g' ∧ inv a' ∧ ∀ e, ending = .failed e → fails e := by
  obtain ⟨hopen, hst, hahead⟩ := hg
  -- once the row that was looked at is given, the source itself goes on
  have hrest : ∀ {b c : α} {s₁ s₂ : Storage} {ended : Ending} {inner : src.State}, W s₁ → inv b →
      src.each catalog consume g.inner b s₁ = (ended, inner, c, s₂) →
      W s₂ ∧ Ready Q ready { g with ahead := none, inner := inner } ∧ inv c ∧
        ∀ e, ended = .failed e → fails e := by
    intro b c s₁ s₂ ended inner hs₁ hb heach
    obtain ⟨hs₂, hst₂, hc, hfails⟩ := hsrc.each hconsume hs₁ hst hb heach
    refine ⟨hs₂, ⟨hopen, hst₂, ?_⟩, hc, hfails⟩
    rintro _ ⟨⟩
  rw [Guarded.each_eq, if_neg (by simp [hopen])] at h
  cases hrow : g.ahead with
  | none =>
    rcases heach : src.each catalog consume g.inner a s with ⟨ended, inner, c, s₂⟩
    simp only [hrow, heach] at h
    cases h
    exact hrest hs ha heach
  | some row =>
    rcases hstep : consume row a s with ⟨step, s₁⟩
    obtain ⟨hs₁, hb⟩ := hconsume (hahead row hrow) hs ha hstep
    simp only [hrow, hstep] at h
    cases step with
    | done b =>
      cases h
      refine ⟨hs₁, ⟨hopen, hst, ?_⟩, hb, ?_⟩
      · rintro _ ⟨⟩
      · rintro _ ⟨⟩
    | yield b =>
      rcases heach : src.each catalog consume g.inner b s₁ with ⟨ended, inner, c, s₂⟩
      simp only [heach] at h
      cases h
      exact hrest hs₁ hb heach

end Guarded

section Guard

variable {src : Source} {ready : src.State → Prop}

/-- What a source keeps, it keeps under the rules for using it. -/
theorem Safe.guard (hsrc : Safe catalog W Q fails src ready) :
    Safe catalog W Q fails src.guard (Guarded.Ready Q ready) where
  start := by
    intro g s r g' s' hs h
    obtain ⟨hs', hok, herror⟩ := Guarded.start_safe hsrc hs h
    refine ⟨hs', hok, fun e he => ?_⟩
    obtain ⟨hallowed, -, hkeeps⟩ := herror e he
    exact ⟨hallowed, hkeeps⟩
  rewind := fun hs hg h => Guarded.rewind_safe hsrc hs hg h
  each := fun hconsume hs hg ha h => Guarded.each_safe hsrc hconsume hs hg ha h

/-- The next row is a row of `Q`. -/
theorem fetch_safe (hsrc : Safe catalog W Q fails src ready) {st st' : src.State}
    {r : Except Error (Option Row)} (hs : W s) (hst : ready st)
    (h : src.fetch catalog st s = (r, st', s')) :
    W s' ∧ ready st' ∧ (∀ row, r = .ok (some row) → Q row) ∧ ∀ e, r = .error e → fails e := by
  let isSafe : Option Row → Prop := fun found => ∀ row, found = some row → Q row
  have htake : Respects W Q isSafe fun row _ s => (.done (some row), s) := by
    intro row found s step s' hrow hs _ hstep
    cases hstep
    refine ⟨hs, ?_⟩
    rintro _ ⟨⟩
    exact hrow
  unfold fetch at h
  rcases heach : src.each catalog (fun row _ s => (.done (some row), s)) st none s
    with ⟨ended, st₁, found, s₁⟩
  have hnothing : isSafe none := nofun
  obtain ⟨hs₁, hst₁, hfound, hfails⟩ := hsrc.each htake hs hst hnothing heach
  rw [heach] at h
  cases ended with
  | failed e =>
    cases h
    refine ⟨hs₁, hst₁, nofun, ?_⟩
    rintro _ ⟨⟩
    exact hfails e rfl
  | exhausted =>
    cases h
    exact ⟨hs₁, hst₁, fun row hrow => hfound row (Except.ok.inj hrow), nofun⟩
  | stopped =>
    cases h
    exact ⟨hs₁, hst₁, fun row hrow => hfound row (Except.ok.inj hrow), nofun⟩

namespace Guarded

variable {g g' : Guarded src.State}

theorem hasNext_safe (hsrc : Safe catalog W Q fails src ready) {r : Except Error Bool} (hs : W s)
    (hg : Ready Q ready g) (h : Guarded.hasNext catalog g s = (r, g', s')) :
    W s' ∧ Ready Q ready g' ∧ ∀ e, r = .error e → fails e := by
  obtain ⟨hopen, hst, hahead⟩ := hg
  unfold Guarded.hasNext at h
  rw [hopen] at h
  simp only [Bool.not_true, Bool.false_eq_true, if_false] at h
  cases hrow : g.ahead with
  | some row =>
    rw [hrow] at h
    cases h
    exact ⟨hs, ⟨hopen, hst, hahead⟩, nofun⟩
  | none =>
    rw [hrow] at h
    rcases hfetch : src.fetch catalog g.inner s with ⟨result, inner, s₁⟩
    obtain ⟨hs₁, hst₁, hfound, hfails⟩ := fetch_safe hsrc hs hst hfetch
    rw [hfetch] at h
    cases result with
    | error e =>
      cases h
      refine ⟨hs₁, ⟨rfl, hst₁, nofun⟩, ?_⟩
      rintro _ ⟨⟩
      exact hfails e rfl
    | ok found =>
      cases h
      exact ⟨hs₁, ⟨rfl, hst₁, fun row hrow => hfound row (congrArg Except.ok hrow)⟩, nofun⟩

theorem next_safe (hsrc : Safe catalog W Q fails src ready) {r : Except Error Row} (hs : W s)
    (hg : Ready Q ready g) (h : Guarded.next catalog g s = (r, g', s')) :
    W s' ∧ Ready Q ready g' ∧ (∀ row, r = .ok row → Q row) ∧
      ∀ e, r = .error e → fails e ∨ e = .noMoreRows := by
  unfold Guarded.next at h
  rcases hnext : Guarded.hasNext catalog g s with ⟨result, g₁, s₁⟩
  obtain ⟨hs₁, ⟨hopen, hst, hahead⟩, hfails⟩ := hasNext_safe hsrc hs hg hnext
  rw [hnext] at h
  cases result with
  | error e =>
    cases h
    refine ⟨hs₁, ⟨hopen, hst, hahead⟩, nofun, ?_⟩
    rintro _ ⟨⟩
    exact Or.inl (hfails e rfl)
  | ok any =>
    simp only at h
    cases hrow : g₁.ahead with
    | none =>
      rw [hrow] at h
      cases h
      refine ⟨hs₁, ⟨hopen, hst, hahead⟩, nofun, ?_⟩
      rintro _ ⟨⟩
      exact Or.inr rfl
    | some row =>
      rw [hrow] at h
      cases h
      refine ⟨hs₁, ⟨hopen, hst, nofun⟩, ?_, nofun⟩
      rintro _ ⟨⟩
      exact hahead row hrow

end Guarded

end Guard

end RowStore.Source
