import RowStore.Plan.Meaning
import RowStore.Proofs.Cursor.Gives

/-!
What the sources that take their rows from others give.

1. A filter gives the rows of its child that satisfy the condition (`gives_filter`).
2. A join gives the pairs of its outer and its inner rows (`gives_join`).  Between two of its rows
   it is in the middle of a run through the inner source, and the row of the outer source is kept.
3. An aggregation gives the rows of the reduced rows of its child (`gives_aggregate`).  It reads
   them all when it is started, and from then on it is a list.
4. A source that writes drains its child when it is started: every row of the child is written
   (`write_ends`).
5. A run begins with a start (`Runs`).  What is below a source that was drained ran to an end
   (`runs_of_drain`), also where no list of rows is known, since what is written is read again.

Crux.  The rows that a join has left are those of the kept row with what is left of the inner
source, and then those of the outer rows that are left with all of the inner rows (`Joining.Has`).
Every run through the inner source ends with a rewind, so the inner source has all of its rows left
whenever no row is kept.
-/

namespace RowStore

/-- An inner row more. -/
theorem JoinCondition.pairs_cons_right (c : JoinCondition) (schema : Schema) (row right : Row)
    (inner : List Row) :
    c.pairs schema [row] (right :: inner) =
      if c.holds row right then Row.append schema row right :: c.pairs schema [row] inner
      else c.pairs schema [row] inner := by
  unfold pairs
  simp only [List.flatMap_cons, List.flatMap_nil, List.append_nil, List.filter_cons]
  split <;> rfl

namespace Source

open Storage

variable {α : Type} {catalog : Catalog} {W : Storage → Prop} {fails : Error → Prop}

/-! ## Filter -/

section Filter

variable {child : Source} {rows : List Row} {has : child.State → List Row → Prop}

/-- A filter gives the rows that satisfy its condition. -/
theorem gives_filter (condition : Condition) (hchild : Gives catalog W fails child rows has) :
    Gives catalog W fails (filter condition child) (rows.filter condition.holds)
      fun st left => ∃ rest, has st rest ∧ left = rest.filter condition.holds where
  calm := hchild.calm
  start := fun hs h => by
    obtain ⟨hquiet, hbegun⟩ := hchild.start hs h
    exact ⟨hquiet, hbegun.imp (fun he => he) fun hst => ⟨rows, hst, rfl⟩⟩
  rewind := by
    rintro st left s r st' s' hs ⟨rest, hst, -⟩ h
    obtain ⟨hquiet, hbegun⟩ := hchild.rewind hs hst h
    exact ⟨hquiet, hbegun.imp (fun he => he) fun hst => ⟨rows, hst, rfl⟩⟩
  each := by
    rintro α consume inv stop st left a s ending st' a' s' hconsume hinv ⟨rest, hst, rfl⟩ ha h
    have hpassed := hconsume.passed (p := condition.holds) (f := fun row => row)
      (g := fun rest => rest.filter condition.holds) fun row rest => List.filter_cons
    have hended := hchild.each hpassed (fun ha => hinv ha) hst ha h
    cases hended with
    | exhausted hst ha => exact .exhausted ⟨[], hst, rfl⟩ ha
    | stopped hst ha => exact .stopped ⟨_, hst, rfl⟩ ha
    | failed he ha => exact .failed he ha

end Filter

/-! ## Join -/

/-- The rows that a join has left. -/
def Joining.Has {σ τ : Type} (condition : JoinCondition) (schema : Schema)
    (hasOuter : σ → List Row → Prop) (hasInner : τ → List Row → Prop) (innerRows : List Row)
    (st : Joining σ τ) (left : List Row) : Prop :=
  ∃ outerLeft innerLeft, hasOuter st.outer outerLeft ∧ hasInner st.inner innerLeft ∧
    match st.pending with
    | none => innerLeft = innerRows ∧ left = condition.pairs schema outerLeft innerRows
    | some row => left = condition.pairs schema [row] innerLeft ++
        condition.pairs schema outerLeft innerRows

section Join

variable {condition : JoinCondition} {schema : Schema} {outer inner : Source}
  {outerRows innerRows : List Row} {hasOuter : outer.State → List Row → Prop}
  {hasInner : inner.State → List Row → Prop} {consume : Consumer α}
  {inv stop : List Row → α → Storage → Prop} {a a' : α} {s s' : Storage}

/-- **One outer row.**  Either its pairs with what is left of the inner source are used up, and the
    inner source has all its rows again, or the consumer had enough before, or something failed. -/
theorem joinRow_ends (hinner : Gives catalog W fails inner innerRows hasInner)
    (hconsume : Consumes catalog consume inv stop) (hinv : ∀ {left a s}, inv left a s → W s)
    {row : Row} {innerLeft others : List Row} {st st' : inner.State} {r : Option Ending}
    (hst : hasInner st innerLeft) (ha : inv (condition.pairs schema [row] innerLeft ++ others) a s)
    (h : joinRow condition schema inner catalog consume row st a s = (r, st', a', s')) :
    (r = none ∧ hasInner st' innerRows ∧ inv others a' s') ∨
    (r = some .stopped ∧ ∃ rest, hasInner st' rest ∧
      stop (condition.pairs schema [row] rest ++ others) a' s') ∨
    (∃ e rest, r = some (.failed e) ∧ fails e ∧ inv rest a' s') := by
  have hpaired := hconsume.passed (p := condition.holds row) (f := Row.append schema row)
    (g := fun rest => condition.pairs schema [row] rest ++ others) (by
      intro right rest
      rw [JoinCondition.pairs_cons_right]
      split <;> rfl)
  unfold joinRow at h
  rcases heach : inner.each catalog
      (fun right a s => if condition.holds row right then
        consume (Row.append schema row right) a s else (.yield a, s)) st a s
    with ⟨ending, st₁, b, s₁⟩
  have hended := hinner.each hpaired hinv hst ha heach
  rw [heach] at h
  cases hended with
  | exhausted hst hb =>
    -- the rewind at the end is what gives the inner source all its rows back
    simp only at h
    rcases hrewind : inner.rewind catalog st₁ s₁ with ⟨result, st₂, s₂⟩
    obtain ⟨hquiet, hbegun⟩ := hinner.rewind (hinv hb) hst hrewind
    have hb₂ := hconsume.quiet hb hquiet
    rw [hrewind] at h
    cases hbegun with
    | ok hst =>
      cases h
      exact Or.inl ⟨rfl, hst, hb₂⟩
    | error he =>
      cases h
      exact Or.inr (Or.inr ⟨_, _, rfl, he, hb₂⟩)
  | stopped hst hb =>
    cases h
    exact Or.inr (Or.inl ⟨rfl, _, hst, hb⟩)
  | failed he hb =>
    cases h
    exact Or.inr (Or.inr ⟨_, _, rfl, he, hb⟩)

/-- Sends an outer row through the inner source, which is carried along. -/
def carryRow (condition : JoinCondition) (schema : Schema) (inner : Source) (catalog : Catalog)
    (consume : Consumer α) : Consumer (Carried inner.State α) := fun row c s =>
  match joinRow condition schema inner catalog consume row c.inner c.value s with
  | (none, st, a, s) => (.yield ⟨st, a, none⟩, s)
  | (some ending, st, a, s) => (.done ⟨st, a, some (row, ending)⟩, s)

/-- The outer rows that are left are sent through the inner source one by one. -/
theorem joinRows_eq {st : Joining outer.State inner.State} :
    joinRows condition schema outer inner catalog consume st a s =
      match outer.each catalog (carryRow condition schema inner catalog consume) st.outer
          ⟨st.inner, a, none⟩ s with
      | (ending, left, carried, s) =>
        match carried.ended with
        | some (row, ending) => (ending, ⟨left, carried.inner, keptRow row ending⟩, carried.value, s)
        | none => (ending, ⟨left, carried.inner, none⟩, carried.value, s) := rfl

/-- The outer rows that are left, when no row is kept. -/
theorem joinRows_ended (houter : Gives catalog W fails outer outerRows hasOuter)
    (hinner : Gives catalog W fails inner innerRows hasInner)
    (hconsume : Consumes catalog consume inv stop) (hinv : ∀ {left a s}, inv left a s → W s)
    {outerLeft : List Row} {st st' : Joining outer.State inner.State} {ending : Ending}
    (hleft : hasOuter st.outer outerLeft) (hright : hasInner st.inner innerRows)
    (ha : inv (condition.pairs schema outerLeft innerRows) a s)
    (h : joinRows condition schema outer inner catalog consume st a s = (ending, st', a', s')) :
    Ended fails (Joining.Has condition schema hasOuter hasInner innerRows) inv stop ending
      st' a' s' := by
  -- while the run goes on, the inner source has all its rows before every outer row
  have hcarried : Consumes catalog (carryRow condition schema inner catalog consume)
      (fun rest c s => c.ended = none ∧ hasInner c.inner innerRows ∧
        inv (condition.pairs schema rest innerRows) c.value s)
      (fun rest c s => ∃ row ending, c.ended = some (row, ending) ∧
        ((ending = .stopped ∧ ∃ innerLeft, hasInner c.inner innerLeft ∧
            stop (condition.pairs schema [row] innerLeft ++
              condition.pairs schema rest innerRows) c.value s) ∨
         (∃ e left, ending = .failed e ∧ fails e ∧ inv left c.value s))) := by
    refine ⟨?_, fun ⟨hend, hst, hb⟩ hquiet => ⟨hend, hst, hconsume.quiet hb hquiet⟩⟩
    rintro row rest ⟨cst, b, cend⟩ s step s' ⟨-, hst, hb⟩ hstep
    rw [show row :: rest = [row] ++ rest from rfl, JoinCondition.pairs_append] at hb
    rcases hjoin : joinRow condition schema inner catalog consume row cst b s with ⟨r, st₁, b', s₁⟩
    have hends := joinRow_ends hinner hconsume hinv hst hb hjoin
    simp only [carryRow, hjoin] at hstep
    rcases hends with ⟨rfl, hst', hb'⟩ | ⟨rfl, innerLeft, hst', hb'⟩ | ⟨e, left, rfl, he, hb'⟩
    · cases hstep
      exact ⟨rfl, hst', hb'⟩
    · cases hstep
      exact ⟨row, .stopped, rfl, Or.inl ⟨rfl, innerLeft, hst', hb'⟩⟩
    · cases hstep
      exact ⟨row, .failed e, rfl, Or.inr ⟨e, left, rfl, he, hb'⟩⟩
  rw [joinRows_eq] at h
  split at h
  rename_i ended ost carried s₁ heach
  obtain ⟨ist, b, cend⟩ := carried
  have hended := houter.each hcarried (fun ha => hinv ha.2.2) hleft ⟨rfl, hright, ha⟩ heach
  cases hended with
  | exhausted host hb =>
    obtain ⟨rfl, hist, hb⟩ := hb
    cases h
    exact .exhausted ⟨[], innerRows, host, hist, rfl, rfl⟩ hb
  | stopped host hb =>
    -- the row at which the run stopped is kept, whether the consumer or the inner source ended it
    obtain ⟨row, how, rfl, ⟨rfl, innerLeft, hist, hb⟩ | ⟨e, left, rfl, he, hb⟩⟩ := hb
    · cases h
      exact .stopped ⟨_, innerLeft, host, hist, rfl⟩ hb
    · cases h
      exact .failed he hb
  | failed he hb =>
    obtain ⟨rfl, -, hb⟩ := hb
    cases h
    exact .failed he hb

/-- All rows that are left, also those of the kept row. -/
theorem joinEach_ended (houter : Gives catalog W fails outer outerRows hasOuter)
    (hinner : Gives catalog W fails inner innerRows hasInner)
    (hconsume : Consumes catalog consume inv stop) (hinv : ∀ {left a s}, inv left a s → W s)
    {left : List Row} {st st' : Joining outer.State inner.State} {ending : Ending}
    (hst : Joining.Has condition schema hasOuter hasInner innerRows st left) (ha : inv left a s)
    (h : joinEach condition schema outer inner catalog consume st a s = (ending, st', a', s')) :
    Ended fails (Joining.Has condition schema hasOuter hasInner innerRows) inv stop ending
      st' a' s' := by
  obtain ⟨outerLeft, innerLeft, hleft, hright, hpending⟩ := hst
  unfold joinEach at h
  rcases hkept : st.pending with _ | row
  · rw [hkept] at h hpending
    obtain ⟨rfl, rfl⟩ := hpending
    exact joinRows_ended houter hinner hconsume hinv hleft hright ha h
  · rw [hkept] at h hpending
    subst hpending
    rcases hjoin : joinRow condition schema inner catalog consume row st.inner a s
      with ⟨r, st₁, b, s₁⟩
    have hends := joinRow_ends hinner hconsume hinv hright ha hjoin
    simp only [hjoin] at h
    -- only if the kept row is used up, the run goes on with the outer source
    rcases hends with ⟨rfl, hist, hb⟩ | ⟨rfl, rest, hist, hb⟩ | ⟨e, rest, rfl, he, hb⟩
    · refine joinRows_ended houter hinner hconsume hinv ?_ ?_ hb h
      · exact hleft
      · exact hist
    · cases h
      exact .stopped ⟨outerLeft, rest, hleft, hist, rfl⟩ hb
    · cases h
      exact .failed he hb

/-- A beginning that succeeds is one with both sources. -/
theorem joinBoth_eq_ok
    {onOuter : Catalog → outer.State → Storage → Except Error Unit × outer.State × Storage}
    {onInner : Catalog → inner.State → Storage → Except Error Unit × inner.State × Storage}
    {st st' : Joining outer.State inner.State}
    (h : joinBoth outer inner catalog onOuter onInner st s = (.ok (), st', s')) :
    ∃ o i s₁, onOuter catalog st.outer s = (.ok (), o, s₁) ∧
      onInner catalog st.inner s₁ = (.ok (), i, s') := by
  unfold joinBoth at h
  rcases hfirst : onOuter catalog st.outer s with ⟨r₁, o, s₁⟩
  rw [hfirst] at h
  cases r₁ with
  | error e => cases h
  | ok =>
    rcases hsecond : onInner catalog st.inner s₁ with ⟨r₂, i, s₂⟩
    simp only [hsecond] at h
    cases r₂ with
    | error e => cases h
    | ok =>
      cases h
      exact ⟨o, i, s₁, rfl, hsecond⟩

/-- Beginning with both sources is beginning with the join. -/
theorem joinBoth_begun
    {onOuter : Catalog → outer.State → Storage → Except Error Unit × outer.State × Storage}
    {onInner : Catalog → inner.State → Storage → Except Error Unit × inner.State × Storage}
    {st st' : Joining outer.State inner.State} {r : Except Error Unit}
    (hcalm : ∀ {s s'}, W s → Quiet catalog s s' → W s') (hs : W s)
    (houter : ∀ {s r st' s'}, W s → onOuter catalog st.outer s = (r, st', s') →
      Quiet catalog s s' ∧ Begun fails hasOuter outerRows r st')
    (hinner : ∀ {s r st' s'}, W s → onInner catalog st.inner s = (r, st', s') →
      Quiet catalog s s' ∧ Begun fails hasInner innerRows r st')
    (h : joinBoth outer inner catalog onOuter onInner st s = (r, st', s')) :
    Quiet catalog s s' ∧ Begun fails (Joining.Has condition schema hasOuter hasInner innerRows)
      (condition.pairs schema outerRows innerRows) r st' := by
  unfold joinBoth at h
  rcases hfirst : onOuter catalog st.outer s with ⟨r₁, ost, s₁⟩
  obtain ⟨hquiet₁, hbegun₁⟩ := houter hs hfirst
  rw [hfirst] at h
  cases hbegun₁ with
  | error he =>
    cases h
    exact ⟨hquiet₁, .error he⟩
  | ok host =>
    simp only at h
    rcases hsecond : onInner catalog st.inner s₁ with ⟨r₂, ist, s₂⟩
    obtain ⟨hquiet₂, hbegun₂⟩ := hinner (hcalm hs hquiet₁) hsecond
    have hquiet : Quiet catalog s s₂ := hquiet₁.trans hquiet₂
    rw [hsecond] at h
    cases hbegun₂ with
    | error he =>
      cases h
      exact ⟨hquiet, .error he⟩
    | ok hist =>
      cases h
      exact ⟨hquiet, .ok ⟨outerRows, innerRows, host, hist, rfl, rfl⟩⟩

/-- A join gives the pairs of the outer and the inner rows. -/
theorem gives_join (houter : Gives catalog W fails outer outerRows hasOuter)
    (hinner : Gives catalog W fails inner innerRows hasInner) :
    Gives catalog W fails (join condition outer inner)
      (condition.pairs (outer.schema.append inner.schema) outerRows innerRows)
      (Joining.Has condition (outer.schema.append inner.schema) hasOuter hasInner innerRows) where
  calm := houter.calm
  start := fun hs h => joinBoth_begun houter.calm hs
    (fun hs h => houter.start hs h) (fun hs h => hinner.start hs h) h
  rewind := by
    rintro st left s r st' s' hs ⟨outerLeft, innerLeft, hleft, hright, -⟩ h
    exact joinBoth_begun houter.calm hs
      (fun hs h => houter.rewind hs hleft h) (fun hs h => hinner.rewind hs hright h) h
  each := fun hconsume hinv hst ha h => joinEach_ended houter hinner hconsume hinv hst ha h

end Join

/-! ## Runs -/

/-- A source was started, and its rows were given to a consumer. -/
def Runs (src : Source) (catalog : Catalog) (consume : Consumer α) (a : α) (s : Storage)
    (ending : Ending) (a' : α) (s' : Storage) : Prop :=
  ∃ st st₁ s₁ st₂, src.start catalog st s = (.ok (), st₁, s₁) ∧
    src.each catalog consume st₁ a s₁ = (ending, st₂, a', s')

/-- Under the rules for using it a source that was started runs as it does by itself. -/
theorem Runs.of_guard {src : Source} {consume : Consumer α} {a a' : α} {s s' : Storage}
    {ending : Ending} (h : src.guard.Runs catalog consume a s ending a' s') :
    src.Runs catalog consume a s ending a' s' := by
  obtain ⟨g, g₁, s₁, g₂, hstart, heach⟩ := h
  replace hstart : Guarded.start catalog g s = (.ok (), g₁, s₁) := hstart
  replace heach : Guarded.each catalog consume g₁ a s₁ = (ending, g₂, a', s') := heach
  obtain ⟨st, hinner, rfl⟩ := Guarded.start_eq_ok hstart
  rw [Guarded.each_eq] at heach
  rcases hrun : src.each catalog consume st a s₁ with ⟨ending', st', b, s₃⟩
  simp only [Bool.true_eq_false, if_false, hrun] at heach
  cases heach
  exact ⟨_, _, _, _, hinner, hrun⟩

/-! ## Draining -/

section Drain

variable {child : Source} {rows : List Row} {has : child.State → List Row → Prop}

/-- What is done with the rows of a source that is drained: the first error is kept. -/
def feed (operation : Row → α → Storage → Except Error α × Storage) : Consumer (Except Error α) :=
  fun row result s =>
    match result with
    | .error e => (.done (.error e), s)
    | .ok a =>
      match operation row a s with
      | (.error e, s) => (.done (.error e), s)
      | (.ok a, s) => (.yield (.ok a), s)

/-- As long as the operation succeeds, `inv` holds; when it fails, `refused` does. -/
theorem feed_consumes {operation : Row → α → Storage → Except Error α × Storage}
    {inv : List Row → α → Storage → Prop} (refused : Error → Storage → Prop)
    (hoperation : ∀ {row left a a' s s'}, inv (row :: left) a s →
      operation row a s = (.ok a', s') → inv left a' s')
    (hrefused : ∀ {row left a e s s'}, inv (row :: left) a s →
      operation row a s = (.error e, s') → refused e s')
    (hquiet : ∀ {left a s s'}, inv left a s → Quiet catalog s s' → inv left a s') :
    Consumes catalog (feed operation) (fun left result s => ∃ a, result = .ok a ∧ inv left a s)
      fun _ result s => ∃ e, result = .error e ∧ refused e s := by
  refine ⟨?_, fun ⟨a, hresult, ha⟩ hloaded => ⟨a, hresult, hquiet ha hloaded⟩⟩
  rintro row left result s step s' ⟨a, rfl, ha⟩ hstep
  unfold feed at hstep
  rcases hrow : operation row a s with ⟨r, s₁⟩
  simp only [hrow] at hstep
  cases r with
  | error e =>
    cases hstep
    exact ⟨e, rfl, hrefused ha hrow⟩
  | ok b =>
    cases hstep
    exact ⟨b, rfl, hoperation ha hrow⟩

/-- **Draining a source.**  As long as the operation succeeds, `inv` holds of the rows that are left;
    when it fails, `refused` does. -/
theorem drain_ends (hchild : Gives catalog W fails child rows has)
    {operation : Row → α → Storage → Except Error α × Storage} (inv : List Row → α → Storage → Prop)
    (refused : Error → Storage → Prop)
    (hoperation : ∀ {row left a a' s s'}, inv (row :: left) a s →
      operation row a s = (.ok a', s') → inv left a' s')
    (hrefused : ∀ {row left a e s s'}, inv (row :: left) a s →
      operation row a s = (.error e, s') → refused e s')
    (hquiet : ∀ {left a s s'}, inv left a s → Quiet catalog s s' → inv left a s')
    (hinv : ∀ {left a s}, inv left a s → W s) {a : α} {st st' : child.State}
    {s s' : Storage} {r : Except Error α} (ha : inv rows a s)
    (h : child.drain catalog operation st a s = (r, st', s')) :
    (∃ b, r = .ok b ∧ inv [] b s') ∨
    (∃ e, r = .error e ∧ (refused e s' ∨ (fails e ∧ ∃ left b, inv left b s'))) := by
  have hfeed := feed_consumes refused hoperation hrefused hquiet
  unfold drain at h
  split at h
  · rename_i e st₁ s₁ hstart
    obtain ⟨hloaded, hbegun⟩ := hchild.start (hinv ha) hstart
    cases hbegun with
    | error he =>
      cases h
      exact Or.inr ⟨_, rfl, Or.inr ⟨he, _, _, hquiet ha hloaded⟩⟩
  · rename_i st₁ s₁ hstart
    obtain ⟨hloaded, hbegun⟩ := hchild.start (hinv ha) hstart
    cases hbegun with
    | ok hst =>
      split at h
      rename_i ending st₂ result s₂ heach
      have hneeds : ∀ {left : List Row} {result : Except Error α} {s : Storage},
          (∃ a, result = .ok a ∧ inv left a s) → W s := fun ⟨_, _, ha⟩ => hinv ha
      have hended := hchild.each hfeed hneeds hst ⟨a, rfl, hquiet ha hloaded⟩ heach
      cases hended with
      | exhausted hst hb =>
        obtain ⟨b, rfl, hb⟩ := hb
        cases h
        exact Or.inl ⟨b, rfl, hb⟩
      | stopped hst hb =>
        obtain ⟨e, rfl, hb⟩ := hb
        cases h
        exact Or.inr ⟨e, rfl, Or.inl hb⟩
      | failed he hb =>
        obtain ⟨b, rfl, hb⟩ := hb
        cases h
        exact Or.inr ⟨_, rfl, Or.inr ⟨he, _, b, hb⟩⟩

/-- When a source was drained, it was started and ran to an end. -/
theorem runs_of_drain {operation : Row → α → Storage → Except Error α × Storage} {a b : α}
    {st st' : child.State} {s s' : Storage}
    (h : child.drain catalog operation st a s = (.ok b, st', s')) :
    ∃ ending, (∀ e, ending ≠ .failed e) ∧
      child.Runs catalog (feed operation) (.ok a) s ending (.ok b) s' := by
  unfold drain at h
  split at h
  · cases h
  · rename_i st₁ s₁ hstart
    split at h
    rename_i ending st₂ result s₂ heach
    cases ending with
    | failed e => cases h
    | exhausted =>
      cases h
      exact ⟨.exhausted, nofun, st, st₁, s₁, st', hstart, heach⟩
    | stopped =>
      cases h
      exact ⟨.stopped, nofun, st, st₁, s₁, st', hstart, heach⟩

/-- Draining a source folds its rows, and only loads pages. -/
theorem fold_ends (hchild : Gives catalog W fails child rows has)
    {f : Row → α → Except Error α} {a b : α}
    (hfold : rows.foldlM (fun a row => f row a) a = .ok b) {st st' : child.State} {s s' : Storage}
    {r : Except Error α} (hs : W s)
    (h : child.drain catalog (fun row a s => (f row a, s)) st a s = (r, st', s')) :
    Quiet catalog s s' ∧ (r = .ok b ∨ ∃ e, r = .error e ∧ fails e) := by
  -- folding what is left into what was folded gives `b`, so no row is refused under way
  let inv : List Row → α → Storage → Prop := fun left a now =>
    W now ∧ Quiet catalog s now ∧ left.foldlM (fun a row => f row a) a = .ok b
  have hoperation : ∀ {row : Row} {left : List Row} {a a' : α} {s s' : Storage},
      inv (row :: left) a s → (f row a, s) = (.ok a', s') → inv left a' s' := by
    rintro row left a a' s s' ⟨hs, hquiet, hleft⟩ hrow
    obtain ⟨hadd, rfl⟩ := Prod.mk.inj hrow
    rw [List.foldlM_cons, hadd] at hleft
    exact ⟨hs, hquiet, hleft⟩
  have hrefused : ∀ {row : Row} {left : List Row} {a : α} {e : Error} {s s' : Storage},
      inv (row :: left) a s → (f row a, s) = (.error e, s') → False := by
    rintro row left a e s s' ⟨-, -, hleft⟩ hrow
    obtain ⟨hadd, rfl⟩ := Prod.mk.inj hrow
    rw [List.foldlM_cons, hadd] at hleft
    cases hleft
  have hcalm : ∀ {left : List Row} {a : α} {s s' : Storage}, inv left a s → Quiet catalog s s' →
      inv left a s' := fun ⟨hs, hquiet, hleft⟩ hloaded =>
    ⟨hchild.calm hs hloaded, hquiet.trans hloaded, hleft⟩
  have hall : inv rows a s := ⟨hs, .refl, hfold⟩
  obtain ⟨c, rfl, -, hquiet, hc⟩ | ⟨e, rfl, hno | ⟨he, left, c, -, hquiet, -⟩⟩ :=
    drain_ends hchild inv (fun _ _ => False) hoperation hrefused hcalm And.left hall h
  · cases hc
    exact ⟨hquiet, Or.inl rfl⟩
  · exact hno.elim
  · exact ⟨hquiet, Or.inr ⟨e, rfl, he⟩⟩

/-! ## Aggregation -/

/-- An aggregation gives the rows that the rows of its child are reduced to. -/
theorem gives_aggregate {aggregation : Aggregation} {result : List Row}
    (hreduce : aggregation.reduce rows = .ok result)
    (hchild : Gives catalog W fails child rows has) :
    Gives catalog W fails (aggregate aggregation child) result
      fun st left => ∃ pos, st.results = some (result, pos) ∧ left = result.drop pos where
  calm := hchild.calm
  start := by
    intro st s r st' s' hs h
    obtain ⟨groups, hfold, hrows⟩ : ∃ groups,
        rows.foldlM (fun groups row => aggregation.add row groups) [] = .ok groups ∧
          aggregation.groupRows groups = .ok result := by
      unfold Aggregation.reduce at hreduce
      rcases hfold : rows.foldlM (fun groups row => aggregation.add row groups) [] with e | groups
      · rw [hfold] at hreduce
        cases hreduce
      · rw [hfold] at hreduce
        exact ⟨groups, rfl, hreduce⟩
    simp only [aggregate] at h
    rcases hdrain : child.drain catalog (fun row groups s => (aggregation.add row groups, s))
        st.child [] s with ⟨r₁, st₁, s₁⟩
    obtain ⟨hquiet, rfl | ⟨e, rfl, he⟩⟩ := fold_ends hchild hfold hs hdrain
    · rw [hdrain] at h
      simp only [hrows] at h
      cases h
      exact ⟨hquiet, .ok ⟨0, rfl, rfl⟩⟩
    · rw [hdrain] at h
      cases h
      exact ⟨hquiet, .error he⟩
  rewind := by
    rintro st left s r st' s' hs ⟨pos, hresults, -⟩ h
    cases h
    refine ⟨.refl, .ok ⟨0, ?_, rfl⟩⟩
    show Option.map _ st.results = _
    rw [hresults]
    rfl
  each := by
    rintro α consume inv stop st left a s ending st' a' s' hconsume - ⟨pos, hresults, rfl⟩ ha h
    simp only [aggregate, hresults] at h
    rcases heach : eachOf result consume pos a s with ⟨ended, pos', b, s₁⟩
    have hended : Ended fails (fun pos left => left = result.drop pos) inv stop ended pos' b s₁ :=
      eachOf_ends hconsume ha heach
    rw [heach] at h
    cases h
    cases hended with
    | exhausted hpos ha => exact .exhausted ⟨pos', rfl, hpos⟩ ha
    | stopped hpos ha => exact .stopped ⟨pos', rfl, hpos⟩ ha
    | failed he ha => exact .failed he ha

end Drain

end Source

/-! ## Writing -/

/-- Stores a row and says no more than whether that worked. -/
def Storage.storeRow (tid : TransactionId) (table : TableId) (catalog : Catalog) (row : Row)
    (s : Storage) : Except Error Unit × Storage :=
  match s.insertRow catalog tid table row with
  | (.error e, s) => (.error e, s)
  | (.ok _, s) => (.ok (), s)

section StoreRow

variable {catalog : Catalog} {tid : TransactionId} {table : TableId} {row : Row} {s s' : Storage}

theorem Storage.insertRow_of_storeRow (hstore : storeRow tid table catalog row s = (.ok (), s')) :
    ∃ row', s.insertRow catalog tid table row = (.ok row', s') := by
  unfold storeRow at hstore
  rcases hins : s.insertRow catalog tid table row with ⟨r, s₁⟩
  rw [hins] at hstore
  cases r with
  | error e => cases hstore
  | ok row' =>
    cases hstore
    exact ⟨row', rfl⟩

theorem Storage.insertRow_of_not_stored {e : Error}
    (hstore : storeRow tid table catalog row s = (.error e, s')) :
    s.insertRow catalog tid table row = (.error e, s') := by
  unfold storeRow at hstore
  rcases hins : s.insertRow catalog tid table row with ⟨r, s₁⟩
  rw [hins] at hstore
  cases r with
  | error e =>
    cases hstore
    rfl
  | ok row' => cases hstore

end StoreRow

namespace Source

open Storage

variable {α : Type} {catalog : Catalog} {W : Storage → Prop} {fails : Error → Prop}

section Write

variable {child : Source} {operation : Catalog → Row → Storage → Except Error Unit × Storage}
  {s s' : Storage}

/-- Writes a row and counts it. -/
def counted (operation : Row → Storage → Except Error Unit × Storage) (row : Row) (count : Nat)
    (s : Storage) : Except Error Nat × Storage :=
  match operation row s with
  | (.error e, s) => (.error e, s)
  | (.ok (), s) => (.ok (count + 1), s)

theorem counted_eq_ok {operation : Row → Storage → Except Error Unit × Storage} {row : Row}
    {count count' : Nat} (h : counted operation row count s = (.ok count', s')) :
    operation row s = (.ok (), s') ∧ count' = count + 1 := by
  unfold counted at h
  rcases hrow : operation row s with ⟨result, s₁⟩
  rw [hrow] at h
  cases result with
  | error e => cases h
  | ok =>
    cases h
    exact ⟨rfl, rfl⟩

/-- Starting a source that writes drains its child; if that fails, the row that it held stays. -/
theorem start_write_cases {st st' : WriteState child.State} {r : Except Error Unit}
    (h : (write operation child).start catalog st s = (r, st', s')) :
    ∃ result c, child.drain catalog (counted (operation catalog)) st.child 0 s = (result, c, s') ∧
      ((∃ e, result = .error e ∧ r = .error e ∧ st' = { st with child := c }) ∨
       (∃ count, result = .ok count ∧ r = .ok () ∧ st' = ⟨c, some (Plan.countRow count), false⟩)) := by
  simp only [write] at h
  split at h
  · rename_i e c s₁ hdrain
    cases h
    exact ⟨.error e, c, hdrain, Or.inl ⟨e, rfl, rfl, rfl⟩⟩
  · rename_i count c s₁ hdrain
    cases h
    exact ⟨.ok count, c, hdrain, Or.inr ⟨count, rfl, rfl, rfl⟩⟩

/-- Once a source that writes was started, its child was drained, and it holds the number of rows. -/
theorem drain_of_write {st st' : WriteState child.State}
    (h : (write operation child).start catalog st s = (.ok (), st', s')) :
    ∃ count st₁, child.drain catalog (counted (operation catalog)) st.child 0 s =
        (.ok count, st₁, s') ∧ st'.results = (some (Plan.countRow count), false) := by
  obtain ⟨result, c, hdrain, ⟨e, -, he, -⟩ | ⟨count, rfl, -, rfl⟩⟩ := start_write_cases h
  · cases he
  · exact ⟨count, c, hdrain, rfl⟩

/-- If its child gives some rows, it holds their number.  Whatever `inv` says of the rows that are left
    holds when none is, if writing a row leads from one to the next. -/
theorem write_ends {rows : List Row} {has : child.State → List Row → Prop}
    (hchild : Gives catalog W fails child rows has) (inv : List Row → Storage → Prop)
    (hoperation : ∀ {row left s s'}, inv (row :: left) s →
      operation catalog row s = (.ok (), s') → inv left s')
    (hquiet : ∀ {left s s'}, inv left s → Quiet catalog s s' → inv left s')
    (hinv : ∀ {left s}, inv left s → W s) {st st' : WriteState child.State}
    (ha : inv rows s) (h : (write operation child).start catalog st s = (.ok (), st', s')) :
    st'.results = (some (Plan.countRow rows.length), false) ∧ inv [] s' := by
  let sofar : List Row → Nat → Storage → Prop := fun left count s =>
    inv left s ∧ count + left.length = rows.length
  have hstep : ∀ {row : Row} {left : List Row} {count count' : Nat} {s s' : Storage},
      sofar (row :: left) count s → counted (operation catalog) row count s = (.ok count', s') →
      sofar left count' s' := by
    rintro row left count count' s s' ⟨ha, hcount⟩ hrow
    obtain ⟨hwritten, rfl⟩ := counted_eq_ok hrow
    refine ⟨hoperation ha hwritten, ?_⟩
    rw [List.length_cons] at hcount
    omega
  have hcalm : ∀ {left : List Row} {count : Nat} {s s' : Storage}, sofar left count s →
      Quiet catalog s s' → sofar left count s' :=
    fun ⟨ha, hcount⟩ hloaded => ⟨hquiet ha hloaded, hcount⟩
  have hneeds : ∀ {left : List Row} {count : Nat} {s : Storage}, sofar left count s → W s :=
    fun hsofar => hinv hsofar.1
  have hall : sofar rows 0 s := ⟨ha, Nat.zero_add _⟩
  obtain ⟨count, st₁, hdrain, hresults⟩ := drain_of_write h
  obtain ⟨b, hb, hends, hlength⟩ | ⟨e, he, -⟩ :=
    drain_ends hchild sofar (fun _ _ => True) hstep (fun _ _ => trivial) hcalm hneeds hall hdrain
  · cases hb
    rw [List.length_nil, Nat.add_zero] at hlength
    exact ⟨by rw [hresults, hlength], hends⟩
  · cases he

end Write

end Source

end RowStore
