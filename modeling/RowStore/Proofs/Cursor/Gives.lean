import RowStore.Cursor
import RowStore.Proofs.Storage.Operations

/-!
What it means that a source gives a list of rows.

Program.  A source hands its rows to a consumer, who may look at the storage, carry something along
and stop after any row.  Between two rows the source itself may load pages, so the storage changes
under way.

1. `Consumes catalog consume inv stop` is the contract of a consumer: as long as he goes on, `inv`
   holds of the rows that are left, of what he carries along and of the storage; when he has enough,
   `stop` does.  He may change the storage, and pages that are loaded under way make no difference to
   him.
2. `Gives catalog W fails src rows has` is the contract of a source: after a start or a rewind all of
   `rows` are left, and a run through the rows that are left treats a consumer as his contract says
   (`Ended`), as long as `W` holds of the storage.  The states with `left` rows left are those that
   `has · left` holds of.  By itself a source only loads pages.  Errors are possible, but only such as
   `fails` allows.
3. Leaves and rules: a list gives its rows (`gives_ofRows`), and whatever a source gives, it gives
   under the rules for using it (`Gives.guard`), where the row that was looked at comes first.
4. Under these rules its rows may also be taken one at a time (`Guarded.hasNext_of_fetch`,
   `Guarded.next_of_fetch`).

Crux.  A consumer may stop after any row and may be followed by another one, so the contract says at
every point which rows are left, and never how the source finds them.
-/

namespace RowStore.Source

open Storage

variable {α σ : Type} {catalog : Catalog} {W : Storage → Prop} {fails : Error → Prop}

/-! ## Contracts -/

/-- What a consumer does with rows: `inv` holds as long as he goes on, `stop` when he has enough. -/
structure Consumes (catalog : Catalog) (consume : Consumer α)
    (inv stop : List Row → α → Storage → Prop) : Prop where
  /-- He takes one row. -/
  row : ∀ {row left a s step s'}, inv (row :: left) a s → consume row a s = (step, s') →
    match step with
    | .yield a' => inv left a' s'
    | .done a' => stop left a' s'
  /-- Pages are loaded before the next row. -/
  quiet : ∀ {left a s s'}, inv left a s → Quiet catalog s s' → inv left a s'

/-- How a run through the rows of a source ends. -/
inductive Ended (fails : Error → Prop) (has : σ → List Row → Prop)
    (inv stop : List Row → α → Storage → Prop) : Ending → σ → α → Storage → Prop
  /-- No row is left. -/
  | exhausted {st : σ} {a : α} {s : Storage} (hst : has st []) (ha : inv [] a s) :
    Ended fails has inv stop .exhausted st a s
  /-- The consumer had enough; the rows that are left come next. -/
  | stopped {st : σ} {a : α} {left : List Row} {s : Storage} (hst : has st left)
    (ha : stop left a s) : Ended fails has inv stop .stopped st a s
  /-- The source could not go on. -/
  | failed {st : σ} {a : α} {left : List Row} {e : Error} {s : Storage} (he : fails e)
    (ha : inv left a s) : Ended fails has inv stop (.failed e) st a s

/-- How a start or a rewind ends. -/
inductive Begun (fails : Error → Prop) (has : σ → List Row → Prop) (rows : List Row) :
    Except Error Unit → σ → Prop
  /-- All rows are left. -/
  | ok {st : σ} (hst : has st rows) : Begun fails has rows (.ok ()) st
  /-- The source could not begin. -/
  | error {st : σ} {e : Error} (he : fails e) : Begun fails has rows (.error e) st

/-- More errors may be allowed, and the rows that are left may be told in another way. -/
theorem Begun.imp {fails' : Error → Prop} {has has' : σ → List Row → Prop} {rows rows' : List Row}
    {r : Except Error Unit} {st : σ} (h : Begun fails has rows r st) (hfails : ∀ {e}, fails e → fails' e)
    (hhas : has st rows → has' st rows') : Begun fails' has' rows' r st := by
  cases h with
  | ok hst => exact .ok (hhas hst)
  | error he => exact .error (hfails he)

/-- A source gives `rows`, in that order, from every start and every rewind on. -/
structure Gives (catalog : Catalog) (W : Storage → Prop) (fails : Error → Prop)
    (src : Source) (rows : List Row) (has : src.State → List Row → Prop) : Prop where
  /-- Pages that are loaded make no difference. -/
  calm : ∀ {s s'}, W s → Quiet catalog s s' → W s'
  /-- A source can be started whatever it did before. -/
  start : ∀ {st s r st' s'}, W s → src.start catalog st s = (r, st', s') →
    Quiet catalog s s' ∧ Begun fails has rows r st'
  rewind : ∀ {st left s r st' s'}, W s → has st left →
    src.rewind catalog st s = (r, st', s') → Quiet catalog s s' ∧ Begun fails has rows r st'
  each : ∀ {α : Type} {consume : Consumer α} {inv stop : List Row → α → Storage → Prop}
    {st left a s ending st' a' s'}, Consumes catalog consume inv stop →
    (∀ {left a s}, inv left a s → W s) → has st left → inv left a s →
    src.each catalog consume st a s = (ending, st', a', s') →
    Ended fails has inv stop ending st' a' s'

/-- A consumer who passes over some rows and turns the others into rows for another consumer keeps
    the contract for the rows that come through. -/
theorem Consumes.passed {consume : Consumer α} {inv stop : List Row → α → Storage → Prop}
    (hconsume : Consumes catalog consume inv stop) {p : Row → Bool} {f : Row → Row}
    {g : List Row → List Row}
    (hg : ∀ row rest, g (row :: rest) = if p row then f row :: g rest else g rest) :
    Consumes catalog (fun row a s => if p row then consume (f row) a s else (.yield a, s))
      (fun rest => inv (g rest)) (fun rest => stop (g rest)) where
  row := by
    intro row rest a s step s' ha hstep
    rw [hg] at ha
    by_cases hrow : p row = true
    · simp only [if_pos hrow] at ha hstep
      exact hconsume.row ha hstep
    · simp only [if_neg hrow] at ha hstep
      cases hstep
      exact ha
  quiet := hconsume.quiet

/-! ## Rows from a list -/

/-- Delivering the rows of a list before others: either all of them are used up, or the consumer had
    enough and those that are left are the last of the list. -/
theorem deliver_ends {consume : Consumer α} {inv stop : List Row → α → Storage → Prop}
    (hconsume : Consumes catalog consume inv stop) {rows others left : List Row} {a a' : α}
    {s s' : Storage} {stopped : Bool} (ha : inv (rows ++ others) a s)
    (h : deliver consume rows a s = (stopped, left, a', s')) :
    left <:+ rows ∧
      ((stopped = false ∧ left = [] ∧ inv others a' s') ∨
       (stopped = true ∧ stop (left ++ others) a' s')) := by
  induction rows generalizing a s with
  | nil =>
    cases h
    exact ⟨List.suffix_refl _, Or.inl ⟨rfl, rfl, ha⟩⟩
  | cons row rows ih =>
    unfold deliver at h
    rcases hrow : consume row a s with ⟨step, s₁⟩
    have hstep := hconsume.row ha hrow
    rw [hrow] at h
    cases step with
    | done b =>
      cases h
      exact ⟨List.suffix_cons _ _, Or.inr ⟨rfl, hstep⟩⟩
    | yield b =>
      obtain ⟨hleft, hend⟩ := ih hstep h
      exact ⟨hleft.trans (List.suffix_cons row rows), hend⟩

/-- What is left of the rows of a list from a position on. -/
theorem eachOf_ends {rows : List Row} {consume : Consumer α}
    {inv stop : List Row → α → Storage → Prop} (hconsume : Consumes catalog consume inv stop)
    {pos pos' : Nat} {a a' : α} {s s' : Storage} {ending : Ending} (ha : inv (rows.drop pos) a s)
    (h : eachOf rows consume pos a s = (ending, pos', a', s')) :
    Ended fails (fun pos left => left = rows.drop pos) inv stop ending pos' a' s' := by
  unfold eachOf at h
  rcases hdeliver : deliver consume (rows.drop pos) a s with ⟨stopped, left, b, s₁⟩
  have hall : inv (rows.drop pos ++ []) a s := by rwa [List.append_nil]
  obtain ⟨hleft, hend⟩ := deliver_ends hconsume hall hdeliver
  have hpos : left = rows.drop (rows.length - left.length) :=
    List.suffix_iff_eq_drop.mp (hleft.trans (List.drop_suffix pos rows))
  rw [hdeliver] at h
  cases h
  rcases hend with ⟨rfl, rfl, ha'⟩ | ⟨rfl, ha'⟩
  · exact .exhausted hpos ha'
  · rw [List.append_nil] at ha'
    exact .stopped hpos ha'

/-- A list gives its rows. -/
theorem gives_ofRows (schema : Schema) (rows : List Row)
    (hcalm : ∀ {s s'}, W s → Quiet catalog s s' → W s') :
    Gives catalog W fails (ofRows schema rows) rows fun pos left => left = rows.drop pos where
  calm := hcalm
  start := fun _ h => by
    cases h
    exact ⟨.refl, .ok rfl⟩
  rewind := fun _ _ h => by
    cases h
    exact ⟨.refl, .ok rfl⟩
  each := fun hconsume _ hst ha h => eachOf_ends hconsume (hst ▸ ha) h

/-! ## The rules for using a source -/

variable {src : Source} {rows left : List Row} {has : src.State → List Row → Prop}

/-- Giving the rows that are left, by cases: the row that was looked at comes first. -/
theorem Guarded.each_eq (consume : Consumer α) (g : Guarded src.State) (a : α)
    (s : Storage) :
    Guarded.each catalog consume g a s =
      if g.isOpen = false then (.failed .notOpen, g, a, s)
      else match g.ahead with
        | none =>
          match src.each catalog consume g.inner a s with
          | (ending, inner, a, s) => (ending, { g with ahead := none, inner := inner }, a, s)
        | some row =>
          match consume row a s with
          | (.done a, s) => (.stopped, { g with ahead := none }, a, s)
          | (.yield a, s) =>
            match src.each catalog consume g.inner a s with
            | (ending, inner, a, s) =>
              (ending, { g with ahead := none, inner := inner }, a, s) := by
  obtain ⟨isOpen, ahead, inner⟩ := g
  cases isOpen with
  | false => rfl
  | true =>
    cases ahead with
    | none => rfl
    | some row =>
      unfold Guarded.each
      simp only [Bool.not_true, Bool.false_eq_true, if_false, Bool.true_eq_false]
      cases consume row a s with
      | mk step s => cases step <;> rfl

namespace Guarded

/-- An open source has the row that was looked at left, and then the rows of the source itself. -/
def Has (has : src.State → List Row → Prop) (g : Guarded src.State) (left : List Row) : Prop :=
  g.isOpen = true ∧ ∃ rest, has g.inner rest ∧ left = g.ahead.toList ++ rest

variable {g g' : Guarded src.State} {s s' : Storage}

/-- A start that succeeds is a start of the source itself. -/
theorem start_eq_ok (h : Guarded.start catalog g s = (.ok (), g', s')) :
    ∃ inner, src.start catalog g.inner s = (.ok (), inner, s') ∧ g' = ⟨true, none, inner⟩ := by
  unfold Guarded.start at h
  rcases hstart : src.start catalog g.inner s with ⟨result, inner, s₁⟩
  rw [hstart] at h
  cases result with
  | error e => cases h
  | ok =>
    cases h
    exact ⟨inner, rfl, rfl⟩

/-- What starting the source itself leads to, starting it under the rules leads to. -/
theorem start_begun {r : Except Error Unit}
    (hstart : ∀ {r inner s'}, src.start catalog g.inner s = (r, inner, s') →
      Quiet catalog s s' ∧ Begun fails has rows r inner)
    (h : Guarded.start catalog g s = (r, g', s')) :
    Quiet catalog s s' ∧ Begun fails (Has has) rows r g' := by
  unfold Guarded.start at h
  rcases hresult : src.start catalog g.inner s with ⟨result, inner, s₁⟩
  obtain ⟨hquiet, hbegun⟩ := hstart hresult
  rw [hresult] at h
  cases hbegun with
  | ok hst =>
    cases h
    exact ⟨hquiet, .ok ⟨rfl, rows, hst, rfl⟩⟩
  | error he =>
    cases h
    exact ⟨hquiet, .error he⟩

/-- And so it is with rewinding an open source. -/
theorem rewind_begun {r : Except Error Unit}
    (hrewind : ∀ {rest r inner s'}, has g.inner rest → src.rewind catalog g.inner s = (r, inner, s') →
      Quiet catalog s s' ∧ Begun fails has rows r inner)
    (hg : Has has g left) (h : Guarded.rewind catalog g s = (r, g', s')) :
    Quiet catalog s s' ∧ Begun fails (Has has) rows r g' := by
  obtain ⟨hopen, rest, hst, -⟩ := hg
  unfold Guarded.rewind at h
  rw [hopen] at h
  simp only [Bool.not_true, Bool.false_eq_true, if_false] at h
  rcases hresult : src.rewind catalog g.inner s with ⟨result, inner, s₁⟩
  obtain ⟨hquiet, hbegun⟩ := hrewind hst hresult
  rw [hresult] at h
  cases hbegun with
  | ok hst =>
    cases h
    exact ⟨hquiet, .ok ⟨rfl, rows, hst, rfl⟩⟩
  | error he =>
    cases h
    exact ⟨hquiet, .error he⟩

/-- A closed source refuses to rewind. -/
theorem rewind_of_closed (hclosed : g.isOpen = false) (s : Storage) :
    Guarded.rewind catalog g s = (.error .notOpen, g, s) := by
  unfold Guarded.rewind
  rw [hclosed]
  rfl

theorem each_ended (hsrc : Gives catalog W fails src rows has) {consume : Consumer α}
    {inv stop : List Row → α → Storage → Prop} (hconsume : Consumes catalog consume inv stop)
    (hinv : ∀ {left a s}, inv left a s → W s) {a a' : α} {ending : Ending} (hg : Has has g left)
    (ha : inv left a s) (h : Guarded.each catalog consume g a s = (ending, g', a', s')) :
    Ended fails (Has has) inv stop ending g' a' s' := by
  obtain ⟨hopen, rest, hst, rfl⟩ := hg
  -- once the row that was looked at is given, the source itself goes on
  have hrest : ∀ {b : α} {s₁ : Storage}, inv rest b s₁ →
      (match src.each catalog consume g.inner b s₁ with
        | (ending, inner, a, s) =>
          ((ending, ⟨true, none, inner⟩, a, s) : Ending × Guarded src.State × α × Storage)) =
        (ending, g', a', s') → Ended fails (Has has) inv stop ending g' a' s' := by
    intro b s₁ hb h
    rcases heach : src.each catalog consume g.inner b s₁ with ⟨ending₁, inner, c, s₂⟩
    have hended := hsrc.each hconsume hinv hst hb heach
    rw [heach] at h
    cases h
    cases hended with
    | exhausted hst ha => exact .exhausted ⟨rfl, [], hst, rfl⟩ ha
    | stopped hst ha => exact .stopped ⟨rfl, _, hst, rfl⟩ ha
    | failed he ha => exact .failed he ha
  rw [Guarded.each_eq, hopen, if_neg (by decide)] at h
  rcases hahead : g.ahead with _ | row
  · rw [hahead] at h ha
    exact hrest ha h
  · rw [hahead] at h ha
    rcases hrow : consume row a s with ⟨step, s₁⟩
    have hstep := hconsume.row ha hrow
    simp only [hrow] at h
    cases step with
    | done b =>
      cases h
      exact .stopped ⟨rfl, rest, hst, rfl⟩ hstep
    | yield b => exact hrest hstep h

end Guarded

/-- What a source gives, it gives under the rules for using it. -/
theorem Gives.guard (hsrc : Gives catalog W fails src rows has) :
    Gives catalog W fails src.guard rows (Guarded.Has has) where
  calm := hsrc.calm
  start := fun hs h => Guarded.start_begun (hsrc.start hs) h
  rewind := fun hs hg h => Guarded.rewind_begun (hsrc.rewind hs) hg h
  each := fun hconsume hinv hg ha h => Guarded.each_ended hsrc hconsume hinv hg ha h

/-! ## One row at a time -/

/-- Asking a source for the next row gives the first of those that are left. -/
theorem fetch_ends (hsrc : Gives catalog W fails src rows has) {st st' : src.State}
    {s s' : Storage} {r : Except Error (Option Row)} (hs : W s) (hst : has st left)
    (h : src.fetch catalog st s = (r, st', s')) :
    W s' ∧ ((r = .ok left.head? ∧ has st' left.tail) ∨ ∃ e, r = .error e ∧ fails e) := by
  have htake : Consumes catalog ((fun row _ s => (.done (some row), s)) : Consumer (Option Row))
      (fun rest found s => W s ∧ rest = left ∧ found = none)
      (fun rest found s => W s ∧ ∃ row, found = some row ∧ left = row :: rest) := by
    refine ⟨?_, fun ⟨hs, ha⟩ hquiet => ⟨hsrc.calm hs hquiet, ha⟩⟩
    rintro row rest found s step s' ⟨hs, rfl, -⟩ hstep
    cases hstep
    exact ⟨hs, row, rfl, rfl⟩
  unfold fetch at h
  rcases heach : src.each catalog (fun row _ s => (.done (some row), s)) st none s
    with ⟨ending, st₁, found, s₁⟩
  have hended := hsrc.each htake And.left hst ⟨hs, rfl, rfl⟩ heach
  rw [heach] at h
  cases hended with
  | exhausted hst ha =>
    obtain ⟨hs₁, rfl, rfl⟩ := ha
    cases h
    exact ⟨hs₁, Or.inl ⟨rfl, hst⟩⟩
  | stopped hst ha =>
    obtain ⟨hs₁, row, rfl, rfl⟩ := ha
    cases h
    exact ⟨hs₁, Or.inl ⟨rfl, hst⟩⟩
  | failed he ha =>
    cases h
    exact ⟨ha.1, Or.inr ⟨_, rfl, he⟩⟩

namespace Guarded

variable {g g' : Guarded src.State} {s s' : Storage}

/-- A closed source does not tell whether there is a further row. -/
theorem hasNext_of_closed (hclosed : g.isOpen = false) (s : Storage) :
    Guarded.hasNext catalog g s = (.error .notOpen, g, s) := by
  unfold Guarded.hasNext
  rw [hclosed]
  rfl

/-- A closed source gives no row. -/
theorem next_of_closed (hclosed : g.isOpen = false) (s : Storage) :
    Guarded.next catalog g s = (.error .notOpen, g, s) := by
  unfold Guarded.next
  rw [hasNext_of_closed hclosed]

/-! What asking the source itself for its next row leads to is a condition `after` of the storage, and,
if it fails, whatever `lost` says of the error and of what the source had left. -/

section Fetch

variable {after : Storage → Prop} {lost : Error → src.State → List Row → Prop}

/-- Asking whether there is a further row looks at it and takes nothing away. -/
theorem hasNext_of_fetch (hfetch : ∀ {st rest r st' s'}, has st rest →
      src.fetch catalog st s = (r, st', s') → after s' ∧
        ((r = .ok rest.head? ∧ has st' rest.tail) ∨ ∃ e, r = .error e ∧ lost e st' rest))
    {r : Except Error Bool} (hs : after s) (hg : Has has g left)
    (h : Guarded.hasNext catalog g s = (r, g', s')) :
    after s' ∧ ((r = .ok left.head?.isSome ∧ g'.ahead = left.head? ∧ Has has g' left) ∨
      ∃ e, r = .error e ∧ g'.isOpen = true ∧ g'.ahead = none ∧ lost e g'.inner left) := by
  obtain ⟨hopen, rest, hst, rfl⟩ := hg
  unfold Guarded.hasNext at h
  rw [hopen] at h
  simp only [Bool.not_true, Bool.false_eq_true, if_false] at h
  rcases hahead : g.ahead with _ | row
  · rw [hahead] at h
    rcases hresult : src.fetch catalog g.inner s with ⟨result, inner, s₁⟩
    obtain ⟨hs₁, ⟨rfl, hst'⟩ | ⟨e, rfl, hlost⟩⟩ := hfetch hst hresult
    · rw [hresult] at h
      cases h
      refine ⟨hs₁, Or.inl ⟨rfl, rfl, rfl, rest.tail, hst', ?_⟩⟩
      -- the row that was looked at comes before those that the source has left
      show rest = rest.head?.toList ++ rest.tail
      rcases rest with _ | ⟨row, rest⟩ <;> rfl
    · rw [hresult] at h
      cases h
      exact ⟨hs₁, Or.inr ⟨e, rfl, rfl, rfl, hlost⟩⟩
  · rw [hahead] at h
    cases h
    exact ⟨hs, Or.inl ⟨rfl, hahead, hopen, rest, hst, by rw [hahead]⟩⟩

/-- Asking for the next row takes the first of those that are left, and nothing if there is none. -/
theorem next_of_fetch (hfetch : ∀ {st rest r st' s'}, has st rest →
      src.fetch catalog st s = (r, st', s') → after s' ∧
        ((r = .ok rest.head? ∧ has st' rest.tail) ∨ ∃ e, r = .error e ∧ lost e st' rest))
    {r : Except Error Row} (hs : after s) (hg : Has has g left)
    (h : Guarded.next catalog g s = (r, g', s')) :
    after s' ∧ ((∃ row rest, left = row :: rest ∧ r = .ok row ∧ Has has g' rest) ∨
      (left = [] ∧ r = .error .noMoreRows ∧ Has has g' []) ∨
      ∃ e, r = .error e ∧ g'.isOpen = true ∧ g'.ahead = none ∧ lost e g'.inner left) := by
  unfold Guarded.next at h
  rcases hnext : Guarded.hasNext catalog g s with ⟨result, g₁, s₁⟩
  obtain ⟨hs₁, ⟨rfl, hahead, hg₁⟩ | ⟨e, rfl, hlost⟩⟩ := hasNext_of_fetch hfetch hs hg hnext
  · rw [hnext] at h
    rcases left with _ | ⟨row, rest⟩
    · simp only [hahead, List.head?_nil] at h
      cases h
      exact ⟨hs₁, Or.inr (Or.inl ⟨rfl, rfl, hg₁⟩)⟩
    · simp only [hahead, List.head?_cons] at h
      cases h
      obtain ⟨hopen, others, hst, hleft⟩ := hg₁
      rw [hahead] at hleft
      cases hleft
      exact ⟨hs₁, Or.inl ⟨row, _, rfl, rfl, hopen, _, hst, rfl⟩⟩
  · rw [hnext] at h
    cases h
    exact ⟨hs₁, Or.inr (Or.inr ⟨e, rfl, hlost⟩)⟩

end Fetch

end Guarded

end RowStore.Source
