import RowStore.Proofs.Cursor.Pulls
import RowStore.Proofs.Cursor.Steps

/-!
What a source has left when it could not give a row.

Program.  A source that is asked for its next row may fail: a page or a table below it cannot be had at
the moment.  Later it may be asked again.

Specification.  What was left before the failure is left after it, and comes next when the page can be had.

1. `Resumes catalog W fails keeps src rows has` is the contract of a source that is asked for one row after
   the other: a row that is given is the first of those that are left, and a failure leaves all of them,
   as long as `keeps` holds of the storage (`Fetched`).
2. A list never fails (`resumes_ofRows`), and a scan keeps the page that it could not take as the next one
   (`resumes_ofTable`).
3. A filter keeps what its child keeps (`resumes_filter`).  A join keeps what its outer source keeps, if
   its inner source does not fail (`resumes_join`).
4. Under the rules for using a source nothing else gets lost (`Resumes.guard`).

Crux.  A join holds an outer row while its run through the inner source is under way, and gives it up if
that run or the rewind at its end fails.  So the contract has two conditions: one for what may fail, and
one under which a failure takes nothing away.  The second one of a join denies the first one of its inner
source.
-/

namespace RowStore.Source

open Storage

variable {catalog : Catalog} {W : Storage → Prop} {fails : Storage → Error → Prop}
  {keeps : Storage → Prop} {src : Source} {rows left : List Row} {has : src.State → List Row → Prop}

/-! ## The contract -/

/-- How it ends to ask for the next row: the first of those that are left is given, or the source fails and
    they are all left, if it keeps them. -/
def Fetched {σ : Type} (fails : Error → Prop) (keeps : Prop) (has : σ → List Row → Prop)
    (left : List Row) (r : Except Error (Option Row)) (st : σ) : Prop :=
  (r = .ok left.head? ∧ has st left.tail) ∨ ∃ e, r = .error e ∧ fails e ∧ (keeps → has st left)

/-- Circumstances that stay while pages are loaded: what may fail then could fail before, and what is kept
    before is kept then. -/
structure Calm (catalog : Catalog) (W : Storage → Prop) (fails : Storage → Error → Prop)
    (keeps : Storage → Prop) : Prop where
  /-- The storage stays as it has to be. -/
  stays : ∀ {s s'}, W s → Quiet catalog s s' → W s'
  /-- No further error becomes possible. -/
  fails : ∀ {s s' e}, Quiet catalog s s' → fails s' e → fails s e
  /-- Nothing gets lost that is kept now. -/
  keeps : ∀ {s s'}, Quiet catalog s s' → keeps s → keeps s'

/-- A source gives `rows` one by one from every start and every rewind on, with the errors that `fails`
    allows.  While `keeps` holds, a failure takes nothing away. -/
structure Resumes (catalog : Catalog) (W : Storage → Prop) (fails : Storage → Error → Prop)
    (keeps : Storage → Prop) (src : Source) (rows : List Row) (has : src.State → List Row → Prop) :
    Prop where
  /-- Pages that are loaded make no difference. -/
  calm : Calm catalog W fails keeps
  /-- A source can be started whatever it did before. -/
  start : ∀ {st s r st' s'}, W s → src.start catalog st s = (r, st', s') →
    Quiet catalog s s' ∧ Begun (fails s) has rows r st'
  rewind : ∀ {st left s r st' s'}, W s → has st left → src.rewind catalog st s = (r, st', s') →
    Quiet catalog s s' ∧ Begun (fails s) has rows r st'
  fetch : ∀ {st left s r st' s'}, W s → has st left → src.fetch catalog st s = (r, st', s') →
    Quiet catalog s s' ∧ Fetched (fails s) (keeps s) has left r st'

/-- What was fetched after some pages had been loaded was fetched from the storage before. -/
theorem Calm.fetched {σ : Type} {has : σ → List Row → Prop} (hcalm : Calm catalog W fails keeps)
    {s s' : Storage} (hquiet : Quiet catalog s s') {r : Except Error (Option Row)} {st : σ}
    (h : Fetched (fails s') (keeps s') has left r st) : Fetched (fails s) (keeps s) has left r st :=
  h.imp_right fun ⟨e, hr, he, hst⟩ =>
    ⟨e, hr, hcalm.fails hquiet he, fun hkeeps => hst (hcalm.keeps hquiet hkeeps)⟩

/-- More errors may be allowed, and less may be kept. -/
theorem Resumes.mono (hsrc : Resumes catalog W fails keeps src rows has)
    {fails' : Storage → Error → Prop} {keeps' : Storage → Prop} (hcalm : Calm catalog W fails' keeps')
    (hfails : ∀ {s e}, fails s e → fails' s e) (hkeeps : ∀ {s}, keeps' s → keeps s) :
    Resumes catalog W fails' keeps' src rows has where
  calm := hcalm
  start := fun hs h => by
    obtain ⟨hquiet, hbegun⟩ := hsrc.start hs h
    exact ⟨hquiet, hbegun.imp hfails fun hst => hst⟩
  rewind := fun hs hst h => by
    obtain ⟨hquiet, hbegun⟩ := hsrc.rewind hs hst h
    exact ⟨hquiet, hbegun.imp hfails fun hst => hst⟩
  fetch := fun hs hst h => by
    obtain ⟨hquiet, hfetched⟩ := hsrc.fetch hs hst h
    exact ⟨hquiet, hfetched.imp_right fun ⟨e, hr, he, hst⟩ => ⟨e, hr, hfails he, fun hk => hst (hkeeps hk)⟩⟩

/-! ## The leaves -/

/-- A list gives its rows and never fails. -/
theorem resumes_ofRows (schema : Schema) (rows : List Row) (hcalm : Calm catalog W fails keeps) :
    Resumes catalog W fails keeps (ofRows schema rows) rows fun pos left => left = rows.drop pos where
  calm := hcalm
  start := fun _ h => by
    cases h
    exact ⟨.refl, .ok rfl⟩
  rewind := fun _ _ h => by
    cases h
    exact ⟨.refl, .ok rfl⟩
  fetch := by
    rintro pos left s r pos' s' hs rfl h
    -- a list gives its rows also when no error is allowed at all
    let quietly : Storage → Prop := fun s' => Quiet catalog s s'
    have hgives : Gives catalog quietly (fun _ => False) (ofRows schema rows) rows
        fun pos left => left = rows.drop pos := gives_ofRows schema rows fun hs hquiet => hs.trans hquiet
    obtain ⟨hquiet, hok | ⟨e, -, hno⟩⟩ := fetch_ends hgives .refl rfl h
    · exact ⟨hquiet, Or.inl hok⟩
    · exact hno.elim

/-- The rows that a scan has left: those in the buffer, and those of the pages to come, of which some may
    not be there. -/
def Scan.Left (count : Nat) (pages : List Page) (scan : Scan) (left : List Row) : Prop :=
  scan.count = count ∧ scan.next ≤ count ∧ left = scan.buffer ++ (pages.drop scan.next).flatMap Page.rows

/-- A scan gives the rows of the pages that it finds, and asks for a page again that it did not find. -/
theorem resumes_ofTable {table : TableId} {count : Nat} {pages : List Page} (schema : Schema)
    (hcalm : Calm catalog W fails keeps) (hfew : ∀ {s}, W s → pages.length ≤ count)
    (hfile : ∀ {s file}, W s → catalog.file table = .ok file → file.numPages s.files = count)
    (hunknown : ∀ {s e}, W s → catalog.file table = .error e → fails s e)
    (hget : ∀ {n s r s'}, n < count → W s → s.getPage catalog ⟨table, n⟩ = (r, s') →
      Quiet catalog s s' ∧ ((∃ frame, r = .ok frame ∧ pages[n]? = some frame.page.clean) ∨
        ∃ e, r = .error e ∧ fails s e)) :
    Resumes catalog W fails keeps (ofTable table schema) (pages.flatMap Page.rows)
      (Scan.Left count pages) := by
  have hbegun : ∀ {scan scan' : Scan} {s s' : Storage} {r : Except Error Unit}, W s →
      Scan.start table catalog scan s = (r, scan', s') →
      Quiet catalog s s' ∧ Begun (fails s) (Scan.Left count pages) (pages.flatMap Page.rows) r scan' := by
    intro scan scan' s s' r hs h
    obtain ⟨rfl, ⟨e, hknown, rfl, rfl⟩ | ⟨file, hknown, rfl, rfl⟩⟩ := Scan.start_cases h
    · exact ⟨.refl, .error (hunknown hs hknown)⟩
    · exact ⟨.refl, .ok ⟨hfile hs hknown, Nat.zero_le _, rfl⟩⟩
  refine ⟨hcalm, fun hs h => hbegun hs h, fun hs _ h => hbegun hs h, ?_⟩
  rintro scan left s r scan' s' hs ⟨hscan, hnext, hleft⟩ h
  -- the rows that were taken from pages so far come before those of the pages to come
  let taken : Nat → List Row → Storage → Prop := fun n all s' =>
    Quiet catalog s s' ∧ left = all ++ (pages.drop n).flatMap Page.rows
  have hpage : ∀ {n : Nat} {s₁ s₂ : Storage} {r : Except Error Frame}, n < scan.count → taken n [] s₁ →
      s₁.getPage catalog ⟨table, n⟩ = (r, s₂) →
      (∃ frame, r = .ok frame ∧ taken (n + 1) ([] ++ frame.page.rows) s₂) ∨
      (∃ e, r = .error e ∧ fails s e ∧ taken n [] s₂) := by
    rintro n s₁ s₂ r hn ⟨hquiet₁, hleft₁⟩ hpage
    obtain ⟨hquiet₂, ⟨frame, rfl, hframe⟩ | ⟨e, rfl, he⟩⟩ := hget (hscan ▸ hn) (hcalm.stays hs hquiet₁) hpage
    · refine Or.inl ⟨frame, rfl, hquiet₁.trans hquiet₂, ?_⟩
      obtain ⟨hlt, hat⟩ := List.getElem?_eq_some_iff.mp hframe
      rw [hleft₁, List.drop_eq_getElem_cons hlt, hat]
      rfl
    · exact Or.inr ⟨e, rfl, hcalm.fails hquiet₁ he, hquiet₁.trans hquiet₂, hleft₁⟩
  have hbegan : taken scan.next ([] ++ scan.buffer) s := ⟨.refl, hleft⟩
  obtain ⟨hcount, hle, ending, found, htaken, rfl⟩ :=
    Scan.fetch_take (J := taken) (hscan ▸ hnext) hpage hbegan h
  replace hcount := hcount.trans hscan
  rw [hscan] at hle
  cases htaken with
  | failed he hlater => exact ⟨hlater.1, Or.inr ⟨_, rfl, he, fun _ => ⟨hcount, hle, hlater.2⟩⟩⟩
  | row hlater =>
    obtain ⟨hquiet, rfl⟩ := hlater
    exact ⟨hquiet, Or.inl ⟨rfl, hcount, hle, rfl⟩⟩
  | ended hlast hbuffer hlater =>
    obtain ⟨hquiet, hnone⟩ := hlater
    have hall : pages.length ≤ scan'.next := by
      rw [hlast, hcount]
      exact hfew hs
    rw [List.drop_of_length_le hall] at hnone
    obtain rfl : left = [] := hnone
    refine ⟨hquiet, Or.inl ⟨rfl, hcount, hle, ?_⟩⟩
    rw [hbuffer, List.drop_of_length_le hall]
    rfl

/-! ## The rules for using a source -/

/-- What a source keeps, it keeps under the rules for using it. -/
theorem Resumes.guard (hsrc : Resumes catalog W fails keeps src rows has) :
    Resumes catalog W fails keeps src.guard rows (Guarded.Has has) where
  calm := hsrc.calm
  start := fun hs h => Guarded.start_begun (hsrc.start hs) h
  rewind := fun hs hg h => Guarded.rewind_begun (hsrc.rewind hs) hg h
  fetch := by
    rintro ⟨isOpen, ahead, inner⟩ left s r g' s' hs ⟨hopen, rest, hst, rfl⟩ h
    obtain rfl : isOpen = true := hopen
    cases ahead with
    | some row =>
      rw [Guarded.next_of_some.fetch_eq] at h
      cases h
      exact ⟨.refl, Or.inl ⟨rfl, rfl, rest, hst, rfl⟩⟩
    | none =>
      rw [Guarded.fetch_of_none] at h
      rcases hfetch : src.fetch catalog inner s with ⟨r₁, inner₁, s₁⟩
      obtain ⟨hquiet, hfetched⟩ := hsrc.fetch hs hst hfetch
      rw [hfetch] at h
      cases h
      refine ⟨hquiet, hfetched.imp (fun ⟨hr, hst₁⟩ => ⟨hr, rfl, rest.tail, hst₁, rfl⟩) ?_⟩
      rintro ⟨e, hr, he, hst₁⟩
      exact ⟨e, hr, he, fun hkeeps => ⟨rfl, rest, hst₁ hkeeps, rfl⟩⟩

/-! ## Filter -/

/-- A filter asks its child until a row comes through. -/
theorem fetch_filter {condition : Condition} {child : Source} (hchild : child.Stepwise) {st : child.State}
    {s : Storage} :
    (filter condition child).fetch catalog st s = match child.fetch catalog st s with
      | (.error e, st, s) => (.error e, st, s)
      | (.ok none, st, s) => (.ok none, st, s)
      | (.ok (some row), st, s) =>
        if condition.holds row then (.ok (some row), st, s)
        else (filter condition child).fetch catalog st s := by
  conv_lhs => unfold fetch
  rw [each_filter hchild]
  rcases child.fetch catalog st s with ⟨r, st₁, s₁⟩
  cases r with
  | error e => rfl
  | ok found =>
    cases found with
    | none => rfl
    | some row =>
      by_cases hrow : condition.holds row = true
      · simp only [if_pos hrow]
      · simp only [if_neg hrow]
        rfl

/-- A filter keeps what its child keeps. -/
theorem resumes_filter (condition : Condition) {child : Source} {has : child.State → List Row → Prop}
    (hstepwise : child.Stepwise) (hchild : Resumes catalog W fails keeps child rows has) :
    Resumes catalog W fails keeps (filter condition child) (rows.filter condition.holds)
      fun st left => ∃ rest, has st rest ∧ left = rest.filter condition.holds where
  calm := hchild.calm
  start := fun hs h => by
    obtain ⟨hquiet, hbegun⟩ := hchild.start hs h
    exact ⟨hquiet, hbegun.imp (fun he => he) fun hst => ⟨rows, hst, rfl⟩⟩
  rewind := by
    rintro st left s r st' s' hs ⟨rest, hst, -⟩ h
    obtain ⟨hquiet, hbegun⟩ := hchild.rewind hs hst h
    exact ⟨hquiet, hbegun.imp (fun he => he) fun hst => ⟨rows, hst, rfl⟩⟩
  fetch := by
    rintro st left s r st' s' hs ⟨rest, hst, rfl⟩ h
    -- the induction is on the rows that the child has left
    induction rest generalizing st s with
    | nil =>
      replace h := (fetch_filter hstepwise).symm.trans h
      rcases hfetch : child.fetch catalog st s with ⟨r₁, st₁, s₁⟩
      obtain ⟨hquiet, ⟨rfl, hst₁⟩ | ⟨e, rfl, he, hst₁⟩⟩ := hchild.fetch hs hst hfetch
      · rw [hfetch] at h
        cases h
        exact ⟨hquiet, Or.inl ⟨rfl, [], hst₁, rfl⟩⟩
      · rw [hfetch] at h
        cases h
        exact ⟨hquiet, Or.inr ⟨e, rfl, he, fun hkeeps => ⟨[], hst₁ hkeeps, rfl⟩⟩⟩
    | cons row rest ih =>
      replace h := (fetch_filter hstepwise).symm.trans h
      rcases hfetch : child.fetch catalog st s with ⟨r₁, st₁, s₁⟩
      obtain ⟨hquiet, ⟨rfl, hst₁⟩ | ⟨e, rfl, he, hst₁⟩⟩ := hchild.fetch hs hst hfetch
      · rw [hfetch] at h
        simp only [List.head?_cons] at h
        rw [List.filter_cons]
        by_cases hrow : condition.holds row = true
        · rw [if_pos hrow] at h ⊢
          cases h
          exact ⟨hquiet, Or.inl ⟨rfl, rest, hst₁, rfl⟩⟩
        · rw [if_neg hrow] at h ⊢
          obtain ⟨hlater, hfetched⟩ := ih (hchild.calm.stays hs hquiet) hst₁ h
          exact ⟨hquiet.trans hlater, hchild.calm.fetched hquiet hfetched⟩
      · rw [hfetch] at h
        cases h
        exact ⟨hquiet, Or.inr ⟨e, rfl, he, fun hkeeps => ⟨row :: rest, hst₁ hkeeps, rfl⟩⟩⟩

/-! ## Join -/

section Join

variable {condition : JoinCondition} {outer inner : Source} {o : outer.State} {i : inner.State}
  {row : Row} {s : Storage}

/-- With no row kept, a join takes the next outer row. -/
theorem fetch_join_of_none (houter : outer.Stepwise) :
    (join condition outer inner).fetch catalog ⟨o, i, none⟩ s = match outer.fetch catalog o s with
      | (.error e, o, s) => (.error e, ⟨o, i, none⟩, s)
      | (.ok none, o, s) => (.ok none, ⟨o, i, none⟩, s)
      | (.ok (some row), o, s) => (join condition outer inner).fetch catalog ⟨o, i, some row⟩ s := by
  conv_lhs => unfold fetch
  rw [each_join_of_none houter]
  rcases outer.fetch catalog o s with ⟨r, o₁, s₁⟩
  cases r with
  | error e => rfl
  | ok found => cases found <;> rfl

/-- With a row kept, a join asks its inner source, and gives the row up if that fails. -/
theorem fetch_join_of_some (hinner : inner.Stepwise) :
    (join condition outer inner).fetch catalog ⟨o, i, some row⟩ s = match inner.fetch catalog i s with
      | (.error e, i, s) => (.error e, ⟨o, i, none⟩, s)
      | (.ok none, i, s) =>
        match inner.rewind catalog i s with
        | (.error e, i, s) => (.error e, ⟨o, i, none⟩, s)
        | (.ok (), i, s) => (join condition outer inner).fetch catalog ⟨o, i, none⟩ s
      | (.ok (some right), i, s) =>
        if condition.holds row right then
          (.ok (some (Row.append (outer.schema.append inner.schema) row right)), ⟨o, i, some row⟩, s)
        else (join condition outer inner).fetch catalog ⟨o, i, some row⟩ s := by
  conv_lhs => unfold fetch
  rw [each_join_of_some, joinRow_eq hinner]
  rcases inner.fetch catalog i s with ⟨r, i₁, s₁⟩
  cases r with
  | error e => rfl
  | ok found =>
    cases found with
    | none =>
      rcases hrewind : inner.rewind catalog i₁ s₁ with ⟨r₂, i₂, s₂⟩
      cases r₂ <;> simp only [hrewind] <;> rfl
    | some right =>
      by_cases hholds : condition.holds row right = true
      · simp only [hholds, if_true]
        rfl
      · simp only [hholds, if_false, Bool.false_eq_true]
        unfold fetch
        rw [each_join_of_some]

variable {outerRows innerRows outerLeft innerLeft : List Row} {fails' : Storage → Error → Prop}
  {keeps' : Storage → Prop} {hasOuter : outer.State → List Row → Prop}
  {hasInner : inner.State → List Row → Prop} {st' : Joining outer.State inner.State} {s' : Storage}
  {r : Except Error (Option Row)}

/-- **One outer row.**  With a row kept, a join gives its pairs with what is left of the inner source, if it
    goes on as it should afterwards. -/
theorem fetch_kept (hstepwise : inner.Stepwise) (hcalm : Calm catalog W fails keeps)
    (hinner : Resumes catalog W fails' keeps' inner innerRows hasInner)
    (hfails : ∀ {s e}, fails' s e → fails s e) (hkeeps : ∀ {s e}, keeps s → ¬ fails' s e)
    (hafter : ∀ {i r st' s s'}, W s → hasInner i innerRows →
      (join condition outer inner).fetch catalog ⟨o, i, none⟩ s = (r, st', s') →
      Quiet catalog s s' ∧ Fetched (fails s) (keeps s)
        (Joining.Has condition (outer.schema.append inner.schema) hasOuter hasInner innerRows)
        (condition.pairs (outer.schema.append inner.schema) outerLeft innerRows) r st')
    (hs : W s) (ho : hasOuter o outerLeft) (hi : hasInner i innerLeft)
    (h : (join condition outer inner).fetch catalog ⟨o, i, some row⟩ s = (r, st', s')) :
    Quiet catalog s s' ∧ Fetched (fails s) (keeps s)
      (Joining.Has condition (outer.schema.append inner.schema) hasOuter hasInner innerRows)
      (condition.pairs (outer.schema.append inner.schema) [row] innerLeft ++
        condition.pairs (outer.schema.append inner.schema) outerLeft innerRows) r st' := by
  -- the induction is on the rows that the inner source has left
  induction innerLeft generalizing i s with
  | nil =>
    rw [fetch_join_of_some hstepwise] at h
    rcases hfetch : inner.fetch catalog i s with ⟨r₁, i₁, s₁⟩
    obtain ⟨hquiet₁, ⟨rfl, hi₁⟩ | ⟨e, rfl, he, -⟩⟩ := hinner.fetch hs hi hfetch
    · rw [hfetch] at h
      simp only [List.head?_nil] at h
      have hs₁ := hcalm.stays hs hquiet₁
      rcases hrewind : inner.rewind catalog i₁ s₁ with ⟨r₂, i₂, s₂⟩
      obtain ⟨hquiet₂, hbegun⟩ := hinner.rewind hs₁ hi₁ hrewind
      have hquiet := hquiet₁.trans hquiet₂
      rw [hrewind] at h
      cases hbegun with
      | ok hi₂ =>
        obtain ⟨hlater, hfetched⟩ := hafter (hcalm.stays hs hquiet) hi₂ h
        exact ⟨hquiet.trans hlater, hcalm.fetched hquiet hfetched⟩
      | error he =>
        have hbefore := hinner.calm.fails hquiet₁ he
        cases h
        exact ⟨hquiet, Or.inr ⟨_, rfl, hfails hbefore, fun hk => absurd hbefore (hkeeps hk)⟩⟩
    · rw [hfetch] at h
      cases h
      exact ⟨hquiet₁, Or.inr ⟨e, rfl, hfails he, fun hk => absurd he (hkeeps hk)⟩⟩
  | cons right innerLeft ih =>
    rw [fetch_join_of_some hstepwise] at h
    rcases hfetch : inner.fetch catalog i s with ⟨r₁, i₁, s₁⟩
    obtain ⟨hquiet₁, ⟨rfl, hi₁⟩ | ⟨e, rfl, he, -⟩⟩ := hinner.fetch hs hi hfetch
    · rw [hfetch] at h
      simp only [List.head?_cons] at h
      rw [JoinCondition.pairs_cons_right]
      by_cases hholds : condition.holds row right = true
      · rw [if_pos hholds] at h ⊢
        cases h
        exact ⟨hquiet₁, Or.inl ⟨rfl, outerLeft, innerLeft, ho, hi₁, rfl⟩⟩
      · rw [if_neg hholds] at h ⊢
        obtain ⟨hlater, hfetched⟩ := ih (hcalm.stays hs hquiet₁) hi₁ h
        exact ⟨hquiet₁.trans hlater, hcalm.fetched hquiet₁ hfetched⟩
    · rw [hfetch] at h
      cases h
      exact ⟨hquiet₁, Or.inr ⟨e, rfl, hfails he, fun hk => absurd he (hkeeps hk)⟩⟩

/-- **The outer rows that are left**, when no row is kept. -/
theorem fetch_next_outer (hstepOuter : outer.Stepwise) (hstepInner : inner.Stepwise)
    (houter : Resumes catalog W fails keeps outer outerRows hasOuter)
    (hinner : Resumes catalog W fails' keeps' inner innerRows hasInner)
    (hfails : ∀ {s e}, fails' s e → fails s e) (hkeeps : ∀ {s e}, keeps s → ¬ fails' s e)
    (hs : W s) (ho : hasOuter o outerLeft) (hi : hasInner i innerRows)
    (h : (join condition outer inner).fetch catalog ⟨o, i, none⟩ s = (r, st', s')) :
    Quiet catalog s s' ∧ Fetched (fails s) (keeps s)
      (Joining.Has condition (outer.schema.append inner.schema) hasOuter hasInner innerRows)
      (condition.pairs (outer.schema.append inner.schema) outerLeft innerRows) r st' := by
  -- the induction is on the rows that the outer source has left
  induction outerLeft generalizing o i r st' s s' with
  | nil =>
    rw [fetch_join_of_none hstepOuter] at h
    rcases hfetch : outer.fetch catalog o s with ⟨r₁, o₁, s₁⟩
    obtain ⟨hquiet, ⟨rfl, ho₁⟩ | ⟨e, rfl, he, ho₁⟩⟩ := houter.fetch hs ho hfetch
    · rw [hfetch] at h
      cases h
      exact ⟨hquiet, Or.inl ⟨rfl, [], innerRows, ho₁, hi, rfl, rfl⟩⟩
    · rw [hfetch] at h
      cases h
      exact ⟨hquiet, Or.inr ⟨e, rfl, he, fun hk => ⟨[], innerRows, ho₁ hk, hi, rfl, rfl⟩⟩⟩
  | cons row outerLeft ih =>
    rw [fetch_join_of_none hstepOuter] at h
    rcases hfetch : outer.fetch catalog o s with ⟨r₁, o₁, s₁⟩
    obtain ⟨hquiet, ⟨rfl, ho₁⟩ | ⟨e, rfl, he, ho₁⟩⟩ := houter.fetch hs ho hfetch
    · rw [hfetch] at h
      simp only [List.head?_cons] at h
      have hs₁ := houter.calm.stays hs hquiet
      obtain ⟨hlater, hfetched⟩ := fetch_kept hstepInner houter.calm hinner hfails hkeeps
        (fun hs hi h => ih hs ho₁ hi h) hs₁ ho₁ hi h
      rw [show row :: outerLeft = [row] ++ outerLeft from rfl, JoinCondition.pairs_append]
      exact ⟨hquiet.trans hlater, houter.calm.fetched hquiet hfetched⟩
    · rw [hfetch] at h
      cases h
      exact ⟨hquiet, Or.inr ⟨e, rfl, he, fun hk => ⟨row :: outerLeft, innerRows, ho₁ hk, hi, rfl, rfl⟩⟩⟩

/-- Beginning with both sources: where the inner one begins, the outer one may have loaded pages. -/
theorem begun_both
    {onOuter : Catalog → outer.State → Storage → Except Error Unit × outer.State × Storage}
    {onInner : Catalog → inner.State → Storage → Except Error Unit × inner.State × Storage}
    {st : Joining outer.State inner.State} {r : Except Error Unit} (hcalm : Calm catalog W fails keeps)
    (hfails : ∀ {s e}, fails' s e → fails s e) (hs : W s)
    (houter : ∀ {s r o s'}, W s → onOuter catalog st.outer s = (r, o, s') →
      Quiet catalog s s' ∧ Begun (fails s) hasOuter outerRows r o)
    (hinner : ∀ {s r i s'}, W s → onInner catalog st.inner s = (r, i, s') →
      Quiet catalog s s' ∧ Begun (fails' s) hasInner innerRows r i)
    (h : joinBoth outer inner catalog onOuter onInner st s = (r, st', s')) :
    Quiet catalog s s' ∧ Begun (fails s)
      (Joining.Has condition (outer.schema.append inner.schema) hasOuter hasInner innerRows)
      (condition.pairs (outer.schema.append inner.schema) outerRows innerRows) r st' := by
  refine joinBoth_begun (W := fun s₁ => W s₁ ∧ Quiet catalog s s₁) ?_ ⟨hs, .refl⟩ ?_ ?_ h
  · exact fun ⟨hs₁, hbefore⟩ hquiet => ⟨hcalm.stays hs₁ hquiet, hbefore.trans hquiet⟩
  · rintro s₁ r o s₂ ⟨hs₁, hbefore⟩ hfirst
    obtain ⟨hquiet, hbegun⟩ := houter hs₁ hfirst
    exact ⟨hquiet, hbegun.imp (hcalm.fails hbefore) fun ho => ho⟩
  · rintro s₁ r i s₂ ⟨hs₁, hbefore⟩ hsecond
    obtain ⟨hquiet, hbegun⟩ := hinner hs₁ hsecond
    exact ⟨hquiet, hbegun.imp (fun he => hcalm.fails hbefore (hfails he)) fun hi => hi⟩

/-- A join keeps what its outer source keeps, if its inner source does not fail. -/
theorem resumes_join (hstepOuter : outer.Stepwise) (hstepInner : inner.Stepwise)
    (houter : Resumes catalog W fails keeps outer outerRows hasOuter)
    (hinner : Resumes catalog W fails' keeps' inner innerRows hasInner)
    (hfails : ∀ {s e}, fails' s e → fails s e) (hkeeps : ∀ {s e}, keeps s → ¬ fails' s e) :
    Resumes catalog W fails keeps (join condition outer inner)
      (condition.pairs (outer.schema.append inner.schema) outerRows innerRows)
      (Joining.Has condition (outer.schema.append inner.schema) hasOuter hasInner innerRows) where
  calm := houter.calm
  start := fun hs h => begun_both houter.calm hfails hs (fun hs h => houter.start hs h)
    (fun hs h => hinner.start hs h) h
  rewind := by
    rintro st left s r st' s' hs ⟨outerLeft, innerLeft, ho, hi, -⟩ h
    exact begun_both houter.calm hfails hs (fun hs h => houter.rewind hs ho h)
      (fun hs h => hinner.rewind hs hi h) h
  fetch := by
    rintro ⟨o, i, pending⟩ left s r st' s' hs ⟨outerLeft, innerLeft, ho, hi, hpending⟩ h
    cases pending with
    | none =>
      obtain ⟨rfl, rfl⟩ := hpending
      exact fetch_next_outer hstepOuter hstepInner houter hinner hfails hkeeps hs ho hi h
    | some row =>
      obtain rfl := hpending
      refine fetch_kept hstepInner houter.calm hinner hfails hkeeps (fun hs hi h => ?_) hs ho hi h
      exact fetch_next_outer hstepOuter hstepInner houter hinner hfails hkeeps hs ho hi h

end Join

end RowStore.Source
