import RowStore.Proofs.Archive.Serves
import RowStore.Proofs.Archive.Without
import RowStore.Proofs.Cursor.Inserts
import RowStore.Proofs.Cursor.Writes

/-!
Deleting what filters above a scan let through.

Program.  `drain` takes the rows of a scan page by page, and each row that the filters let through is
deleted from the table that is being scanned before the next one is taken.

1. `h.Clears …`: the table has lost the rows that were deleted so far, and these with those that are left
   of the present page are the rows of the pages so far that pass the filters.  Deleting the next row
   keeps that (`Clears.delete`), and so does taking the next page (`Clears.page`).
2. `h.Counts …`: as many rows are gone as were counted.  So the run comes to the last page
   (`Holds.drain_deletes`).
3. A plan that deletes deletes exactly the rows that pass, holds their number, and writes no other table
   (`Holds.write_deletes_ends`).
4. All this can only fail because a page of a table that the catalog does not know stands in the way
   (`Storage.Blocked`).  If there is none, it succeeds (`Holds.write_deletes`).

Crux.  A page that is taken was not touched before: only rows of earlier pages were deleted.
-/

namespace RowStore

open Storage Source

variable {catalog : Catalog} {tid : TransactionId} {h : HeapFile} {t : PagedTable} {p : Row → Bool}
  {n : Nat} {row : Row} {gone rest : List Row} {s₀ s s' : Storage}

/-! ## The table while its rows are deleted -/

/-- The table was `t` in the storage `s₀` and lost the rows `gone`; the rows `rest` of page `n - 1` come
    next. -/
structure HeapFile.Clears (h : HeapFile) (catalog : Catalog) (t : PagedTable) (p : Row → Bool)
    (s₀ : Storage) (n : Nat) (gone rest : List Row) (s : Storage) : Prop where
  /-- No other table was written. -/
  steps : Steps catalog (· = .write h.id) s₀ s
  /-- Nothing is at the places of the rows that are gone. -/
  held : ∃ now, h.Holds now s ∧ now.slots = t.slots.without h.id (gone.filterMap (·.place))
  /-- They and the rows that come next are the rows of the pages so far that pass. -/
  all : gone ++ rest = ((t.pages.take n).flatMap Page.rows).filter p

namespace HeapFile.Clears

theorem begin (hh : h.Holds t s) : h.Clears catalog t p s 0 [] [] s where
  steps := .refl
  held := ⟨t, hh, (SlotTable.without_nil t.slots h.id).symm⟩
  all := rfl

variable (hfile : catalog.file h.id = .ok h) (hs₀ : s₀.pool.Sound) (hr : t.Regular h.id h.pageSize)
include hfile hs₀

theorem quiet (hclears : h.Clears catalog t p s₀ n gone rest s) (hquiet : Quiet catalog s s') :
    h.Clears catalog t p s₀ n gone rest s' := by
  obtain ⟨hsteps, ⟨now, hh, hslots⟩, hall⟩ := hclears
  exact ⟨hsteps.trans hquiet.steps,
    ⟨now, hh.quiet (hsteps.sound hs₀) hfile hquiet, hslots⟩, hall⟩

include hr

/-- The next row of the present page is deleted. -/
theorem delete (hclears : h.Clears catalog t p s₀ n gone (row :: rest) s) (tid : TransactionId) :
    (∃ s', s.deleteRow catalog tid row.place = (.ok (), s') ∧
      h.Clears catalog t p s₀ n (gone ++ [row]) rest s') ∨
    ∃ e s', s.deleteRow catalog tid row.place = (.error e, s') ∧ Blocked catalog s₀ e := by
  obtain ⟨hsteps, ⟨now, hh, hslots⟩, hall⟩ := hclears
  have hs := hsteps.sound hs₀
  -- the rows that pass are rows of the table, each at a place of its own
  have hsub : (gone ++ row :: rest).Sublist t.rows := by
    rw [hall]
    refine List.filter_sublist.trans ?_
    rw [PagedTable.rows, ← List.take_append_drop n t.pages, List.flatMap_append,
      List.take_append_drop]
    exact List.sublist_append_left _ _
  have hrow : row ∈ t.rows := hsub.subset (List.mem_append_right _ List.mem_cons_self)
  obtain ⟨m, slot, -, hplace, -⟩ := hr.page_of_mem_rows hrow
  have hthere : (⟨⟨h.id, m⟩, slot⟩ : RecordId) ∉ gone.filterMap (·.place) := by
    intro hmem
    obtain ⟨other, hother, hsame⟩ := List.mem_filterMap.mp hmem
    have hnodup := hr.nodup_places.sublist (hsub.map (·.place))
    rw [List.map_append, List.nodup_append] at hnodup
    exact hnodup.2.2 _ (List.mem_map_of_mem hother) _ List.mem_cons_self (hsame.trans hplace.symm)
  -- so the table still has the row, and gives its place up
  have hdelete := SlotTable.delete_without (hr.rows_slots.symm ▸ hrow) hplace hthere
  rw [← hslots, (hh.regular hs).delete_slots rfl] at hdelete
  obtain ⟨now', htakes, hslots'⟩ : ∃ now', now.delete ⟨⟨h.id, m⟩, slot⟩ = .ok now' ∧
      now'.slots = t.slots.without h.id (gone.filterMap (·.place) ++ [⟨⟨h.id, m⟩, slot⟩]) := by
    cases htakes : now.delete ⟨⟨h.id, m⟩, slot⟩ with
    | error e =>
      rw [htakes] at hdelete
      cases hdelete
    | ok now' =>
      rw [htakes] at hdelete
      exact ⟨now', rfl, Except.ok.inj hdelete⟩
  obtain ⟨s', hrun, hh'⟩ | ⟨e, s', hrun, hblocked⟩ := hh.remove hs hfile tid rfl htakes
  case inr => exact Or.inr ⟨e, s', hplace ▸ hrun, hblocked.of_steps hs₀ hsteps⟩
  refine Or.inl ⟨s', hplace ▸ hrun, hsteps.trans (deleteRow_steps hs ?_ hrun), ⟨now', hh', ?_⟩, ?_⟩
  · rintro _ ⟨⟩
    rfl
  · rw [hslots', List.filterMap_append, List.filterMap_cons, hplace, List.filterMap_nil]
  · rw [List.append_assoc, List.singleton_append, hall]

/-- The next page is taken. -/
theorem page (hclears : h.Clears catalog t p s₀ n gone [] s) (hn : n < t.pages.length)
    {r : Except Error Frame} (hget : s.getPage catalog ⟨h.id, n⟩ = (r, s')) :
    (∃ frame, r = .ok frame ∧
      h.Clears catalog t p s₀ (n + 1) gone (frame.page.rows.filter p) s') ∨
    ∃ e, r = .error e ∧ Blocked catalog s₀ e ∧ h.Clears catalog t p s₀ n gone [] s' := by
  have hs := hclears.steps.sound hs₀
  have hcalm := hclears.quiet hfile hs₀ (getPage_steps hs hget)
  obtain ⟨hsteps, ⟨now, hh, hslots⟩, hall⟩ := hclears
  rw [List.append_nil] at hall
  -- only rows of earlier pages are gone
  have hearlier : ∀ place ∈ gone.filterMap (·.place), place.page.number ≠ n := by
    intro place hmem
    obtain ⟨other, hother, hplace⟩ := List.mem_filterMap.mp hmem
    rw [hall] at hother
    obtain ⟨own, hown, hlt⟩ := hr.place_lt (List.mem_filter.mp hother).1
    rw [hplace] at hown
    cases hown
    exact Nat.ne_of_lt hlt
  have hsame : now.slots.pages[n]? = t.slots.pages[n]? := by
    rw [hslots, SlotTable.getElem?_without hearlier]
  have hpage : t.slots.pages[n]? = some t.pages[n].contents := by
    rw [show t.slots.pages[n]? = _ from List.getElem?_map .., List.getElem?_eq_getElem hn]
    rfl
  obtain ⟨frame, rfl, hfound⟩ | ⟨hnone, -⟩ | ⟨victim, e, hstuck, rfl⟩ := hh.getPage_ends hs hfile hget
  · have hcontents : frame.page.contents = t.pages[n].contents := by
      rw [hpage, show now.slots.pages[n]? = _ from List.getElem?_map .., hfound] at hsame
      exact Option.some.inj hsame
    have hrows : frame.page.rows = t.pages[n].rows := by
      have hnow := hh.regular hs
      have hold := List.getElem?_eq_getElem hn
      have hid : frame.page.id = _ := (hnow.pageId n _ hfound).trans (hr.pageId n _ hold).symm
      have hschema : frame.page.schema = _ :=
        (hnow.pageSchema n _ hfound).trans
          ((congrArg SlotTable.schema hslots).trans (hr.pageSchema n _ hold).symm)
      rw [Page.rows_eq_liveRows, Page.rows_eq_liveRows, hcontents, hid, hschema]
    refine Or.inl ⟨frame, rfl, hcalm.steps, hcalm.held, ?_⟩
    rw [List.take_succ_eq_append_getElem hn, List.flatMap_append, List.filter_append, ← hall, hrows,
      List.flatMap_singleton]
  · rw [show now.slots.pages[n]? = _ from List.getElem?_map .., hnone, hpage] at hsame
    cases hsame
  · exact Or.inr ⟨_, rfl, hstuck.blocked.of_steps hs₀ hsteps, hcalm⟩

omit hfile hs₀ in
/-- After the last page all rows that pass are gone, and no others. -/
theorem finished (hclears : h.Clears catalog t p s₀ t.pages.length gone [] s) :
    gone = t.rows.filter p ∧ ∃ now, h.Holds now s ∧ now.slots = t.slots.deleteWhere h.id p := by
  obtain ⟨-, ⟨now, hh, hslots⟩, hall⟩ := hclears
  rw [List.append_nil, List.take_length] at hall
  refine ⟨hall, now, hh, ?_⟩
  rw [hslots, SlotTable.deleteWhere_eq_without, hr.rows_slots, hall]
  rfl

end HeapFile.Clears

/-! ## Runs that begin -/

/-- Filters above a scan of a known table can always be started. -/
theorem Plan.Sieves.start {plan : Plan} (hplan : plan.Sieves h.id p) (hfile : catalog.file h.id = .ok h)
    (st : plan.source.State) (s : Storage) :
    ∃ st', plan.source.start catalog st s = (.ok (), st', s) := by
  induction hplan with
  | scan =>
    exact ⟨⟨h.numPages s.files, 0, []⟩, Scan.start_of_file hfile st s⟩
  | @filter condition child p _ ih =>
    obtain ⟨inner, hstart⟩ := ih st.inner
    exact ⟨_, guard_start hstart⟩

/-- A drain fails to start its source, or gives what the run through its rows gives. -/
theorem Source.drain_cases {α : Type} {child : Source} {st st' : child.State}
    {operation : Row → α → Storage → Except Error α × Storage} {a : α} {r : Except Error α}
    (h : child.drain catalog operation st a s = (r, st', s')) :
    (∃ e, child.start catalog st s = (.error e, st', s') ∧ r = .error e) ∨
    (∃ ending result, child.Runs catalog (feed operation) (.ok a) s ending result s' ∧
      r = match ending with
        | .failed e => .error e
        | .exhausted | .stopped => result) := by
  unfold drain at h
  split at h
  · rename_i e st₁ s₁ hstart
    cases h
    exact Or.inl ⟨e, hstart, rfl⟩
  · rename_i st₁ s₁ hstart
    split at h
    rename_i ending st₂ result s₂ heach
    refine Or.inr ⟨ending, result, ?_⟩
    cases ending <;> cases h <;> exact ⟨⟨st, st₁, s₁, st', hstart, heach⟩, rfl⟩

/-! ## Deleting -/

/-- Deletes the row where it is stored. -/
def Storage.dropRow (tid : TransactionId) (catalog : Catalog) (row : Row) (s : Storage) :
    Except Error Unit × Storage :=
  s.deleteRow catalog tid row.place

/-- As many rows as `count` says were deleted, and the rows `rest` come next. -/
def HeapFile.Counts (h : HeapFile) (catalog : Catalog) (t : PagedTable) (p : Row → Bool) (s₀ : Storage)
    (n : Nat) (rest : List Row) (count : Nat) (s : Storage) : Prop :=
  ∃ gone, count = gone.length ∧ h.Clears catalog t p s₀ n gone rest s

namespace HeapFile.Counts

variable {count : Nat}
variable (hfile : catalog.file h.id = .ok h) (hs₀ : s₀.pool.Sound) (hr : t.Regular h.id h.pageSize)
include hfile hs₀

theorem quiet (hcounts : h.Counts catalog t p s₀ n rest count s) (hquiet : Quiet catalog s s') :
    h.Counts catalog t p s₀ n rest count s' := by
  obtain ⟨gone, hcount, hclears⟩ := hcounts
  exact ⟨gone, hcount, hclears.quiet hfile hs₀ hquiet⟩

include hr

/-- The next row is deleted and counted. -/
theorem delete (hcounts : h.Counts catalog t p s₀ n (row :: rest) count s) :
    (∃ s', counted (dropRow tid catalog) row count s = (.ok (count + 1), s') ∧
      h.Counts catalog t p s₀ n rest (count + 1) s') ∨
    ∃ e s', counted (dropRow tid catalog) row count s = (.error e, s') ∧ Blocked catalog s₀ e := by
  obtain ⟨gone, rfl, hclears⟩ := hcounts
  unfold counted
  obtain ⟨s', hrun, hclears'⟩ | ⟨e, s', hrun, hblocked⟩ := hclears.delete hfile hs₀ hr tid
  · rw [show dropRow tid catalog row s = (.ok (), s') from hrun]
    have hlength : gone.length + 1 = (gone ++ [row]).length := by
      rw [List.length_append, List.length_singleton]
    exact Or.inl ⟨s', rfl, gone ++ [row], hlength, hclears'⟩
  · rw [show dropRow tid catalog row s = (.error e, s') from hrun]
    exact Or.inr ⟨e, s', rfl, hblocked⟩

/-- The next page is taken, and its rows that pass come next. -/
theorem page (hcounts : h.Counts catalog t p s₀ n [] count s) (hn : n < t.pages.length)
    {r : Except Error Frame} (hget : s.getPage catalog ⟨h.id, n⟩ = (r, s')) :
    (∃ frame, r = .ok frame ∧
      h.Counts catalog t p s₀ (n + 1) (frame.page.rows.filter p) count s') ∨
    ∃ e, r = .error e ∧ Blocked catalog s₀ e ∧ h.Counts catalog t p s₀ n [] count s' := by
  obtain ⟨gone, hcount, hclears⟩ := hcounts
  obtain ⟨frame, hr, hnext⟩ | ⟨e, hr, hblocked, hsame⟩ := hclears.page hfile hs₀ hr hn hget
  · exact Or.inl ⟨frame, hr, gone, hcount, hnext⟩
  · exact Or.inr ⟨e, hr, hblocked, gone, hcount, hsame⟩

end HeapFile.Counts

/-- Deleting the rows that filters let through of a table counts them. -/
theorem HeapFile.Holds.drain_deletes (hh : h.Holds t s) (hs : s.pool.Sound)
    (hfile : catalog.file h.id = .ok h) {plan : Plan} (hplan : plan.Sieves h.id p)
    {st st' : plan.source.guard.State} {r : Except Error Nat}
    (hdrain : plan.source.guard.drain catalog (counted (dropRow tid catalog)) st 0 s = (r, st', s')) :
    (∃ count, r = .ok count ∧ h.Counts catalog t p s t.pages.length [] count s') ∨
    ∃ e, r = .error e ∧ Blocked catalog s e := by
  have hr := hh.regular hs
  have hcalm : ∀ {n : Nat} {rest : List Row} {count : Nat} {s₁ s₂ : Storage},
      h.Counts catalog t p s n rest count s₁ → Quiet catalog s₁ s₂ →
      h.Counts catalog t p s n rest count s₂ :=
    fun hcounts hquiet => hcounts.quiet hfile hs hquiet
  have hstep : ∀ {n : Nat} {row : Row} {rest : List Row} {count count' : Nat} {s₁ s₂ : Storage},
      h.Counts catalog t p s n (row :: rest) count s₁ →
      counted (dropRow tid catalog) row count s₁ = (.ok count', s₂) →
      h.Counts catalog t p s n rest count' s₂ := by
    intro n row rest count count' s₁ s₂ hcounts hrow
    obtain ⟨s', hrun, hnext⟩ | ⟨e, s', hrun, -⟩ := hcounts.delete hfile hs hr
    · cases hrow.symm.trans hrun
      exact hnext
    · cases hrow.symm.trans hrun
  have hrefused : ∀ {n : Nat} {row : Row} {rest : List Row} {count : Nat} {e : Error} {s₁ s₂ : Storage},
      h.Counts catalog t p s n (row :: rest) count s₁ →
      counted (dropRow tid catalog) row count s₁ = (.error e, s₂) → Blocked catalog s e := by
    intro n row rest count e s₁ s₂ hcounts hrow
    obtain ⟨s', hrun, -⟩ | ⟨e', s', hrun, hblocked⟩ := hcounts.delete hfile hs hr
    · cases hrow.symm.trans hrun
    · cases hrow.symm.trans hrun
      exact hblocked
  -- the consumer passes over the rows that the filters hold back
  have hpassed := fun n => (feed_consumes (fun e _ => Blocked catalog s e) (hstep (n := n)) (hrefused (n := n))
    hcalm).passed (g := List.filter p) (f := fun row => row) fun _ _ => List.filter_cons
  have hpage : ∀ {n : Nat} {result : Except Error Nat} {s₁ s₂ : Storage} {r : Except Error Frame},
      n < t.pages.length → (∃ count, result = .ok count ∧ h.Counts catalog t p s n [] count s₁) →
      s₁.getPage catalog ⟨h.id, n⟩ = (r, s₂) →
      (∃ frame : Frame, r = .ok frame ∧ ∃ count, result = .ok count ∧
        h.Counts catalog t p s (n + 1) (frame.page.rows.filter p) count s₂) ∨
      (∃ e, r = .error e ∧ Blocked catalog s e ∧ ∃ count, result = .ok count ∧
        h.Counts catalog t p s n [] count s₂) := by
    rintro n result s₁ s₂ r hn ⟨count, rfl, hcounts⟩ hget
    obtain ⟨frame, rfl, hnext⟩ | ⟨e, rfl, hblocked, hsame⟩ := hcounts.page hfile hs hr hn hget
    · exact Or.inl ⟨frame, rfl, count, rfl, hnext⟩
    · exact Or.inr ⟨e, rfl, hblocked, count, rfl, hsame⟩
  obtain ⟨e, hfailed, -⟩ | ⟨ending, result, hruns, hends⟩ := Source.drain_cases hdrain
  · -- the source below can be started
    obtain ⟨inner, hinner⟩ := hplan.start hfile st.inner s
    rw [guard_start hinner] at hfailed
    cases hfailed
  obtain ⟨g, scan, hg, hscan⟩ := hplan.runs hruns.of_guard
  obtain rfl := Catalog.eq_of_file hfile hg
  rw [hh.numPages hs] at hscan
  obtain ⟨-, -, hlast, hended⟩ := Scan.eachPage_ends hpassed (Nat.zero_add _) hpage
    ⟨0, rfl, [], rfl, .begin hh⟩ hscan
  cases hended with
  | exhausted _ hdone =>
    obtain ⟨count, rfl, hcounts⟩ := hdone
    rw [hlast rfl] at hcounts
    exact Or.inl ⟨count, hends, hcounts⟩
  | stopped _ hstopped =>
    obtain ⟨e, rfl, hblocked⟩ := hstopped
    exact Or.inr ⟨e, hends, hblocked⟩
  | failed hblocked _ => exact Or.inr ⟨_, hends, hblocked⟩

section Writing

variable (hh : h.Holds t s) (hs : s.pool.Sound) (hfile : catalog.file h.id = .ok h) {plan : Plan}
  (hplan : plan.Sieves h.id p) {st st' : WriteState plan.source.guard.State} {r : Except Error Unit}
  (hstart : (Source.write (dropRow tid) plan.source.guard).start catalog st s = (r, st', s'))
include hh hs hfile hplan hstart

/-- **Deleting what passes.**  A plan that deletes what filters let through of a table deletes the rows
    that pass and no others, writes no other table, and holds their number, unless a page stands in the
    way. -/
theorem HeapFile.Holds.write_deletes_ends :
    (r = .ok () ∧ st'.results = (some (Plan.countRow (t.rows.filter p).length), false) ∧
      Steps catalog (· = .write h.id) s s' ∧
      ∃ now, h.Holds now s' ∧ now.slots = t.slots.deleteWhere h.id p) ∨
    ∃ e, r = .error e ∧ Blocked catalog s e := by
  obtain ⟨result, c, hdrain, hresult⟩ := start_write_cases hstart
  obtain ⟨_, rfl, gone, rfl, hclears⟩ | ⟨e, rfl, hblocked⟩ := hh.drain_deletes hs hfile hplan hdrain
  · obtain ⟨rfl, hnow⟩ := hclears.finished (hh.regular hs)
    obtain ⟨e, herror, -⟩ | ⟨count, hcount, rfl, rfl⟩ := hresult
    · cases herror
    · cases hcount
      exact Or.inl ⟨rfl, rfl, hclears.steps, hnow⟩
  · obtain ⟨e', herror, rfl, -⟩ | ⟨count, hcount, -⟩ := hresult
    · cases herror
      exact Or.inr ⟨e, rfl, hblocked⟩
    · cases hcount

/-- If every page in memory belongs to a known table, it can be started. -/
theorem HeapFile.Holds.write_deletes (ha : Attended catalog s) :
    r = .ok () ∧ st'.results = (some (Plan.countRow (t.rows.filter p).length), false) ∧
      Steps catalog (· = .write h.id) s s' ∧
      ∃ now, h.Holds now s' ∧ now.slots = t.slots.deleteWhere h.id p := by
  obtain hdone | ⟨e, -, -, hno⟩ := hh.write_deletes_ends hs hfile hplan hstart
  · exact hdone
  · exact absurd ha hno

end Writing

end RowStore
