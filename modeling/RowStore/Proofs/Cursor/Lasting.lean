import RowStore.Proofs.Cursor.Reached
import RowStore.Proofs.Cursor.Resumes
import RowStore.Proofs.Cursor.Sieves
import RowStore.Proofs.Requests.Known

/-!
What a tree of scans, filters and joins keeps when it fails.

Program.  While a tree is open, a table that it scans may be taken out of the catalog and come back, and a
page of it may be kept away by another page that cannot leave.

1. `Lasts`: some tables are not written, and whenever the catalog knows one of them it is the same file.
   `Available`: a table is known, and no page of it can be kept away.
2. A page of a table that lasts is found as it was, or the table is not available (`Lasts.getPage`).
3. So every tree of scans, filters and joins keeps what it has left, as long as the tables on the inner
   sides of its joins are available (`Plan.resumes`).

Crux.  A page that was loaded before its table was forgotten is still found, and it is the page of the
table, since the table lasts.  What is needed of the catalog is only that it knows no other file under
that number.
-/

namespace RowStore

open Storage Source

variable {catalog catalog' : Catalog} {may : Effect → Prop} {h : HeapFile} {s s' : Storage}

/-! ## Tables that can be had -/

namespace Storage

variable {id : TableId} {ids more lacking inner : List TableId} {one : TableId → HeapFile}
  {view : TableId → PagedTable} {count : TableId → Nat}

/-- The catalog knows a table, and each of its pages can be had, whatever pages are loaded before. -/
def Available (catalog : Catalog) (id : TableId) (s : Storage) : Prop :=
  ∃ h, catalog.file id = .ok h ∧ ∀ s', Quiet catalog s s' → ∀ n < h.numPages s'.files,
    ∃ frame s'', s'.getPage catalog ⟨id, n⟩ = (.ok frame, s'')

theorem Available.quiet (havailable : Available catalog id s) (hquiet : Quiet catalog s s') :
    Available catalog id s' := by
  obtain ⟨h, hfile, hpages⟩ := havailable
  exact ⟨h, hfile, fun s₁ hlater => hpages s₁ (hquiet.trans hlater)⟩

/-- A known table is available as long as every changed page belongs to a known table. -/
theorem Available.of_holds {t : PagedTable} (hh : h.Holds t s) (hs : s.pool.Sound)
    (hk : ChangesKnown catalog s) (hfile : catalog.file h.id = .ok h) : Available catalog h.id s := by
  refine ⟨h, hfile, fun s₁ hquiet n hn => ?_⟩
  have hs₁ := hquiet.sound hs
  have hh₁ := hh.quiet hs hfile hquiet
  rcases hget : s₁.getPage catalog ⟨h.id, n⟩ with ⟨r, s₂⟩
  rw [hh₁.numPages hs₁] at hn
  obtain ⟨frame, rfl, -⟩ | ⟨victim, e, hstuck, -⟩ := hh₁.getPage_of_lt hs₁ hfile hn hget
  · exact ⟨frame, s₂, rfl⟩
  · exact absurd hstuck ((hquiet.known.changesKnown hs hk).not_stuck victim e)

/-- An error that a cursor does not make by itself, while some of the tables are not available. -/
def Lacks (catalog : Catalog) (ids : List TableId) (s : Storage) (e : Error) : Prop :=
  e ≠ .noMoreRows ∧ ∃ id ∈ ids, ¬ Available catalog id s

theorem Lacks.mono {e : Error} (hlacks : Lacks catalog ids s e) (hsub : ∀ id ∈ ids, id ∈ more) :
    Lacks catalog more s e := by
  obtain ⟨hne, id, hid, hno⟩ := hlacks
  exact ⟨hne, id, hsub id hid, hno⟩

/-- Some tables last: each of them is what `view` says, in a file of `count` pages, and whenever the catalog
    knows it, it is the file that `one` names. -/
structure Lasts (one : TableId → HeapFile) (view : TableId → PagedTable) (count : TableId → Nat)
    (ids : List TableId) (catalog : Catalog) (s : Storage) : Prop where
  /-- Pool and queue agree. -/
  sound : s.pool.Sound
  /-- Every table is what it was. -/
  held : ∀ id ∈ ids, (one id).id = id ∧ (one id).Displays (view id) s ∧
    (one id).numPages s.files = count id
  /-- No other file takes its place. -/
  only : ∀ id ∈ ids, ∀ g, catalog.file id = .ok g → g = one id

namespace Lasts

variable (hlasts : Lasts one view count ids catalog s)
include hlasts

/-- Steps that write none of the tables leave them what they are. -/
theorem steps (hno : ∀ id ∈ ids, ¬ may (.write id)) (hsteps : Steps catalog may s s') :
    Lasts one view count ids catalog s' where
  sound := hsteps.sound hlasts.sound
  held := by
    intro id hid
    obtain ⟨hone, hd, hcount⟩ := hlasts.held id hid
    have honly : ∀ g, catalog.file (one id).id = .ok g → g = one id := fun g hg =>
      hlasts.only id hid g (hone ▸ hg)
    have hwrite : ¬ may (.write (one id).id) := hone.symm ▸ hno id hid
    exact ⟨hone, hd.steps hlasts.sound honly hwrite hsteps,
      (hd.numPages_of_steps hlasts.sound honly hwrite hsteps).trans hcount⟩
  only := hlasts.only

theorem quiet (hquiet : Quiet catalog s s') : Lasts one view count ids catalog s' :=
  hlasts.steps (fun _ _ hno => hno) hquiet

/-- The catalog may forget the tables, and get to know them again. -/
theorem of_catalog (honly : ∀ id ∈ ids, ∀ g, catalog'.file id = .ok g → g = one id) :
    Lasts one view count ids catalog' s :=
  ⟨hlasts.sound, hlasts.held, honly⟩

/-- The pages that can be found are pages of the file. -/
theorem length_le (hid : id ∈ ids) : (view id).pages.length ≤ count id := by
  obtain ⟨-, hh | ⟨-, hnone⟩, hcount⟩ := hlasts.held id hid
  · rw [← hcount, hh.numPages hlasts.sound]
  · rw [hnone]
    exact Nat.zero_le _

/-- A page is found as it was, or the table is not available. -/
theorem getPage (hid : id ∈ ids) {n : Nat} (hn : n < count id) {r : Except Error Frame}
    (hget : s.getPage catalog ⟨id, n⟩ = (r, s')) :
    (∃ frame, r = .ok frame ∧ (view id).pages[n]? = some frame.page.clean) ∨
    (∃ e, r = .error e ∧ e ≠ .noMoreRows ∧ ¬ Available catalog id s) := by
  obtain ⟨hone, hd, hcount⟩ := hlasts.held id hid
  cases r with
  | error e =>
    refine Or.inr ⟨e, rfl, (failed_getPage hlasts.sound hget).ne_of_cursor (Or.inr rfl), ?_⟩
    rintro ⟨h, hfile, hpages⟩
    obtain rfl := hlasts.only id hid h hfile
    obtain ⟨frame, s₁, hfound⟩ := hpages s .refl n (hcount.symm ▸ hn)
    cases hget.symm.trans hfound
  | ok frame =>
    refine Or.inl ⟨frame, rfl, ?_⟩
    obtain ⟨found, hfind, hr, -⟩ | ⟨-, ⟨e, -, hr, -⟩ | ⟨page, hread, -⟩⟩ := getPage_cases hlasts.sound hget
    · -- a page in memory is found whether or not the catalog knows its table
      cases hr
      rw [← hone] at hfind
      rcases hd with hh | ⟨hu, -⟩
      · exact hh.of_find? hfind
      · exact absurd rfl (hu.other hfind)
    · cases hr
    · obtain ⟨g, hg, -⟩ := file_of_readPage hread
      obtain rfl := hlasts.only id hid g hg
      have hfile : catalog.file (one id).id = .ok (one id) := by rw [hone, hg]
      rw [← hone] at hget
      exact (hd.getPage_ok hlasts.sound hfile hget).2

end Lasts

/-- While tables last, a lack of some of them and the availability of others are circumstances that loading
    pages does not worsen. -/
theorem calm_of_lasts : Calm catalog (Lasts one view count ids catalog) (Lacks catalog lacking)
    (fun s => ∀ id ∈ inner, Available catalog id s) where
  stays := fun hlasts hquiet => hlasts.quiet hquiet
  fails := fun hquiet ⟨hne, id, hid, hno⟩ => ⟨hne, id, hid, fun hyes => hno (hyes.quiet hquiet)⟩
  keeps := fun hquiet hkept id hid => (hkept id hid).quiet hquiet

/-- A scan of one of the tables keeps what it has left. -/
theorem resumes_scan {id : TableId} (hid : id ∈ ids) (schema : Schema) (inner : List TableId) :
    Resumes catalog (Lasts one view count ids catalog) (Lacks catalog [id])
      (fun s => ∀ id ∈ inner, Available catalog id s) (.ofTable id schema) (view id).rows
      (Scan.Left (count id) (view id).pages) := by
  have hlacks : ∀ {s : Storage} {e : Error}, e ≠ .noMoreRows → ¬ Available catalog id s →
      Lacks catalog [id] s e := fun hne hno => ⟨hne, id, List.mem_singleton.mpr rfl, hno⟩
  refine resumes_ofTable schema calm_of_lasts (fun hlasts => hlasts.length_le hid) ?_ ?_ ?_
  · intro s file hlasts hfile
    obtain rfl := hlasts.only id hid file hfile
    exact (hlasts.held id hid).2.2
  · intro s e hlasts hunknown
    have hplain : Failed catalog s e := Or.inl (Catalog.isPlain_file hunknown)
    refine hlacks (hplain.ne_of_cursor (Or.inr rfl)) ?_
    rintro ⟨h, hfile, -⟩
    cases hunknown.symm.trans hfile
  · intro n s r s' hn hlasts hget
    refine ⟨getPage_steps hlasts.sound hget, (hlasts.getPage hid hn hget).imp_right ?_⟩
    rintro ⟨e, hr, hne, hno⟩
    exact ⟨e, hr, hlacks hne hno⟩

end Storage

/-! ## Trees of scans, filters and joins -/

namespace Plan

variable {plan : Plan}

/-- The tables that are scanned on the inner side of a join. -/
def innerTables : Plan → List TableId
  | .rows _ _ | .scan _ _ => []
  | .filter _ child | .aggregate _ child | .insert _ _ child | .delete _ child => child.innerTables
  | .join _ outer inner => outer.innerTables ++ inner.tables

/-- A tree that could be started scans known tables. -/
theorem known_of_start (hplan : plan.isSelection = true) {st st' : plan.source.State}
    (h : plan.source.start catalog st s = (.ok (), st', s')) :
    ∀ id ∈ plan.tables, ∃ h, catalog.file id = .ok h := by
  induction plan generalizing s s' with
  | rows schema given => exact nofun
  | scan table schema =>
    intro id hid
    obtain rfl := List.mem_singleton.mp hid
    replace h : Scan.start id catalog st s = (.ok (), st', s') := h
    obtain ⟨-, ⟨e, -, he, -⟩ | ⟨file, hfile, -⟩⟩ := Scan.start_cases h
    · cases he
    · exact ⟨file, hfile⟩
  | filter condition child ih =>
    obtain ⟨inner, hchild, -⟩ := Guarded.start_eq_ok h
    exact ih hplan hchild
  | join condition outer inner ihouter ihinner =>
    obtain ⟨houter, hinner⟩ := Bool.and_eq_true_iff.mp hplan
    obtain ⟨o, i, s₁, hfirst, hsecond⟩ := joinBoth_eq_ok h
    obtain ⟨_, hfirst, -⟩ := Guarded.start_eq_ok hfirst
    obtain ⟨_, hsecond, -⟩ := Guarded.start_eq_ok hsecond
    exact List.forall_mem_append.mpr ⟨ihouter houter hfirst, ihinner hinner hsecond⟩
  | aggregate | insert | delete => cases hplan

/-- **What a tree keeps.**  While its tables last, a tree of scans, filters and joins gives the rows that it
    means, fails only if one of them is not available, and loses nothing then if those on the inner sides of
    joins are. -/
theorem resumes (hplan : plan.isSelection = true) {ids : List TableId} (hids : ∀ id ∈ plan.tables, id ∈ ids)
    {one : TableId → HeapFile} {view : TableId → PagedTable} {count : TableId → Nat} {rows : List Row}
    (hmeaning : plan.meaning (fun id => (view id).rows) = .ok rows) :
    ∃ has, ∀ catalog, Resumes catalog (Lasts one view count ids catalog) (Lacks catalog plan.tables)
      (fun s => ∀ id ∈ plan.innerTables, Available catalog id s) plan.source rows has := by
  induction plan generalizing rows with
  | rows schema given =>
    cases hmeaning
    exact ⟨_, fun _ => resumes_ofRows schema given calm_of_lasts⟩
  | scan table schema =>
    cases hmeaning
    exact ⟨_, fun _ => resumes_scan (hids table (List.mem_singleton.mpr rfl)) schema _⟩
  | filter condition child ih =>
    have hselects : child.isSelection = true := hplan
    obtain ⟨found, hchild⟩ := meaning_of_isSelection hselects fun id => (view id).rows
    unfold meaning at hmeaning
    rw [hchild] at hmeaning
    cases hmeaning
    obtain ⟨has, hresumes⟩ := ih hplan hids hchild
    exact ⟨_, fun catalog =>
      resumes_filter condition (stepwise_guard child.stepwise) (hresumes catalog).guard⟩
  | join condition outer inner ihouter ihinner =>
    obtain ⟨houter, hinner⟩ := Bool.and_eq_true_iff.mp hplan
    obtain ⟨left, hleft⟩ := meaning_of_isSelection houter fun id => (view id).rows
    obtain ⟨right, hright⟩ := meaning_of_isSelection hinner fun id => (view id).rows
    unfold meaning at hmeaning
    rw [hleft, hright] at hmeaning
    cases hmeaning
    obtain ⟨hasOuter, hresumesOuter⟩ :=
      ihouter houter (fun id hid => hids id (List.mem_append_left _ hid)) hleft
    obtain ⟨hasInner, hresumesInner⟩ :=
      ihinner hinner (fun id hid => hids id (List.mem_append_right _ hid)) hright
    rw [← schema_source outer, ← schema_source inner]
    refine ⟨_, fun catalog => resumes_join (stepwise_guard outer.stepwise) (stepwise_guard inner.stepwise)
      ((hresumesOuter catalog).guard.mono calm_of_lasts ?_ ?_) (hresumesInner catalog).guard ?_ ?_⟩
    · exact fun hlacks => hlacks.mono fun id hid => List.mem_append_left _ hid
    · exact fun hkept id hid => hkept id (List.mem_append_left _ hid)
    · exact fun hlacks => hlacks.mono fun id hid => List.mem_append_right _ hid
    · -- while all of its tables are available, the inner side does not fail
      rintro s e hkept ⟨-, id, hid, hno⟩
      exact hno (hkept id (List.mem_append_right _ hid))
  | aggregate | insert | delete => cases hplan

end Plan

end RowStore
