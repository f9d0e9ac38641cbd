import RowStore.Proofs.Cursor.ListCursor
import RowStore.Proofs.Cursor.Safe
import RowStore.Proofs.Requests.Errors

/-!
When a cursor is open.

Program.  Each node of a plan has a flag that says whether it may be used.  It is set when a start has
succeeded and cleared by a close; a start or a rewind that fails may leave anything below half done,
and does not touch it.

1. What a call can answer, by whether the cursor is open before it (`Cursor.Answered`), and that a safe
   source answers so in every call of a run (`Cursor.call_safe`, `Cursor.answered_of_safe`).
2. No source below a plan is used while it is closed, so a cursor is refused for no other reason than
   that it is closed itself: it says so exactly if no start has succeeded since it was made or closed
   (`Cursor.notOpen_iff_closed`).
3. A failed start or rewind does not close a cursor.  What was looked at before, or was counted before,
   is still given then, and a scan may look empty (`Cursor.given_after_failure`).

Crux.  What has to be carried through a run is that the flags of all sources below are set whenever the
flag of the plan is, also when a start failed somewhere in the middle (`Source.Safe`).
-/

namespace RowStore

open Storage Source

/-! ## Open and closed -/

/-- Whether a call needs an open cursor. -/
def Call.needsOpen : Call → Bool
  | .hasNext | .next | .rewind => true
  | .start | .close => false

/-- Whether a cursor is open after a call and its answer, by whether it was open before. -/
def Call.leavesOpen (was : Bool) : Call × Except Error Reply → Bool
  | (.start, .ok _) => true
  | (.close, _) => false
  | _ => was

/-- A call that needs an open cursor leaves it open or closed as it was, whatever it answers. -/
theorem Call.leavesOpen_of_needsOpen {call : Call} (hneeds : call.needsOpen = true) (was : Bool)
    (answer : Except Error Reply) : Call.leavesOpen was (call, answer) = was := by
  cases call with
  | start | close => cases hneeds
  | hasNext | next | rewind => rfl

/-- Whether a new cursor is open after some calls and their answers. -/
def Call.openAfter (log : List (Call × Except Error Reply)) : Bool := log.foldl Call.leavesOpen false

namespace Cursor

/-- What a call can answer: rows of `Q`, and errors that `fails` allows unless the call came at the
    wrong time. -/
inductive Answered (Q : Row → Prop) (fails : Error → Prop) (isOpen : Bool) :
    Call → Except Error Reply → Prop
  | refused {call : Call} (hclosed : isOpen = false) (hneeds : call.needsOpen = true) :
    Answered Q fails isOpen call (.error .notOpen)
  | failed {call : Call} {e : Error} (hready : call.needsOpen = true → isOpen = true) (he : fails e) :
    Answered Q fails isOpen call (.error e)
  | ended (hopen : isOpen = true) : Answered Q fails isOpen .next (.error .noMoreRows)
  | row {row : Row} (hopen : isOpen = true) (hrow : Q row) :
    Answered Q fails isOpen .next (.ok (.row row))
  | more {any : Bool} (hopen : isOpen = true) : Answered Q fails isOpen .hasNext (.ok (.more any))
  | done {call : Call} (hready : call.needsOpen = true → isOpen = true) :
    Answered Q fails isOpen call (.ok .done)

variable {catalog : Catalog} {Q : Row → Prop} {fails : Error → Prop} {plan : Plan}
  {ready : plan.source.State → Prop} {g : Guarded plan.source.State}

/-- A closed cursor refuses the calls that need an open one, and nothing happens. -/
theorem call_of_closed (hclosed : g.isOpen = false) {call : Call} (hneeds : call.needsOpen = true)
    (s : Storage) : Cursor.call catalog ⟨plan, g⟩ s call = (.error .notOpen, ⟨plan, g⟩, s) := by
  cases call with
  | start | close => cases hneeds
  | rewind =>
    unfold Cursor.call Cursor.rewind
    rw [Guarded.rewind_of_closed hclosed]
    rfl
  | hasNext =>
    unfold Cursor.call Cursor.hasNext
    rw [Guarded.hasNext_of_closed hclosed]
    rfl
  | next =>
    unfold Cursor.call Cursor.next
    rw [Guarded.next_of_closed hclosed]
    rfl

/-- **One call.**  A cursor over a safe source answers as it may, and it is open afterwards if and only
    if the call and its answer leave it open. -/
theorem call_safe {W : Storage → Prop} (hsrc : Safe catalog W Q fails plan.source ready)
    (hg : g.isOpen = true → Guarded.Ready Q ready g) {call : Call} {s s' : Storage}
    {answer : Except Error Reply} {c' : Cursor} (hs : W s)
    (h : Cursor.call catalog ⟨plan, g⟩ s call = (answer, c', s')) :
    W s' ∧ Answered Q fails g.isOpen call answer ∧
      ∃ g', c' = ⟨plan, g'⟩ ∧ (g'.isOpen = true → Guarded.Ready Q ready g') ∧
        g'.isOpen = Call.leavesOpen g.isOpen (call, answer) := by
  by_cases hrefused : call.needsOpen = true ∧ g.isOpen = false
  · obtain ⟨hneeds, hclosed⟩ := hrefused
    rw [call_of_closed hclosed hneeds] at h
    cases h
    exact ⟨hs, .refused hclosed hneeds, g, rfl, hg, (Call.leavesOpen_of_needsOpen hneeds _ _).symm⟩
  have hready : call.needsOpen = true → g.isOpen = true := fun hneeds =>
    (Bool.not_eq_false _).mp fun hclosed => hrefused ⟨hneeds, hclosed⟩
  cases call with
  | start =>
    unfold Cursor.call Cursor.start at h
    rcases hstart : Guarded.start catalog g s with ⟨r, g₁, s₁⟩
    obtain ⟨hs₁, hok, herror⟩ := Guarded.start_safe hsrc hs hstart
    rw [hstart] at h
    cases h
    cases r with
    | ok => exact ⟨hs₁, .done nofun, g₁, rfl, fun _ => hok rfl, (hok rfl).1⟩
    | error e =>
      obtain ⟨he, hsame, hkeeps⟩ := herror e rfl
      exact ⟨hs₁, .failed nofun he, g₁, rfl, fun hopen => hkeeps (hg (hsame ▸ hopen)), hsame⟩
  | close =>
    cases h
    exact ⟨hs, .done nofun, _, rfl, nofun, rfl⟩
  | rewind =>
    have hopen := hready rfl
    unfold Cursor.call Cursor.rewind at h
    rcases hrewind : Guarded.rewind catalog g s with ⟨r, g₁, s₁⟩
    obtain ⟨hs₁, hg₁, herror⟩ := Guarded.rewind_safe hsrc hs (hg hopen) hrewind
    rw [hrewind] at h
    cases h
    refine ⟨hs₁, ?_, g₁, rfl, fun _ => hg₁, hg₁.1.trans hopen.symm⟩
    cases r with
    | ok => exact .done hready
    | error e => exact .failed hready (herror e rfl)
  | hasNext =>
    have hopen := hready rfl
    unfold Cursor.call Cursor.hasNext at h
    rcases hnext : Guarded.hasNext catalog g s with ⟨r, g₁, s₁⟩
    obtain ⟨hs₁, hg₁, herror⟩ := Guarded.hasNext_safe hsrc hs (hg hopen) hnext
    rw [hnext] at h
    cases h
    refine ⟨hs₁, ?_, g₁, rfl, fun _ => hg₁, hg₁.1.trans hopen.symm⟩
    cases r with
    | ok any => exact .more hopen
    | error e => exact .failed hready (herror e rfl)
  | next =>
    have hopen := hready rfl
    unfold Cursor.call Cursor.next at h
    rcases hnext : Guarded.next catalog g s with ⟨r, g₁, s₁⟩
    obtain ⟨hs₁, hg₁, hrow, herror⟩ := Guarded.next_safe hsrc hs (hg hopen) hnext
    rw [hnext] at h
    cases h
    refine ⟨hs₁, ?_, g₁, rfl, fun _ => hg₁, hg₁.1.trans hopen.symm⟩
    cases r with
    | ok row => exact .row hopen (hrow row rfl)
    | error e =>
      rcases herror e rfl with he | rfl
      · exact .failed hready he
      · exact .ended hopen

/-! ## Runs -/

/-- The calls of a run with their answers. -/
def log (c : Cursor) (db : Database) (moves : List Move) : List (Call × Except Error Reply) :=
  (moves.filterMap Move.call?).zip (c.answers db moves)

/-- **A run.**  If the source of a plan is safe in all stores that the run goes through, every call of
    the run answers as it may. -/
theorem answered_of_safe {W : Database → Prop}
    (hsrc : ∀ d, W d → Safe d.catalog (fun s => W { d with storage := s }) Q fails plan.source ready)
    {db : Database} {moves : List Move}
    (hrequests : ∀ d request, .request request ∈ moves →
      (d.perform request).2 ∈ Cursor.stores ⟨plan, g⟩ db moves → W d → W (d.perform request).2)
    (hg : g.isOpen = true → Guarded.Ready Q ready g) (hdb : W db)
    {before after : List (Call × Except Error Reply)} {call : Call} {answer : Except Error Reply}
    (hlog : Cursor.log ⟨plan, g⟩ db moves = before ++ (call, answer) :: after) :
    Answered Q fails (before.foldl Call.leavesOpen g.isOpen) call answer := by
  -- the flag, the state of the source and the store are what the next move needs
  induction moves generalizing g db before with
  | nil =>
    cases before <;> cases hlog
  | cons first moves ih =>
    cases first with
    | request request =>
      have hrest := hrequests db request List.mem_cons_self
        (List.mem_cons_of_mem _ (mem_stores _ _ _)) hdb
      refine ih (fun d other hmem hstore => ?_) hg hrest hlog
      exact hrequests d other (List.mem_cons_of_mem _ hmem) (List.mem_cons_of_mem _ hstore)
    | call asked =>
      rcases hcall : Cursor.call db.catalog ⟨plan, g⟩ db.storage asked with ⟨first, c', s⟩
      obtain ⟨hs, hanswered, g', rfl, hg', hopen⟩ := call_safe (hsrc db hdb) hg hdb hcall
      have hmove : Cursor.move ⟨plan, g⟩ db (.call asked) = (⟨plan, g'⟩, { db with storage := s }) := by
        simp only [Cursor.move, hcall]
      have hsplit : Cursor.log ⟨plan, g⟩ db (.call asked :: moves) =
          (asked, first) :: Cursor.log ⟨plan, g'⟩ { db with storage := s } moves := by
        show (asked, (Cursor.call db.catalog ⟨plan, g⟩ db.storage asked).1) ::
          Cursor.log (Cursor.move ⟨plan, g⟩ db (.call asked)).1 _ moves = _
        rw [hcall, hmove]
      rw [hsplit] at hlog
      cases before with
      | nil =>
        cases hlog
        exact hanswered
      | cons entry before =>
        obtain ⟨rfl, hrest⟩ := List.cons.inj hlog
        show Answered Q fails (before.foldl Call.leavesOpen (Call.leavesOpen g.isOpen _)) call answer
        rw [← hopen]
        refine ih (fun d other hmem hstore => ?_) hg' hs hrest
        refine hrequests d other (List.mem_cons_of_mem _ hmem) (List.mem_cons_of_mem _ ?_)
        rwa [hmove]

end Cursor

/-! ## No source below is used while it is closed -/

/-- The storage never says what only a cursor says: that it is not open, or that it has no more rows. -/
theorem Storage.Failed.ne_of_cursor {catalog : Catalog} {s : Storage} {e e' : Error}
    (h : Failed catalog s e) (hcursor : e' = .notOpen ∨ e' = .noMoreRows) : e ≠ e' := by
  rintro rfl
  rcases h with hplain | ⟨s', victim, cause, -, -, he⟩
  · rcases hcursor with rfl | rfl <;> cases hplain
  · rcases hcursor with rfl | rfl <;> cases he

namespace Aggregation

variable {a : Aggregation} {row : Row} {groups : Groups} {e : Error}

theorem isPlain_add (h : a.add row groups = .error e) : e.isPlain = true := by
  unfold add key value at h
  simp only [bind, Except.bind] at h
  split at h
  · -- the group of the row cannot be told
    rename_i hkey
    cases h
    split at hkey
    · cases hkey
    · split at hkey <;> cases hkey
      rfl
  · split at h
    · rename_i hvalue
      cases h
      split at hvalue <;> cases hvalue
      rfl
    · cases h

theorem isPlain_groupRow {group : Option Value × Tally} (h : a.groupRow group = .error e) :
    e.isPlain = true := by
  unfold groupRow inRange Row.ofValues at h
  simp only [bind, Except.bind] at h
  split at h
  · rename_i hrange
    cases h
    split at hrange <;> cases hrange
    rfl
  · split at h
    · cases h
      rfl
    · split at h <;> cases h
      rfl

theorem isPlain_groupRows (h : a.groupRows groups = .error e) : e.isPlain = true := by
  induction groups with
  | nil => cases h
  | cons group groups ih =>
    unfold groupRows at h
    simp only [bind, Except.bind] at h
    split at h
    · rename_i hrow
      cases h
      exact isPlain_groupRow hrow
    · split at h
      · rename_i hrows
        cases h
        exact ih hrows
      · cases h

end Aggregation

/-- A plain error does not say that a cursor is not open. -/
theorem Error.ne_notOpen_of_isPlain {e : Error} (h : e.isPlain = true) : e ≠ .notOpen := by
  rintro rfl
  cases h

/-- The sources of a plan keep whatever all steps of the storage keep, and none of them is used while it
    is closed. -/
theorem Plan.safe_steps (plan : Plan) :
    ∃ ready, ∀ (catalog : Catalog) (W : Storage → Prop), (∀ {s}, W s → s.pool.Sound) →
      (∀ {s s'}, W s → Steps catalog (fun _ => True) s s' → W s') →
      Safe catalog W (fun _ => True) (· ≠ .notOpen) plan.source ready := by
  induction plan with
  | rows schema given => exact ⟨_, fun catalog W _ _ => safe_ofRows schema fun _ _ => trivial⟩
  | scan table schema =>
    refine ⟨_, fun catalog W hsound hkeeps => safe_ofTable schema ?_ ?_⟩
    · intro e he
      exact Error.ne_notOpen_of_isPlain (Catalog.isPlain_file he)
    · intro n s r s' hs hget
      have hquiet : Quiet catalog s s' := getPage_steps (hsound hs) hget
      refine ⟨hkeeps hs hquiet.steps, fun _ _ _ _ => trivial, ?_⟩
      rintro e rfl
      exact (failed_getPage (hsound hs) hget).ne_of_cursor (Or.inl rfl)
  | filter condition child ih =>
    obtain ⟨ready, hchild⟩ := ih
    exact ⟨_, fun catalog W hsound hkeeps =>
      safe_filter condition (hchild catalog W hsound hkeeps).guard⟩
  | join condition outer inner ihouter ihinner =>
    obtain ⟨readyOuter, houter⟩ := ihouter
    obtain ⟨readyInner, hinner⟩ := ihinner
    exact ⟨_, fun catalog W hsound hkeeps => safe_join (houter catalog W hsound hkeeps).guard
      (hinner catalog W hsound hkeeps).guard fun _ _ => trivial⟩
  | aggregate aggregation child ih =>
    obtain ⟨ready, hchild⟩ := ih
    let keyed : Groups → Prop := fun _ => True
    refine ⟨_, fun catalog W hsound hkeeps => safe_aggregate (hchild catalog W hsound hkeeps).guard
      (show keyed [] from trivial) ?_ ?_⟩
    · intro row groups _ _
      exact ⟨fun _ _ => trivial, fun e he =>
        Error.ne_notOpen_of_isPlain (Aggregation.isPlain_add he)⟩
    · intro groups _
      exact ⟨fun _ _ _ _ => trivial, fun e he =>
        Error.ne_notOpen_of_isPlain (Aggregation.isPlain_groupRows he)⟩
  | insert tid table child ih =>
    obtain ⟨ready, hchild⟩ := ih
    refine ⟨_, fun catalog W hsound hkeeps => safe_write (hchild catalog W hsound hkeeps).guard ?_
      fun _ => trivial⟩
    intro row s r s' _ hs h
    have hstore : storeRow tid table catalog row s = (r, s') := h
    cases r with
    | ok =>
      obtain ⟨row', hins⟩ := insertRow_of_storeRow hstore
      exact ⟨hkeeps hs ((insertRow_steps (hsound hs) hins).mono fun _ _ => trivial), nofun⟩
    | error e =>
      have hins := insertRow_of_not_stored hstore
      refine ⟨hkeeps hs ((insertRow_steps (hsound hs) hins).mono fun _ _ => trivial), ?_⟩
      rintro _ ⟨⟩
      exact (failed_insertRow (hsound hs) hins).ne_of_cursor (Or.inl rfl)
  | delete tid child ih =>
    obtain ⟨ready, hchild⟩ := ih
    refine ⟨_, fun catalog W hsound hkeeps => safe_write (hchild catalog W hsound hkeeps).guard ?_
      fun _ => trivial⟩
    intro row s r s' _ hs h
    refine ⟨hkeeps hs (deleteRow_steps (hsound hs) (fun _ _ => trivial) h), ?_⟩
    rintro e rfl
    exact (failed_deleteRow (hsound hs) h).ne_of_cursor (Or.inl rfl)

/-- **No source below a plan is used while it is closed**, whatever the plan is and whatever failed
    before. -/
theorem Plan.safe_flags (plan : Plan) :
    ∃ ready, ∀ catalog, Safe catalog (·.pool.Sound) (fun _ => True) (· ≠ .notOpen) plan.source ready := by
  obtain ⟨ready, hsafe⟩ := plan.safe_steps
  exact ⟨ready, fun catalog => hsafe catalog (·.pool.Sound) id fun hs hsteps => hsteps.sound hs⟩

/-! ## When a cursor is refused -/

namespace Cursor

/-- **A cursor is refused exactly when it is closed.**  In every run from a store that was opened and
    asked, a call that needs an open cursor says that it is not open exactly if no start has succeeded
    since the cursor was made or closed; no other call ever says so.  A start or a rewind that failed
    makes no difference: a cursor that was closed stays closed until a later start succeeds, and a
    cursor that was open stays open. -/
theorem notOpen_iff_closed {files files' : Files} {directory : String} {config : Config}
    {new db : Database} (hopen : Database.create files directory config = (.ok new, files'))
    {requests : List Request} (hreach : new.after requests = db) (plan : Plan) {moves : List Move}
    {before after : List (Call × Except Error Reply)} {call : Call} {answer : Except Error Reply}
    (hlog : (Cursor.ofPlan plan).log db moves = before ++ (call, answer) :: after) :
    answer = .error .notOpen ↔ call.needsOpen = true ∧ Call.openAfter before = false := by
  subst hreach
  obtain ⟨ready, hsafe⟩ := plan.safe_flags
  have hs : (new.after requests).storage.pool.Sound := (Database.sound_of_create hopen requests).1
  let agrees : Database → Prop := fun d => d.storage.pool.Sound
  have hsource : ∀ d, agrees d → Safe d.catalog (fun s => agrees { d with storage := s })
      (fun _ => True) (· ≠ .notOpen) plan.source ready := fun d _ => hsafe d.catalog
  have hanswered : Answered (fun _ => True) (· ≠ .notOpen) (Call.openAfter before) call answer := by
    refine answered_of_safe hsource ?_ ?_ hs hlog
    · exact fun d request _ _ hd => (Database.perform_steps hd request).sound hd
    · exact fun hnever => absurd hnever Bool.false_ne_true
  constructor
  · rintro rfl
    cases hanswered with
    | refused hclosed hneeds => exact ⟨hneeds, hclosed⟩
    | failed _ he => exact absurd rfl he
  · rintro ⟨hneeds, hclosed⟩
    -- everything else is only answered by an open cursor
    cases hanswered with
    | refused _ _ => rfl
    | failed hready _ | done hready => exact absurd (hready hneeds) (by simp [hclosed])
    | ended hopen | row hopen _ | more hopen => exact absurd hopen (by simp [hclosed])

/-- A plan that deletes is started three times: before its table is known again, while it is known, and
    after it was forgotten.  It is refused after the first start and after the close, and not between
    them. -/
theorem notOpen_iff_closed_of_deletion :
    let schema := Schema.single "n" .int
    let t := tableIdOf ["d", "t.dat"]
    let requests : List Request :=
      [.task (.createTable "t" schema), .task (.insertRow ⟨0⟩ t ⟨schema, [.int 1], none⟩),
       .clearCatalog]
    let plan := Plan.delete ⟨0⟩ (.scan t schema)
    let moves : List Move :=
      [.call .start, .call .rewind, .request (.task (.createTable "t" schema)), .call .start,
       .request .clearCatalog, .call .start, .call .next, .call .close, .call .next]
    let unknown : Except Error Reply := .error (.missing (.table t))
    let early : List (Call × Except Error Reply) := [(.start, unknown)]
    let late : List (Call × Except Error Reply) :=
      early ++ [(.rewind, .error .notOpen), (.start, .ok .done), (.start, unknown)]
    let last : List (Call × Except Error Reply) :=
      late ++ [(.next, .ok (.row (Plan.countRow 1))), (.close, .ok .done)]
    ∃ new files', Database.create Files.empty "/d" ⟨64, 2⟩ = (.ok new, files') ∧
      (Cursor.ofPlan plan).log (new.after requests) moves = last ++ [(.next, .error .notOpen)] ∧
      Call.openAfter early = false ∧ Call.openAfter late ≠ false ∧ Call.openAfter last = false := by
  intro schema t requests plan moves unknown early late last
  let new : Database := ⟨"/d", ⟨64, 2⟩, Catalog.empty, ⟨⟨[], [["d"]], []⟩, Pool.empty ⟨64, 2⟩⟩⟩
  have hopen : Database.create Files.empty "/d" ⟨64, 2⟩ = (.ok new, ⟨[], [["d"]], []⟩) := rfl
  have hlog : (Cursor.ofPlan plan).log (new.after requests) moves =
      last ++ [(.next, .error .notOpen)] := by decide +kernel
  have hearly : (Cursor.ofPlan plan).log (new.after requests) moves =
      early ++ (.rewind, .error .notOpen) :: (last.drop 2 ++ [(.next, .error .notOpen)]) := hlog
  have hlate : (Cursor.ofPlan plan).log (new.after requests) moves =
      late ++ (.next, .ok (.row (Plan.countRow 1))) ::
        [(.close, .ok .done), (.next, .error .notOpen)] := hlog
  refine ⟨new, _, hopen, hlog, ?_, ?_, ?_⟩
  · exact ((notOpen_iff_closed hopen rfl plan hearly).mp rfl).2
  · intro hclosed
    cases (notOpen_iff_closed hopen rfl plan hlate).mpr ⟨rfl, hclosed⟩
  · exact ((notOpen_iff_closed hopen rfl plan hlog).mp rfl).2

/-- **After a failure.**  A table is forgotten while it is scanned and while its rows were deleted by a
    plan.  Neither can be started again then, and yet the plan still gives the number of rows that it
    deleted, and the scan a row that was looked at before; after a rewind that failed the scan says
    that there is no row. -/
theorem given_after_failure :
    let schema := Schema.single "n" .int
    let t := tableIdOf ["d", "t.dat"]
    let requests : List Request :=
      [.task (.createTable "t" schema), .task (.insertRow ⟨0⟩ t ⟨schema, [.int 1], none⟩)]
    let scan := Plan.scan t schema
    let row : Row := ⟨schema, [.int 1], some ⟨⟨t, 0⟩, 0⟩⟩
    let unknown : Except Error Reply := .error (.missing (.table t))
    ∃ new files', Database.create Files.empty "/d" ⟨64, 2⟩ = (.ok new, files') ∧
      (Cursor.ofPlan (.delete ⟨0⟩ scan)).answers (new.after requests)
          [.call .start, .request .clearCatalog, .call .start, .call .next] =
        [.ok .done, unknown, .ok (.row (Plan.countRow 1))] ∧
      (Cursor.ofPlan scan).answers (new.after requests)
          [.call .start, .call .hasNext, .request .clearCatalog, .call .start, .call .next] =
        [.ok .done, .ok (.more true), unknown, .ok (.row row)] ∧
      (Cursor.ofPlan scan).answers (new.after requests)
          [.call .start, .request .clearCatalog, .call .rewind, .call .hasNext] =
        [.ok .done, unknown, .ok (.more false)] := by
  intro schema t requests scan row unknown
  exact ⟨⟨"/d", ⟨64, 2⟩, Catalog.empty, ⟨⟨[], [["d"]], []⟩, Pool.empty ⟨64, 2⟩⟩⟩, _, rfl,
    by decide +kernel, by decide +kernel, by decide +kernel⟩

end Cursor

end RowStore
