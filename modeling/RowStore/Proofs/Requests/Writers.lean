import RowStore.Proofs.Requests.Known

/-!
Who changed a page last.

Program.  A page that takes a row, or loses one, is marked as changed by the transaction that did it.  The
mark goes when the page is written.  Other requests bring pages in, let them leave and write them back
meanwhile.

1. `Request.wrote` is the page in which a request stored or deleted a row, with the transaction, as the
   answer tells.
2. `Storage.Marks` says what a request does to the marks: it marks the page that it wrote, and every other
   page that is marked afterwards was marked before in the same way (`Database.perform_marks`).
3. So a page in memory that is marked was changed last by the transaction that its mark names, and has been
   in memory, and marked, ever since (`Database.ChangedLast`, `Database.changedLast_iff`).

Crux.  A page that comes in has no mark, and a mark is taken away only when the page is written.  So nothing
has to be said about which pages were written, or left, on the way.
-/

namespace RowStore

open Storage

/-! ## Marks -/

/-- What an operation does to pages that are marked as changed. -/
structure Storage.Marks (wrote : Option (PageId × TransactionId)) (s s' : Storage) : Prop where
  /-- The page that was written is marked. -/
  new : ∀ {id tid}, wrote = some (id, tid) →
    ∃ frame, s'.pool.find? id = some frame ∧ frame.page.dirty = true ∧ frame.page.dirtiedBy = some tid
  /-- All others that are marked were so before. -/
  old : ∀ {id frame}, s'.pool.find? id = some frame → frame.page.dirty = true →
    (∀ tid, wrote ≠ some (id, tid)) → ∃ old, s.pool.find? id = some old ∧ old.page = frame.page

namespace Storage.Marks

variable {wrote : Option (PageId × TransactionId)} {catalog : Catalog} {may : Effect → Prop}
  {tid : TransactionId} {id : PageId} {frame : Frame} {s s₁ s₂ s' : Storage}

theorem refl : Marks none s s := ⟨nofun, fun hfind _ _ => ⟨_, hfind, rfl⟩⟩

/-- What is in memory stays, or leaves. -/
theorem of_find? (hold : ∀ {id frame}, s'.pool.find? id = some frame → s.pool.find? id = some frame) :
    Marks none s s' :=
  ⟨nofun, fun hfind _ _ => ⟨_, hold hfind, rfl⟩⟩

theorem trans (h₁ : Marks none s s₁) (h₂ : Marks wrote s₁ s₂) : Marks wrote s s₂ := by
  refine ⟨h₂.new, fun hfind hdirty hno => ?_⟩
  obtain ⟨f, hf, hpage⟩ := h₂.old hfind hdirty hno
  obtain ⟨old, hold, hsame⟩ := h₁.old hf (hpage ▸ hdirty) nofun
  exact ⟨old, hold, hsame.trans hpage⟩

/-- A step that writes no table marks nothing. -/
theorem of_step (hno : ∀ table, ¬ may (.write table)) (hs : s.pool.Sound)
    (hstep : Step catalog may s s') : Marks none s s' := by
  refine ⟨nofun, fun hfind hdirty _ => ?_⟩
  cases hstep.origin hs hfind with
  | kept hold hpage =>
    rcases hpage with hpage | hpage
    · exact ⟨_, hold, hpage.symm⟩
    · rw [hpage] at hdirty
      cases hdirty
  | changed hmay => exact absurd hmay (hno _)
  | loaded _ hread =>
    -- what was just read is as it is in the file
    rw [clean_of_readPage hread] at hdirty
    cases hdirty

theorem of_steps (hno : ∀ table, ¬ may (.write table)) (hs : s.pool.Sound)
    (hsteps : Steps catalog may s s') : Marks none s s' := by
  induction hsteps with
  | refl => exact .refl
  | tail hbefore hstep ih => exact ih.trans (of_step hno (Steps.sound hbefore hs) hstep)

/-- A page that is put last in the queue keeps its mark. -/
theorem requeue (h : Marks wrote s s₁) (hfind : s₁.pool.find? id = some frame) :
    Marks wrote s { s₁ with pool := s₁.pool.putFrame id frame } := by
  have hview : ∀ x, (s₁.pool.putFrame id frame).find? x = s₁.pool.find? x := fun x => by
    rw [Pool.find?_putFrame]
    split
    · rename_i hx
      rw [hx, hfind]
    · rfl
  refine ⟨fun hw => ?_, fun hf => h.old (hview _ ▸ hf)⟩
  obtain ⟨f, hf, hmark⟩ := h.new hw
  exact ⟨f, (hview _).trans hf, hmark⟩

/-- A page that is changed is marked. -/
theorem of_change (hs : s.pool.Sound) (hfind : s.pool.find? id = some frame) (page : Page) :
    Marks (some (id, tid)) s (HeapFile.change tid frame page s).2 := by
  refine ⟨fun hw => ?_, fun {x f} hf _ hno => ?_⟩
  · cases hw
    exact ⟨_, by rw [HeapFile.find?_change hs hfind, if_pos rfl], rfl, rfl⟩
  · have hne : x ≠ id := fun hx => hno tid (hx ▸ rfl)
    rw [HeapFile.find?_change hs hfind, if_neg hne] at hf
    exact ⟨f, hf, rfl⟩

end Storage.Marks

/-! ## Storing and deleting -/

/-- The page that took a row, with the transaction that stored it. -/
def Row.home (tid : TransactionId) (row : Row) : Option (PageId × TransactionId) :=
  row.place.map fun place => (place.page, tid)

namespace HeapFile

variable {h : HeapFile} {catalog : Catalog} {tid : TransactionId} {row : Row} {s s' : Storage}

theorem marks_of_insertInto (hs : s.pool.Sound) {id : PageId} {frame : Frame}
    {r : Except Error (Row × Frame)} (hfind : s.pool.find? id = some frame)
    (hinto : insertInto tid row frame s = (r, s')) :
    (∀ e, r = .error e → Marks none s s') ∧
      ∀ stored frame', r = .ok (stored, frame') → Marks (stored.home tid) s s' := by
  obtain ⟨e, -, rfl, rfl⟩ | ⟨stored, page, hins, rfl, rfl⟩ := insertInto_cases hinto
  · exact ⟨fun _ _ => .refl, nofun⟩
  · refine ⟨nofun, fun _ _ hr => ?_⟩
    cases hr
    have hplace : stored.home tid = some (id, tid) := by
      rw [← hs.own_id hfind]
      unfold Page.insert at hins
      split at hins
      · cases hins
      · split at hins
        · cases hins
        · simp only [bind, Except.bind] at hins
          split at hins <;> cases hins
          rfl
    rw [hplace]
    exact .of_change hs hfind page

/-- Storing a row marks the page that took it. -/
theorem Inserted.marks (hs : s.pool.Sound) {r : Except Error (Row × Frame)}
    (hins : h.Inserted catalog tid row s r s') :
    (∀ e, r = .error e → Marks none s s') ∧
      ∀ stored frame, r = .ok (stored, frame) → Marks (stored.home tid) s s' := by
  have hcalm : ∀ {s s'}, s.pool.Sound → Quiet catalog s s' → Marks none s s' :=
    fun hs hquiet => .of_steps (fun _ => not_false) hs hquiet
  have hgrown : ∀ {s₁ s₂ : Storage} {r : Except Error PageId}, h.grow s₁ = (r, s₂) →
      Marks none s₁ s₂ ∧ (s₁.pool.Sound → s₂.pool.Sound) := by
    intro s₁ s₂ r hgrow
    obtain ⟨e, -, -, rfl⟩ | ⟨page, files, -, -, -, rfl⟩ := grow_cases hgrow
    · exact ⟨.refl, fun hs => hs⟩
    · exact ⟨.of_find? fun hf => hf, fun hs => hs⟩
  cases hins with
  | otherTypes => exact ⟨fun _ _ => .refl, nofun⟩
  | unread _ hquiet hget =>
    exact ⟨fun _ _ => hcalm hs (hquiet.trans (getPage_steps (hquiet.sound hs) hget)), nofun⟩
  | old _ _ _ hquiet hfind _ hinto =>
    obtain ⟨herror, hok⟩ := marks_of_insertInto (hquiet.sound hs) hfind hinto
    have hbefore := hcalm hs hquiet
    exact ⟨fun e he => hbefore.trans (herror e he), fun stored frame hr => hbefore.trans (hok stored frame hr)⟩
  | ungrown hquiet hgrow => exact ⟨fun _ _ => (hcalm hs hquiet).trans (hgrown hgrow).1, nofun⟩
  | newUnread _ hquiet hgrow hget =>
    obtain ⟨hsame, hsound⟩ := hgrown hgrow
    have hs₂ := hsound (hquiet.sound hs)
    exact ⟨fun _ _ => ((hcalm hs hquiet).trans hsame).trans (hcalm hs₂ (getPage_steps hs₂ hget)), nofun⟩
  | new _ _ hquiet hgrow hget hinto =>
    obtain ⟨hsame, hsound⟩ := hgrown hgrow
    have hs₂ := hsound (hquiet.sound hs)
    have hfound : Quiet catalog _ _ := getPage_steps hs₂ hget
    obtain ⟨herror, hok⟩ := marks_of_insertInto (hfound.sound hs₂) (find?_of_getPage hs₂ hget) hinto
    have hbefore := ((hcalm hs hquiet).trans hsame).trans (hcalm hs₂ hfound)
    exact ⟨fun e he => hbefore.trans (herror e he), fun stored frame hr => hbefore.trans (hok stored frame hr)⟩

/-- Deleting a row marks the page that held it. -/
theorem Deleted.marks (hs : s.pool.Sound) {place : Option RecordId} {r : Except Error Frame}
    (hdel : h.Deleted catalog tid s place r s') :
    (∀ e, r = .error e → Marks none s s') ∧
      ∀ frame, r = .ok frame → Marks (place.map fun place => (place.page, tid)) s s' := by
  have hfound : ∀ {id : PageId} {r s₁}, s.getPage catalog id = (r, s₁) → s₁.pool.Sound ∧ Marks none s s₁ :=
    fun hget =>
      have hquiet : Quiet catalog _ _ := getPage_steps hs hget
      ⟨hquiet.sound hs, .of_steps (fun _ => not_false) hs hquiet⟩
  cases hdel with
  | noPlace | otherTable => exact ⟨fun _ _ => .refl, nofun⟩
  | unread _ hget | refused _ hget _ => exact ⟨fun _ _ => (hfound hget).2, nofun⟩
  | done _ hget _ =>
    obtain ⟨hs₁, hbefore⟩ := hfound hget
    exact ⟨nofun, fun _ _ => hbefore.trans (.of_change hs₁ (find?_of_getPage hs hget) _)⟩

end HeapFile

/-! ## Requests -/

/-- The page in which a request stored or deleted a row, and the transaction. -/
def Request.wrote (db : Database) (request : Request) : Option (PageId × TransactionId) :=
  match request, (db.perform request).1 with
  | .task (.insertRow tid _ _), .ok (.row row) => row.home tid
  | .insertInFile tid _ _, .ok (.row row) => row.home tid
  | .task (.deleteRow tid place), .ok _ => place.map fun place => (place.page, tid)
  | .deleteInFile tid _ place, .ok _ => place.map fun place => (place.page, tid)
  | _, _ => none

namespace Database

variable {db : Database} {request : Request} {id : PageId} {tid : TransactionId} {frame : Frame}

/-- A request that cannot write a table wrote none, and marks nothing. -/
theorem marks_of_effects (hdb : db.storage.pool.Sound) (hno : ∀ table, ¬ request.effects (.write table))
    (hwrote : request.wrote db = none) :
    Marks (request.wrote db) db.storage (db.perform request).2.storage :=
  hwrote ▸ .of_steps hno hdb (perform_steps hdb request)

/-- **Step lemma.**  A request marks the page that it wrote, and leaves the marks of the others. -/
theorem perform_marks (hdb : db.storage.pool.Sound) (request : Request) :
    Marks (request.wrote db) db.storage (db.perform request).2.storage := by
  cases request with
  | task asked =>
    cases asked with
    | insertRow tid table row =>
      rcases hins : db.storage.insertRow db.catalog tid table row with ⟨r, s'⟩
      have hanswer : db.perform (.task (.insertRow tid table row)) = (r.map .row, { db with storage := s' }) := by
        simp only [perform, performTask, run, Answer.of, hins]
      simp only [Request.wrote, hanswer]
      obtain ⟨e, -, rfl, rfl⟩ | ⟨h, -, ⟨e, hends, rfl⟩ | ⟨stored, frame, s₁, hends, rfl, hfind, rfl⟩⟩ :=
        insertRow_cases hdb hins
      · exact .refl
      · exact (hends.marks hdb).1 e rfl
      · exact ((hends.marks hdb).2 stored frame rfl).requeue hfind
    | deleteRow tid place =>
      rcases hdel : db.storage.deleteRow db.catalog tid place with ⟨r, s'⟩
      have hanswer : db.perform (.task (.deleteRow tid place)) =
          (r.map fun _ => .done, { db with storage := s' }) := by
        simp only [perform, performTask, run, Answer.of, hdel]
      simp only [Request.wrote, hanswer]
      obtain ⟨-, rfl, rfl⟩ | ⟨p, rfl, ⟨e, -, rfl, rfl⟩ | ⟨h, -, ⟨e, hends, rfl⟩ |
        ⟨frame, s₁, hends, rfl, hfind, rfl⟩⟩⟩ := deleteRow_cases hdb hdel
      · exact .refl
      · exact .refl
      · exact (hends.marks hdb).1 e rfl
      · exact ((hends.marks hdb).2 frame rfl).requeue hfind
    | createTable => exact marks_of_effects hdb (fun _ => Effect.noConfusion) rfl
    | getPage | flushPage | flushPages | flushAll | scan =>
      exact marks_of_effects hdb (fun _ => not_false) rfl
  | addFile | loadSchema => exact marks_of_effects hdb (fun _ => Effect.noConfusion) rfl
  | clearCatalog => exact marks_of_effects hdb (fun _ => not_false) rfl
  | discard id =>
    refine .of_find? fun {x f} hf => ?_
    have hleft : (db.storage.pool.discard id).find? x = some f := hf
    rw [Pool.find?_discard] at hleft
    split at hleft
    · cases hleft
    · exact hleft
  | insertInFile tid table row =>
    rcases hins : db.storage.insertInFile db.catalog tid table row with ⟨r, s'⟩
    have hanswer : db.perform (.insertInFile tid table row) = (r.map .row, { db with storage := s' }) := by
      simp only [perform, run, Answer.of, hins]
    simp only [Request.wrote, hanswer]
    obtain ⟨e, -, rfl, rfl⟩ | ⟨h, r₁, -, hends, rfl⟩ := insertInFile_cases hdb hins
    · exact .refl
    · cases r₁ with
      | error e => exact (hends.marks hdb).1 e rfl
      | ok placed => exact (hends.marks hdb).2 placed.1 placed.2 rfl
  | deleteInFile tid table place =>
    rcases hdel : db.storage.deleteInFile db.catalog tid table place with ⟨r, s'⟩
    have hanswer : db.perform (.deleteInFile tid table place) =
        (r.map fun _ => .done, { db with storage := s' }) := by
      simp only [perform, run, Answer.of, hdel]
    simp only [Request.wrote, hanswer]
    obtain ⟨e, -, rfl, rfl⟩ | ⟨h, r₁, -, hends, rfl⟩ := deleteInFile_cases hdel
    · exact .refl
    · cases r₁ with
      | error e => exact (hends.marks hdb).1 e rfl
      | ok frame => exact (hends.marks hdb).2 frame rfl

/-! ## The last change of a page -/

/-- A request stores and deletes no row in a page, and the page is in memory afterwards and marked as
    changed. -/
def Spared (id : PageId) (db : Database) (request : Request) : Prop :=
  (∀ tid, request.wrote db ≠ some (id, tid)) ∧
    ∃ frame, (db.perform request).2.storage.pool.find? id = some frame ∧ frame.page.dirty = true

/-- Transaction `tid` was the last one to store or delete a row in a page, in a request that succeeded, and
    the page has been changed in memory ever since, so it was not written since. -/
def ChangedLast (db : Database) (requests : List Request) (id : PageId) (tid : TransactionId) : Prop :=
  ∃ past request later, requests = past ++ request :: later ∧
    request.wrote (db.after past) = some (id, tid) ∧
    ((db.after past).perform request).2.Along (Spared id) later

/-- A mark in a store that is left alone is the mark after some requests. -/
theorem dirtiedBy_of_spared (hdb : db.storage.pool.Sound) {requests : List Request}
    (hspared : db.Along (Spared id) requests)
    (hmarked : ∃ frame, db.storage.pool.find? id = some frame ∧ frame.page.dirtiedBy = some tid) :
    ∃ frame, (db.after requests).storage.pool.find? id = some frame ∧
      frame.page.dirtiedBy = some tid := by
  induction requests generalizing db with
  | nil => exact hmarked
  | cons request requests ih =>
    obtain ⟨⟨hno, frame, hfind, hdirty⟩, hlater⟩ := hspared
    obtain ⟨old, hold, hsame⟩ := (perform_marks hdb request).old hfind hdirty hno
    obtain ⟨f, hf, hby⟩ := hmarked
    obtain rfl : old = f := Option.some.inj (hold.symm.trans hf)
    exact ih ((perform_steps hdb request).sound hdb) hlater ⟨frame, hfind, hsame ▸ hby⟩

theorem after_append (db : Database) (past later : List Request) :
    db.after (past ++ later) = (db.after past).after later := by
  induction past generalizing db with
  | nil => rfl
  | cons request past ih => exact ih _

theorem sound_after (hdb : db.storage.pool.Sound) (requests : List Request) :
    (db.after requests).storage.pool.Sound :=
  after_induction (P := fun db => db.storage.pool.Sound)
    (fun _ request hd => (perform_steps hd request).sound hd) hdb requests

/-- A page that is marked after some requests was changed last by one of them, or none of them changed it
    and it was marked all the time. -/
theorem changedLast_or_spared (hdb : db.storage.pool.Sound) {requests : List Request}
    (hfind : (db.after requests).storage.pool.find? id = some frame) (hdirty : frame.page.dirty = true) :
    (∃ tid, db.ChangedLast requests id tid) ∨
      (db.Along (Spared id) requests ∧
        ∃ old, db.storage.pool.find? id = some old ∧ old.page.dirty = true) := by
  induction requests generalizing db with
  | nil => exact Or.inr ⟨trivial, frame, hfind, hdirty⟩
  | cons request requests ih =>
    rcases ih ((perform_steps hdb request).sound hdb) hfind with
      ⟨tid, past, later, rest, rfl, hwrote, hspared⟩ | ⟨hspared, f, hf, hmarked⟩
    · exact Or.inl ⟨tid, request :: past, later, rest, rfl, hwrote, hspared⟩
    · by_cases hown : ∃ tid, request.wrote db = some (id, tid)
      · obtain ⟨tid, hwrote⟩ := hown
        exact Or.inl ⟨tid, [], request, requests, rfl, hwrote, hspared⟩
      · have hno : ∀ tid, request.wrote db ≠ some (id, tid) := fun tid hw => hown ⟨tid, hw⟩
        obtain ⟨old, hold, hsame⟩ := (perform_marks hdb request).old hf hmarked hno
        exact Or.inr ⟨⟨⟨hno, f, hf, hmarked⟩, hspared⟩, old, hold, hsame ▸ hmarked⟩

/-- The mark of a page names the transaction that changed it last. -/
theorem dirtiedBy_of_changedLast (hdb : db.storage.pool.Sound) {requests : List Request}
    (hlast : db.ChangedLast requests id tid) :
    ∃ frame, (db.after requests).storage.pool.find? id = some frame ∧
      frame.page.dirtiedBy = some tid := by
  obtain ⟨past, request, later, rfl, hwrote, hspared⟩ := hlast
  have hpast := sound_after hdb past
  obtain ⟨frame, hfind, -, hby⟩ := (perform_marks hpast request).new hwrote
  rw [after_append]
  exact dirtiedBy_of_spared ((perform_steps hpast request).sound hpast) hspared ⟨frame, hfind, hby⟩

/-- **The mark of a page** that is changed in memory names exactly the transaction that was the last to
    store or delete a row in it since it was written. -/
theorem changedLast_iff {files files' : Files} {directory : String} {config : Config}
    (hopen : create files directory config = (.ok db, files')) {requests : List Request}
    (hfind : (db.after requests).storage.pool.find? id = some frame) (hdirty : frame.page.dirty = true) :
    db.ChangedLast requests id tid ↔ frame.page.dirtiedBy = some tid := by
  have hdb : db.storage.pool.Sound := (sound_of_create hopen []).1
  have hmark : ∀ {tid}, db.ChangedLast requests id tid → frame.page.dirtiedBy = some tid := by
    intro tid hlast
    obtain ⟨f, hf, hby⟩ := dirtiedBy_of_changedLast hdb hlast
    obtain rfl : frame = f := Option.some.inj (hfind.symm.trans hf)
    exact hby
  refine ⟨hmark, fun hby => ?_⟩
  rcases changedLast_or_spared hdb hfind hdirty with ⟨other, hlast⟩ | ⟨-, old, hold, -⟩
  · obtain rfl : other = tid := Option.some.inj ((hmark hlast).symm.trans hby)
    exact hlast
  · -- no page is in memory when a store is opened
    obtain ⟨-, -, -, rfl⟩ := create_cases hopen
    cases hold

end Database

end RowStore
