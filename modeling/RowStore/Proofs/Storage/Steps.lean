import Mathlib.Logic.Relation
import RowStore.Proofs.Catalog
import RowStore.Proofs.Pool.Sound
import RowStore.Storage.Rows

/-!
What an operation on the storage can do, step by step.

Every operation is a run of steps, and there are eight kinds of them (`Storage.Step`): a request
is counted, a changed page is written, a page is loaded (and the oldest one goes to make room for
it), a page is queued again, a page is changed, a file grows by a blank page, a page is dropped,
an empty file is made.  A step carries what the operation had checked when it took it.

1. `flushPage_cases`, `makeRoom_cases` and `getPage_cases` say how the parts of an operation can
   end, and why.
2. `getPage_steps`, `insertRow_steps`, `deleteRow_steps`, … find the run of an operation.  They
   name what it may do to tables and files (`Effect`), which for reading and flushing is nothing.

So what every step keeps, every operation keeps, whether it succeeds or fails.  The first such
invariant is `Pool.Sound` (`Steps.sound`).
-/

namespace RowStore

/-- A page can be written to the file of its table. -/
theorem HeapFile.writePage_of_id {h : HeapFile} {page : Page} (files : Files)
    (hid : page.id.table = h.id) :
    h.writePage files page = .ok (files.put h.path
      (putBytes (files.content h.path) (h.offset files page.id.number) page.bytes)) := by
  simp [writePage, checkTable, hid, bind, Except.bind]

theorem Page.id_of_ofBytes {id : PageId} {schema : Schema} {bytes : Bytes} {pageSize : Nat}
    {page : Page} (h : Page.ofBytes id schema bytes pageSize = .ok page) : page.id = id := by
  unfold ofBytes at h
  split at h
  · cases h
  · split at h
    · cases h
      rfl
    · cases h

/-- What a step can do to tables and files. -/
inductive Effect where
  /-- Changes what a table holds. -/
  | write (table : TableId)
  /-- Makes a file. -/
  | make

namespace Storage

variable {catalog : Catalog} {may : Effect → Prop} {id : PageId} {s s' : Storage}

/-! ## Steps -/

/-- One step of an operation that may have the effects of `may`. -/
inductive Step (catalog : Catalog) (may : Effect → Prop) : Storage → Storage → Prop where
  /-- A request is counted. -/
  | count {s : Storage} {hits misses : Nat} :
    Step catalog may s { s with pool := { s.pool with hits := hits, misses := misses } }
  /-- A changed page is written to the file of its table. -/
  | flush {s : Storage} {id : PageId} {frame : Frame} {h : HeapFile} {files : Files}
    (hfind : s.pool.find? id = some frame) (hdirty : frame.page.dirty = true)
    (hfile : catalog.file frame.page.id.table = .ok h)
    (hwrite : h.writePage s.files frame.page = .ok files) :
    Step catalog may s ⟨files, s.pool.update { frame with page := frame.page.clean }⟩
  /-- A page that is not in memory is read, and then room is made for it. -/
  | load {s s' : Storage} {id : PageId} {page : Page} (hnone : s.pool.find? id = none)
    (hread : s.readPage catalog id = .ok page) (hroom : makeRoom catalog s = (.ok (), s')) :
    Step catalog may s { s' with pool := (s'.pool.accept id page).2 }
  /-- A page in memory is put last in the queue. -/
  | requeue {s : Storage} {id : PageId} {frame : Frame}
    (hfind : s.pool.find? id = some frame) :
    Step catalog may s { s with pool := s.pool.putFrame id frame }
  /-- A page in memory is changed. -/
  | change {s : Storage} {id : PageId} {frame : Frame} {page : Page} {tid : TransactionId}
    (hmay : may (.write id.table)) (hfind : s.pool.find? id = some frame)
    (hid : page.id = frame.page.id) (hschema : page.schema = frame.page.schema)
    (hsize : page.bytes.size = frame.page.bytes.size) :
    Step catalog may s (HeapFile.change tid frame page s).2
  /-- The file of a table becomes a blank page longer. -/
  | grow {s : Storage} {h : HeapFile} {page : Page} {files : Files} (hmay : may (.write h.id))
    (hfile : catalog.file h.id = .ok h)
    (hblank : Page.blank ⟨h.id, h.numPages s.files⟩ h.schema h.pageSize = .ok page)
    (hwrite : h.writePage s.files page = .ok files) :
    Step catalog may s { s with files := files }
  /-- A page is dropped from memory. -/
  | discard {s : Storage} {id : PageId} (hmay : may (.write id.table)) :
    Step catalog may s { s with pool := s.pool.discard id }
  /-- An empty file is made. -/
  | create {s : Storage} {path : Path} (hmay : may .make)
    (habsent : s.files.content? path = none) :
    Step catalog may s { s with files := s.files.put path #[] }

/-- A run of steps. -/
abbrev Steps (catalog : Catalog) (may : Effect → Prop) : Storage → Storage → Prop :=
  Relation.ReflTransGen (Step catalog may)

theorem Steps.mono {may' : Effect → Prop} (hsub : ∀ e, may e → may' e)
    (h : Steps catalog may s s') : Steps catalog may' s s' := by
  refine Relation.ReflTransGen.mono ?_ _ _ h
  intro a b hab
  cases hab with
  | count => exact .count
  | flush hfind hdirty hfile hwrite => exact .flush hfind hdirty hfile hwrite
  | load hnone hread hroom => exact .load hnone hread hroom
  | requeue hfind => exact .requeue hfind
  | change hmay hfind hid hschema hsize => exact .change (hsub _ hmay) hfind hid hschema hsize
  | grow hmay hfile hblank hwrite => exact .grow (hsub _ hmay) hfile hblank hwrite
  | discard hmay => exact .discard (hsub _ hmay)
  | create hmay habsent => exact .create (hsub _ hmay) habsent

/-! ## How the parts of an operation end -/

/-- A page is written, or there is nothing to write, or its table is not there. -/
theorem flushPage_cases {r : Except Error Unit} (h : flushPage catalog id s = (r, s')) :
    (r = .ok () ∧ s' = s ∧ ∀ frame, s.pool.find? id = some frame → frame.page.dirty = false) ∨
    (∃ frame, s.pool.find? id = some frame ∧ frame.page.dirty = true ∧
      ((∃ e, catalog.file frame.page.id.table = .error e ∧ r = .error e ∧ s' = s) ∨
       (∃ file files, catalog.file frame.page.id.table = .ok file ∧
          file.writePage s.files frame.page = .ok files ∧ r = .ok () ∧
          s' = ⟨files, s.pool.update { frame with page := frame.page.clean }⟩))) := by
  unfold flushPage at h
  cases hfind : s.pool.find? id with
  | none =>
    rw [hfind] at h
    cases h
    exact Or.inl ⟨rfl, rfl, fun frame hf => by cases hf⟩
  | some frame =>
    rw [hfind] at h
    simp only [flushFrame] at h
    by_cases hdirty : frame.page.dirty = true
    · refine Or.inr ⟨frame, rfl, hdirty, ?_⟩
      rw [if_pos hdirty] at h
      cases hfile : catalog.file frame.page.id.table with
      | error e =>
        rw [hfile] at h
        cases h
        exact Or.inl ⟨e, rfl, rfl, rfl⟩
      | ok file =>
        have hwrite := HeapFile.writePage_of_id s.files (Catalog.id_of_file hfile).symm
        rw [hfile] at h
        simp only [hwrite] at h
        cases h
        exact Or.inr ⟨file, _, rfl, hwrite, rfl, rfl⟩
    · rw [if_neg hdirty] at h
      cases h
      refine Or.inl ⟨rfl, rfl, fun f hf => ?_⟩
      cases hf
      exact Bool.eq_false_iff.mpr hdirty

theorem flushPage_steps {r : Except Error Unit} (h : flushPage catalog id s = (r, s')) :
    Steps catalog may s s' := by
  obtain ⟨-, rfl, -⟩ | ⟨frame, hfind, hdirty, ⟨e, -, -, rfl⟩ |
    ⟨file, files, hfile, hwrite, -, rfl⟩⟩ := flushPage_cases h
  · exact .refl
  · exact .refl
  · exact .single (.flush hfind hdirty hfile hwrite)

theorem flushEach_steps {ids : List PageId} {r : Except Error Unit}
    (h : flushEach catalog ids s = (r, s')) : Steps catalog may s s' := by
  induction ids generalizing s with
  | nil =>
    cases h
    exact .refl
  | cons id ids ih =>
    unfold flushEach at h
    split at h
    · rename_i e t hflush
      cases h
      exact flushPage_steps hflush
    · rename_i t hflush
      exact (flushPage_steps hflush).trans (ih h)

/-- Writing one page keeps the pages that are in memory, their order and their number. -/
theorem flushPage_keeps {r : Except Error Unit} (h : flushPage catalog id s = (r, s')) :
    Assoc.keys s'.pool.resident = Assoc.keys s.pool.resident ∧ s'.pool.queue = s.pool.queue ∧
      s'.pool.capacity = s.pool.capacity := by
  obtain ⟨-, rfl, -⟩ | ⟨frame, -, -, ⟨e, -, -, rfl⟩ | ⟨file, files, -, -, -, rfl⟩⟩ :=
    flushPage_cases h
  · exact ⟨rfl, rfl, rfl⟩
  · exact ⟨rfl, rfl, rfl⟩
  · exact ⟨Assoc.keys_map _ s.pool.resident, rfl, rfl⟩

/-- Writing one page keeps pool and queue in agreement. -/
theorem sound_of_flushPage (hs : s.pool.Sound) {r : Except Error Unit}
    (h : flushPage catalog id s = (r, s')) : s'.pool.Sound := by
  obtain ⟨-, rfl, -⟩ | ⟨frame, hfind, -, ⟨e, -, -, rfl⟩ | ⟨file, files, -, -, -, rfl⟩⟩ :=
    flushPage_cases h
  · exact hs
  · exact hs
  · exact hs.update hfind rfl (show frame.page.id = id from hs.own_id hfind)

/-- The search for a page that can leave is over when there is room. -/
theorem evictFrom_of_hasRoom (hroom : s.pool.hasRoom = true) (ids : List PageId) :
    evictFrom catalog ids s = (.ok (), s) := by
  cases ids <;> simp only [evictFrom, if_pos hroom]

/-- One way that room can be made: there is enough, or the oldest page goes, which is in memory
    and is written first if it was changed.  Only a page whose table is not there cannot go. -/
theorem makeRoom_cases (hs : s.pool.Sound) {r : Except Error Unit}
    (h : makeRoom catalog s = (r, s')) :
    (s.pool.hasRoom = true ∧ r = .ok () ∧ s' = s) ∨
    (s.pool.hasRoom = false ∧ ∃ victim rest frame, s.pool.queue = victim :: rest ∧
      s.pool.find? victim = some frame ∧
      ((∃ e, frame.page.dirty = true ∧ catalog.file victim.table = .error e ∧
          r = .error (.eviction victim e) ∧ s' = s) ∨
       (∃ s₁, flushPage catalog victim s = (.ok (), s₁) ∧ r = .ok () ∧
          s'.pool.hasRoom = true ∧
          s' = { s₁ with pool := { s₁.pool.release victim with queue := rest } }))) := by
  unfold makeRoom at h
  by_cases hroom : s.pool.hasRoom = true
  · rw [evictFrom_of_hasRoom hroom] at h
    cases h
    exact Or.inl ⟨hroom, rfl, rfl⟩
  have hfull : s.pool.hasRoom = false := Bool.eq_false_iff.mpr hroom
  obtain ⟨victim, rest, frame, hqueue, hfind⟩ := hs.exists_oldest hfull
  refine Or.inr ⟨hfull, victim, rest, frame, hqueue, hfind, ?_⟩
  rw [hqueue, evictFrom, if_neg hroom] at h
  rcases hflush : flushPage catalog victim s with ⟨result, s₁⟩
  rw [hflush] at h
  cases result with
  | error cause =>
    cases h
    obtain ⟨hok, -, -⟩ | ⟨f, hf, hdirty, ⟨e, hfile, hcause, rfl⟩ | ⟨-, -, -, -, hok, -⟩⟩ :=
      flushPage_cases hflush
    · cases hok
    · cases hcause
      cases hfind.symm.trans hf
      rw [hs.own_id hfind] at hfile
      exact Or.inl ⟨cause, hdirty, hfile, rfl, rfl⟩
    · cases hok
  | ok =>
    -- the page that was written is still in memory, so one page less makes enough room
    obtain ⟨frame₁, hfind₁⟩ : ∃ frame₁, s₁.pool.find? victim = some frame₁ := by
      rw [← Pool.mem_keys_iff_find?, (flushPage_keeps hflush).1, Pool.mem_keys_iff_find?]
      exact ⟨frame, hfind⟩
    have hnow := (sound_of_flushPage hs hflush).hasRoom_release hfind₁ rest
    simp only at h
    rw [evictFrom_of_hasRoom hnow] at h
    cases h
    exact Or.inr ⟨s₁, rfl, rfl, hnow, rfl⟩

/-! ## The pool and its queue keep agreeing -/

theorem sound_of_makeRoom (hs : s.pool.Sound) {r : Except Error Unit}
    (h : makeRoom catalog s = (r, s')) : s'.pool.Sound := by
  obtain ⟨-, -, rfl⟩ | ⟨-, victim, rest, frame, hqueue, -, ⟨e, -, -, -, rfl⟩ |
    ⟨s₁, hflush, -, -, rfl⟩⟩ := makeRoom_cases hs h
  · exact hs
  · exact hs
  · have hs₁ := sound_of_flushPage hs hflush
    exact hs₁.evict ((flushPage_keeps hflush).2.1.trans hqueue)

/-- Making room brings no page in. -/
theorem find?_of_makeRoom (hs : s.pool.Sound) {r : Except Error Unit}
    (h : makeRoom catalog s = (r, s')) (hnone : s.pool.find? id = none) :
    s'.pool.find? id = none := by
  obtain ⟨-, -, rfl⟩ | ⟨-, victim, rest, frame, -, -, ⟨e, -, -, -, rfl⟩ |
    ⟨s₁, hflush, -, -, rfl⟩⟩ := makeRoom_cases hs h
  · exact hnone
  · exact hnone
  · have hnone₁ : s₁.pool.find? id = none := by
      have hkey : id ∉ Assoc.keys s.pool.resident := Assoc.find?_eq_none_iff.mp hnone
      exact Assoc.find?_eq_none_iff.mpr ((flushPage_keeps hflush).1 ▸ hkey)
    show (s₁.pool.release victim).find? id = none
    rw [Pool.find?_release, hnone₁, ite_self]

theorem hasRoom_of_makeRoom (hs : s.pool.Sound) (h : makeRoom catalog s = (.ok (), s')) :
    s'.pool.hasRoom = true := by
  obtain ⟨hroom, -, rfl⟩ | ⟨-, victim, rest, frame, -, -, ⟨e, -, -, he, -⟩ |
    ⟨s₁, -, -, hroom, -⟩⟩ := makeRoom_cases hs h
  · exact hroom
  · cases he
  · exact hroom

theorem id_of_readPage {page : Page} (h : s.readPage catalog id = .ok page) : page.id = id := by
  simp only [readPage, HeapFile.readPage, HeapFile.checkTable, bind, Except.bind] at h
  split at h
  · cases h
  · split at h
    · cases h
    · split at h
      · cases h
      · exact Page.id_of_ofBytes h

/-- A page is read from the file of its table. -/
theorem file_of_readPage {page : Page} (h : s.readPage catalog id = .ok page) :
    ∃ file, catalog.file id.table = .ok file ∧ file.readPage s.files id = .ok page := by
  simp only [readPage, bind, Except.bind] at h
  split at h
  · cases h
  · rename_i file hfile
    exact ⟨file, hfile, h⟩

theorem Step.sound (h : Step catalog may s s') (hs : s.pool.Sound) : s'.pool.Sound := by
  cases h with
  | count => exact hs.count
  | @flush id frame _ _ hfind hdirty hfile hwrite =>
    exact hs.update hfind rfl (show frame.page.id = id from hs.own_id hfind)
  | load hnone hread hroom =>
    exact (sound_of_makeRoom hs hroom).accept (find?_of_makeRoom hs hroom hnone)
      (hasRoom_of_makeRoom hs hroom) (id_of_readPage hread)
  | requeue hfind => exact hs.putFrame hfind
  | change hmay hfind hid hschema hsize =>
    exact hs.update hfind rfl (hid.trans (hs.own_id hfind))
  | grow hmay hfile hblank hwrite => exact hs
  | discard hmay => exact hs.discard
  | create hmay habsent => exact hs

/-- **The step lemma, along a run.**  No operation breaks the agreement of pool and queue. -/
theorem Steps.sound (h : Steps catalog may s s') (hs : s.pool.Sound) : s'.pool.Sound := by
  induction h with
  | refl => exact hs
  | tail _ hstep ih => exact hstep.sound ih

/-! ## The capacity stays -/

theorem Step.capacity (h : Step catalog may s s') (hs : s.pool.Sound) :
    s'.pool.capacity = s.pool.capacity := by
  cases h with
  | count => rfl
  | flush hfind hdirty hfile hwrite => rfl
  | @load s₁ _ _ hnone hread hroom =>
    show s₁.pool.capacity = _
    obtain ⟨-, -, rfl⟩ | ⟨-, victim, rest, frame, -, -, ⟨e, -, -, he, -⟩ |
      ⟨s₂, hflush, -, -, rfl⟩⟩ := makeRoom_cases hs hroom
    · rfl
    · cases he
    · exact (Pool.capacity_release s₂.pool victim).trans (flushPage_keeps hflush).2.2
  | requeue hfind => rfl
  | change hmay hfind hid hschema hsize => rfl
  | grow hmay hfile hblank hwrite => rfl
  | @discard id hmay => exact Pool.capacity_discard s.pool id
  | create hmay habsent => rfl

theorem Steps.capacity (h : Steps catalog may s s') (hs : s.pool.Sound) :
    s'.pool.capacity = s.pool.capacity := by
  induction h with
  | refl => rfl
  | tail hsteps hstep ih => exact (hstep.capacity (Steps.sound hsteps hs)).trans ih

end Storage

end RowStore
