import RowStore.Proofs.Requests.Deeds

/-!
One object for a page as long as it stays in memory.

Program.  A page that comes into memory gets a frame, and whoever asks for the page gets this frame.  Storing
or deleting a row finds a page, changes its frame and gives the frame back to the pool, which takes it back
(`absorb`).  On the way other pages may come in and leave.  If the frame itself had left, taking it back would
put a second copy of the page into memory, or the only copy that was changed in the place of another one.

1. `p.object? id` is the stamp of the frame that the pool has for a page, and `p.Departed n` says that the
   frame with stamp `n` was kept by somebody when it left.
2. A step never gives a page in memory another frame (`Step.same_object`).
3. `Leads p p'`: a frame that somebody keeps is still the frame of its page, or it departed; what departed
   does not come back.  Steps do that (`Steps.leads`), and so does whatever else can happen
   (`Onward.leads`).
4. The frame in which a row was stored or deleted is in memory, and taking it back changes the queue and
   nothing else (`Absorbs`).

Crux.  Stamps are given out once.  So a frame that comes in has another stamp than all that were ever kept,
and a frame that departed is told from every frame in memory (`Parted`).
-/

namespace RowStore

open Storage

namespace Pool

variable {p q r : Pool} {id : PageId} {frame : Frame} {n : Nat}

/-! ## Objects -/

/-- The object that the pool has for a page: the stamp of its frame. -/
def object? (p : Pool) (id : PageId) : Option Nat := (p.find? id).map (·.stamp)

/-- The object was kept by somebody when it left memory. -/
def Departed (p : Pool) (n : Nat) : Prop := n ∈ p.departed.map (·.stamp)

instance (p : Pool) (n : Nat) : Decidable (p.Departed n) := inferInstanceAs (Decidable (_ ∈ _))

theorem object?_eq_some : p.object? id = some n ↔ ∃ frame, p.find? id = some frame ∧ frame.stamp = n :=
  Option.map_eq_some_iff

/-- Objects that departed were given out, and they are not in memory. -/
structure Parted (p : Pool) : Prop where
  /-- They were given out. -/
  given : ∀ n, p.Departed n → n < p.nextStamp
  /-- They are not in memory. -/
  out : ∀ n id, p.Departed n → p.object? id ≠ some n

/-- What becomes of objects on the way from one pool to another. -/
structure Leads (p p' : Pool) : Prop where
  /-- What is kept stays kept. -/
  lent : p.lent ⊆ p'.lent
  /-- An object that is kept is still that of its page, or it departed. -/
  stays : ∀ id n, p.object? id = some n → n ∈ p.lent → p'.object? id = some n ∨ p'.Departed n
  /-- What departed does not come back. -/
  gone : ∀ n, p.Departed n → p'.Departed n
  /-- And it stays out of memory. -/
  parted : p.Parted → p'.Parted

namespace Leads

theorem refl (p : Pool) : p.Leads p :=
  ⟨List.Subset.refl _, fun _ _ hn _ => Or.inl hn, fun _ hn => hn, id⟩

theorem trans (hpq : p.Leads q) (hqr : q.Leads r) : p.Leads r where
  lent := List.Subset.trans hpq.lent hqr.lent
  stays := by
    intro id n hn hlent
    rcases hpq.stays id n hn hlent with hq | hq
    · exact hqr.stays id n hq (hpq.lent hlent)
    · exact Or.inr (hqr.gone n hq)
  gone := fun n hn => hqr.gone n (hpq.gone n hn)
  parted := fun hp => hqr.parted (hpq.parted hp)

/-- Every page has the object that it had. -/
theorem of_objects (hlent : p.lent ⊆ q.lent) (hobjects : ∀ id, q.object? id = p.object? id)
    (hdeparted : ∀ n, q.Departed n ↔ p.Departed n) (hnext : q.nextStamp = p.nextStamp) : p.Leads q where
  lent := hlent
  stays := fun id _ hn _ => Or.inl ((hobjects id).trans hn)
  gone := fun n hn => (hdeparted n).mpr hn
  parted := fun hp =>
    { given := fun n hn => hnext ▸ hp.given n ((hdeparted n).mp hn)
      out := fun n id hn => hobjects id ▸ hp.out n id ((hdeparted n).mp hn) }

end Leads

/-! ## What each operation does to objects -/

theorem object?_update : (p.update frame).object? id = p.object? id := by
  rw [object?, find?_update, Option.map_map, object?]
  exact congrArg (Option.map · (p.find? id)) (funext fun old => stamp_replaceFrame frame old)

theorem object?_putFrame (hfind : p.find? id = some frame) (x : PageId) :
    (p.putFrame id frame).object? x = p.object? x := by
  rw [object?, find?_putFrame]
  split
  · rename_i hx
    rw [hx, object?, hfind]
  · rfl

theorem departed_update : (p.update frame).Departed n ↔ p.Departed n := by
  have hstamps : (p.update frame).departed.map (·.stamp) = p.departed.map (·.stamp) := by
    show (p.departed.map (replaceFrame frame)).map (·.stamp) = _
    rw [List.map_map]
    exact List.map_congr_left fun old _ => stamp_replaceFrame frame old
  rw [Departed, hstamps]
  rfl

theorem leads_update (p : Pool) (frame : Frame) : p.Leads (p.update frame) :=
  .of_objects (List.Subset.refl _) (fun _ => object?_update) (fun _ => departed_update) rfl

theorem leads_putFrame (hfind : p.find? id = some frame) : p.Leads (p.putFrame id frame) :=
  .of_objects (List.Subset.refl _) (object?_putFrame hfind) (fun _ => Iff.rfl) rfl

/-- A page that was not in memory comes in, with an object that never was. -/
theorem leads_accept (hnone : p.find? id = none) (page : Page) :
    p.Leads (p.accept id page).2 where
  lent := List.Subset.refl _
  stays := by
    intro x n hn _
    left
    rw [object?, find?_accept, if_neg, ← object?]
    · exact hn
    · rintro rfl
      rw [object?, hnone] at hn
      cases hn
  gone := fun n hn => hn
  parted := fun hparted =>
    { given := fun n hn => Nat.lt_succ_of_lt (hparted.given n hn)
      out := by
        intro n x hn
        rw [object?, find?_accept]
        split
        · -- the new object has the next stamp, and all that departed have smaller ones
          intro hnew
          have hlt : n < p.nextStamp := hparted.given n hn
          cases hnew
          exact Nat.lt_irrefl _ hlt
        · exact hparted.out n x hn }

/-- A page leaves, and so does its object, for good. -/
theorem leads_release (hp : p.Sound) (hfind : p.find? id = some frame) (queue : List PageId) :
    p.Leads { p.release id with queue := queue } := by
  have hobject : ∀ x, (p.release id).object? x = if x = id then none else p.object? x := by
    intro x
    rw [object?, find?_release]
    split <;> rfl
  have hlent : (p.release id).lent = p.lent := by simp only [release, hfind]
  have hnext : (p.release id).nextStamp = p.nextStamp := by simp only [release, hfind]
  have hdeparted : ∀ n, (p.release id).Departed n ↔
      p.Departed n ∨ (n = frame.stamp ∧ frame.stamp ∈ p.lent) := by
    intro n
    by_cases hkept : frame.stamp ∈ p.lent
    · have hlist : (p.release id).departed = frame :: p.departed := by
        simp [release, hfind, hkept]
      simp [Departed, hlist, hkept, or_comm]
    · have hlist : (p.release id).departed = p.departed := by
        simp [release, hfind, hkept]
      simp [Departed, hlist, hkept]
  constructor
  · exact hlent ▸ List.Subset.refl _
  · intro x n hn hmem
    by_cases hx : x = id
    · right
      obtain ⟨frame', hfind', rfl⟩ := object?_eq_some.mp hn
      rw [hx, hfind] at hfind'
      cases hfind'
      exact (hdeparted _).mpr (Or.inr ⟨rfl, hmem⟩)
    · left
      show (p.release id).object? x = some n
      rw [hobject, if_neg hx, hn]
  · exact fun n hn => (hdeparted n).mpr (Or.inl hn)
  · intro hparted
    constructor
    · intro n hn
      show n < (p.release id).nextStamp
      rw [hnext]
      rcases (hdeparted n).mp hn with hold | ⟨rfl, -⟩
      · exact hparted.given n hold
      · exact hp.stamp_lt hfind
    · intro n x hn
      show (p.release id).object? x ≠ some n
      rw [hobject]
      split
      · intro hnone
        cases hnone
      · rename_i hx
        rcases (hdeparted n).mp hn with hold | ⟨rfl, -⟩
        · exact hparted.out n x hold
        · -- no other page has this object
          intro hother
          obtain ⟨other, hfindOther, hstamp⟩ := object?_eq_some.mp hother
          exact hx (hp.stamp_inj hfindOther hfind hstamp)

theorem leads_discard (hp : p.Sound) (id : PageId) : p.Leads (p.discard id) := by
  unfold discard
  by_cases hin : p.contains id = true
  · obtain ⟨frame, hfind⟩ := Option.isSome_iff_exists.mp hin
    rw [if_pos hin]
    exact leads_release hp hfind _
  · rw [if_neg hin]
    exact .refl p

theorem leads_edit (p : Pool) (stamp : Nat) (act : Page.Act) : p.Leads (p.edit stamp act) := by
  unfold edit
  split
  · exact .refl p
  · exact leads_update p _

/-- Whoever keeps the object of a page in memory sees the page as it is. -/
theorem lentFrame?_of_find? (hp : p.Sound) (hfind : p.find? id = some frame) :
    p.lentFrame? frame.stamp = some frame := by
  have hmem : (id, frame) ∈ p.resident := Assoc.mem_of_find? hfind
  cases hlent : p.lentFrame? frame.stamp with
  | none =>
    have hno := List.find?_eq_none.mp hlent frame (List.mem_append_left _ (List.mem_map_of_mem hmem))
    simp at hno
  | some other =>
    obtain ⟨hstamp, ⟨x, hx⟩ | hnone⟩ := lentFrame?_cases hp hlent
    · obtain rfl := hp.stamp_inj hx hfind hstamp
      rw [← hx, hfind]
    · exact absurd rfl (hnone _ hmem)

end Pool

/-! ## Steps -/

namespace Storage

variable {catalog : Catalog} {may : Effect → Prop} {s s' : Storage}

/-- Making room takes at most one page out of memory. -/
theorem leads_makeRoom (hs : s.pool.Sound) {r : Except Error Unit}
    (hroom : s.makeRoom catalog = (r, s')) : s.pool.Leads s'.pool := by
  obtain ⟨-, -, rfl⟩ | ⟨-, victim, rest, frame, -, hfind, ⟨e, -, -, -, rfl⟩ |
    ⟨s₁, hflush, -, -, rfl⟩⟩ := makeRoom_cases hs hroom
  · exact .refl _
  · exact .refl _
  · -- the victim was written back if it was changed, and then it left
    obtain ⟨-, rfl, -⟩ | ⟨frame', hfind', -, ⟨e, -, he, -⟩ | ⟨h, files, -, -, -, rfl⟩⟩ :=
      flushPage_cases hflush
    · exact Pool.leads_release hs hfind rest
    · cases he
    · let cleaned : Frame := ⟨frame'.stamp, frame'.page.clean⟩
      have hstamp : cleaned.stamp = frame'.stamp := rfl
      have hown : frame'.page.id = victim := hs.own_id hfind'
      have hfound : (s.pool.update cleaned).find? victim = some cleaned := by
        rw [hs.find?_update hfind' hstamp, if_pos rfl]
      have hclean : (s.pool.update cleaned).Sound := hs.update hfind' hstamp hown
      exact (Pool.leads_update s.pool cleaned).trans (Pool.leads_release hclean hfound rest)

/-- **Step lemma.**  A step leaves an object that is kept to its page, or it departs. -/
theorem Step.leads (hstep : Step catalog may s s') (hs : s.pool.Sound) : s.pool.Leads s'.pool := by
  cases hstep with
  | count => exact .of_objects (List.Subset.refl _) (fun _ => rfl) (fun _ => Iff.rfl) rfl
  | flush hfind hdirty hfile hwrite => exact Pool.leads_update _ _
  | load hnone hread hroom =>
    have hnone' := find?_of_makeRoom hs hroom hnone
    exact (leads_makeRoom hs hroom).trans (Pool.leads_accept hnone' _)
  | requeue hfind => exact Pool.leads_putFrame hfind
  | change hmay hfind hid hschema hsize => exact Pool.leads_update _ _
  | grow hmay hfile hblank hwrite => exact .refl _
  | discard hmay => exact Pool.leads_discard hs _
  | create hmay habsent => exact .refl _

/-- **Run lemma.** -/
theorem Steps.leads (hsteps : Steps catalog may s s') (hs : s.pool.Sound) : s.pool.Leads s'.pool := by
  induction hsteps with
  | refl => exact .refl _
  | tail hbefore hstep ih => exact ih.trans (hstep.leads (Steps.sound hbefore hs))

/-- When room was made, the objects in memory were there before. -/
theorem object?_of_makeRoom (hs : s.pool.Sound) {r : Except Error Unit}
    (hroom : s.makeRoom catalog = (r, s')) {id : PageId} {n : Nat} (hn : s'.pool.object? id = some n) :
    s.pool.object? id = some n := by
  obtain ⟨-, -, rfl⟩ | ⟨-, victim, rest, frame, -, -, ⟨e, -, -, -, rfl⟩ | ⟨s₁, hflush, -, -, rfl⟩⟩ :=
    makeRoom_cases hs hroom
  · exact hn
  · exact hn
  · obtain ⟨frame₁, hfind, rfl⟩ := Pool.object?_eq_some.mp hn
    have hn₁ : s₁.pool.object? id = some frame₁.stamp :=
      Pool.object?_eq_some.mpr ⟨frame₁, Pool.find?_of_release hfind, rfl⟩
    obtain ⟨-, rfl, -⟩ | ⟨old, -, -, ⟨e, -, -, rfl⟩ | ⟨h, files, -, -, -, rfl⟩⟩ := flushPage_cases hflush
    · exact hn₁
    · exact hn₁
    · rwa [Pool.object?_update] at hn₁

/-- An object in memory after a step was there before, or its page was not. -/
theorem Step.object?_cases (hstep : Step catalog may s s') (hs : s.pool.Sound) {id : PageId} {n : Nat}
    (hn : s'.pool.object? id = some n) : s.pool.object? id = some n ∨ s.pool.object? id = none := by
  cases hstep with
  | count => exact Or.inl hn
  | flush hfind hdirty hfile hwrite => exact Or.inl (Pool.object?_update ▸ hn)
  | @load s₁ new page hnone hread hroom =>
    by_cases hid : id = new
    · exact Or.inr (by rw [hid, Pool.object?, hnone]; rfl)
    · left
      rw [Pool.object?, Pool.find?_accept, if_neg hid] at hn
      exact object?_of_makeRoom hs hroom hn
  | requeue hfind => exact Or.inl (Pool.object?_putFrame hfind id ▸ hn)
  | change hmay hfind hid hschema hsize => exact Or.inl (Pool.object?_update ▸ hn)
  | grow hmay hfile hblank hwrite => exact Or.inl hn
  | @discard dropped hmay =>
    left
    rw [Pool.object?, Pool.find?_discard] at hn
    split at hn
    · cases hn
    · exact hn
  | create hmay habsent => exact Or.inl hn

/-- A step never gives a page in memory another object. -/
theorem Step.same_object (hstep : Step catalog may s s') (hs : s.pool.Sound) {id : PageId} {n m : Nat}
    (hn : s.pool.object? id = some n) (hm : s'.pool.object? id = some m) : m = n := by
  obtain hsame | hnone := hstep.object?_cases hs hm
  · exact Option.some.inj (hsame.symm.trans hn)
  · cases hnone.symm.trans hn

end Storage

/-! ## Taking back -/

namespace Faults

variable {f : Faults} {catalog : Catalog} {h : HeapFile} {tid : TransactionId} {row row' : Row}
  {frame : Frame} {s s' : Storage}

/-- A frame is taken back: it is in memory, no room is made for it, no file is used, and nothing changes but
    that its page goes last in the queue. -/
structure Absorbs (f : Faults) (catalog : Catalog) (frame : Frame) (s : Storage) : Prop where
  /-- The frame is in memory. -/
  resident : s.pool.find? frame.page.id = some frame
  /-- Taking it back changes the queue. -/
  done : f.absorb catalog frame s = (.ok (), { s with pool := s.pool.enqueue frame.page.id })

theorem absorbs_of_find? (hfind : s.pool.find? frame.page.id = some frame) :
    f.Absorbs catalog frame s := by
  refine ⟨hfind, ?_⟩
  have hsame : Assoc.put frame.page.id frame s.pool.resident = s.pool.resident := Assoc.put_of_find? hfind
  rw [absorb_of_find? hfind, Pool.putFrame, hsame]

/-- The frame that took a row can be taken back. -/
theorem absorbs_of_storeIn (hs : s.pool.Sound) (hfile : catalog.file h.id = .ok h)
    (hin : f.storeIn h catalog tid row s = (.ok frame, row', s')) : f.Absorbs catalog frame s' := by
  cases storeIn_cases hs hfile hin with
  | done hsteps hfind => exact absorbs_of_find? hfind

/-- And so can the frame in which a row was deleted. -/
theorem absorbs_of_deleteIn (hs : s.pool.Sound) {place : Option RecordId}
    (hdel : f.deleteIn h catalog tid place s = (.ok frame, s')) : f.Absorbs catalog frame s' := by
  obtain ⟨e, he, -⟩ | ⟨frame', p, hok, -, -, -, hfind⟩ := deleteIn_cases hs hdel
  · cases he
  · cases hok
    exact absorbs_of_find? hfind

/-- A page that is found has the frame that is given, which is the one that it had. -/
theorem found_of_getPage (hs : s.pool.Sound) {id : PageId}
    (hget : f.getPage catalog id s = (.ok frame, s')) :
    s'.pool.find? id = some frame ∧ ∀ old, s.pool.find? id = some old → frame = old := by
  obtain ⟨e, he, -⟩ | ⟨frame', hok, hplain⟩ := getPage_cases hs hget
  · cases he
  · cases hok
    refine ⟨find?_of_getPage hs hplain, fun old hold => ?_⟩
    simp only [Storage.getPage, hold] at hplain
    cases hplain
    rfl

end Faults

/-! ## Runs -/

namespace Database

/-- What a store can come to, with the cursors that are in use then. -/
inductive Onward (cursors : List Cursor) (db : Database) : List Cursor → Database → Prop
  /-- Nothing happens. -/
  | here : Onward cursors db cursors db
  /-- Something happens to it. -/
  | done {now : List Cursor} {d : Database} (hd : Onward cursors db now d) (deed : Deed) :
    Onward cursors db now (d.afterDeed deed)
  /-- A cursor over a plan is made. -/
  | made {now : List Cursor} {d : Database} (hd : Onward cursors db now d) (plan : Plan) :
    Onward cursors db (Cursor.ofPlan plan :: now) d
  /-- One of the cursors is called. -/
  | called {before after : List Cursor} {c : Cursor} {d : Database}
    (hd : Onward cursors db (before ++ c :: after) d) (call : Call) :
    Onward cursors db (before ++ (c.move d (.call call)).1 :: after) (c.move d (.call call)).2

variable {cursors now : List Cursor} {db d : Database}

/-- Some things happen one after the other. -/
theorem Onward.after (hd : db.Onward cursors now d) (deeds : List Deed) :
    db.Onward cursors now (d.afterDeeds deeds) := by
  induction deeds generalizing d with
  | nil => exact hd
  | cons deed deeds ih => exact ih (hd.done deed)

theorem leads_afterDeed (hdb : db.storage.pool.Sound) (deed : Deed) :
    db.storage.pool.Leads (db.afterDeed deed).storage.pool := by
  cases deed with
  | trial trial => exact (Faults.perform_steps hdb trial.request).leads hdb
  | keep stamp =>
    exact .of_objects (List.subset_cons_self _ _) (fun _ => rfl) (fun _ => Iff.rfl) rfl
  | edit stamp act => exact db.storage.pool.leads_edit stamp act
  | resetCounts => exact .of_objects (List.Subset.refl _) (fun _ => rfl) (fun _ => Iff.rfl) rfl
  | overwrite files => exact .refl _

/-- **Whatever happens** to a store that can come about, a kept object is still that of its page, or it
    departed. -/
theorem Onward.leads (hdb : db.Visited cursors) (hd : db.Onward cursors now d) :
    d.Visited now ∧ db.storage.pool.Leads d.storage.pool := by
  induction hd with
  | here => exact ⟨hdb, .refl _⟩
  | done _ deed ih =>
    obtain ⟨hvisited, hleads⟩ := ih
    exact ⟨hvisited.done deed, hleads.trans (leads_afterDeed hvisited.sound.1 deed)⟩
  | made _ plan ih => exact ⟨ih.1.made plan, ih.2⟩
  | @called before after c d _ call ih =>
    obtain ⟨hvisited, hleads⟩ := ih
    obtain ⟨hs, husable⟩ := hvisited.sound
    have hc : c.Usable := husable c (List.mem_append_right _ List.mem_cons_self)
    exact ⟨hvisited.called call, hleads.trans ((hc.call hs call).1.leads hs)⟩

/-- In a store that can come about, what departed is not in memory. -/
theorem Visited.parted (hdb : db.Visited cursors) : db.storage.pool.Parted := by
  induction hdb with
  | opened hopen =>
    obtain ⟨-, -, -, rfl⟩ := create_cases hopen
    exact ⟨nofun, nofun⟩
  | done hdb deed ih => exact (leads_afterDeed hdb.sound.1 deed).parted ih
  | made _ plan ih => exact ih
  | @called before after c db hdb call ih =>
    obtain ⟨hs, husable⟩ := hdb.sound
    have hc : c.Usable := husable c (List.mem_append_right _ List.mem_cons_self)
    exact ((hc.call hs call).1.leads hs).parted ih

/-- **One object for a page as long as it stays in memory.**  A store came about in any way, and cursors are
    in use.  At every moment of what it does next, whatever use of a file fails:
    * no step gives a page in memory another object;
    * a page that is found has the frame that is given, which is the one that it had;
    * the frame in which a row was stored or deleted is in memory when it is given back, no room is made for
      it, and nothing changes but the queue.
    Whoever keeps the object of a page in memory sees, at every later moment, the page that the pool has, and
    this object is the one that the pool has for the page; or the object has left memory meanwhile, and then
    it is the object of no page in memory ever again. -/
theorem one_object_per_residency (hdb : db.Visited cursors) :
    (∀ s, Steps db.catalog (fun _ => True) db.storage s →
      (∀ s', Step db.catalog (fun _ => True) s s' → ∀ id n m, s.pool.object? id = some n →
        s'.pool.object? id = some m → m = n) ∧
      ∀ f : Faults,
        (∀ id frame s', f.getPage db.catalog id s = (.ok frame, s') →
          s'.pool.find? id = some frame ∧ ∀ old, s.pool.find? id = some old → frame = old) ∧
        (∀ h tid row frame row' s', db.catalog.file h.id = .ok h →
          f.storeIn h db.catalog tid row s = (.ok frame, row', s') → f.Absorbs db.catalog frame s') ∧
        (∀ h tid place frame s', f.deleteIn h db.catalog tid place s = (.ok frame, s') →
          f.Absorbs db.catalog frame s')) ∧
    ∀ id frame, db.storage.pool.find? id = some frame →
      ∀ now d, (db.afterDeed (.keep frame.stamp)).Onward cursors now d →
        ∀ s, Steps d.catalog (fun _ => True) d.storage s →
          (s.pool.object? id = some frame.stamp ∧ s.pool.lentFrame? frame.stamp = s.pool.find? id) ∨
          (s.pool.Departed frame.stamp ∧ ∀ x, s.pool.object? x ≠ some frame.stamp) := by
  obtain ⟨hs, -⟩ := hdb.sound
  constructor
  · intro s hsteps
    have hs₁ : s.pool.Sound := hsteps.sound hs
    refine ⟨fun s' hstep id n m => hstep.same_object hs₁, fun f => ⟨?_, ?_, ?_⟩⟩
    · exact fun id frame s' => f.found_of_getPage hs₁
    · exact fun h tid row frame row' s' => f.absorbs_of_storeIn hs₁
    · exact fun h tid place frame s' => f.absorbs_of_deleteIn hs₁
  · intro id frame hfind now d hd s hsteps
    have hkept : (db.afterDeed (.keep frame.stamp)).Visited cursors := hdb.done _
    obtain ⟨hvisited, hleads⟩ := hd.leads hkept
    obtain ⟨hsd, -⟩ := hvisited.sound
    have hsound : s.pool.Sound := hsteps.sound hsd
    have hnow := hsteps.leads hsd
    have hall := hleads.trans hnow
    have hobject : (db.afterDeed (.keep frame.stamp)).storage.pool.object? id = some frame.stamp :=
      Pool.object?_eq_some.mpr ⟨frame, hfind, rfl⟩
    rcases hall.stays id frame.stamp hobject List.mem_cons_self with hstill | hgone
    · left
      obtain ⟨frame', hfind', hstamp⟩ := Pool.object?_eq_some.mp hstill
      exact ⟨hstill, by rw [hfind', ← hstamp, Pool.lentFrame?_of_find? hsound hfind']⟩
    · right
      exact ⟨hgone, fun x => (hnow.parted hvisited.parted).out frame.stamp x hgone⟩

/-- In a store for one page, another row is stored in the page that is kept: it is the same object, in which
    the keeper sees the row.  Then another page comes in, and the object departs. -/
theorem one_object_per_residency_in_one_place :
    let schema := Schema.single "n" .int
    let a := tableIdOf ["d", "a.dat"]
    let b := tableIdOf ["d", "b.dat"]
    let trial (request : Request) : Deed := .trial ⟨.never, request⟩
    let insert (table : TableId) (n : Int32) : Deed :=
      trial (.task (.insertRow ⟨0⟩ table ⟨schema, [.int n], none⟩))
    let deeds : List Deed :=
      [trial (.task (.createTable "a" schema)), trial (.task (.createTable "b" schema)), insert a 1]
    ∃ new files', create Files.empty "/d" ⟨64, 1⟩ = (.ok new, files') ∧
      let kept := (new.afterDeeds deeds).afterDeed (.keep 0)
      let later := kept.afterDeeds [insert a 2]
      (new.afterDeeds deeds).storage.pool.object? ⟨a, 0⟩ = some 0 ∧
        later.storage.pool.object? ⟨a, 0⟩ = some 0 ∧
        later.storage.pool.lentFrame? 0 = later.storage.pool.find? ⟨a, 0⟩ ∧
        (later.storage.pool.lentFrame? 0).map (·.page.rows.map (·.values)) = some [[.int 1], [.int 2]] ∧
        (later.afterDeeds [insert b 3]).storage.pool.Departed 0 := by
  intro schema a b trial insert deeds
  let new : Database := ⟨"/d", ⟨64, 1⟩, Catalog.empty, ⟨⟨[], [["d"]], []⟩, Pool.empty ⟨64, 1⟩⟩⟩
  have hopen : create Files.empty "/d" ⟨64, 1⟩ = (.ok new, ⟨[], [["d"]], []⟩) := rfl
  refine ⟨new, _, hopen, ?_⟩
  intro kept later
  have hdb : (new.afterDeeds deeds).Visited [] := (Visited.opened hopen).after deeds
  have hobject : (new.afterDeeds deeds).storage.pool.object? ⟨a, 0⟩ = some 0 := by decide +kernel
  obtain ⟨frame, hfind, hstamp⟩ := Pool.object?_eq_some.mp hobject
  have hkept := (one_object_per_residency hdb).2 ⟨a, 0⟩ frame hfind
  rw [hstamp] at hkept
  have hlater : kept.Onward [] [] later := Onward.here.after _
  obtain ⟨hstill, hsees⟩ | ⟨hgone, -⟩ := hkept [] later hlater _ .refl
  · refine ⟨hobject, hstill, hsees, by decide +kernel, ?_⟩
    obtain ⟨hno, -⟩ | ⟨hgone, -⟩ := hkept [] _ (hlater.after [insert b 3]) _ .refl
    · have hout : (later.afterDeeds [insert b 3]).storage.pool.object? ⟨a, 0⟩ ≠ some 0 := by decide +kernel
      exact absurd hno hout
    · exact hgone
  · have hin : ¬ later.storage.pool.Departed 0 := by decide +kernel
    exact absurd hgone hin

end Database

end RowStore
