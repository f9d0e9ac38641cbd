import RowStore.Page.Acts
import RowStore.Proofs.Cursor.Reached
import RowStore.Proofs.Requests.Faults

/-!
What can happen to a store.

Program.  A store is opened.  It is asked, and uses of files may fail meanwhile.  A client keeps a page
that was found and does something to it, also when the page has left the pool by then.  The counts are set
to zero.  Files are changed by others.  Cursors over plans are made and called.

1. A `Deed` is any of these but the cursors, and `Database.afterDeeds` is a run of them.
2. `Database.Visited cursors db` says that the store `db`, with `cursors` in use, can come about by all of
   them, without any assumption on the way.
3. Pool and queue agree in every such store (`Visited.sound`).

Crux.  A client finds a page that he keeps by its stamp, first among the pages in memory.  So he changes the
one page in memory that has this stamp, or none in memory (`Pool.Sound.update_lent`).
-/

namespace RowStore

open Storage

/-- A page stays the page that it is, whatever is done to it. -/
theorem Page.perform_id (p : Page) (act : Act) : (p.perform act).2.id = p.id := by
  cases act with
  | insert row =>
    rcases hstore : p.store row with ⟨result, row'⟩
    cases result with
    | error e => simp only [perform, hstore]
    | ok page =>
      simp only [perform, hstore]
      exact (insert_keeps (insert_of_store hstore)).1
  | delete row =>
    cases hdelete : p.delete row.place with
    | error e => simp only [perform, hdelete]
    | ok page =>
      simp only [perform, hdelete]
      exact (delete_keeps hdelete).1
  | markDirty dirty tid => rfl

/-! ## Pages that are kept -/

namespace Pool

variable {p : Pool} {stamp : Nat} {frame : Frame}

/-- A frame that is lent is in memory, or no frame in memory has its stamp. -/
theorem lentFrame?_cases (hp : p.Sound) (hlent : p.lentFrame? stamp = some frame) :
    frame.stamp = stamp ∧
      ((∃ id, p.find? id = some frame) ∨ ∀ e ∈ p.resident, e.2.stamp ≠ stamp) := by
  refine ⟨by simpa using List.find?_some hlent, ?_⟩
  rw [lentFrame?, List.find?_append] at hlent
  cases hin : (p.resident.map (·.2)).find? (·.stamp == stamp) with
  | none =>
    right
    intro e he hstamp
    have hno := List.find?_eq_none.mp hin e.2 (List.mem_map_of_mem he)
    simp [hstamp] at hno
  | some old =>
    left
    rw [hin, Option.some_or] at hlent
    cases hlent
    obtain ⟨e, he, rfl⟩ := List.mem_map.mp (List.mem_of_find?_eq_some hin)
    obtain ⟨b, hb⟩ := mem_keys_iff_find?.mp (List.mem_map_of_mem he : e.1 ∈ Assoc.keys p.resident)
    have hsame : (e.1, b) = e :=
      List.inj_on_of_nodup_map hp.keys_nodup (Assoc.mem_of_find? hb) he rfl
    exact ⟨e.1, by rw [hb, ← hsame]⟩

/-- Pool and queue agree after a frame that is lent got another page of the same number. -/
theorem Sound.update_lent (hp : p.Sound) (hlent : p.lentFrame? stamp = some frame) {page : Page}
    (hid : page.id = frame.page.id) : (p.update { frame with page := page }).Sound := by
  obtain ⟨hstamp, ⟨id, hfind⟩ | hnone⟩ := lentFrame?_cases hp hlent
  · exact hp.update hfind rfl (hid.trans (hp.own_id hfind))
  · -- the frame has left, and nothing in memory changes
    have hsame : (p.update { frame with page := page }).resident = p.resident := by
      refine (List.map_congr_left fun e he => ?_).trans (List.map_id _)
      rw [replaceFrame, if_neg fun h => hnone e he (h.trans hstamp)]
      rfl
    have hview : ∀ y, (p.update { frame with page := page }).find? y = p.find? y := fun y => by
      rw [find?, hsame]
      rfl
    refine ⟨hp.capacity_pos, ?_, hp.queue_nodup, ?_, ?_, ?_, ?_, ?_⟩
    · exact (congrArg List.length hsame).le.trans hp.size_le
    · exact fun x => hsame.symm ▸ hp.mem_queue_iff x
    · exact hsame.symm ▸ hp.keys_nodup
    · exact fun {x f} h => hp.own_id (hview x ▸ h)
    · exact fun {x f} h => hp.stamp_lt (hview x ▸ h)
    · exact fun {x y f g} hf hg => hp.stamp_inj (hview x ▸ hf) (hview y ▸ hg)

/-- Does something to the page of a frame that is kept. -/
def edit (p : Pool) (stamp : Nat) (act : Page.Act) : Pool :=
  match p.lentFrame? stamp with
  | none => p
  | some frame => p.update { frame with page := (frame.page.perform act).2 }

/-- Changing a page that is kept moves no page: the pages in memory and their queue are as before. -/
theorem edit_keeps (p : Pool) (stamp : Nat) (act : Page.Act) :
    Assoc.keys (p.edit stamp act).resident = Assoc.keys p.resident ∧
      (p.edit stamp act).queue = p.queue := by
  unfold edit
  split
  · exact ⟨rfl, rfl⟩
  · exact ⟨Assoc.keys_map _ p.resident, rfl⟩

theorem Sound.edit (hp : p.Sound) (stamp : Nat) (act : Page.Act) : (p.edit stamp act).Sound := by
  unfold Pool.edit
  split
  · exact hp
  · rename_i frame hlent
    exact hp.update_lent hlent (frame.page.perform_id act)

end Pool

/-! ## Deeds -/

/-- What can happen to a store. -/
inductive Deed where
  /-- A request is answered, and some uses of files fail meanwhile. -/
  | trial (trial : Trial)
  /-- A client keeps a page in memory. -/
  | keep (stamp : Nat)
  /-- A client does something to a page that he keeps. -/
  | edit (stamp : Nat) (act : Page.Act)
  /-- Hits and misses are counted anew. -/
  | resetCounts
  /-- Others change files. -/
  | overwrite (files : Files)

namespace Database

/-- The store after something has happened to it. -/
def afterDeed (db : Database) : Deed → Database
  | .trial trial => (trial.faults.perform db trial.request).2
  | .keep stamp => { db with storage := { db.storage with pool := db.storage.pool.lend stamp } }
  | .edit stamp act => { db with storage := { db.storage with pool := db.storage.pool.edit stamp act } }
  | .resetCounts => { db with storage := { db.storage with pool := db.storage.pool.resetCounts } }
  | .overwrite files => { db with storage := { db.storage with files := files } }

/-- The store after some deeds. -/
def afterDeeds (db : Database) : List Deed → Database
  | [] => db
  | deed :: deeds => (db.afterDeed deed).afterDeeds deeds

/-- **Step lemma.**  Pool and queue agree after whatever can happen. -/
theorem sound_afterDeed {db : Database} (hdb : db.storage.pool.Sound) (deed : Deed) :
    (db.afterDeed deed).storage.pool.Sound := by
  cases deed with
  | trial trial => exact (Faults.perform_steps hdb trial.request).sound hdb
  | keep stamp =>
    exact ⟨hdb.capacity_pos, hdb.size_le, hdb.queue_nodup, hdb.mem_queue_iff, hdb.keys_nodup, hdb.own_id,
      hdb.stamp_lt, hdb.stamp_inj⟩
  | edit stamp act => exact hdb.edit stamp act
  | resetCounts => exact hdb.count
  | overwrite files => exact hdb

/-! ## Stores that can come about -/

/-- The store `db` can come about, with `cursors` in use. -/
inductive Visited : List Cursor → Database → Prop
  /-- A store is opened. -/
  | opened {files files' : Files} {directory : String} {config : Config} {db : Database}
    (hopen : create files directory config = (.ok db, files')) : Visited [] db
  /-- Something happens to it. -/
  | done {cursors : List Cursor} {db : Database} (hdb : Visited cursors db) (deed : Deed) :
    Visited cursors (db.afterDeed deed)
  /-- A cursor over a plan is made. -/
  | made {cursors : List Cursor} {db : Database} (hdb : Visited cursors db) (plan : Plan) :
    Visited (Cursor.ofPlan plan :: cursors) db
  /-- One of the cursors is called. -/
  | called {before after : List Cursor} {c : Cursor} {db : Database}
    (hdb : Visited (before ++ c :: after) db) (call : Call) :
    Visited (before ++ (c.move db (.call call)).1 :: after) (c.move db (.call call)).2

namespace Visited

variable {cursors : List Cursor} {db : Database}

/-- Whatever came about, pool and queue agree, and the cursors are usable. -/
theorem sound (hdb : db.Visited cursors) : db.storage.pool.Sound ∧ ∀ c ∈ cursors, c.Usable := by
  induction hdb with
  | opened hopen =>
    obtain ⟨-, hpool, -, rfl⟩ := create_cases hopen
    exact ⟨Pool.sound_empty hpool, nofun⟩
  | done _ deed ih => exact ⟨sound_afterDeed ih.1 deed, ih.2⟩
  | made _ plan ih =>
    exact ⟨ih.1, List.forall_mem_cons.mpr ⟨Cursor.usable_ofPlan plan, ih.2⟩⟩
  | @called before after c db _ call ih =>
    obtain ⟨hs, husable⟩ := ih
    have hc : c.Usable := husable c (List.mem_append_right _ List.mem_cons_self)
    obtain ⟨hsteps, hc'⟩ := hc.call hs call
    refine ⟨hsteps.sound hs, fun other hother => ?_⟩
    rcases List.mem_append.mp hother with hmem | hmem
    · exact husable other (List.mem_append_left _ hmem)
    · rcases List.mem_cons.mp hmem with rfl | hmem
      · exact hc'
      · exact husable other (List.mem_append_right _ (List.mem_cons_of_mem _ hmem))

/-- Some things happen one after the other. -/
theorem after (hdb : db.Visited cursors) (deeds : List Deed) : (db.afterDeeds deeds).Visited cursors := by
  induction deeds generalizing db with
  | nil => exact hdb
  | cons deed deeds ih => exact ih (hdb.done deed)

end Visited

end Database

end RowStore
