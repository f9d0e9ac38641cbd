import RowStore.Proofs.Pool.Calls

/-!
The page that leaves is the one that was touched longest ago.

Program.  A page is touched when it comes in, and when a row was stored or deleted in it.  The queue of the
pool says which page leaves next.

1. `touches calls` are the pages that were touched, one for each touch, in order.
2. The queue is in the order of the last touches (`ByTouch`), and every call keeps it so
   (`PoolCall.Lawful.byTouch`).
3. So a page that leaves for another one is the page in memory whose last touch is the oldest, and nothing
   else changes the order (`PoolCall.Fair`, `Database.oldest_touch_leaves`).

Crux.  `Later log v w`, "`w` was touched after the last touch of `v`", stays true when a page other than `v`
is touched.  So a touch only has to be compared with the page that goes last in the queue.
-/

namespace RowStore

/-! ## Touches -/

namespace PoolCall

/-- The page that a call touches: a page that comes in, or a page that was written. -/
def touched (c : PoolCall) : List PageId :=
  match c.use with
  | .get id => if c.before.contains id = false ∧ c.after.contains id = true then [id] else []
  | .wrote id => [id]
  | .flush | .drop _ => []

/-- A page that nobody drops leaves. -/
def Evicts (c : PoolCall) (v : PageId) : Prop :=
  c.use ≠ .drop v ∧ c.before.contains v = true ∧ c.after.contains v = false

instance (c : PoolCall) (v : PageId) : Decidable (c.Evicts v) :=
  inferInstanceAs (Decidable (_ ∧ _ ∧ _))

end PoolCall

/-- The pages that are touched by some calls, in order. -/
def touches (calls : List PoolCall) : List PageId := calls.flatMap PoolCall.touched

variable {log queue queue' : List PageId} {id v w : PageId}

/-- Page `w` was touched after the last touch of `v`. -/
def Later (log : List PageId) (v w : PageId) : Prop :=
  ∃ before after, log = before ++ v :: after ∧ v ∉ after ∧ w ∈ after

/-- Later touches of other pages change nothing. -/
theorem Later.concat (h : Later log v w) (hne : v ≠ id) : Later (log ++ [id]) v w := by
  obtain ⟨before, after, rfl, hv, hw⟩ := h
  refine ⟨before, after ++ [id], by simp, ?_, List.mem_append_left _ hw⟩
  simpa [hv] using hne

/-- A touch is later than all touches before it. -/
theorem Later.of_mem (hv : v ∈ log) (hne : v ≠ id) : Later (log ++ [id]) v id := by
  -- the last touch of `v` is the first one from behind
  obtain ⟨after, before, hlog, hlast⟩ := List.eq_append_cons_of_mem (List.mem_reverse.mpr hv)
  have hlog' : log = before.reverse ++ v :: after.reverse := by
    rw [← log.reverse_reverse, hlog]
    simp
  refine ⟨before.reverse, after.reverse ++ [id], by simp [hlog'], ?_, by simp⟩
  simpa [hlast] using hne

/-! ## The order of the queue -/

/-- Pages are in the order of their last touches. -/
structure ByTouch (log queue : List PageId) : Prop where
  /-- All of them were touched. -/
  mem : ∀ id ∈ queue, id ∈ log
  /-- Later pages were touched later. -/
  pairwise : queue.Pairwise (Later log)

namespace ByTouch

theorem nil : ByTouch [] [] := ⟨nofun, .nil⟩

/-- Pages that leave do not change the order of the others. -/
theorem sublist (h : ByTouch log queue) (hsub : queue'.Sublist queue) : ByTouch log queue' :=
  ⟨fun id hid => h.mem id (hsub.subset hid), h.pairwise.sublist hsub⟩

/-- A page that is touched goes last. -/
theorem touch (h : ByTouch log queue) (hid : id ∉ queue) : ByTouch (log ++ [id]) (queue ++ [id]) := by
  have hne : ∀ v ∈ queue, v ≠ id := fun v hv he => hid (he ▸ hv)
  constructor
  · intro v hv
    rcases List.mem_append.mp hv with hv | hv
    · exact List.mem_append_left _ (h.mem v hv)
    · exact List.mem_append_right _ hv
  · rw [List.pairwise_append]
    refine ⟨h.pairwise.imp_of_mem fun hv _ hlater => hlater.concat (hne _ hv), List.pairwise_singleton _ _, ?_⟩
    intro v hv w hw
    obtain rfl := List.mem_singleton.mp hw
    exact Later.of_mem (h.mem v hv) (hne v hv)

/-- The first page is the one whose last touch is the oldest. -/
theorem head (h : ByTouch log (v :: queue)) (hw : w ∈ v :: queue) (hne : w ≠ v) : Later log v w :=
  (List.pairwise_cons.mp h.pairwise).1 w ((List.mem_cons.mp hw).resolve_left hne)

end ByTouch

/-! ## One call -/

namespace Pool

variable {p p' : Pool}

theorem contains_iff_mem_keys : p.contains id = true ↔ id ∈ Assoc.keys p.resident := by
  rw [mem_keys_iff_find?, contains, Option.isSome_iff_exists]

theorem Sound.mem_queue_iff_contains (hp : p.Sound) : id ∈ p.queue ↔ p.contains id = true :=
  (hp.mem_queue_iff id).trans contains_iff_mem_keys.symm

theorem SameOrder.contains (same : p.SameOrder p') : p'.contains id = p.contains id := by
  rw [Bool.eq_iff_iff, contains_iff_mem_keys, contains_iff_mem_keys, same.keys]

end Pool

namespace PoolCall

variable {c : PoolCall}

/-- A page that is found, or that cannot be had, is not touched. -/
theorem touched_of_get {p p' : Pool} (same : p.SameOrder p') : touched ⟨.get id, p, p'⟩ = [] :=
  if_neg fun ⟨hout, hin⟩ => by
    rw [same.contains, hout] at hin
    cases hin

/-- A page that comes in is touched. -/
theorem touched_of_new {p p' : Pool} {keys : List PageId} (hout : p.contains id = false)
    (hkeys : Assoc.keys p'.resident = keys ++ [id]) : touched ⟨.get id, p, p'⟩ = [id] :=
  if_pos ⟨hout, Pool.contains_iff_mem_keys.mpr (hkeys ▸ List.mem_append_right _ (List.mem_singleton_self id))⟩

/-- A page that is evicted is the first of the queue, and another page comes in. -/
theorem Lawful.of_evicts (hc : c.Lawful) (hv : c.Evicts v) :
    ∃ id rest, c.use = .get id ∧ c.before.contains id = false ∧ c.before.queue = v :: rest ∧
      c.touched = [id] := by
  obtain ⟨use, p, p'⟩ := c
  obtain ⟨hs, hmoves⟩ := hc
  obtain ⟨huse, hbefore, hafter⟩ := hv
  have hstays : Assoc.keys p'.resident ≠ Assoc.keys p.resident := fun hsame => by
    rw [Bool.eq_false_iff, Ne, Pool.contains_iff_mem_keys, hsame, ← Pool.contains_iff_mem_keys] at hafter
    exact hafter hbefore
  rw [Bool.eq_false_iff, Ne, Pool.contains_iff_mem_keys] at hafter
  rw [Pool.contains_iff_mem_keys] at hbefore
  cases hmoves with
  | found hin same => exact absurd same.keys hstays
  | failed hout same => exact absurd same.keys hstays
  | admitted hout hkeys hqueue =>
    rw [hkeys] at hafter
    exact absurd (List.mem_append_left _ hbefore) hafter
  | @replaced id victim rest _ _ hout hold hkeys hqueue =>
    refine ⟨id, rest, rfl, hout, ?_, touched_of_new hout hkeys⟩
    obtain rfl : v = victim := by
      by_contra hne
      rw [hkeys] at hafter
      exact hafter (List.mem_append_left _ (List.mem_filter.mpr ⟨hbefore, decide_eq_true hne⟩))
    exact hold
  | wrote hin hkeys hqueue => exact absurd hkeys hstays
  | flushed same => exact absurd same.keys hstays
  | @dropped id _ _ hkeys hqueue =>
    have hne : v ≠ id := fun he => huse (he ▸ rfl)
    rw [hkeys] at hafter
    exact absurd (List.mem_filter.mpr ⟨hbefore, decide_eq_true hne⟩) hafter

/-- **Step lemma.**  A call keeps the queue in the order of the last touches. -/
theorem Lawful.byTouch (hc : c.Lawful) (h : ByTouch log c.before.queue) :
    ByTouch (log ++ c.touched) c.after.queue := by
  obtain ⟨use, p, p'⟩ := c
  obtain ⟨hs, hmoves⟩ := hc
  simp only at hs hmoves h ⊢
  have hnew : ∀ {id}, p.contains id = false → id ∉ p.queue := fun hout hmem => by
    rw [hs.mem_queue_iff_contains, hout] at hmem
    cases hmem
  have hsame : ∀ {use}, p.SameOrder p' → touched ⟨use, p, p'⟩ = [] →
      ByTouch (log ++ touched ⟨use, p, p'⟩) p'.queue := fun same hnone => by
    rw [hnone, List.append_nil, same.queue]
    exact h
  cases hmoves with
  | found hin same => exact hsame same (touched_of_get same)
  | failed hout same => exact hsame same (touched_of_get same)
  | admitted hout hkeys hqueue =>
    rw [touched_of_new hout hkeys, hqueue]
    exact h.touch (hnew hout)
  | @replaced id victim rest _ _ hout hold hkeys hqueue =>
    rw [touched_of_new hout hkeys, hqueue]
    have hid : id ∉ rest := fun hmem => hnew hout (hold ▸ List.mem_cons_of_mem _ hmem)
    exact (h.sublist (hold ▸ List.sublist_cons_self victim rest)).touch hid
  | wrote hin hkeys hqueue =>
    rw [hqueue]
    exact (h.sublist List.erase_sublist).touch hs.queue_nodup.not_mem_erase
  | flushed same => exact hsame same rfl
  | dropped hkeys hqueue =>
    rw [hqueue, show touched ⟨.drop _, p, p'⟩ = [] from rfl, List.append_nil]
    exact h.sublist List.erase_sublist

/-- What the order of the queue means for a call, when the pages in `log` were touched before it. -/
structure Fair (log : List PageId) (c : PoolCall) : Prop where
  /-- A page that is evicted is the page in memory whose last touch is the oldest. -/
  oldest : ∀ v, c.Evicts v → ∀ w, c.before.contains w = true → w ≠ v → Later log v w
  /-- It leaves for another page, which was not in memory and comes in. -/
  forAnother : ∀ v, c.Evicts v → ∃ id, c.use = .get id ∧ id ≠ v ∧ c.touched = [id]
  /-- It leaves alone. -/
  alone : ∀ v w, c.Evicts v → c.Evicts w → v = w
  /-- A page that was found in memory, a page that cannot be had, and pages that are written back change
      nothing. -/
  calm : c.touched = [] → (∀ id, c.use ≠ .drop id) → c.after.queue = c.before.queue
  /-- A page that is dropped leaves the others in their order. -/
  dropped : ∀ id, c.use = .drop id → c.after.queue = c.before.queue.erase id
  /-- A page that is touched is in memory and goes last, and the others keep their order. -/
  last : ∀ id ∈ c.touched, c.after.contains id = true ∧
    ∃ rest, c.after.queue = rest ++ [id] ∧ rest.Sublist c.before.queue

/-- A call neither moves a page that it does not touch, nor is a page that it touches lost. -/
theorem Lawful.order (hc : c.Lawful) :
    (c.touched = [] → (∀ id, c.use ≠ .drop id) → c.after.queue = c.before.queue) ∧
    (∀ id, c.use = .drop id → c.after.queue = c.before.queue.erase id) ∧
    ∀ id ∈ c.touched, c.after.contains id = true ∧
      ∃ rest, c.after.queue = rest ++ [id] ∧ rest.Sublist c.before.queue := by
  obtain ⟨use, p, p'⟩ := c
  obtain ⟨hs, hmoves⟩ := hc
  simp only at hs hmoves ⊢
  have hin : ∀ {id : PageId} {keys : List PageId}, Assoc.keys p'.resident = keys ++ [id] →
      p'.contains id = true := fun hkeys => Pool.contains_iff_mem_keys.mpr (hkeys ▸ by simp)
  cases hmoves with
  | found _ same | failed _ same =>
    rw [touched_of_get same]
    exact ⟨fun _ _ => same.queue, nofun, nofun⟩
  | admitted hout hkeys hqueue =>
    rw [touched_of_new hout hkeys]
    refine ⟨nofun, nofun, fun x hx => ?_⟩
    obtain rfl := List.mem_singleton.mp hx
    exact ⟨hin hkeys, _, hqueue, List.Sublist.refl _⟩
  | replaced hout hold hkeys hqueue =>
    rw [touched_of_new hout hkeys]
    refine ⟨nofun, nofun, fun x hx => ?_⟩
    obtain rfl := List.mem_singleton.mp hx
    exact ⟨hin hkeys, _, hqueue, hold ▸ List.sublist_cons_self _ _⟩
  | wrote hold hkeys hqueue =>
    refine ⟨nofun, nofun, fun x hx => ?_⟩
    obtain rfl := List.mem_singleton.mp hx
    refine ⟨?_, _, hqueue, List.erase_sublist⟩
    rw [Pool.contains_iff_mem_keys, hkeys, ← Pool.contains_iff_mem_keys]
    exact hold
  | flushed same => exact ⟨fun _ _ => same.queue, nofun, nofun⟩
  | dropped hkeys hqueue =>
    refine ⟨fun _ hno => absurd rfl (hno _), fun id he => ?_, nofun⟩
    cases he
    exact hqueue

theorem Lawful.fair (hc : c.Lawful) (h : ByTouch log c.before.queue) : c.Fair log := by
  obtain ⟨hcalm, hdropped, hlast⟩ := hc.order
  refine ⟨fun v hv w hw hne => ?_, fun v hv => ?_, fun v w hv hw => ?_, hcalm, hdropped, hlast⟩
  · obtain ⟨id, rest, -, -, hqueue, -⟩ := hc.of_evicts hv
    have hmem : w ∈ v :: rest := hqueue ▸ hc.sound.mem_queue_iff_contains.mpr hw
    exact (hqueue ▸ h : ByTouch log (v :: rest)).head hmem hne
  · obtain ⟨id, rest, huse, hout, -, htouched⟩ := hc.of_evicts hv
    refine ⟨id, huse, fun he => ?_, htouched⟩
    rw [he, hv.2.1] at hout
    cases hout
  · obtain ⟨id, rest, -, -, hqueue, -⟩ := hc.of_evicts hv
    obtain ⟨id', rest', -, -, hqueue', -⟩ := hc.of_evicts hw
    exact (List.cons.inj (hqueue.symm.trans hqueue')).1

end PoolCall

/-! ## A run of calls -/

/-- Along some calls the queue is in the order of the last touches, so each of them is fair. -/
theorem Traced.fair {p p' : Pool} {calls : List PoolCall} (h : Traced p calls p')
    (hp : ByTouch log p.queue) {past rest : List PoolCall} {c : PoolCall}
    (hsplit : calls = past ++ c :: rest) : c.Fair (log ++ touches past) := by
  induction h generalizing log past with
  | still same =>
    cases past <;> cases hsplit
  | @call p p' first calls same hc _ ih =>
    have hbefore : ByTouch log first.before.queue := same.queue ▸ hp
    cases past with
    | nil =>
      cases hsplit
      simpa [touches] using hc.fair hbefore
    | cons _ past =>
      cases hsplit
      have hnext := ih (hc.byTouch hbefore) rfl
      rwa [List.append_assoc] at hnext

namespace Database

/-- **The page touched longest ago leaves.**  A store is opened, and then anything happens to it: requests
    while files fail, changes of pages that clients keep, changes of files by others.  The calls of the pool
    lead from the pool at the start to the pool at the end, and no page moves in between.  Whenever a call
    evicts a page, that is the page in memory whose last touch is the oldest, a touch being to come in, or to
    have a row stored or deleted in it through the pool; it leaves for another page that comes in.  Pages
    that are found, pages that cannot be had and pages written back keep the order in which pages leave, a
    page that is dropped leaves the others in it, and a page that is touched is in memory and goes last. -/
theorem oldest_touch_leaves {files files' : Files} {directory : String} {config : Config} {db : Database}
    (hopen : create files directory config = (.ok db, files')) (deeds : List Deed) :
    Traced db.storage.pool (db.calls deeds) (db.afterDeeds deeds).storage.pool ∧
    ∀ past call rest, db.calls deeds = past ++ call :: rest → call.Fair (touches past) := by
  obtain ⟨-, hpool, -, rfl⟩ := create_cases hopen
  let new : Database := ⟨directory, config, Catalog.empty, ⟨files', Pool.empty config⟩⟩
  have htraced : Traced new.storage.pool (new.calls deeds) (new.afterDeeds deeds).storage.pool :=
    traced_calls (Pool.sound_empty hpool) deeds
  refine ⟨htraced, fun past call rest hsplit => ?_⟩
  have hfair := htraced.fair .nil hsplit
  rwa [List.nil_append] at hfair

/-- In a store for two pages, the one that came in first is written again.  So the other one leaves, though
    everything is written back and another page is asked for in vain in between. -/
theorem oldest_touch_leaves_of_second :
    let schema := Schema.single "n" .int
    let a := tableIdOf ["d", "a.dat"]
    let b := tableIdOf ["d", "b.dat"]
    let c := tableIdOf ["d", "c.dat"]
    let trial (request : Request) : Deed := .trial ⟨.never, request⟩
    let insert (table : TableId) : Deed := trial (.task (.insertRow ⟨0⟩ table ⟨schema, [.int 1], none⟩))
    let deeds : List Deed :=
      [trial (.task (.createTable "a" schema)), trial (.task (.createTable "b" schema)),
       trial (.task (.createTable "c" schema)), insert a, insert b, insert a, trial (.task .flushAll),
       trial (.task (.getPage ⟨b, 7⟩)), insert c]
    ∃ db files', create Files.empty "/d" ⟨64, 2⟩ = (.ok db, files') ∧
      ∃ past call rest, db.calls deeds = past ++ call :: rest ∧
        touches past = [⟨a, 0⟩, ⟨a, 0⟩, ⟨b, 0⟩, ⟨b, 0⟩, ⟨a, 0⟩] ∧ call.use = .get ⟨c, 0⟩ ∧
        call.Evicts ⟨b, 0⟩ ∧ Later (touches past) ⟨b, 0⟩ ⟨a, 0⟩ := by
  intro schema a b c trial insert deeds
  let db : Database := ⟨"/d", ⟨64, 2⟩, Catalog.empty, ⟨⟨[], [["d"]], []⟩, Pool.empty ⟨64, 2⟩⟩⟩
  have hopen : create Files.empty "/d" ⟨64, 2⟩ = (.ok db, ⟨[], [["d"]], []⟩) := rfl
  have hfair := (oldest_touch_leaves hopen deeds).2
  obtain ⟨hlength, htouches, hcall⟩ : 8 < (db.calls deeds).length ∧
      touches ((db.calls deeds).take 8) = [⟨a, 0⟩, ⟨a, 0⟩, ⟨b, 0⟩, ⟨b, 0⟩, ⟨a, 0⟩] ∧
      ∀ call ∈ (db.calls deeds)[8]?, call.use = .get ⟨c, 0⟩ ∧ call.Evicts ⟨b, 0⟩ ∧
        call.before.contains ⟨a, 0⟩ = true := by decide +kernel
  have hne : (⟨a, 0⟩ : PageId) ≠ ⟨b, 0⟩ := by decide +kernel
  refine ⟨db, _, hopen, ?_⟩
  generalize db.calls deeds = calls at *
  obtain ⟨huse, hevicts, hin⟩ := hcall calls[8] (List.getElem?_eq_getElem hlength)
  have hsplit : calls = calls.take 8 ++ calls[8] :: calls.drop 9 := by
    rw [← List.drop_eq_getElem_cons hlength, List.take_append_drop]
  exact ⟨_, _, _, hsplit, htouches, huse, hevicts,
    (hfair _ _ _ hsplit).oldest ⟨b, 0⟩ hevicts ⟨a, 0⟩ hin hne⟩

end Database

end RowStore
