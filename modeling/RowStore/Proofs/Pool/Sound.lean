import Mathlib.Data.List.Basic
import RowStore.Pool

/-!
The pool and its queue agree.

The pages in memory are written down twice: in the map from pages to frames, and in the queue that
says which of them leaves next.  `Pool.Sound` says that the two agree at every moment:

1. there are never more pages than the capacity allows;
2. the queue names no page twice, and names exactly the pages that are in memory;
3. the map has one entry for a page, and a frame holds the page it is filed under;
4. every frame has a stamp of its own, which was given out already.

Point 4 carries the rest: the pages of frames are changed wherever a stamp is met
(`Pool.update`), so with stamps of their own a change stays with its page.

The first section says what each operation does to the map (`find?_accept`, `find?_update`, …);
the others keep `Sound` through every operation.
-/

namespace RowStore

namespace Assoc

variable {α β γ : Type} [DecidableEq α]

theorem find?_map (f : β → γ) (x : α) (l : List (α × β)) :
    find? x (l.map fun e => (e.1, f e.2)) = (find? x l).map f := by
  induction l with
  | nil => rfl
  | cons e es ih =>
    simp only [List.map_cons, find?]
    split
    · rfl
    · exact ih

theorem put_map (f : β → γ) (x : α) (b : β) (l : List (α × β)) :
    put x (f b) (l.map fun e => (e.1, f e.2)) = (put x b l).map fun e => (e.1, f e.2) := by
  induction l with
  | nil => rfl
  | cons e es ih =>
    simp only [List.map_cons, put]
    split
    · rfl
    · rw [List.map_cons, ih]

omit [DecidableEq α] in
theorem keys_map (f : β → β) (l : List (α × β)) :
    keys (l.map fun e => (e.1, f e.2)) = keys l := by
  simp [keys]

theorem mem_keys_iff {x : α} {l : List (α × β)} : x ∈ keys l ↔ ∃ b, find? x l = some b := by
  rw [← Option.ne_none_iff_exists', ne_eq, find?_eq_none_iff, not_not]

/-- Putting back the value that is there changes nothing. -/
theorem put_of_find? {a : α} {b : β} {l : List (α × β)} (h : find? a l = some b) :
    put a b l = l := by
  induction l with
  | nil => simp [find?] at h
  | cons e es ih =>
    unfold find? at h
    unfold put
    split at h
    · rename_i he
      rw [if_pos he]
      have hb : e.2 = b := Option.some.inj h
      rw [← he, ← hb]
    · rename_i he
      rw [if_neg he, ih h]

theorem length_remove {a : α} {l : List (α × β)} (hnodup : (keys l).Nodup) (ha : a ∈ keys l) :
    (remove a l).length + 1 = l.length := by
  have hlen : ∀ m : List (α × β), m.length = (keys m).length := fun m => by simp [keys]
  have herase : (keys l).filter (· ≠ a) = (keys l).erase a := by
    rw [hnodup.erase_eq_filter]
    congr 1
    funext x
    by_cases hx : x = a <;> simp [hx]
  rw [hlen, hlen, keys_remove, herase, List.length_erase_of_mem ha]
  have : 0 < (keys l).length := List.length_pos_of_mem ha
  omega

end Assoc

namespace Pool

variable {p : Pool} {id x : PageId} {frame : Frame} {page : Page}

/-! ## What each operation does to the map -/

theorem find?_putFrame :
    (p.putFrame id frame).find? x = if x = id then some frame else p.find? x :=
  Assoc.find?_put id x frame p.resident

theorem find?_accept :
    (p.accept id page).2.find? x =
      if x = id then some ⟨p.nextStamp, page⟩ else p.find? x :=
  Assoc.find?_put id x _ p.resident

theorem find?_release : (p.release id).find? x = if x = id then none else p.find? x := by
  unfold release
  cases hfind : p.find? id with
  | none =>
    show p.find? x = _
    split
    · rename_i hx
      rw [hx, hfind]
    · rfl
  | some frame => exact Assoc.find?_remove id x p.resident

theorem find?_discard : (p.discard id).find? x = if x = id then none else p.find? x := by
  unfold discard
  split
  · exact find?_release
  · rename_i hnone
    split
    · rename_i hx
      rw [hx]
      simpa [contains] using hnone
    · rfl

theorem find?_update : (p.update frame).find? x = (p.find? x).map (replaceFrame frame) :=
  Assoc.find?_map (replaceFrame frame) x p.resident

theorem stamp_replaceFrame (frame old : Frame) : (replaceFrame frame old).stamp = old.stamp := by
  unfold replaceFrame
  split
  · rename_i h
    exact h.symm
  · rfl

theorem capacity_release (p : Pool) (id : PageId) : (p.release id).capacity = p.capacity := by
  unfold release
  split <;> rfl

theorem capacity_discard (p : Pool) (id : PageId) : (p.discard id).capacity = p.capacity := by
  unfold discard
  split
  · exact capacity_release p id
  · rfl

/-! ## The invariant -/

/-- The pages in memory and their queue agree. -/
structure Sound (p : Pool) : Prop where
  /-- There is room for a page. -/
  capacity_pos : 0 < p.capacity
  /-- There is room for all of them. -/
  size_le : p.size ≤ p.capacity
  /-- No page waits twice. -/
  queue_nodup : p.queue.Nodup
  /-- The queue names the pages that are in memory. -/
  mem_queue_iff : ∀ id, id ∈ p.queue ↔ id ∈ Assoc.keys p.resident
  /-- A page has one entry. -/
  keys_nodup : (Assoc.keys p.resident).Nodup
  /-- A frame holds the page that it is filed under. -/
  own_id : ∀ {id frame}, p.find? id = some frame → frame.page.id = id
  /-- The stamps of the frames were given out. -/
  stamp_lt : ∀ {id frame}, p.find? id = some frame → frame.stamp < p.nextStamp
  /-- No two frames have the same stamp. -/
  stamp_inj : ∀ {id id' frame frame'}, p.find? id = some frame → p.find? id' = some frame' →
    frame.stamp = frame'.stamp → id = id'

theorem mem_keys_iff_find? : id ∈ Assoc.keys p.resident ↔ ∃ frame, p.find? id = some frame :=
  Assoc.mem_keys_iff

theorem Sound.mem_queue (hp : p.Sound) : id ∈ p.queue ↔ ∃ frame, p.find? id = some frame :=
  (hp.mem_queue_iff id).trans mem_keys_iff_find?

theorem sound_empty {config : Config} (hconfig : 0 < config.poolPages) :
    (empty config).Sound where
  capacity_pos := hconfig
  size_le := Nat.zero_le _
  queue_nodup := List.nodup_nil
  mem_queue_iff := fun _ => Iff.rfl
  keys_nodup := List.nodup_nil
  own_id := fun h => by simp [find?, empty, Assoc.find?] at h
  stamp_lt := fun h => by simp [find?, empty, Assoc.find?] at h
  stamp_inj := fun h => by simp [find?, empty, Assoc.find?] at h

/-- The frame that a page is changed in is the only one that changes: all others have other
    stamps. -/
theorem Sound.find?_update (hp : p.Sound) {new : Frame} (hfind : p.find? id = some frame)
    (hstamp : new.stamp = frame.stamp) :
    (p.update new).find? x = if x = id then some new else p.find? x := by
  rw [Pool.find?_update]
  split
  · rename_i hx
    rw [hx, hfind]
    simp [replaceFrame, hstamp]
  · rename_i hx
    cases hother : p.find? x with
    | none => rfl
    | some other =>
      have hne : other.stamp ≠ new.stamp := fun h =>
        hx (hp.stamp_inj hother hfind (h.trans hstamp))
      simp [replaceFrame, hne]

/-- A page that is written back stays in memory as one that was not changed, and so does the rest. -/
theorem Sound.find?_clean (hp : p.Sound) (hfind : p.find? id = some frame) (x : PageId) :
    (p.update ⟨frame.stamp, frame.page.clean⟩).find? x =
      if x = id then some ⟨frame.stamp, frame.page.clean⟩ else p.find? x :=
  hp.find?_update hfind rfl

/-! ## Coming in -/

theorem mem_enqueue (q : List PageId) (hq : q.Nodup) : x ∈ q.erase id ++ [id] ↔ x ∈ q ∨ x = id := by
  rw [List.mem_append, hq.mem_erase_iff, List.mem_singleton]
  by_cases hx : x = id <;> simp [hx]

theorem nodup_enqueue {q : List PageId} (hq : q.Nodup) : (q.erase id ++ [id]).Nodup := by
  rw [List.nodup_append]
  refine ⟨hq.erase id, by simp, ?_⟩
  intro a ha b hb hab
  rw [List.mem_singleton] at hb
  exact hq.not_mem_erase (hb ▸ hab ▸ ha)

/-- A page that is not in memory may come in when there is room. -/
theorem Sound.accept (hp : p.Sound) (hnone : p.find? id = none) (hroom : p.hasRoom = true)
    (hid : page.id = id) : (p.accept id page).2.Sound where
  capacity_pos := hp.capacity_pos
  size_le := by
    have hkey : id ∉ Assoc.keys p.resident := Assoc.find?_eq_none_iff.mp hnone
    have hlen := congrArg List.length (Assoc.keys_put_of_not_mem (b := ⟨p.nextStamp, page⟩) hkey)
    have hlt : p.size < p.capacity := by simpa [hasRoom] using hroom
    simp only [Assoc.keys, List.length_map, List.length_append, List.length_singleton] at hlen
    show (Assoc.put id _ p.resident).length ≤ p.capacity
    rw [hlen]
    exact hlt
  queue_nodup := nodup_enqueue hp.queue_nodup
  mem_queue_iff := fun x => by
    have hkey : id ∉ Assoc.keys p.resident := Assoc.find?_eq_none_iff.mp hnone
    show x ∈ p.queue.erase id ++ [id] ↔ x ∈ Assoc.keys (Assoc.put id _ p.resident)
    rw [mem_enqueue p.queue hp.queue_nodup, Assoc.keys_put_of_not_mem hkey, List.mem_append,
      List.mem_singleton, hp.mem_queue_iff]
  keys_nodup := Assoc.nodup_keys_put hp.keys_nodup
  own_id := fun {x f} h => by
    rw [find?_accept] at h
    split at h
    · rename_i hx
      cases h
      exact hid.trans hx.symm
    · exact hp.own_id h
  stamp_lt := fun {x f} h => by
    show f.stamp < p.nextStamp + 1
    rw [find?_accept] at h
    split at h
    · cases h
      exact Nat.lt_succ_self _
    · exact Nat.lt_succ_of_lt (hp.stamp_lt h)
  stamp_inj := fun {x y f g} hf hg heq => by
    -- a new frame has the next stamp, and all others have smaller ones
    rw [find?_accept] at hf hg
    split at hf <;> split at hg
    · rename_i hx hy
      exact hx.trans hy.symm
    · cases hf
      exact absurd (hp.stamp_lt hg) (by rw [← heq]; exact Nat.lt_irrefl _)
    · cases hg
      exact absurd (hp.stamp_lt hf) (by rw [heq]; exact Nat.lt_irrefl _)
    · exact hp.stamp_inj hf hg heq

/-- A page that is in memory may be put last in the queue again. -/
theorem Sound.putFrame (hp : p.Sound) (hfind : p.find? id = some frame) :
    (p.putFrame id frame).Sound := by
  have hsame : Assoc.put id frame p.resident = p.resident := Assoc.put_of_find? hfind
  have hres : (p.putFrame id frame).resident = p.resident := hsame
  have hmem : id ∈ p.queue := hp.mem_queue.mpr ⟨frame, hfind⟩
  have hview : ∀ y, (p.putFrame id frame).find? y = p.find? y := fun y => by
    show Assoc.find? y (Assoc.put id frame p.resident) = _
    rw [hsame]
    rfl
  refine ⟨hp.capacity_pos, ?_, nodup_enqueue hp.queue_nodup, ?_, ?_, ?_, ?_, ?_⟩
  · show (Assoc.put id frame p.resident).length ≤ p.capacity
    rw [hsame]
    exact hp.size_le
  · intro x
    show x ∈ p.queue.erase id ++ [id] ↔ _
    rw [hres, mem_enqueue p.queue hp.queue_nodup, ← hp.mem_queue_iff]
    constructor
    · rintro (hx | rfl)
      · exact hx
      · exact hmem
    · exact Or.inl
  · rw [hres]
    exact hp.keys_nodup
  · intro x f h
    exact hp.own_id (hview x ▸ h)
  · intro x f h
    exact hp.stamp_lt (hview x ▸ h)
  · intro x y f g hf hg
    exact hp.stamp_inj (hview x ▸ hf) (hview y ▸ hg)

/-! ## Going -/

theorem find?_of_release {f : Frame} (h : (p.release id).find? x = some f) :
    p.find? x = some f := by
  rw [find?_release] at h
  split at h
  · cases h
  · exact h

/-- A full pool has an oldest page, and it is in memory. -/
theorem Sound.exists_oldest (hp : p.Sound) (hfull : p.hasRoom = false) :
    ∃ victim rest frame, p.queue = victim :: rest ∧ p.find? victim = some frame := by
  have hle : p.capacity ≤ p.size := by
    simpa only [hasRoom, decide_eq_false_iff_not, Nat.not_lt] using hfull
  obtain ⟨e, he⟩ := List.exists_mem_of_length_pos (Nat.lt_of_lt_of_le hp.capacity_pos hle)
  have hmem : e.1 ∈ p.queue := (hp.mem_queue_iff e.1).mpr (List.mem_map_of_mem he)
  obtain ⟨victim, rest, hqueue⟩ := List.exists_cons_of_ne_nil (List.ne_nil_of_mem hmem)
  obtain ⟨frame, hfind⟩ := hp.mem_queue.mp (hqueue ▸ List.mem_cons_self : victim ∈ p.queue)
  exact ⟨victim, rest, frame, hqueue, hfind⟩

/-- Where a page has left there is room, whatever the queue says. -/
theorem Sound.hasRoom_release (hp : p.Sound) (hfind : p.find? id = some frame)
    (queue : List PageId) : ({ p.release id with queue := queue } : Pool).hasRoom = true := by
  have hlen := Assoc.length_remove hp.keys_nodup (mem_keys_iff_find?.mpr ⟨frame, hfind⟩)
  have hle : p.resident.length ≤ p.capacity := hp.size_le
  simp only [hasRoom, size, Pool.release, hfind, decide_eq_true_eq]
  omega

/-- A page that leaves the map must leave the queue, and nothing else may. -/
theorem Sound.release (hp : p.Sound) (hfind : p.find? id = some frame) {queue : List PageId}
    (hnodup : queue.Nodup) (hmem : ∀ x, x ∈ queue ↔ x ∈ p.queue ∧ x ≠ id) :
    ({ p.release id with queue := queue } : Pool).Sound := by
  have hres : (p.release id).resident = Assoc.remove id p.resident := by
    simp only [Pool.release, hfind]
  have hkeep : (p.release id).nextStamp = p.nextStamp ∧ (p.release id).capacity = p.capacity := by
    simp only [Pool.release, hfind, and_self]
  have hroom := hp.hasRoom_release hfind queue
  refine ⟨hkeep.2 ▸ hp.capacity_pos, Nat.le_of_lt (of_decide_eq_true hroom), hnodup, ?_, ?_, ?_, ?_,
    ?_⟩
  · intro x
    show x ∈ queue ↔ x ∈ Assoc.keys (p.release id).resident
    rw [hmem, hres, Assoc.keys_remove, List.mem_filter, ← hp.mem_queue_iff]
    simp
  · show (Assoc.keys (p.release id).resident).Nodup
    rw [hres]
    exact Assoc.nodup_keys_remove hp.keys_nodup
  · exact fun h => hp.own_id (find?_of_release h)
  · intro y f h
    show f.stamp < (p.release id).nextStamp
    rw [hkeep.1]
    exact hp.stamp_lt (find?_of_release h)
  · exact fun hf hg => hp.stamp_inj (find?_of_release hf) (find?_of_release hg)

/-- Letting the oldest page go keeps the rest in order. -/
theorem Sound.evict (hp : p.Sound) {rest : List PageId} (hqueue : p.queue = id :: rest) :
    ({ p.release id with queue := rest } : Pool).Sound := by
  obtain ⟨frame, hfind⟩ := hp.mem_queue.mp (hqueue ▸ List.mem_cons_self : id ∈ p.queue)
  have hnodup := hp.queue_nodup
  rw [hqueue, List.nodup_cons] at hnodup
  refine hp.release hfind hnodup.2 fun x => ?_
  rw [hqueue, List.mem_cons]
  constructor
  · exact fun hx => ⟨Or.inr hx, fun he => hnodup.1 (he ▸ hx)⟩
  · rintro ⟨hx | hx, hne⟩
    · exact absurd hx hne
    · exact hx

/-- Dropping a page takes it out of the map and out of the queue. -/
theorem Sound.discard (hp : p.Sound) : (p.discard id).Sound := by
  unfold Pool.discard
  split
  · rename_i hsome
    obtain ⟨frame, hfind⟩ := Option.isSome_iff_exists.mp hsome
    have hqueue : (p.release id).queue = p.queue := by simp only [Pool.release, hfind]
    refine hp.release hfind (hqueue ▸ hp.queue_nodup.erase id) fun x => ?_
    rw [hqueue, hp.queue_nodup.mem_erase_iff, and_comm]
  · exact hp

/-! ## Changing -/

/-- Changing the page of a frame keeps the map, as long as it remains that page. -/
theorem Sound.update (hp : p.Sound) {new : Frame} (hfind : p.find? id = some frame)
    (hstamp : new.stamp = frame.stamp) (hid : new.page.id = id) : (p.update new).Sound := by
  have hkeys : Assoc.keys (p.update new).resident = Assoc.keys p.resident :=
    Assoc.keys_map (replaceFrame new) p.resident
  have hold : ∀ {y f}, (p.update new).find? y = some f →
      ∃ old, p.find? y = some old ∧ old.stamp = f.stamp := fun {y f} h => by
    rw [Pool.find?_update, Option.map_eq_some_iff] at h
    obtain ⟨old, hold, rfl⟩ := h
    exact ⟨old, hold, (stamp_replaceFrame new old).symm⟩
  refine ⟨hp.capacity_pos, ?_, hp.queue_nodup, ?_, ?_, ?_, ?_, ?_⟩
  · show (p.resident.map _).length ≤ p.capacity
    rw [List.length_map]
    exact hp.size_le
  · intro x
    rw [hkeys]
    exact hp.mem_queue_iff x
  · rw [hkeys]
    exact hp.keys_nodup
  · intro y f h
    rw [hp.find?_update hfind hstamp] at h
    split at h
    · rename_i hy
      cases h
      exact hid.trans hy.symm
    · exact hp.own_id h
  · intro y f h
    obtain ⟨old, hy, hs⟩ := hold h
    exact hs ▸ hp.stamp_lt hy
  · intro y z f g hf hg heq
    obtain ⟨old, hy, hs⟩ := hold hf
    obtain ⟨old', hz, hs'⟩ := hold hg
    exact hp.stamp_inj hy hz (hs.trans (heq.trans hs'.symm))

/-- Counting a request changes no page. -/
theorem Sound.count (hp : p.Sound) {hits misses : Nat} :
    ({ p with hits := hits, misses := misses } : Pool).Sound :=
  ⟨hp.capacity_pos, hp.size_le, hp.queue_nodup, hp.mem_queue_iff, hp.keys_nodup, hp.own_id,
    hp.stamp_lt, hp.stamp_inj⟩

end Pool

end RowStore
