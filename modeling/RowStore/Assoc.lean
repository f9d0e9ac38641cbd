/-!
Lists of keys with values.

1. `find?` finds the value of the first entry of a key.
2. `put` replaces the entry of a key where it stands, or adds one at the end; finding that key
   afterwards gives the new value, and every other key what it had (`find?_put`).
3. `remove` drops every entry of a key (`find?_remove`).
4. Neither repeats a key that was not repeated before (`nodup_keys_put`, `nodup_keys_remove`).
-/

namespace RowStore.Assoc

variable {α β : Type} [DecidableEq α]

/-- The keys in order. -/
def keys (l : List (α × β)) : List α := l.map (·.1)

/-- The value of `a`. -/
def find? (a : α) : List (α × β) → Option β
  | [] => none
  | e :: es => if e.1 = a then some e.2 else find? a es

/-- The list with `b` as the value of `a`. -/
def put (a : α) (b : β) : List (α × β) → List (α × β)
  | [] => [(a, b)]
  | e :: es => if e.1 = a then (a, b) :: es else e :: put a b es

/-- The list without `a`. -/
def remove (a : α) (l : List (α × β)) : List (α × β) := l.filter (·.1 ≠ a)

/-! ## Finding -/

theorem find?_put (a x : α) (b : β) (l : List (α × β)) :
    find? x (put a b l) = if x = a then some b else find? x l := by
  induction l with
  | nil =>
    simp only [put, find?]
    by_cases h : x = a
    · simp [h]
    · rw [if_neg (fun h' => h h'.symm), if_neg h]
  | cons e es ih =>
    unfold put
    split
    · rename_i he
      by_cases h : x = a
      · simp [find?, h]
      · simp only [find?, if_neg h]
        rw [if_neg (fun h' => h h'.symm), if_neg (fun h' => h (h'.symm.trans he))]
    · rename_i he
      simp only [find?, ih]
      by_cases h : e.1 = x
      · rw [if_pos h, if_pos h, if_neg (fun h' => he (h.trans h'))]
      · rw [if_neg h, if_neg h]

theorem find?_remove (a x : α) (l : List (α × β)) :
    find? x (remove a l) = if x = a then none else find? x l := by
  induction l with
  | nil => simp [remove, find?]
  | cons e es ih =>
    by_cases he : e.1 = a
    · have hdrop : remove a (e :: es) = remove a es := by simp [remove, he]
      rw [hdrop, ih, find?]
      by_cases h : x = a
      · simp [h]
      · rw [if_neg h, if_neg h, if_neg (fun h' => h (h'.symm.trans he))]
    · have hkeep : remove a (e :: es) = e :: remove a es := by simp [remove, he]
      rw [hkeep, find?, find?, ih]
      by_cases h : e.1 = x
      · rw [if_pos h, if_pos h, if_neg (fun h' => he (h.trans h'))]
      · rw [if_neg h, if_neg h]

theorem find?_eq_none_iff {x : α} {l : List (α × β)} : find? x l = none ↔ x ∉ keys l := by
  induction l with
  | nil => simp [keys, find?]
  | cons e es ih =>
    unfold find?
    by_cases h : e.1 = x
    · simp [h, keys]
    · rw [if_neg h, ih]
      have h' : x ≠ e.1 := fun h' => h h'.symm
      simp [keys, h']

theorem mem_of_find? {x : α} {b : β} {l : List (α × β)} (h : find? x l = some b) :
    (x, b) ∈ l := by
  induction l with
  | nil => simp [find?] at h
  | cons e es ih =>
    unfold find? at h
    split at h
    · rename_i he
      cases h
      simp [← he]
    · exact List.mem_cons_of_mem _ (ih h)

/-- Every entry of the list with a new value is the new one or was there before. -/
theorem mem_put {a : α} {b : β} {e : α × β} {l : List (α × β)} (h : e ∈ put a b l) :
    e = (a, b) ∨ e ∈ l := by
  induction l with
  | nil => exact Or.inl (List.mem_singleton.mp h)
  | cons first rest ih =>
    unfold put at h
    split at h
    · rcases List.mem_cons.mp h with rfl | h
      · exact Or.inl rfl
      · exact Or.inr (List.mem_cons_of_mem _ h)
    · rcases List.mem_cons.mp h with rfl | h
      · exact Or.inr List.mem_cons_self
      · exact (ih h).imp_right (List.mem_cons_of_mem _)

/-! ## Keys -/

theorem keys_put_of_mem {a : α} {b : β} {l : List (α × β)} (h : a ∈ keys l) :
    keys (put a b l) = keys l := by
  induction l with
  | nil => simp [keys] at h
  | cons e es ih =>
    unfold put
    split
    · rename_i he
      simp [keys, he]
    · rename_i he
      have : a ∈ keys es := by
        rcases List.mem_cons.mp h with h | h
        · exact absurd h.symm he
        · exact h
      simpa [keys] using ih this

theorem keys_put_of_not_mem {a : α} {b : β} {l : List (α × β)} (h : a ∉ keys l) :
    keys (put a b l) = keys l ++ [a] := by
  induction l with
  | nil => simp [keys, put]
  | cons e es ih =>
    simp only [keys, List.map_cons, List.mem_cons, not_or] at h
    unfold put
    rw [if_neg (fun he => h.1 he.symm)]
    simpa [keys] using ih h.2

theorem keys_remove (a : α) (l : List (α × β)) : keys (remove a l) = (keys l).filter (· ≠ a) := by
  simp [keys, remove, List.filter_map, Function.comp_def]

theorem nodup_keys_put {a : α} {b : β} {l : List (α × β)} (h : (keys l).Nodup) :
    (keys (put a b l)).Nodup := by
  by_cases ha : a ∈ keys l
  · rwa [keys_put_of_mem ha]
  · rw [keys_put_of_not_mem ha, List.nodup_append]
    refine ⟨h, by simp, ?_⟩
    intro x hx y hy
    simp only [List.mem_singleton] at hy
    rintro rfl
    exact ha (hy ▸ hx)

theorem nodup_keys_remove {a : α} {l : List (α × β)} (h : (keys l).Nodup) :
    (keys (remove a l)).Nodup := by
  rw [keys_remove]
  exact h.filter _

end RowStore.Assoc
