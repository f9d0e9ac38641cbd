import RowStore.Page

/-!
Storing a row that belongs to somebody else.

The caller of a store hands his row over to be changed: its long texts are shortened one after the
other, and then it learns its place.  `Row.shorten` and `Page.store` say what has become of the row
also when they fail.  When they do not, they do what `Row.clip` and `Page.insert` do
(`clip_eq_shorten`, `insert_eq_store`).
-/

namespace RowStore

namespace Row

/-- Shortens the long texts among `count` values of a row, the first of which is at position `i`.
    When a value is refused, those before it are already shortened. -/
def shortenFrom : (count i : Nat) → Row → Except Error Unit × Row
  | 0, _, r => (.ok (), r)
  | count + 1, i, r =>
    match r.values[i]? with
    | none => shortenFrom count (i + 1) r
    | some v =>
      if v.isLong then
        match r.set i v.clip with
        | .error e => (.error e, r)
        | .ok r => shortenFrom count (i + 1) r
      else shortenFrom count (i + 1) r

/-- Shortens the long texts of a row. -/
def shorten (r : Row) : Except Error Unit × Row := shortenFrom r.values.length 0 r

/-- Shortening the values from a position on makes of them what `clipValues` says. -/
theorem shortenFrom_eq (schema : Schema) (place : Option RecordId) (done vs : List Value) :
    (∃ vs', clipValues schema done.length vs = .ok vs' ∧
      shortenFrom vs.length done.length ⟨schema, done ++ vs, place⟩ =
        (.ok (), ⟨schema, done ++ vs', place⟩)) ∨
    (∃ e r, clipValues schema done.length vs = .error e ∧
      shortenFrom vs.length done.length ⟨schema, done ++ vs, place⟩ = (.error e, r)) := by
  induction vs generalizing done with
  | nil => exact Or.inl ⟨[], rfl, rfl⟩
  | cons v vs ih =>
    have hget : (done ++ v :: vs)[done.length]? = some v := by simp
    -- the value at this position is done, and those after it come next
    have hnext : ∀ w : Value,
        (∃ vs', clipValues schema (done.length + 1) vs = .ok vs' ∧
          shortenFrom vs.length (done.length + 1) ⟨schema, done ++ w :: vs, place⟩ =
            (.ok (), ⟨schema, done ++ w :: vs', place⟩)) ∨
        (∃ e r, clipValues schema (done.length + 1) vs = .error e ∧
          shortenFrom vs.length (done.length + 1) ⟨schema, done ++ w :: vs, place⟩ =
            (.error e, r)) := by
      intro w
      simpa using ih (done ++ [w])
    unfold shortenFrom clipValues
    simp only [List.length_cons, hget]
    by_cases hlong : v.isLong = true
    · have hset : Row.set ⟨schema, done ++ v :: vs, place⟩ done.length v.clip =
          (schema.columnType done.length).bind fun t =>
            if v.type = t then .ok ⟨schema, done ++ v.clip :: vs, place⟩
            else .error (.mismatch (.storedType v.type t done.length)) := by
        have htype : v.clip.type = v.type := by cases v <;> rfl
        unfold Row.set
        cases schema.columnType done.length <;> simp [htype, Except.bind]
      simp only [hlong, if_true, hset]
      cases schema.columnType done.length with
      | error e => exact Or.inr ⟨e, _, rfl, rfl⟩
      | ok t =>
        by_cases htype : v.type = t
        · simp only [Except.bind, if_pos htype]
          rcases hnext v.clip with ⟨vs', hclip, hshort⟩ | ⟨e, r, hclip, hshort⟩
          · exact Or.inl ⟨v.clip :: vs', by rw [hclip]; rfl, hshort⟩
          · exact Or.inr ⟨e, r, by rw [hclip]; rfl, hshort⟩
        · simp only [Except.bind, if_neg htype]
          exact Or.inr ⟨_, _, rfl, rfl⟩
    · simp only [if_neg hlong]
      rcases hnext v with ⟨vs', hclip, hshort⟩ | ⟨e, r, hclip, hshort⟩
      · exact Or.inl ⟨v :: vs', by rw [hclip]; rfl, hshort⟩
      · exact Or.inr ⟨e, r, by rw [hclip]; rfl, hshort⟩

/-- A row that can be shortened becomes the row as it is stored. -/
theorem clip_eq_shorten (r : Row) :
    r.clip = match r.shorten with
      | (.error e, _) => .error e
      | (.ok (), r) => .ok r := by
  have h := shortenFrom_eq r.schema r.place [] r.values
  unfold shorten clip
  rcases h with ⟨vs, hclip, hshort⟩ | ⟨e, r', hclip, hshort⟩
  · simp only [List.length_nil, List.nil_append] at hclip hshort
    rw [hclip, hshort]
    rfl
  · simp only [List.length_nil, List.nil_append] at hclip hshort
    rw [hclip, hshort]
    rfl

end Row

namespace Page

/-- Puts a caller's row into the least free slot of a page. -/
def store (p : Page) (r : Row) : Except Error Page × Row :=
  if !r.schema.sameTypes p.schema then (.error (.mismatch (.rowOfPage r.schema p.schema)), r)
  else match p.freeSlots.head? with
    | none => (.error (.missing (.freeSlot p.id)), r)
    | some slot =>
      match r.shorten with
      | (.error e, r) => (.error e, r)
      | (.ok (), r) =>
        (.ok ((p.fill slot r.values).mark slot true), { r with place := some (p.place slot) })

/-- Storing a caller's row gives the page and the row of `Page.insert`. -/
theorem insert_eq_store (p : Page) (r : Row) :
    p.insert r = match p.store r with
      | (.error e, _) => .error e
      | (.ok page, r) => .ok (r, page) := by
  unfold insert store
  by_cases htypes : (!r.schema.sameTypes p.schema) = true
  · rw [if_pos htypes, if_pos htypes]
  · rw [if_neg htypes, if_neg htypes]
    cases p.freeSlots.head? with
    | none => rfl
    | some slot =>
      rw [Row.clip_eq_shorten]
      rcases r.shorten with ⟨result, r'⟩
      cases result <;> rfl

end Page

end RowStore
