import Mathlib
import RowStore.Proofs.Plan.Tallies

/-!
What an aggregation says, group by group.

Specification.  The groups are the distinct keys of the rows, in the order in which they are first
met (`groupKeys`).  Each has the values of the rows with its key (`groupValues`), and its number is
that of these values alone (`AggregateFunction.exact`): how many they are, their sum, the sum
divided by their number toward zero, the least or the greatest.

Program.  `Aggregation.reduce` looks at one row after the other and keeps a tally for every group
it has met.

Crux.  After some rows, the tallies are those of the groups of these rows (`groupsOf`), and one row
more keeps that, whichever group it belongs to (`add_groupsOf`).  The values that a tally of
integers begins with, the greatest 32-bit integer as the least one and the least as the greatest,
disappear with the first value (`exact_of_tally`).

`reduce_exact`: one row for each group with the exact number, unless a number of rows or a sum is no
32-bit integer.
-/

namespace RowStore

/-! ## Specification -/

/-- The integer that a value is. -/
def Value.number? : Value → Option Int
  | .int n => some n.toInt
  | .string _ => none

/-- What a function says about some values. -/
def AggregateFunction.exact (f : AggregateFunction) (values : List Value) : Int :=
  let numbers := values.filterMap Value.number?
  match f with
  | .count => values.length
  | .sum => numbers.sum
  | .avg => numbers.sum.tdiv values.length
  | .min => numbers.min?.getD 0
  | .max => numbers.max?.getD 0

/-- The groups of some rows, in the order in which they are first met. -/
def groupKeys (group : Option Nat) (rows : List Row) : List (Option Value) :=
  (rows.map (groupKey group)).eraseDups

/-- The values of a group. -/
def groupValues (column : Nat) (group : Option Nat) (rows : List Row) (key : Option Value) :
    List Value :=
  (rows.filter fun row => groupKey group row = key).filterMap (·.values[column]?)

namespace Aggregation

/-- The number of a group. -/
def exact (a : Aggregation) (rows : List Row) (key : Option Value) : Int :=
  a.function.exact (groupValues a.column a.group rows key)

/-- The row of a group. -/
def exactRow (a : Aggregation) (rows : List Row) (key : Option Value) : Row :=
  ⟨a.schema, key.toList ++ [.int (Int32.ofInt (a.exact rows key))], none⟩

/-- One row for each group. -/
def exactRows (a : Aggregation) (rows : List Row) : List Row :=
  (groupKeys a.group rows).map (a.exactRow rows)

end Aggregation

/-! ## Groups of rows -/

section Groups

variable {column : Nat} {group : Option Nat} {rows : List Row} {row : Row} {key : Option Value}

theorem eraseDups_concat {α : Type} [BEq α] [LawfulBEq α] (l : List α) (x : α) :
    (l ++ [x]).eraseDups = if x ∈ l then l.eraseDups else l.eraseDups ++ [x] := by
  rw [List.eraseDups_append]
  by_cases hx : x ∈ l
  · rw [if_pos hx]
    simp [List.removeAll, hx]
  · rw [if_neg hx]
    simp [List.removeAll, hx, List.eraseDups_cons]

theorem nodup_eraseDups {α : Type} [BEq α] [LawfulBEq α] (l : List α) : l.eraseDups.Nodup := by
  match l with
  | [] => exact List.nodup_nil
  | x :: l =>
    have hshorter := List.length_filter_le (fun y => !y == x) l
    rw [List.eraseDups_cons, List.nodup_cons]
    exact ⟨by simp, nodup_eraseDups (l.filter fun y => !y == x)⟩
termination_by l.length
decreasing_by exact Nat.lt_succ_of_le hshorter

theorem mem_groupKeys : key ∈ groupKeys group rows ↔ ∃ row ∈ rows, groupKey group row = key := by
  unfold groupKeys
  rw [List.mem_eraseDups, List.mem_map]

/-- Without grouping there is one group, if there are rows. -/
theorem groupKeys_none (rows : List Row) :
    groupKeys none rows = if rows = [] then [] else [none] := by
  cases rows with
  | nil => rfl
  | cons row rows =>
    have hothers : (rows.map (groupKey none)).filter (fun key => !key == none) = [] := by
      rw [List.filter_eq_nil_iff]
      intro key hkey
      obtain ⟨row, -, rfl⟩ := List.mem_map.mp hkey
      nofun
    unfold groupKeys
    rw [List.map_cons, List.eraseDups_cons]
    show none :: ((rows.map (groupKey none)).filter fun key => !key == none).eraseDups = _
    rw [hothers, if_neg (List.cons_ne_nil _ _)]
    rfl

theorem groupKeys_concat (group : Option Nat) (rows : List Row) (row : Row) :
    groupKeys group (rows ++ [row]) =
      if groupKey group row ∈ groupKeys group rows then groupKeys group rows
      else groupKeys group rows ++ [groupKey group row] := by
  unfold groupKeys
  rw [List.map_append, List.map_singleton, eraseDups_concat]
  simp only [List.mem_eraseDups]

/-- A row more gives its group a value more. -/
theorem groupValues_concat {v : Value} (hv : row.values[column]? = some v) (key : Option Value) :
    groupValues column group (rows ++ [row]) key =
      if groupKey group row = key then groupValues column group rows key ++ [v]
      else groupValues column group rows key := by
  unfold groupValues
  by_cases hkey : groupKey group row = key
  · simp [hkey, hv]
  · simp [hkey]

theorem groupValues_of_not_mem (hkey : key ∉ groupKeys group rows) :
    groupValues column group rows key = [] := by
  unfold groupValues
  have hnone : rows.filter (fun row => groupKey group row = key) = [] := by
    rw [List.filter_eq_nil_iff]
    intro row hrow hsame
    exact hkey (mem_groupKeys.mpr ⟨row, hrow, of_decide_eq_true hsame⟩)
  rw [hnone]
  rfl

end Groups

/-! ## Tallies of values -/

namespace Tally

/-- The tally of some values. -/
def ofValues (type : ColumnType) (values : List Value) : Tally := values.foldl add (start type)

theorem ofValues_concat (type : ColumnType) (values : List Value) (v : Value) :
    ofValues type (values ++ [v]) = (ofValues type values).add v := by
  unfold ofValues
  rw [List.foldl_append]
  rfl

theorem foldl_add_numbers {values : List Value} (hvalues : ∀ v ∈ values, v.type = .int)
    (count : Nat) (sum least greatest : Int) :
    values.foldl add (.numbers count sum least greatest) =
      .numbers (count + values.length) (sum + (values.filterMap Value.number?).sum)
        ((values.filterMap Value.number?).foldl min least)
        ((values.filterMap Value.number?).foldl max greatest) := by
  induction values generalizing count sum least greatest with
  | nil => simp
  | cons v values ih =>
    obtain ⟨hv, hrest⟩ := List.forall_mem_cons.mp hvalues
    cases v with
    | string s => cases hv
    | int n =>
      rw [List.foldl_cons, add, ih hrest]
      simp only [List.filterMap_cons, Value.number?, List.length_cons, List.sum_cons,
        List.foldl_cons, Nat.add_assoc, Nat.add_comm 1, Int.add_assoc]

theorem foldl_add_texts (values : List Value) (count : Nat) :
    values.foldl add (.texts count) = .texts (count + values.length) := by
  induction values generalizing count with
  | nil => rfl
  | cons v values ih =>
    rw [List.foldl_cons, add, ih, List.length_cons, Nat.add_assoc, Nat.add_comm 1]

theorem bounded_ofValues {type : ColumnType} {values : List Value}
    (hvalues : ∀ v ∈ values, v.type = type) : Bounded type (ofValues type values) := by
  have hfold : ∀ (values : List Value) {t : Tally}, Bounded type t →
      (∀ v ∈ values, v.type = type) → Bounded type (values.foldl add t) := by
    intro values
    induction values with
    | nil => exact fun ht _ => ht
    | cons v values ih =>
      intro t ht hvalues
      obtain ⟨hv, hrest⟩ := List.forall_mem_cons.mp hvalues
      exact ih (ht.add hv) hrest
  exact hfold values (bounded_start type) hvalues

/-- The tally of some values gives the exact number, if there is a value at all. -/
theorem exact_of_tally {type : ColumnType} {f : AggregateFunction} {values : List Value}
    (hne : values ≠ []) (hvalues : ∀ v ∈ values, v.type = type)
    (htexts : type = .string → f = .count) : (ofValues type values).result f = f.exact values := by
  cases type with
  | string =>
    rw [htexts rfl]
    show (values.foldl add (.texts 0)).result .count = _
    rw [foldl_add_texts, Nat.zero_add]
    rfl
  | int =>
    show (values.foldl add (.numbers 0 0 Int32.maxValue.toInt Int32.minValue.toInt)).result f = _
    rw [foldl_add_numbers hvalues, Nat.zero_add, Int.zero_add]
    cases values with
    | nil => exact absurd rfl hne
    | cons v values =>
      cases v with
      | string s => cases hvalues _ List.mem_cons_self
      | int n =>
        have hn := isInt32_toInt n
        cases f with
        | count | sum | avg => rfl
        | min =>
          show ((n.toInt :: values.filterMap Value.number?).foldl min Int32.maxValue.toInt) =
            (n.toInt :: values.filterMap Value.number?).min?.getD 0
          rw [List.min?_cons', List.foldl_cons, Int.min_eq_right hn.2]
          rfl
        | max =>
          show ((n.toInt :: values.filterMap Value.number?).foldl max Int32.minValue.toInt) =
            (n.toInt :: values.filterMap Value.number?).max?.getD 0
          rw [List.max?_cons', List.foldl_cons, Int.max_eq_right hn.1]
          rfl

end Tally

/-! ## One row after the other -/

namespace Aggregation

variable {a : Aggregation} {child : Schema} {rows : List Row} {row : Row}

/-- The groups of some rows, with their tallies. -/
def groupsOf (a : Aggregation) (rows : List Row) : Groups :=
  (groupKeys a.group rows).map fun key =>
    (key, Tally.ofValues a.type (groupValues a.column a.group rows key))

theorem find?_keys {α β : Type} [DecidableEq α] (f : α → β) (keys : List α) (key : α) :
    Assoc.find? key (keys.map fun k => (k, f k)) = if key ∈ keys then some (f key) else none := by
  induction keys with
  | nil => rfl
  | cons k keys ih =>
    rw [List.map_cons, Assoc.find?, ih]
    by_cases hk : k = key
    · rw [if_pos hk, if_pos (List.mem_cons.mpr (Or.inl hk.symm)), hk]
    · rw [if_neg hk]
      simp only [List.mem_cons, Ne.symm hk, false_or]

/-- Another value for a key, which is added at the end if it is not there. -/
theorem put_keys {α β : Type} [DecidableEq α] (f : α → β) {keys : List α} (hnodup : keys.Nodup)
    (key : α) (b : β) :
    Assoc.put key b (keys.map fun k => (k, f k)) =
      (if key ∈ keys then keys else keys ++ [key]).map fun k => (k, if key = k then b else f k) := by
  induction keys with
  | nil => simp [Assoc.put]
  | cons k keys ih =>
    obtain ⟨hk, hnodup⟩ := List.nodup_cons.mp hnodup
    rw [List.map_cons, Assoc.put]
    by_cases hsame : k = key
    · subst hsame
      rw [if_pos rfl, if_pos List.mem_cons_self, List.map_cons, if_pos rfl]
      congr 1
      refine List.map_congr_left fun other hother => ?_
      rw [if_neg]
      rintro rfl
      exact hk hother
    · have hkeys : (if key ∈ k :: keys then k :: keys else k :: keys ++ [key]) =
          k :: if key ∈ keys then keys else keys ++ [key] := by
        simp only [List.mem_cons, Ne.symm hsame, false_or]
        split <;> rfl
      rw [if_neg hsame, hkeys, List.map_cons, if_neg (Ne.symm hsame), ih hnodup]

/-- One row more: the tallies are those of its group with one value more. -/
theorem add_groupsOf (ha : a.Suits child) (hrow : row.Typed child) (rows : List Row) :
    a.add row (a.groupsOf rows) = .ok (a.groupsOf (rows ++ [row])) := by
  obtain ⟨v, hvalue, hv, -⟩ := value_of_typed (List.getElem?_eq_getElem ha.column) hrow
  have htally : (Assoc.find? (groupKey a.group row) (a.groupsOf rows)).getD (Tally.start a.type) =
      Tally.ofValues a.type (groupValues a.column a.group rows (groupKey a.group row)) := by
    unfold groupsOf
    rw [find?_keys]
    by_cases hmem : groupKey a.group row ∈ groupKeys a.group rows
    · rw [if_pos hmem]
      rfl
    · rw [if_neg hmem, groupValues_of_not_mem hmem]
      rfl
  unfold add
  rw [(key_of_typed ha hrow).1, hvalue]
  simp only [bind, Except.bind, htally]
  have hnodup : (groupKeys a.group rows).Nodup := nodup_eraseDups _
  have hentry : ∀ key, (key, if groupKey a.group row = key then
        (Tally.ofValues a.type
          (groupValues a.column a.group rows (groupKey a.group row))).add v
      else Tally.ofValues a.type (groupValues a.column a.group rows key)) =
      (key, Tally.ofValues a.type (groupValues a.column a.group (rows ++ [row]) key)) := by
    intro key
    rw [groupValues_concat hv]
    by_cases hkey : groupKey a.group row = key
    · rw [if_pos hkey, if_pos hkey, Tally.ofValues_concat, hkey]
    · rw [if_neg hkey, if_neg hkey]
  rw [groupsOf, put_keys _ hnodup, groupsOf, groupKeys_concat]
  by_cases hmem : groupKey a.group row ∈ groupKeys a.group rows
  · rw [if_pos hmem, if_pos hmem, List.map_congr_left fun key _ => hentry key]
  · rw [if_neg hmem, if_neg hmem, List.map_congr_left fun key _ => hentry key]

/-- The tallies after all rows. -/
theorem foldlM_add_groupsOf (ha : a.Suits child) {rows : List Row}
    (hrows : ∀ row ∈ rows, row.Typed child) :
    rows.foldlM (fun groups row => a.add row groups) [] = .ok (a.groupsOf rows) := by
  -- `before` are the rows that were added
  have hafter : ∀ (rows before : List Row), (∀ row ∈ rows, row.Typed child) →
      rows.foldlM (fun groups row => a.add row groups) (a.groupsOf before) =
        .ok (a.groupsOf (before ++ rows)) := by
    intro rows
    induction rows with
    | nil =>
      intro before _
      rw [List.append_nil]
      rfl
    | cons row rows ih =>
      intro before hrows
      obtain ⟨hrow, hrest⟩ := List.forall_mem_cons.mp hrows
      rw [List.foldlM_cons, add_groupsOf ha hrow]
      show rows.foldlM _ (a.groupsOf (before ++ [row])) = _
      rw [ih _ hrest, List.append_assoc]
      rfl
  exact hafter rows [] hrows

/-! ## The result -/

/-- A group has a value, and its values have the type of the column. -/
theorem groupValues_typed (htype : child.types[a.column]? = some a.type)
    (hrows : ∀ row ∈ rows, row.Typed child) {key : Option Value}
    (hkey : key ∈ groupKeys a.group rows) :
    groupValues a.column a.group rows key ≠ [] ∧
      ∀ v ∈ groupValues a.column a.group rows key, v.type = a.type := by
  unfold groupValues
  constructor
  · obtain ⟨row, hrow, hsame⟩ := mem_groupKeys.mp hkey
    obtain ⟨v, -, hv, -⟩ := value_of_typed htype (hrows row hrow)
    refine List.ne_nil_of_mem (a := v) (List.mem_filterMap.mpr ⟨row, ?_, hv⟩)
    exact List.mem_filter.mpr ⟨hrow, decide_eq_true hsame⟩
  · intro v hv
    obtain ⟨row, hrow, hrowv⟩ := List.mem_filterMap.mp hv
    obtain ⟨w, -, hw, hwtype⟩ := value_of_typed htype (hrows row (List.mem_filter.mp hrow).1)
    rw [hrowv] at hw
    cases hw
    exact hwtype

/-- The rows of groups whose numbers are known. -/
theorem groupRows_exact {number : Option Value → Int} {tally : Option Value → Tally}
    {keys : List (Option Value)} (hkeys : a.Keyed (keys.map fun key => (key, tally key)))
    (hnumber : ∀ key ∈ keys, (tally key).result a.function = number key) :
    ((∀ key ∈ keys, IsInt32 (number key)) ∧
      a.groupRows (keys.map fun key => (key, tally key)) =
        .ok (keys.map fun key =>
          ⟨a.schema, key.toList ++ [.int (Int32.ofInt (number key))], none⟩)) ∨
    ∃ key ∈ keys, ¬ IsInt32 (number key) ∧
      a.groupRows (keys.map fun key => (key, tally key)) =
        .error (.mismatch (.aggregateRange a.function (number key))) := by
  induction keys with
  | nil => exact Or.inl ⟨nofun, rfl⟩
  | cons key keys ih =>
    obtain ⟨hfirst, hrest⟩ := List.forall_mem_cons.mp hnumber
    have htypes := hkeys key List.mem_cons_self
    have hothers : a.Keyed (keys.map fun key => (key, tally key)) :=
      fun other hother => hkeys other (List.mem_cons_of_mem _ hother)
    rw [List.map_cons, groupRows, groupRow, hfirst, inRange]
    by_cases hrange : Int32.minValue.toInt ≤ number key ∧ number key ≤ Int32.maxValue.toInt
    · have hrow : (key.toList ++ [Value.int (Int32.ofInt (number key))]).map Value.type =
          a.schema.types := by
        rw [List.map_append]
        exact htypes
      rw [if_pos hrange]
      simp only [bind, Except.bind, Row.ofValues_eq_ok_iff.mpr ⟨hrow, rfl⟩]
      obtain ⟨hall, hrows⟩ | ⟨late, hlate, hout, hrows⟩ := ih hothers hrest
      · rw [hrows]
        exact Or.inl ⟨List.forall_mem_cons.mpr ⟨hrange, hall⟩, rfl⟩
      · rw [hrows]
        exact Or.inr ⟨late, List.mem_cons_of_mem _ hlate, hout, rfl⟩
    · rw [if_neg hrange]
      exact Or.inr ⟨key, List.mem_cons_self, hrange, rfl⟩

theorem keyed_groupsOf (ha : a.Suits child) (hrows : ∀ row ∈ rows, row.Typed child) :
    a.Keyed (a.groupsOf rows) := by
  have hempty : a.Keyed [] := nofun
  obtain ⟨groups, hfold, hkeyed⟩ := foldlM_add_of_typed ha hrows hempty
  rw [foldlM_add_groupsOf ha hrows] at hfold
  cases hfold
  exact hkeyed

/-- **An aggregation is exact.**  There is one row for each group, with the exact number of that
    group; only if the number of rows or the sum of a group is no 32-bit integer, there is no result. -/
theorem reduce_exact {column : Nat} {group : Option Nat} {function : AggregateFunction}
    (hmake : ofColumns child column group function = .ok a)
    (hrows : ∀ row ∈ rows, row.Typed child) :
    ((∀ key ∈ groupKeys a.group rows, IsInt32 (a.exact rows key)) ∧
      a.reduce rows = .ok (a.exactRows rows)) ∨
    ∃ key ∈ groupKeys a.group rows, ¬ IsInt32 (a.exact rows key) ∧
      (a.function = .count ∨ a.function = .sum) ∧
      a.reduce rows = .error (.mismatch (.aggregateRange a.function (a.exact rows key))) := by
  have ha := suits_of_ofColumns hmake
  obtain ⟨htype, htexts⟩ := type_of_ofColumns hmake
  have hreduce : a.reduce rows = a.groupRows (a.groupsOf rows) := by
    unfold reduce
    rw [foldlM_add_groupsOf ha hrows]
    rfl
  have hnumber : ∀ key ∈ groupKeys a.group rows,
      (Tally.ofValues a.type (groupValues a.column a.group rows key)).result a.function =
        a.exact rows key := by
    intro key hkey
    obtain ⟨hne, hvalues⟩ := groupValues_typed htype hrows hkey
    exact Tally.exact_of_tally hne hvalues htexts
  rw [hreduce]
  obtain hok | ⟨key, hkey, hout, herror⟩ := groupRows_exact (keyed_groupsOf ha hrows) hnumber
  · exact Or.inl hok
  · refine Or.inr ⟨key, hkey, hout, ?_, herror⟩
    refine Decidable.byContradiction fun hother => ?_
    rw [not_or] at hother
    obtain ⟨-, hvalues⟩ := groupValues_typed htype hrows hkey
    rw [← hnumber key hkey] at hout
    exact hout (Tally.isInt32_result (Tally.bounded_ofValues hvalues) htexts hother.1 hother.2)

end Aggregation

end RowStore
