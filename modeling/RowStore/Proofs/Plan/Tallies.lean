import RowStore.Proofs.Plan.Typed

/-!
Which results of an aggregation are 32-bit integers.

Program.  A tally of integers has their number, their sum, the least and the greatest of them, all as
integers without bounds; only the result of the function must be a 32-bit integer.

1. The least and the greatest are 32-bit integers themselves, and the sum is at most as many times the
   greatest 32-bit integer as there are numbers, and correspondingly for the least (`Tally.Bounded`).
2. So an average, a minimum and a maximum are always 32-bit integers; a number of rows or a sum may not
   be (`Tally.isInt32_result`).
3. An aggregation of rows of the right types fails for no other reason (`Aggregation.groupRows_ends`).
-/

namespace RowStore

/-- A 32-bit integer. -/
def IsInt32 (n : Int) : Prop := Int32.minValue.toInt ≤ n ∧ n ≤ Int32.maxValue.toInt

theorem minValue_toInt : Int32.minValue.toInt = -2147483648 := rfl

theorem maxValue_toInt : Int32.maxValue.toInt = 2147483647 := rfl

theorem isInt32_iff {n : Int} : IsInt32 n ↔ -2147483648 ≤ n ∧ n ≤ 2147483647 := Iff.rfl

theorem isInt32_toInt (n : Int32) : IsInt32 n.toInt :=
  ⟨Int32.minValue_le_toInt n, Int32.toInt_le n⟩

/-- The average of some integers is one if each of them is. -/
theorem isInt32_tdiv {sum : Int} {count : Nat} (hmin : count * Int32.minValue.toInt ≤ sum)
    (hmax : sum ≤ count * Int32.maxValue.toInt) : IsInt32 (sum.tdiv count) := by
  rw [isInt32_iff]
  rw [minValue_toInt] at hmin
  rw [maxValue_toInt] at hmax
  rcases Nat.eq_zero_or_pos count with rfl | hpos
  · rw [Int.natCast_zero, Int.tdiv_zero]
    omega
  have hcount : (0 : Int) < count := Int.natCast_pos.mpr hpos
  rcases Int.le_total 0 sum with hsum | hsum
  · rw [Int.tdiv_eq_ediv_of_nonneg hsum]
    have hnonneg : 0 ≤ sum / (count : Int) := Int.ediv_nonneg hsum (Int.le_of_lt hcount)
    have hle : sum / (count : Int) ≤ 2147483647 := Int.ediv_le_of_le_mul hcount (by omega)
    omega
  · -- rounding is toward zero, so the opposite of the sum is divided
    have hopposite : sum.tdiv count = -(-sum / (count : Int)) := by
      rw [← Int.tdiv_eq_ediv_of_nonneg (by omega), Int.neg_tdiv, Int.neg_neg]
    have hnonneg : 0 ≤ -sum / (count : Int) := Int.ediv_nonneg (by omega) (Int.le_of_lt hcount)
    have hle : -sum / (count : Int) ≤ 2147483648 := Int.ediv_le_of_le_mul hcount (by omega)
    rw [hopposite]
    omega

/-! ## Tallies -/

namespace Tally

/-- A tally of values of a type. -/
inductive Bounded : ColumnType → Tally → Prop
  | numbers {count : Nat} {sum least greatest : Int} (hmin : count * Int32.minValue.toInt ≤ sum)
    (hmax : sum ≤ count * Int32.maxValue.toInt) (hleast : IsInt32 least)
    (hgreatest : IsInt32 greatest) : Bounded .int (.numbers count sum least greatest)
  | texts {count : Nat} : Bounded .string (.texts count)

theorem bounded_start (type : ColumnType) : Bounded type (start type) := by
  cases type with
  | int =>
    have hsum : (0 : Nat) * Int32.minValue.toInt ≤ 0 ∧ 0 ≤ (0 : Nat) * Int32.maxValue.toInt := by
      decide
    exact .numbers hsum.1 hsum.2 (isInt32_toInt _) (isInt32_toInt _)
  | string => exact .texts

/-- A value more. -/
theorem Bounded.add {type : ColumnType} {t : Tally} (ht : Bounded type t) {v : Value}
    (hv : v.type = type) : Bounded type (t.add v) := by
  cases ht with
  | @numbers count sum least greatest hmin hmax hleast hgreatest =>
    cases v with
    | string text => cases hv
    | int n =>
      have hn := isInt32_toInt n
      rw [isInt32_iff] at hn hleast hgreatest
      rw [minValue_toInt] at hmin
      rw [maxValue_toInt] at hmax
      refine .numbers ?_ ?_ ?_ ?_
      · rw [minValue_toInt]
        omega
      · rw [maxValue_toInt]
        omega
      · rw [isInt32_iff]
        omega
      · rw [isInt32_iff]
        omega
  | texts => exact .texts

/-- Only a number of rows or a sum may be no 32-bit integer. -/
theorem isInt32_result {type : ColumnType} {t : Tally} (ht : Bounded type t) {f : AggregateFunction}
    (htexts : type = .string → f = .count) (hcount : f ≠ .count) (hsum : f ≠ .sum) :
    IsInt32 (t.result f) := by
  cases ht with
  | texts => exact absurd (htexts rfl) hcount
  | numbers hmin hmax hleast hgreatest =>
    cases f with
    | count => exact absurd rfl hcount
    | sum => exact absurd rfl hsum
    | avg => exact isInt32_tdiv hmin hmax
    | min => exact hleast
    | max => exact hgreatest

end Tally

/-! ## Groups -/

namespace Aggregation

variable {a : Aggregation} {child : Schema} {row : Row} {groups groups' : Groups}

/-- The reduced column has the type of the aggregation, and texts are only counted. -/
theorem type_of_ofColumns {column : Nat} {group : Option Nat} {function : AggregateFunction}
    (h : ofColumns child column group function = .ok a) :
    child.types[a.column]? = some a.type ∧ (a.type = .string → a.function = .count) := by
  unfold ofColumns at h
  simp only [bind, Except.bind] at h
  split at h
  · cases h
  · rename_i reduced hreduced
    have htype := getElem?_types_of_column hreduced
    split at h
    · cases h
    · rename_i hcounted
      have htexts : reduced.type = .string → function = .count := fun hstring =>
        Decidable.byContradiction fun hother => hcounted ⟨hstring, hother⟩
      split at h
      · cases h
        exact ⟨htype, htexts⟩
      · split at h
        · cases h
        · cases h
          exact ⟨htype, htexts⟩

/-- What holds of the groups while rows are added: their keys have the types of the result, and their
    tallies are bounded. -/
def Tallied (a : Aggregation) (groups : Groups) : Prop :=
  a.Keyed groups ∧ ∀ group ∈ groups, Tally.Bounded a.type group.2

theorem tallied_nil : a.Tallied [] := ⟨nofun, nofun⟩

/-- A row of the right types can be added. -/
theorem add_tallied (ha : a.Suits child) (htype : child.types[a.column]? = some a.type)
    (hrow : row.Typed child) (hgroups : a.Tallied groups) :
    ∃ groups', a.add row groups = .ok groups' ∧ a.Tallied groups' := by
  obtain ⟨hkeyed, hbounded⟩ := hgroups
  obtain ⟨groups', hadd, hkeyed'⟩ := add_of_typed ha hrow hkeyed
  refine ⟨groups', hadd, hkeyed', ?_⟩
  obtain ⟨v, hv, -, hvtype⟩ := value_of_typed htype hrow
  unfold add at hadd
  simp only [bind, Except.bind, hv] at hadd
  split at hadd
  · cases hadd
  · rename_i key hkey
    cases hadd
    intro group hgroup
    rcases Assoc.mem_put hgroup with rfl | hgroup
    · refine Tally.Bounded.add ?_ hvtype
      cases hfind : Assoc.find? key groups with
      | none => exact Tally.bounded_start a.type
      | some tally => exact hbounded _ (Assoc.mem_of_find? hfind)
    · exact hbounded group hgroup

/-- **The rows of the result.**  They agree with its columns; the only failure is a number of rows or a
    sum that is no 32-bit integer. -/
theorem groupRows_ends (htexts : a.type = .string → a.function = .count) (hgroups : a.Tallied groups) :
    (∃ rows, a.groupRows groups = .ok rows ∧ ∀ row ∈ rows, row.schema = a.schema ∧ row.Conforms) ∨
      (∃ n, a.groupRows groups = .error (.mismatch (.aggregateRange a.function n)) ∧ ¬ IsInt32 n ∧
        (a.function = .count ∨ a.function = .sum)) := by
  obtain ⟨hkeyed, hbounded⟩ := hgroups
  obtain hok | ⟨group, hgroup, herror, hn⟩ := groupRows_cases hkeyed
  · exact Or.inl hok
  · refine Or.inr ⟨_, herror, hn, ?_⟩
    refine Decidable.byContradiction fun hother => ?_
    rw [not_or] at hother
    exact hn (Tally.isInt32_result (hbounded group hgroup) htexts hother.1 hother.2)

end Aggregation

end RowStore
