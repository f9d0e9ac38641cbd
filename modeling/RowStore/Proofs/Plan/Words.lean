import Mathlib
import RowStore.Plan.Accumulator
import RowStore.Proofs.Plan.Tallies

/-!
Words are wide enough.

Program.  `Accumulator` keeps numbers and sums in 64 bits and wraps around; `Tally` has no bounds.

Crux.  A sum of `n` 32-bit integers is between `n` times the least and `n` times the greatest of
them.  So as long as fewer than 2³² rows were added, no word has wrapped around (`Agrees.fold`),
and both give the same number (`Agrees.wide`).  A division does not wrap around either: an average
is between the least and the greatest.

1. For fewer than 2³² rows the result in words is the result (`Aggregation.materialize_eq_reduce`).
2. So a plan means the same in words if none of its aggregations has more rows below it
   (`Plan.wordMeaning_eq`).
-/

namespace RowStore

/-! ## One group -/

namespace Accumulator

variable {n : Nat} {acc : Accumulator} {t : Tally}

/-- The words say what the tally says, and nothing has wrapped around: at most `n` rows were
    added. -/
inductive Agrees (n : Nat) : Accumulator → Tally → Prop
  | numbers {count sum : Int64} {least greatest : Int32} {c : Nat} {total : Int}
    (hcount : count.toInt = c) (hsum : sum.toInt = total) (hn : c ≤ n)
    (hmin : c * Int32.minValue.toInt ≤ total) (hmax : total ≤ c * Int32.maxValue.toInt) :
    Agrees n (.numbers count sum least greatest) (.numbers c total least.toInt greatest.toInt)
  | texts {count : Int64} {c : Nat} (hcount : count.toInt = c) (hn : c ≤ n) :
    Agrees n (.texts count) (.texts c)

theorem agrees_start (n : Nat) (type : ColumnType) : Agrees n (forType type) (Tally.start type) := by
  cases type with
  | int => exact .numbers rfl rfl (Nat.zero_le n) (by decide) (by decide)
  | string => exact .texts rfl (Nat.zero_le n)

theorem Agrees.mono {m : Nat} (h : Agrees n acc t) (hle : n ≤ m) : Agrees m acc t := by
  cases h with
  | numbers hcount hsum hn hmin hmax =>
    exact .numbers hcount hsum (Nat.le_trans hn hle) hmin hmax
  | texts hcount hn => exact .texts hcount (Nat.le_trans hn hle)

/-- A number that fits 64 bits does not wrap around. -/
theorem bmod_of_fits {m : Int} (hlo : -9223372036854775808 ≤ m) (hhi : m < 9223372036854775808) :
    m.bmod (2 ^ 64) = m :=
  Int.bmod_eq_of_le (by omega) (by omega)

theorem toInt_succ {count : Int64} {c : Nat} (hcount : count.toInt = c) (hc : c < 4294967296) :
    (count + 1).toInt = (c + 1 : Nat) := by
  rw [Int64.toInt_add, hcount, Int64.toInt_one, bmod_of_fits (by omega) (by omega),
    Int.natCast_succ]

/-- One more row does not make anything wrap around, if they are fewer than 2³². -/
theorem Agrees.fold (h : Agrees n acc t) (hn : n + 1 < 4294967296) (v : Value) :
    Agrees (n + 1) (acc.fold v) (t.add v) := by
  cases h with
  | @numbers count sum least greatest c total hcount hsum hc hmin hmax =>
    cases v with
    | string s => exact .numbers hcount hsum (by omega) hmin hmax
    | int m =>
      have hm := isInt32_toInt m
      rw [isInt32_iff] at hm
      rw [minValue_toInt] at hmin
      rw [maxValue_toInt] at hmax
      have hleast : (if m ≤ least then m else least).toInt = min least.toInt m.toInt := by
        by_cases hle : m ≤ least
        · rw [if_pos hle, Int.min_eq_right (Int32.le_iff_toInt_le.mp hle)]
        · rw [if_neg hle, Int.min_eq_left]
          have hnot := mt Int32.le_iff_toInt_le.mpr hle
          omega
      have hgreatest : (if greatest ≤ m then m else greatest).toInt =
          max greatest.toInt m.toInt := by
        by_cases hle : greatest ≤ m
        · rw [if_pos hle, Int.max_eq_right (Int32.le_iff_toInt_le.mp hle)]
        · rw [if_neg hle, Int.max_eq_left]
          have hnot := mt Int32.le_iff_toInt_le.mpr hle
          omega
      have htotal : (sum + m.toInt64).toInt = total + m.toInt := by
        rw [Int64.toInt_add, hsum, Int32.toInt_toInt64, bmod_of_fits (by omega) (by omega)]
      have hagrees : Agrees (n + 1) (.numbers (count + 1) (sum + m.toInt64)
            (if m ≤ least then m else least) (if greatest ≤ m then m else greatest))
          (.numbers (c + 1) (total + m.toInt) (if m ≤ least then m else least).toInt
            (if greatest ≤ m then m else greatest).toInt) := by
        refine .numbers (toInt_succ hcount (by omega)) htotal (by omega) ?_ ?_
        · rw [minValue_toInt]
          omega
        · rw [maxValue_toInt]
          omega
      rw [hleast, hgreatest] at hagrees
      exact hagrees
  | texts hcount hc => exact .texts (toInt_succ hcount (by omega)) (by omega)

/-- Both give the same number. -/
theorem Agrees.wide (h : Agrees n acc t) (f : AggregateFunction) :
    (acc.wide f).toInt = t.result f := by
  cases h with
  | texts hcount hn => exact hcount
  | @numbers count sum least greatest c total hcount hsum hn hmin hmax =>
    cases f with
    | count => exact hcount
    | sum => exact hsum
    | min => exact Int32.toInt_toInt64 least
    | max => exact Int32.toInt_toInt64 greatest
    | avg =>
      show (if count = 0 then 0 else sum / count).toInt = total.tdiv c
      by_cases hzero : count = 0
      · have hc : (c : Int) = 0 := by rw [← hcount, hzero, Int64.toInt_zero]
        rw [if_pos hzero, hc, Int.tdiv_zero, Int64.toInt_zero]
      · have hrange := isInt32_tdiv hmin hmax
        rw [isInt32_iff] at hrange
        rw [if_neg hzero, Int64.toInt_div, hsum, hcount, bmod_of_fits (by omega) (by omega)]

/-- Both fit 32 bits, or neither does. -/
theorem Agrees.result (h : Agrees n acc t) (a : Aggregation) :
    (acc.result a.function).map Value.int = a.inRange (t.result a.function) := by
  have hwide := h.wide a.function
  have hword : (acc.wide a.function).toInt32 = Int32.ofInt (t.result a.function) := by
    rw [← hwide, ← Int64.toInt32_ofInt, Int64.ofInt_toInt]
  unfold Accumulator.result Aggregation.inRange
  simp only [Int64.le_iff_toInt_le, Int32.toInt_toInt64, hwide, hword]
  split <;> rfl

end Accumulator

/-! ## All groups -/

namespace Aggregation

variable {n : Nat} {key : Option Value} {acc : Accumulator} {t : Tally}
  {words : List (Option Value × Accumulator)} {groups : Groups}

/-- The same groups in the same order, in words and in tallies. -/
def InWords (n : Nat) : List (Option Value × Accumulator) → Groups → Prop :=
  List.Forall₂ fun word group => word.1 = group.1 ∧ Accumulator.Agrees n word.2 group.2

theorem InWords.find (h : InWords n words groups) (type : ColumnType) (key : Option Value) :
    Accumulator.Agrees n ((Assoc.find? key words).getD (Accumulator.forType type))
      ((Assoc.find? key groups).getD (Tally.start type)) := by
  induction h with
  | nil => exact Accumulator.agrees_start n type
  | @cons word group words groups hfirst _ ih =>
    obtain ⟨hkey, hagrees⟩ := hfirst
    unfold Assoc.find?
    rw [hkey]
    split
    · exact hagrees
    · exact ih

theorem InWords.mono {m : Nat} (h : InWords n words groups) (hle : n ≤ m) :
    InWords m words groups :=
  List.Forall₂.imp (fun _ _ hfirst => ⟨hfirst.1, hfirst.2.mono hle⟩) h

theorem InWords.put (h : InWords n words groups) (hagrees : Accumulator.Agrees n acc t) :
    InWords n (Assoc.put key acc words) (Assoc.put key t groups) := by
  induction h with
  | nil => exact .cons ⟨rfl, hagrees⟩ .nil
  | @cons word group words groups hfirst hrest ih =>
    unfold Assoc.put
    rw [hfirst.1]
    split
    · exact .cons ⟨rfl, hagrees⟩ hrest
    · exact .cons hfirst ih

/-- One more row. -/
theorem InWords.fold (h : InWords n words groups) (hn : n + 1 < 4294967296) (a : Aggregation)
    (row : Row) :
    (∃ words' groups', a.fold row words = .ok words' ∧ a.add row groups = .ok groups' ∧
      InWords (n + 1) words' groups') ∨
    ∃ e, a.fold row words = .error e ∧ a.add row groups = .error e := by
  unfold Aggregation.fold add
  simp only [bind, Except.bind]
  cases a.key row with
  | error e => exact Or.inr ⟨e, rfl, rfl⟩
  | ok key =>
    cases a.value row with
    | error e => exact Or.inr ⟨e, rfl, rfl⟩
    | ok v =>
      have hagrees := (h.find a.type key).fold hn v
      exact Or.inl ⟨_, _, rfl, rfl, (h.mono (Nat.le_succ n)).put hagrees⟩

/-- The rows of the result are the same. -/
theorem InWords.results (h : InWords n words groups) (a : Aggregation) :
    a.results words = a.groupRows groups := by
  induction h with
  | nil => rfl
  | @cons word group words groups hfirst _ ih =>
    obtain ⟨key, acc⟩ := word
    obtain ⟨key', t⟩ := group
    obtain ⟨rfl, hagrees⟩ : key = key' ∧ acc.Agrees n t := hfirst
    have hresult := hagrees.result a
    unfold Aggregation.results groupRows groupRow
    simp only [bind, Except.bind, ← hresult, ih]
    cases acc.result a.function <;> rfl

/-- **Words are wide enough** for fewer than 2³² rows. -/
theorem materialize_eq_reduce (a : Aggregation) {rows : List Row}
    (hrows : rows.length < 4294967296) : a.materialize rows = a.reduce rows := by
  -- `n` rows were added before
  have hfold : ∀ (rows : List Row) {n : Nat} {words : List (Option Value × Accumulator)}
      {groups : Groups}, InWords n words groups → n + rows.length < 4294967296 →
      (rows.foldlM (fun groups row => a.fold row groups) words).bind a.results =
        (rows.foldlM (fun groups row => a.add row groups) groups).bind a.groupRows := by
    intro rows
    induction rows with
    | nil =>
      intro n words groups h _
      exact h.results a
    | cons row rows ih =>
      intro n words groups h hn
      rw [List.length_cons] at hn
      rw [List.foldlM_cons, List.foldlM_cons]
      obtain ⟨words', groups', hword, hadd, h'⟩ | ⟨e, hword, hadd⟩ :=
        h.fold (by omega) a row
      · rw [hword, hadd]
        exact ih h' (by omega)
      · rw [hword, hadd]
        rfl
  exact hfold rows (n := 0) .nil (by omega)

end Aggregation

/-! ## Whole plans -/

namespace Plan

/-- The rows of a plan whose aggregations reduce in machine words. -/
def wordMeaning (tables : TableId → List Row) : Plan → Except Error (List Row)
  | .rows _ given => .ok given
  | .scan table _ => .ok (tables table)
  | .filter condition child => (child.wordMeaning tables).map (·.filter condition.holds)
  | .join condition outer inner => do
    let left ← outer.wordMeaning tables
    let right ← inner.wordMeaning tables
    .ok (condition.pairs (outer.schema.append inner.schema) left right)
  | .aggregate aggregation child => do
    let rows ← child.wordMeaning tables
    aggregation.materialize rows
  | .insert _ _ child | .delete _ child =>
    (child.wordMeaning tables).map fun rows => [countRow rows.length]

/-- Every aggregation of a plan has fewer than 2³² rows below it. -/
def FitsWords (tables : TableId → List Row) : Plan → Prop
  | .rows _ _ | .scan _ _ => True
  | .filter _ child | .insert _ _ child | .delete _ child => child.FitsWords tables
  | .join _ outer inner => outer.FitsWords tables ∧ inner.FitsWords tables
  | .aggregate _ child =>
    child.FitsWords tables ∧ ∀ rows, child.meaning tables = .ok rows → rows.length < 4294967296

/-- **A plan means the same in machine words** if its aggregations are of fewer than 2³² rows. -/
theorem wordMeaning_eq {tables : TableId → List Row} {plan : Plan} (hfits : plan.FitsWords tables) :
    plan.wordMeaning tables = plan.meaning tables := by
  induction plan with
  | rows | scan => rfl
  | filter condition child ih => rw [wordMeaning, meaning, ih hfits]
  | join condition outer inner ihouter ihinner =>
    rw [wordMeaning, meaning, ihouter hfits.1, ihinner hfits.2]
  | aggregate aggregation child ih =>
    obtain ⟨hchild, hfew⟩ := hfits
    rw [wordMeaning, meaning, ih hchild]
    cases hrows : child.meaning tables with
    | error e => rfl
    | ok rows => exact aggregation.materialize_eq_reduce (hfew rows hrows)
  | insert _ _ child ih | delete _ child ih => rw [wordMeaning, meaning, ih hfits]

end Plan

end RowStore
