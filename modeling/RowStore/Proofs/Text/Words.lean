import Mathlib.Data.List.TakeWhile
import RowStore.Text.Blank
import RowStore.Text.LetterCase
import RowStore.Text.Lines

/-!
White space, letter case and line ends make no difference.

1. Blanks around a text are dropped (`trimChars_append`) and nothing else (`exists_trimChars`).  Blanks around
   words are dropped as well, however many there are between two of them (`wordsFrom_word`, `wordsFrom_last`),
   and nothing else (`exists_of_wordsFrom`).
2. A text in ASCII is in lower case when each of its letters is (`lowercase_ofList`), and a text whose lower
   case is in ASCII and has no `k` is itself in ASCII (`ascii_of_lowerFrom`).
3. A line feed ends a line and takes a carriage return before it along (`linesFrom_feed`).
-/

namespace RowStore.Text

variable {cs space gap word line : List Char} {words : List (List Char)}

/-! ## Trimming -/

theorem trimChars_append {before behind : List Char} (hbefore : ∀ c ∈ before, isBlank c = true)
    (hbehind : ∀ c ∈ behind, isBlank c = true) : trimChars (before ++ cs ++ behind) = trimChars cs := by
  have hbehind' : ∀ c ∈ behind.reverse, isBlank c = true := fun c hc => hbehind c (List.mem_reverse.mp hc)
  unfold trimChars
  rw [List.append_assoc, List.dropWhile_append_of_pos hbefore, List.dropWhile_append]
  split
  · -- nothing but blanks
    rename_i hnone
    rw [List.isEmpty_iff.mp hnone, List.dropWhile_eq_nil_iff.mpr hbehind]
  · rw [List.reverse_append, List.dropWhile_append_of_pos hbehind']

theorem trimChars_of_noBlank (h : ∀ c ∈ cs, isBlank c = false) : trimChars cs = cs := by
  have hkeep : ∀ l : List Char, (∀ c ∈ l, isBlank c = false) → l.dropWhile isBlank = l := by
    intro l hl
    cases l with
    | nil => rfl
    | cons c l => simp [hl c List.mem_cons_self]
  unfold trimChars
  rw [hkeep cs h, hkeep cs.reverse fun c hc => h c (List.mem_reverse.mp hc), List.reverse_reverse]

/-- What is dropped are blanks. -/
theorem exists_trimChars (cs : List Char) : ∃ before behind, (∀ c ∈ before, isBlank c = true) ∧
    (∀ c ∈ behind, isBlank c = true) ∧ cs = before ++ trimChars cs ++ behind := by
  refine ⟨cs.takeWhile isBlank, ((cs.dropWhile isBlank).reverse.takeWhile isBlank).reverse,
    fun c => List.mem_takeWhile_imp, fun c hc => List.mem_takeWhile_imp (List.mem_reverse.mp hc), ?_⟩
  rw [trimChars, List.append_assoc, ← List.reverse_append, List.takeWhile_append_dropWhile,
    List.reverse_reverse, List.takeWhile_append_dropWhile]

theorem trimChars_trimChars (cs : List Char) : trimChars (trimChars cs) = trimChars cs := by
  obtain ⟨before, behind, hbefore, hbehind, hcs⟩ := exists_trimChars cs
  have hdrop : trimChars (before ++ trimChars cs ++ behind) = _ := trimChars_append hbefore hbehind
  rw [← hcs] at hdrop
  exact hdrop.symm

/-! ## Words -/

theorem wordsFrom_blanks (h : ∀ c ∈ space, isBlank c = true) (cs : List Char) :
    wordsFrom [] (space ++ cs) = wordsFrom [] cs := by
  induction space with
  | nil => rfl
  | cons c space ih =>
    obtain ⟨hc, hrest⟩ := List.forall_mem_cons.mp h
    rw [List.cons_append, wordsFrom, if_pos hc]
    exact ih hrest

theorem wordsFrom_append (h : ∀ c ∈ word, isBlank c = false) (before cs : List Char) :
    wordsFrom before (word ++ cs) = wordsFrom (word.reverse ++ before) cs := by
  induction word generalizing before with
  | nil => rfl
  | cons c word ih =>
    obtain ⟨hc, hrest⟩ := List.forall_mem_cons.mp h
    rw [List.cons_append, wordsFrom, if_neg (by rw [hc]; exact Bool.false_ne_true), ih hrest,
      List.reverse_cons, List.append_assoc]
    rfl

/-- A word and the blanks behind it. -/
theorem wordsFrom_word (hword : ∀ c ∈ word, isBlank c = false) (hne : word ≠ [])
    (hgap : ∀ c ∈ gap, isBlank c = true) (hgap' : gap ≠ []) (cs : List Char) :
    wordsFrom [] (word ++ (gap ++ cs)) = word :: wordsFrom [] cs := by
  obtain ⟨c, gap, rfl⟩ := List.exists_cons_of_ne_nil hgap'
  obtain ⟨hc, hrest⟩ := List.forall_mem_cons.mp hgap
  have hsome : (word.reverse ++ []).isEmpty = false := by simpa using hne
  rw [wordsFrom_append hword, List.cons_append, wordsFrom, if_pos hc, hsome,
    if_neg Bool.false_ne_true, wordsFrom_blanks hrest]
  simp

/-- The last word, and blanks behind it, or none. -/
theorem wordsFrom_last (hword : ∀ c ∈ word, isBlank c = false) (hne : word ≠ [])
    (hspace : ∀ c ∈ space, isBlank c = true) : wordsFrom [] (word ++ space) = [word] := by
  cases space with
  | nil =>
    rw [wordsFrom_append hword, wordsFrom]
    simp [hne]
  | cons c space =>
    have hall := wordsFrom_word hword hne hspace (List.cons_ne_nil c space) []
    rwa [List.append_nil] at hall

/-- A word that has begun goes on to the next blank, or to the end. -/
theorem wordsFrom_begun (hword : word ≠ []) (cs : List Char) : ∃ more rest, cs = more ++ rest ∧
    (∀ c ∈ rest.head?, isBlank c = true) ∧
    wordsFrom word cs = (word.reverse ++ more) :: wordsFrom [] rest := by
  induction cs generalizing word with
  | nil => exact ⟨[], [], rfl, nofun, by simp [wordsFrom, hword]⟩
  | cons c cs ih =>
    by_cases hc : isBlank c = true
    · exact ⟨[], c :: cs, rfl, by simpa using hc, by simp [wordsFrom, hc, hword]⟩
    · obtain ⟨more, rest, rfl, hrest, hmore⟩ := ih (List.cons_ne_nil c word)
      refine ⟨c :: more, rest, rfl, hrest, ?_⟩
      rw [wordsFrom, if_neg hc, hmore, List.reverse_cons, List.append_assoc]
      rfl

/-- A text without words is blank. -/
theorem blank_of_wordsFrom (h : wordsFrom [] cs = []) : ∀ c ∈ cs, isBlank c = true := by
  induction cs with
  | nil => exact nofun
  | cons c cs ih =>
    rw [wordsFrom] at h
    split at h
    · rename_i hc
      exact List.forall_mem_cons.mpr ⟨hc, ih h⟩
    · obtain ⟨more, rest, -, -, hmore⟩ := wordsFrom_begun (List.cons_ne_nil c []) cs
      rw [hmore] at h
      cases h

/-- A text with words is blank up to the first one, and behind this word there is a blank or nothing.  So if
    the text starts with a blank, then there are blanks before the word. -/
theorem exists_of_wordsFrom (h : wordsFrom [] cs = word :: words) :
    ∃ space rest, cs = space ++ (word ++ rest) ∧ (∀ c ∈ space, isBlank c = true) ∧
      ((∀ c ∈ cs.head?, isBlank c = true) → space ≠ []) ∧
      (∀ c ∈ rest.head?, isBlank c = true) ∧ wordsFrom [] rest = words := by
  induction cs with
  | nil => cases h
  | cons c cs ih =>
    rw [wordsFrom] at h
    split at h
    · rename_i hc
      obtain ⟨space, rest, rfl, hspace, -, hrest⟩ := ih h
      exact ⟨c :: space, rest, rfl, List.forall_mem_cons.mpr ⟨hc, hspace⟩, fun _ => List.cons_ne_nil _ _,
        hrest⟩
    · rename_i hc
      obtain ⟨more, rest, rfl, hrest, hmore⟩ := wordsFrom_begun (List.cons_ne_nil c []) cs
      rw [hmore] at h
      cases h
      refine ⟨[], rest, rfl, ?_, fun hhead => absurd (hhead c rfl) hc, hrest, rfl⟩
      exact fun x hx => absurd hx List.not_mem_nil

/-! ## Letter case -/

theorem lowercase_ofList (h : ∀ c ∈ cs, c.toNat < 0x80) :
    lowercase (String.ofList cs) = String.ofList (cs.map Char.toLower) := by
  have hfrom : ∀ before, LetterCase.lowerFrom before cs = cs.map Char.toLower := by
    induction cs with
    | nil => exact fun _ => rfl
    | cons c cs ih =>
      intro before
      obtain ⟨hc, hrest⟩ := List.forall_mem_cons.mp h
      have hsigma : c ≠ 'Σ' := by
        rintro rfl
        exact absurd hc (by decide)
      rw [LetterCase.lowerFrom, if_neg hsigma, LetterCase.lowerChar_ascii hc, ih hrest]
      rfl
  rw [lowercase, String.toList_ofList, hfrom]

section LowerCase

open LetterCase

/-- Outside ASCII, `k` is the only letter in ASCII that stands for the lower case of a letter alone. -/
theorem le_mapRuns_lowerRuns {n : Nat} (hn : 0x80 ≤ n) :
    mapRuns lowerRuns n = 0x6B ∨ 0x80 ≤ mapRuns lowerRuns n := by
  have htargets : ∀ r ∈ lowerRuns, 0x80 ≤ r.target ∨ r.target = 0x6B ∧ r.last ≤ r.first := by
    have hall : (lowerRuns.all fun r => decide (0x80 ≤ r.target ∨ r.target = 0x6B ∧ r.last ≤ r.first)) = true := by
      decide
    exact fun r hr => of_decide_eq_true (List.all_eq_true.mp hall r hr)
  unfold mapRuns
  cases hfind : lowerRuns.findSome? (·.image? n) with
  | none => exact .inr hn
  | some m =>
    obtain ⟨r, hr, himage⟩ := List.exists_of_findSome?_eq_some hfind
    unfold CaseRun.image? at himage
    split at himage
    · rename_i hcovers
      simp only [Bool.and_eq_true, decide_eq_true_eq] at hcovers
      cases himage
      rcases htargets r hr with htarget | ⟨htarget, hone⟩
      · exact .inr (Nat.le_add_right_of_le htarget)
      · left
        simp only [Option.getD_some]
        omega
    · cases himage

/-- A text with its lower case in ASCII is in ASCII itself, if there is no `k` in it. -/
theorem ascii_of_lowerFrom {before : List Char}
    (h : ∀ x ∈ lowerFrom before cs, x.toNat < 0x80 ∧ x ≠ 'k' ∧ x ≠ '\x00') : ∀ c ∈ cs, c.toNat < 0x80 := by
  induction cs generalizing before with
  | nil => exact nofun
  | cons c cs ih =>
    rw [lowerFrom] at h
    obtain ⟨hfirst, hrest⟩ := List.forall_mem_append.mp h
    refine List.forall_mem_cons.mpr ⟨?_, ih hrest⟩
    by_contra hc
    split at hfirst
    · obtain ⟨hascii, -⟩ := hfirst _ (List.mem_singleton_self _)
      split at hascii <;> exact absurd hascii (by decide)
    · unfold lowerChar at hfirst
      rw [if_neg hc] at hfirst
      split at hfirst
      · exact absurd (hfirst '\u0307' (by decide)).1 (by decide)
      · obtain ⟨hascii, hk, hnull⟩ := hfirst _ (List.mem_singleton_self _)
        rcases le_mapRuns_lowerRuns (Nat.not_lt.mp hc) with hm | hm
        · rw [hm] at hk
          exact hk rfl
        · by_cases hvalid : (mapRuns lowerRuns c.toNat).isValidChar
          · rw [Char.ofNat, dif_pos hvalid] at hascii
            exact Nat.not_lt.mpr hm hascii
          · rw [Char.ofNat, dif_neg hvalid] at hnull
            exact hnull rfl

end LowerCase

/-! ## Lines -/

/-- A line without the carriage return at its end, if there is one. -/
def chomp (line : List Char) : List Char :=
  if line.getLast? = some '\r' then line.dropLast else line

theorem linesFrom_append (h : '\n' ∉ line) (before text : List Char) :
    linesFrom before (line ++ text) = linesFrom (line.reverse ++ before) text := by
  induction line generalizing before with
  | nil => rfl
  | cons c line ih =>
    rw [List.mem_cons, not_or] at h
    rw [List.cons_append, linesFrom, if_neg (Ne.symm h.1), ih h.2, List.reverse_cons, List.append_assoc]
    rfl

/-- A line that is ended by a line feed. -/
theorem linesFrom_feed (h : '\n' ∉ line) (text : List Char) :
    linesFrom [] (line ++ '\n' :: text) = chomp line :: linesFrom [] text := by
  rw [linesFrom_append h, List.append_nil, linesFrom, if_pos rfl, chomp, List.head?_reverse]
  split
  · rw [List.tail_reverse, List.reverse_reverse]
  · rw [List.reverse_reverse]

/-- A line that is ended by the end of the text. -/
theorem linesFrom_last (h : '\n' ∉ line) (hne : line ≠ []) : linesFrom [] line = [line] := by
  have hall := linesFrom_append h [] []
  rw [List.append_nil, List.append_nil] at hall
  rw [hall, linesFrom, if_neg (by simpa using hne), List.reverse_reverse]

end RowStore.Text
