import RowStore.Text.LetterCase.Table

/-!
Upper and lower case of a text, by the full rules of Unicode without any language of its own.

1. One letter may become several: `ß` is `SS` in upper case, `İ` is `i` with a dot above.
2. `Σ` is `ς` at the end of a word and `σ` elsewhere; it ends a word when a cased letter comes
   before it and none after it, ignorable characters not counted.
3. ASCII letters change as one expects and all other ASCII stays (`lowerChar_ascii`,
   `upperChar_ascii`).
-/

namespace RowStore.Text

namespace LetterCase

/-- What the run makes of code point `n`, if it covers it. -/
def CaseRun.image? (r : CaseRun) (n : Nat) : Option Nat :=
  if r.first ≤ n && n ≤ r.last && (n - r.first) % r.step == 0 then
    some (r.target + (n - r.first))
  else none

/-- `n` after the run that covers it, or unchanged. -/
def mapRuns (runs : List CaseRun) (n : Nat) : Nat :=
  (runs.findSome? (·.image? n)).getD n

/-- The lower-case form of one character, wherever it stands. -/
def lowerChar (c : Char) : List Char :=
  if c.toNat < 0x80 then [c.toLower]
  else if c = '\u0130' then ['i', '\u0307']
  else [Char.ofNat (mapRuns lowerRuns c.toNat)]

/-- The upper-case form of one character. -/
def upperChar (c : Char) : List Char :=
  if c.toNat < 0x80 then [c.toUpper]
  else match upperExpansions.lookup c.toNat with
    | some ns => ns.map Char.ofNat
    | none => [Char.ofNat (mapRuns upperRuns c.toNat)]

theorem lowerChar_ascii {c : Char} (h : c.toNat < 0x80) : lowerChar c = [c.toLower] := by
  simp [lowerChar, h]

theorem upperChar_ascii {c : Char} (h : c.toNat < 0x80) : upperChar c = [c.toUpper] := by
  simp [upperChar, h]

/-! ## The final sigma -/

/-- Whether the first character that is not ignorable is a cased letter. -/
def reachesCased (cs : List Char) : Bool :=
  match cs.dropWhile fun c => CodeRange.mem ignorable c.toNat with
  | [] => false
  | c :: _ => CodeRange.mem cased c.toNat

/-- Lower case of `cs`, whose predecessors, read backwards, are `before`. -/
def lowerFrom (before : List Char) : List Char → List Char
  | [] => []
  | c :: cs =>
    (if c = 'Σ' then
      [if reachesCased before && !reachesCased cs then 'ς' else 'σ']
    else lowerChar c) ++ lowerFrom (c :: before) cs

end LetterCase

/-- The text in lower case. -/
def lowercase (s : String) : String := String.ofList (LetterCase.lowerFrom [] s.toList)

/-- The text in upper case. -/
def uppercase (s : String) : String := String.ofList (s.toList.flatMap LetterCase.upperChar)

example : lowercase "INT" = "int" := by decide
example : lowercase "ΟΔΥΣΣΕΥΣ." = "οδυσσευς." := by decide +kernel
example : lowercase "İNT" = "i\u0307nt" := by decide
example : uppercase "lıke" = "LIKE" := by decide +kernel
example : uppercase "straße" = "STRASSE" := by decide +kernel

end RowStore.Text
