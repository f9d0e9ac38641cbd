import RowStore.Text.Quoted.Table

/-!
Texts shown between double quotes, on one line and in plain sight.

1. The quote and the backslash get a backslash; tab, line feed, carriage return and the null
   character have a letter of their own.
2. A character of `hidden` is shown by its number, in lower-case hexadecimal between braces.
3. All other characters stand for themselves (`showChar_plain`).
4. The name of a file is shown the same way, and its apostrophes get a backslash too.
-/

namespace RowStore.Text.Quoted

/-- The number of a character, as a quoted text shows it. -/
def showNumber (c : Char) : List Char :=
  ['\\', 'u', '\x7b'] ++ Nat.toDigits 16 c.toNat ++ ['\x7d']

/-- Whether a character is shown by its number.  Printable ASCII is not. -/
def isHidden (c : Char) : Bool :=
  !(0x20 ≤ c.toNat && c.toNat < 0x7F) && CodeRange.mem hidden c.toNat

/-- One character of a quoted text. -/
def showChar (c : Char) : List Char :=
  match c with
  | '\x00' => ['\\', '0']
  | '\t' => ['\\', 't']
  | '\n' => ['\\', 'n']
  | '\r' => ['\\', 'r']
  | '"' => ['\\', '"']
  | '\\' => ['\\', '\\']
  | c => if isHidden c then showNumber c else [c]

/-- One character of the quoted name of a file. -/
def showPathChar (c : Char) : List Char :=
  if c = '\'' then ['\\', '\''] else showChar c

/-- A text between double quotes. -/
def text (s : String) : String :=
  String.ofList ('"' :: s.toList.flatMap showChar ++ ['"'])

/-- The name of a file between double quotes. -/
def path (s : String) : String :=
  String.ofList ('"' :: s.toList.flatMap showPathChar ++ ['"'])

theorem showChar_plain {c : Char} (h : isHidden c = false)
    (hc : c ∉ ['\x00', '\t', '\n', '\r', '"', '\\']) : showChar c = [c] := by
  simp only [List.mem_cons, List.not_mem_nil, or_false, not_or] at hc
  unfold showChar
  split <;> simp_all

example : text "we\"ird\n\u0301é\\" = "\"we\\\"ird\\n\\u\x7b301\x7dé\\\\\"" := by decide +kernel
example : text "it's" = "\"it's\"" := by decide +kernel
example : path "it's" = "\"it\\'s\"" := by decide +kernel

end RowStore.Text.Quoted
