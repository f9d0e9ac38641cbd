import RowStore.Text.Utf8

/-!
Cutting a text between two characters.

The bytes of a text are cut at the last place, up to a width, where no character is open.  A place
is found from the bytes alone: a byte that can stand inside a character begins none.  `clip` takes
characters from the front as long as they fit and comes to the same (`RowStore.Proofs.Text.Cut`).
-/

namespace RowStore.Text.Utf8

/-- Whether a character ends after the first `n` bytes. -/
def isBoundary (bytes : List UInt8) (n : Nat) : Bool :=
  match bytes[n]? with
  | some b => n = 0 || !isTail b
  | none => n = bytes.length

/-- The last place up to `n` where a character ends. -/
def boundaryUpTo (bytes : List UInt8) : Nat → Nat
  | 0 => 0
  | n + 1 => if isBoundary bytes (n + 1) then n + 1 else boundaryUpTo bytes n

/-- Number of bytes that remain of a text of which at most `width` may. -/
def cutLength (width : Nat) (bytes : List UInt8) : Nat :=
  if bytes.length ≤ width then bytes.length else boundaryUpTo bytes width

/-- What remains of a text of which at most `width` bytes may. -/
def cutText (width : Nat) (s : String) : String :=
  String.ofList (decodeLossy ((encode s).take (cutLength width (encode s))))

end RowStore.Text.Utf8
