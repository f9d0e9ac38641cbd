import RowStore.Page.InPlace

/-!
What a caller can do to a page that he holds: store a row of his, free the slot that a row of his
names, and mark the page as changed or as written.

Every act is answered (`Page.Reply`): how it ended, and what the caller's row looks like after it.
A refused act leaves the page as it was.
-/

namespace RowStore.Page

/-- The page, marked as changed by a transaction or as written. -/
def markDirty (p : Page) (dirty : Bool) (tid : Option TransactionId) : Page :=
  { p with dirty := dirty, dirtiedBy := if dirty then tid else none }

theorem markDirty_true (p : Page) (tid : Option TransactionId) :
    p.markDirty true tid = p.touch tid := rfl

theorem markDirty_false (p : Page) (tid : Option TransactionId) :
    p.markDirty false tid = p.clean := rfl

/-- What can be done to a page. -/
inductive Act where
  /-- Store a row in the least free slot. -/
  | insert (row : Row)
  /-- Free the slot that a row names. -/
  | delete (row : Row)
  /-- Mark the page as changed by a transaction, or as written. -/
  | markDirty (dirty : Bool) (tid : Option TransactionId)

/-- How an act ended. -/
structure Reply where
  /-- Whether it was done; a row that was stored has a place. -/
  result : Except Error (Option RecordId)
  /-- The row of the caller after it. -/
  row : Option Row

/-- A row that is stored agrees with its schema. -/
def Act.Conforms : Act → Prop
  | .insert row => row.Conforms
  | .delete _ => True
  | .markDirty _ _ => True

instance : DecidablePred Act.Conforms
  | .insert row => inferInstanceAs (Decidable row.Conforms)
  | .delete _ => inferInstanceAs (Decidable True)
  | .markDirty _ _ => inferInstanceAs (Decidable True)

/-- Does something to a page. -/
def perform (p : Page) : Act → Reply × Page
  | .insert row =>
    match p.store row with
    | (.error e, row) => (⟨.error e, some row⟩, p)
    | (.ok p, row) => (⟨.ok row.place, some row⟩, p)
  | .delete row =>
    match p.delete row.place with
    | .error e => (⟨.error e, some row⟩, p)
    | .ok p => (⟨.ok none, some row⟩, p)
  | .markDirty dirty tid => (⟨.ok none, none⟩, p.markDirty dirty tid)

/-- The page after some acts. -/
def after (p : Page) : List Act → Page
  | [] => p
  | act :: acts => (p.perform act).2.after acts

/-- The replies to some acts. -/
def replies (p : Page) : List Act → List Reply
  | [] => []
  | act :: acts => (p.perform act).1 :: (p.perform act).2.replies acts

theorem after_append (p : Page) (before acts : List Act) :
    p.after (before ++ acts) = (p.after before).after acts := by
  induction before generalizing p with
  | nil => rfl
  | cons act before ih => exact ih _

/-- The page after one act more. -/
theorem after_concat (p : Page) (before : List Act) (act : Act) :
    p.after (before ++ [act]) = ((p.after before).perform act).2 :=
  p.after_append before [act]

end RowStore.Page
