import RowStore.Proofs.Cursor.Steps
import RowStore.Proofs.Requests

/-!
What a scan gives, and what is read from a source.

1. A scan gives the rows of the pages of its table, page by page, as long as every page that it
   asks for is found as it was when the scan was started (`gives_ofTable`).  What it has left are
   the rows in its buffer and those of the pages after it (`Scan.Has`).  A scan of a table of which
   no page is found gives nothing, or fails (`gives_nothing`).
2. A source that is started and read to its end has given all its rows (`Gives.readAll`).
-/

namespace RowStore.Source

open Storage

variable {α : Type} {catalog : Catalog} {W : Storage → Prop} {fails : Error → Prop}

/-! ## Scans -/

/-- The rows that a scan has left: those in the buffer, and those of the pages to come. -/
def Scan.Has (pages : List Page) (scan : Scan) (left : List Row) : Prop :=
  scan.count = pages.length ∧ scan.next ≤ pages.length ∧
    left = scan.buffer ++ (pages.drop scan.next).flatMap Page.rows

section Scan

variable {table : TableId} {pages : List Page}

/-- The rows of the pages of a table, from the buffer on. -/
theorem Scan.eachPage_ended
    (hget : ∀ {n p s r s'}, pages[n]? = some p → W s → s.getPage catalog ⟨table, n⟩ = (r, s') →
      Quiet catalog s s' ∧
        ((∃ frame, r = .ok frame ∧ frame.page.rows = p.rows) ∨ ∃ e, r = .error e ∧ fails e))
    {consume : Consumer α} {inv stop : List Row → α → Storage → Prop}
    (hconsume : Consumes catalog consume inv stop) (hinv : ∀ {left a s}, inv left a s → W s)
    {further : Nat} {scan scan' : Scan} {a a' : α} {s s' : Storage} {ending : Ending}
    (hcount : scan.count = pages.length) (hfurther : scan.next + further = pages.length)
    (ha : inv (scan.buffer ++ (pages.drop scan.next).flatMap Page.rows) a s)
    (h : Scan.eachPage table catalog consume further scan a s = (ending, scan', a', s')) :
    Ended fails (Scan.Has pages) inv stop ending scan' a' s' := by
  -- the rows that are left are those of the present page and those of the pages to come
  have hrule : ∀ n, Consumes catalog consume
      (fun left a s => inv (left ++ (pages.drop n).flatMap Page.rows) a s)
      fun left a s => stop (left ++ (pages.drop n).flatMap Page.rows) a s :=
    fun n => ⟨fun ha hrow => hconsume.row ha hrow, fun ha hquiet => hconsume.quiet ha hquiet⟩
  have hpage : ∀ {n : Nat} {a : α} {s s' : Storage} {r : Except Error Frame}, n < pages.length →
      inv ([] ++ (pages.drop n).flatMap Page.rows) a s →
      s.getPage catalog ⟨table, n⟩ = (r, s') →
      (∃ frame : Frame, r = .ok frame ∧
        inv (frame.page.rows ++ (pages.drop (n + 1)).flatMap Page.rows) a s') ∨
      (∃ e, r = .error e ∧ fails e ∧ inv ([] ++ (pages.drop n).flatMap Page.rows) a s') := by
    intro n a s s' r hn ha hpage
    obtain ⟨hquiet, hfound⟩ := hget (List.getElem?_eq_getElem hn) (hinv ha) hpage
    have ha' := hconsume.quiet ha hquiet
    rcases hfound with ⟨frame, rfl, hrows⟩ | ⟨e, rfl, he⟩
    · rw [List.drop_eq_getElem_cons hn, List.flatMap_cons, ← hrows] at ha'
      exact Or.inl ⟨frame, rfl, ha'⟩
    · exact Or.inr ⟨e, rfl, he, ha'⟩
  obtain ⟨hsame, hle, hlast, hended⟩ := Scan.eachPage_ends hrule hfurther hpage ha h
  have hcount' : scan'.count = pages.length := hsame.trans hcount
  cases hended with
  | exhausted hbuffer ha' =>
    rw [hlast rfl, List.drop_length] at ha'
    refine .exhausted ⟨hcount', hle, ?_⟩ ha'
    rw [← hbuffer, hlast rfl, List.drop_length]
    rfl
  | stopped hbuffer ha' => exact .stopped ⟨hcount', hle, by rw [hbuffer]⟩ ha'
  | failed he ha' => exact .failed he ha'

/-- A scan gives the rows of the pages of its table. -/
theorem gives_ofTable (schema : Schema)
    (hcalm : ∀ {s s'}, W s → Quiet catalog s s' → W s')
    (hfile : ∀ {s}, W s →
      ∃ file, catalog.file table = .ok file ∧ file.numPages s.files = pages.length)
    (hget : ∀ {n p s r s'}, pages[n]? = some p → W s → s.getPage catalog ⟨table, n⟩ = (r, s') →
      Quiet catalog s s' ∧
        ((∃ frame, r = .ok frame ∧ frame.page.rows = p.rows) ∨ ∃ e, r = .error e ∧ fails e)) :
    Gives catalog W fails (ofTable table schema) (pages.flatMap Page.rows) (Scan.Has pages) := by
  have hbegun : ∀ {scan scan' : Scan} {s s' : Storage} {r : Except Error Unit}, W s →
      Scan.start table catalog scan s = (r, scan', s') →
      Quiet catalog s s' ∧ Begun fails (Scan.Has pages) (pages.flatMap Page.rows) r scan' := by
    intro scan scan' s s' r hs h
    obtain ⟨file, hknown, hnum⟩ := hfile hs
    rw [Scan.start_of_file hknown] at h
    cases h
    exact ⟨.refl, .ok ⟨hnum, Nat.zero_le _, rfl⟩⟩
  constructor
  · exact hcalm
  · exact fun hs h => hbegun hs h
  · exact fun hs _ h => hbegun hs h
  · rintro α consume inv stop scan left a s ending scan' a' s' hconsume hinv ⟨hcount, hnext, rfl⟩ ha h
    refine Scan.eachPage_ended hget hconsume hinv hcount ?_ ha h
    omega

/-- A scan of a table of which no page is found gives nothing, or fails. -/
theorem gives_nothing (schema : Schema)
    (hcalm : ∀ {s s'}, W s → Quiet catalog s s' → W s')
    (hfile : ∀ {s}, W s → ∃ file, catalog.file table = .ok file) (hfails : ∀ e, fails e)
    (hno : ∀ {n r s s'}, W s → s.getPage catalog ⟨table, n⟩ = (r, s') →
      Quiet catalog s s' ∧ ∃ e, r = .error e) :
    Gives catalog W fails (ofTable table schema) []
      fun scan left => left = [] ∧ scan.buffer = [] := by
  have hbegun : ∀ {scan scan' : Scan} {s s' : Storage} {r : Except Error Unit}, W s →
      Scan.start table catalog scan s = (r, scan', s') →
      Quiet catalog s s' ∧
        Begun fails (fun scan left => left = [] ∧ scan.buffer = []) [] r scan' := by
    intro scan scan' s s' r hs h
    obtain ⟨file, hknown⟩ := hfile hs
    rw [Scan.start_of_file hknown] at h
    cases h
    exact ⟨.refl, .ok ⟨rfl, rfl⟩⟩
  constructor
  · exact hcalm
  · exact fun hs h => hbegun hs h
  · exact fun hs _ h => hbegun hs h
  · rintro α consume inv stop ⟨count, next, buffer⟩ left a s ending scan' a' s' hconsume hinv
      ⟨rfl, hbuffer⟩ ha h
    obtain rfl : buffer = [] := hbuffer
    replace h : Scan.eachPage table catalog consume (count - next) ⟨count, next, []⟩ a s =
        (ending, scan', a', s') := h
    cases hfurther : count - next with
    | zero =>
      rw [hfurther] at h
      cases h
      exact .exhausted ⟨rfl, rfl⟩ ha
    | succ further =>
      rw [hfurther] at h
      unfold Scan.eachPage at h
      simp only [deliver, Bool.false_eq_true, if_false] at h
      rcases hpage : s.getPage catalog ⟨table, next⟩ with ⟨r, s₁⟩
      obtain ⟨hquiet, e, rfl⟩ := hno (hinv ha) hpage
      rw [hpage] at h
      cases h
      exact .failed (hfails e) (hconsume.quiet ha hquiet)

end Scan

/-! ## Reading to the end -/

theorem takeRow_consumes (hcalm : ∀ {s s'}, W s → Quiet catalog s s' → W s') (rows : List Row) :
    Consumes catalog takeRow (fun left taken s => W s ∧ rows = taken.reverse ++ left)
      fun _ _ _ => False := by
  refine ⟨?_, fun ⟨hs, ha⟩ hquiet => ⟨hcalm hs hquiet, ha⟩⟩
  rintro row left taken s step s' ⟨hs, rfl⟩ h
  cases h
  refine ⟨hs, ?_⟩
  show taken.reverse ++ row :: left = (row :: taken).reverse ++ left
  rw [List.reverse_cons, List.append_assoc]
  rfl

/-- A source that is read to its end has given all its rows. -/
theorem Gives.readAll {src : Source} {rows : List Row} {has : src.State → List Row → Prop}
    (hsrc : Gives catalog W fails src rows has) {s s' : Storage}
    {r : Except Error (List Row)} (hs : W s) (h : src.readAll catalog s = (r, s')) :
    W s' ∧ (r = .ok rows ∨ ∃ e, r = .error e ∧ fails e) := by
  unfold Source.readAll at h
  rcases hstart : src.start catalog src.initial s with ⟨result, st, s₁⟩
  obtain ⟨hquiet, hbegun⟩ := hsrc.start hs hstart
  have hs₁ : W s₁ := hsrc.calm hs hquiet
  rw [hstart] at h
  cases hbegun with
  | error he =>
    cases h
    exact ⟨hs₁, Or.inr ⟨_, rfl, he⟩⟩
  | ok hst =>
    simp only at h
    rcases heach : src.each catalog takeRow st [] s₁ with ⟨ending, st', taken, s₂⟩
    have htake := takeRow_consumes (fun hs hquiet => hsrc.calm hs hquiet) rows
    have hended := hsrc.each htake And.left hst ⟨hs₁, rfl⟩ heach
    rw [heach] at h
    cases hended with
    | exhausted hst ha =>
      obtain ⟨hs₂, hrows⟩ := ha
      rw [List.append_nil] at hrows
      cases h
      exact ⟨hs₂, Or.inl (by rw [hrows])⟩
    | stopped hst ha => exact ha.elim
    | failed he ha =>
      cases h
      exact ⟨ha.1, Or.inr ⟨_, rfl, he⟩⟩

end RowStore.Source
