import RowStore.Proofs.Cursor.Gives

/-!
What a scan does.

Program.  A scan gives the rows of one page, takes the next page, gives its rows, and so on until it
has asked for all its pages.  Between two rows its consumer may do anything, and change the pages to
come as well.

1. The rule for this loop, whatever becomes of the pages: what holds of the page to come, of the rows
   that are left of the present page, of what the consumer carries along and of the storage, holds
   when the loop ends, if the consumer keeps it and if taking a page does (`Scan.eachPage_ends`).
2. Asked for one row, a scan takes pages until one of them has a row (`Scan.fetch_take`).
3. A scan by itself writes nothing: as long as the consumer writes only what `may` allows
   (`ConsumerSteps`), so does the scan (`Scan.eachPage_steps`).
-/

namespace RowStore.Source

open Storage

variable {α : Type} {catalog : Catalog} {table : TableId} {consume : Consumer α}
  {scan scan' : Scan} {a a' : α} {s s' : Storage} {ending : Ending}

/-- **The loop of a scan.**  The invariant says of the number of the page to come what the consumer's
    contract says of the rows that are left of the present page.  The loop ends at the last page, unless
    the consumer has enough before or a page cannot be taken. -/
theorem Scan.eachPage_ends {fails : Error → Prop} {inv stop : Nat → List Row → α → Storage → Prop}
    (hconsume : ∀ n, Consumes catalog consume (inv n) (stop n)) {further last : Nat}
    (hlast : scan.next + further = last)
    (hpage : ∀ {n a s r s'}, n < last → inv n [] a s → s.getPage catalog ⟨table, n⟩ = (r, s') →
      (∃ frame, r = .ok frame ∧ inv (n + 1) frame.page.rows a s') ∨
      (∃ e, r = .error e ∧ fails e ∧ inv n [] a s'))
    (ha : inv scan.next scan.buffer a s)
    (h : Scan.eachPage table catalog consume further scan a s = (ending, scan', a', s')) :
    scan'.count = scan.count ∧ scan'.next ≤ last ∧ (ending = .exhausted → scan'.next = last) ∧
      Ended fails (fun scan left => left = scan.buffer) (inv scan'.next) (stop scan'.next) ending
        scan' a' s' := by
  -- the induction is on the number of pages that are still to be asked for
  induction further generalizing scan a s with
  | zero =>
    unfold Scan.eachPage at h
    rcases hdeliver : deliver consume scan.buffer a s with ⟨stopped, left, b, s₁⟩
    obtain ⟨-, hend⟩ := deliver_ends (hconsume scan.next) (by rwa [List.append_nil]) hdeliver
    rw [hdeliver] at h
    cases h
    refine ⟨rfl, Nat.le_of_eq hlast, fun _ => hlast, ?_⟩
    rcases hend with ⟨rfl, rfl, hb⟩ | ⟨rfl, hb⟩
    · exact .exhausted rfl hb
    · rw [List.append_nil] at hb
      exact .stopped rfl hb
  | succ further ih =>
    unfold Scan.eachPage at h
    rcases hdeliver : deliver consume scan.buffer a s with ⟨stopped, left, b, s₁⟩
    obtain ⟨-, hend⟩ := deliver_ends (hconsume scan.next) (by rwa [List.append_nil]) hdeliver
    rw [hdeliver] at h
    have hle : scan.next ≤ last := by omega
    rcases hend with ⟨rfl, rfl, hb⟩ | ⟨rfl, hb⟩
    · simp only [Bool.false_eq_true, if_false] at h
      rcases hget : s₁.getPage catalog ⟨table, scan.next⟩ with ⟨r, s₂⟩
      have hfound := hpage (by omega) hb hget
      rw [hget] at h
      rcases hfound with ⟨frame, rfl, hb₂⟩ | ⟨e, rfl, he, hb₂⟩
      · have hnext : scan.next + 1 + further = last := by omega
        exact @ih ⟨scan.count, scan.next + 1, frame.page.rows⟩ b s₂ hnext hb₂ h
      · cases h
        exact ⟨rfl, hle, nofun, .failed he hb₂⟩
    · cases h
      rw [List.append_nil] at hb
      exact ⟨rfl, hle, nofun, .stopped rfl hb⟩

/-! ## One row at a time -/

section Take

variable {fails : Error → Prop} {J : Nat → List Row → Storage → Prop} {given : List Row}

/-- How taking one more row ends, when `given` were given before: `J` says of the number of pages that were
    taken, and of all rows that they had, what is to be known of the storage. -/
inductive Scan.Taken (fails : Error → Prop) (J : Nat → List Row → Storage → Prop) (given : List Row)
    (scan : Scan) (s : Storage) : Ending → Option Row → Prop
  /-- A page cannot be taken. -/
  | failed {e : Error} (he : fails e) (h : J scan.next (given ++ scan.buffer) s) :
    Taken fails J given scan s (.failed e) none
  /-- The row comes before those that are left of its page. -/
  | row {row : Row} (h : J scan.next (given ++ row :: scan.buffer) s) :
    Taken fails J given scan s .stopped (some row)
  /-- All pages were taken, and no row is left. -/
  | ended (hlast : scan.next = scan.count) (hbuffer : scan.buffer = []) (h : J scan.next given s) :
    Taken fails J given scan s .exhausted none

/-- **Taking one row.**  Pages are taken until one of them has a row. -/
theorem Scan.eachPage_take {pages : Nat} (hlast : scan.next + pages = scan.count)
    (hpage : ∀ {n s r s'}, n < scan.count → J n given s → s.getPage catalog ⟨table, n⟩ = (r, s') →
      (∃ frame, r = .ok frame ∧ J (n + 1) (given ++ frame.page.rows) s') ∨
      (∃ e, r = .error e ∧ fails e ∧ J n given s'))
    (hJ : J scan.next (given ++ scan.buffer) s) {found : Option Row}
    (h : Scan.eachPage table catalog (fun row _ s => (.done (some row), s)) pages scan none s =
      (ending, scan', found, s')) :
    scan'.count = scan.count ∧ scan'.next ≤ scan.count ∧ Scan.Taken fails J given scan' s' ending found := by
  -- the induction is on the number of pages that are still to be asked for
  induction pages generalizing scan s with
  | zero =>
    obtain ⟨count, next, buffer⟩ := scan
    have hle : next = count := hlast
    cases buffer with
    | nil =>
      cases h
      rw [List.append_nil] at hJ
      exact ⟨rfl, Nat.le_of_eq hle, .ended hle rfl hJ⟩
    | cons row buffer =>
      cases h
      exact ⟨rfl, Nat.le_of_eq hle, .row hJ⟩
  | succ pages ih =>
    obtain ⟨count, next, buffer⟩ := scan
    have hsum : next + (pages + 1) = count := hlast
    have hlt : next < count := by omega
    cases buffer with
    | cons row buffer =>
      cases h
      exact ⟨rfl, Nat.le_of_lt hlt, .row hJ⟩
    | nil =>
      rw [List.append_nil] at hJ
      simp only [Scan.eachPage, deliver, Bool.false_eq_true, if_false] at h
      rcases hget : s.getPage catalog ⟨table, next⟩ with ⟨r, s₁⟩
      rw [hget] at h
      obtain ⟨frame, rfl, hJ₁⟩ | ⟨e, rfl, he, hJ₁⟩ := hpage hlt hJ hget
      · have hrest : (⟨count, next + 1, frame.page.rows⟩ : Scan).next + pages = count := by
          show next + 1 + pages = count
          omega
        exact @ih ⟨count, next + 1, frame.page.rows⟩ s₁ hrest hpage hJ₁ h
      · cases h
        refine ⟨rfl, Nat.le_of_lt hlt, .failed he ?_⟩
        rwa [List.append_nil]

/-- Asking a scan for its next row. -/
theorem Scan.fetch_take {schema : Schema} (hle : scan.next ≤ scan.count)
    (hpage : ∀ {n s r s'}, n < scan.count → J n given s → s.getPage catalog ⟨table, n⟩ = (r, s') →
      (∃ frame, r = .ok frame ∧ J (n + 1) (given ++ frame.page.rows) s') ∨
      (∃ e, r = .error e ∧ fails e ∧ J n given s'))
    (hJ : J scan.next (given ++ scan.buffer) s) {r : Except Error (Option Row)}
    (h : (ofTable table schema).fetch catalog scan s = (r, scan', s')) :
    scan'.count = scan.count ∧ scan'.next ≤ scan.count ∧ ∃ ending found,
      Scan.Taken fails J given scan' s' ending found ∧ r = match ending with
        | .failed e => .error e
        | .exhausted | .stopped => .ok found := by
  unfold fetch at h
  rcases heach : (ofTable table schema).each catalog
      (fun row _ s => (.done (some row), s)) scan (none : Option Row) s with ⟨ending, scan₁, found, s₁⟩
  have hlast : scan.next + (scan.count - scan.next) = scan.count := Nat.add_sub_of_le hle
  obtain ⟨hcount, hle₁, htaken⟩ := Scan.eachPage_take hlast hpage hJ heach
  rw [heach] at h
  cases ending with
  | failed e | exhausted | stopped =>
    cases h
    exact ⟨hcount, hle₁, _, _, htaken, rfl⟩

end Take

/-! ## Steps -/

variable {may : Effect → Prop}

/-- A consumer has no effects but those of `may`. -/
def ConsumerSteps (catalog : Catalog) (may : Effect → Prop) (consume : Consumer α) : Prop :=
  ∀ row a s step s', s.pool.Sound → consume row a s = (step, s') → Steps catalog may s s'

/-- What was reached by steps of the storage is a contract that such a consumer keeps. -/
theorem ConsumerSteps.consumes (hconsume : ConsumerSteps catalog may consume) (hs : s.pool.Sound) :
    Consumes catalog consume (fun _ _ s' => Steps catalog may s s')
      fun _ _ s' => Steps catalog may s s' where
  row := by
    intro row left a s₁ step s₂ hsteps hrow
    have hnext := hsteps.trans (hconsume _ _ _ _ _ (hsteps.sound hs) hrow)
    cases step <;> exact hnext
  quiet := fun hsteps hquiet => hsteps.trans hquiet.steps

theorem Scan.eachPage_steps (hconsume : ConsumerSteps catalog may consume) {pages : Nat}
    (hs : s.pool.Sound)
    (h : Scan.eachPage table catalog consume pages scan a s = (ending, scan', a', s')) :
    Steps catalog may s s' := by
  have hpage : ∀ {n : Nat} {b : α} {s₁ s₂ : Storage} {r : Except Error Frame}, n < scan.next + pages →
      Steps catalog may s s₁ → s₁.getPage catalog ⟨table, n⟩ = (r, s₂) →
      (∃ frame : Frame, r = .ok frame ∧ Steps catalog may s s₂) ∨
      (∃ e, r = .error e ∧ True ∧ Steps catalog may s s₂) := by
    intro n b s₁ s₂ r _ hsteps hget
    have hsteps' := hsteps.trans (getPage_steps (hsteps.sound hs) hget)
    cases r with
    | ok frame => exact Or.inl ⟨frame, rfl, hsteps'⟩
    | error e => exact Or.inr ⟨e, rfl, trivial, hsteps'⟩
  obtain ⟨-, -, -, hended⟩ :=
    Scan.eachPage_ends (fun _ => hconsume.consumes hs) rfl (hpage (b := a)) .refl h
  cases hended <;> assumption

end RowStore.Source
