import RowStore.Proofs.Files.Names
import RowStore.Proofs.HeapFile.Pages
import RowStore.Proofs.Storage.Operations

/-!
What operations on the storage do to the file tree.

1. A step writes the file of a table that the catalog knows, or makes an empty file where there was
   none, or leaves the files alone (`Step.files_cases`).
2. So files are never lost (`Steps.grown`), a run that makes no file keeps the shape of the tree
   (`Steps.sameShape`), and the bytes of a file that belongs to no table stay (`Steps.content`).
3. The number of a table is computed from its path.  Different files can get the same number, and
   then they are one table to the catalog; `DistinctIds` says that this did not happen.
-/

namespace RowStore

/-! ## Numbers of files -/

/-- Different files have different table numbers. -/
def Files.DistinctIds (f : Files) : Prop :=
  ∀ p ∈ Assoc.keys f.contents, ∀ q ∈ Assoc.keys f.contents, tableIdOf p = tableIdOf q → p = q

instance (f : Files) : Decidable f.DistinctIds :=
  inferInstanceAs (Decidable (∀ p ∈ _, ∀ q ∈ _, _ → _))

namespace Files

variable {f g : Files}

theorem mem_keys_iff {p : Path} : p ∈ Assoc.keys f.contents ↔ (f.content? p).isSome = true := by
  rw [Assoc.mem_keys_iff, Option.isSome_iff_exists]
  rfl

theorem DistinctIds.eq (hids : f.DistinctIds) {p q : Path} (hp : (f.content? p).isSome = true)
    (hq : (f.content? q).isSome = true) (hid : tableIdOf p = tableIdOf q) : p = q :=
  hids p (mem_keys_iff.mpr hp) q (mem_keys_iff.mpr hq) hid

theorem DistinctIds.of_subset (hids : g.DistinctIds)
    (hsub : ∀ p, (f.content? p).isSome = true → (g.content? p).isSome = true) :
    f.DistinctIds := by
  intro p hp q hq hid
  refine hids.eq ?_ ?_ hid
  · exact hsub p (mem_keys_iff.mp hp)
  · exact hsub q (mem_keys_iff.mp hq)

/-- If the numbers are different in the end, they were different all the time. -/
theorem DistinctIds.of_grown (hids : g.DistinctIds) (hgrown : Grown f g) : f.DistinctIds :=
  hids.of_subset hgrown.isSome_content?

end Files

/-! ## Files of tables -/

/-- Every table that the catalog knows has a file. -/
def Catalog.Filed (catalog : Catalog) (files : Files) : Prop :=
  ∀ id h, catalog.file id = .ok h → (files.content? h.path).isSome = true

namespace Storage

open Files

variable {catalog : Catalog} {may : Effect → Prop} {id : PageId} {s s' : Storage}

theorem flushPage_files {r : Except Error Unit} (hflush : flushPage catalog id s = (r, s')) :
    s'.files = s.files ∨
    ∃ table h bytes, catalog.file table = .ok h ∧ (s.files.content h.path).size ≤ bytes.size ∧
      s'.files = s.files.put h.path bytes := by
  obtain ⟨-, rfl, -⟩ | ⟨frame, -, -, ⟨e, -, -, rfl⟩ | ⟨h, files, hfile, hwrite, -, rfl⟩⟩ :=
    flushPage_cases hflush
  · exact Or.inl rfl
  · exact Or.inl rfl
  · obtain ⟨bytes, hlonger, hput⟩ := HeapFile.put_of_writePage hwrite
    exact Or.inr ⟨_, h, bytes, hfile, hlonger, hput⟩

/-- What a step does to the files. -/
theorem Step.files_cases (hstep : Step catalog may s s') (hs : s.pool.Sound) :
    s'.files = s.files ∨
    (∃ table h bytes, catalog.file table = .ok h ∧ (s.files.content h.path).size ≤ bytes.size ∧
      s'.files = s.files.put h.path bytes) ∨
    (may .make ∧ ∃ path, s.files.content? path = none ∧ s'.files = s.files.put path #[]) := by
  cases hstep with
  | count => exact Or.inl rfl
  | flush hfind hdirty hfile hwrite =>
    obtain ⟨bytes, hlonger, hput⟩ := HeapFile.put_of_writePage hwrite
    exact Or.inr (Or.inl ⟨_, _, bytes, hfile, hlonger, hput⟩)
  | @load s₁ _ page hnone hread hroom =>
    obtain ⟨-, -, rfl⟩ | ⟨-, victim, rest, frame, -, -, ⟨e, -, -, -, rfl⟩ |
      ⟨s₂, hflush, -, -, rfl⟩⟩ := makeRoom_cases hs hroom
    · exact Or.inl rfl
    · exact Or.inl rfl
    · -- only the page that goes is written
      rcases flushPage_files hflush with hsame | hput
      · exact Or.inl hsame
      · exact Or.inr (Or.inl hput)
  | requeue hfind => exact Or.inl rfl
  | change hmay hfind hid hschema hsize => exact Or.inl rfl
  | grow hmay hfile hblank hwrite =>
    obtain ⟨bytes, hlonger, hput⟩ := HeapFile.put_of_writePage hwrite
    exact Or.inr (Or.inl ⟨_, _, bytes, hfile, hlonger, hput⟩)
  | discard hmay => exact Or.inl rfl
  | create hmay habsent => exact Or.inr (Or.inr ⟨hmay, _, habsent, rfl⟩)

theorem Step.grown (hstep : Step catalog may s s') (hs : s.pool.Sound) :
    Grown s.files s'.files := by
  rcases hstep.files_cases hs with hsame | ⟨-, h, bytes, -, -, hput⟩ | ⟨-, path, -, hput⟩
  · rw [hsame]
    exact .refl _
  · rw [hput]
    exact .put _ _ _
  · rw [hput]
    exact .put _ _ _

theorem Steps.grown (hsteps : Steps catalog may s s') (hs : s.pool.Sound) :
    Grown s.files s'.files := by
  induction hsteps with
  | refl => exact .refl _
  | tail hbefore hstep ih => exact ih.trans (hstep.grown (Steps.sound hbefore hs))

theorem Step.sameShape (hstep : Step catalog may s s') (hs : s.pool.Sound) (hno : ¬ may .make)
    (hfiled : catalog.Filed s.files) : SameShape s.files s'.files := by
  rcases hstep.files_cases hs with hsame | ⟨table, h, bytes, hfile, -, hput⟩ | ⟨hmay, -⟩
  · rw [hsame]
    exact .refl _
  · rw [hput]
    exact (SameShape.refl _).put_right bytes (hfiled table h hfile)
  · exact absurd hmay hno

/-- A run that makes no file keeps the shape of the tree. -/
theorem Steps.sameShape (hsteps : Steps catalog may s s') (hs : s.pool.Sound) (hno : ¬ may .make)
    (hfiled : catalog.Filed s.files) : SameShape s.files s'.files := by
  induction hsteps with
  | refl => exact .refl _
  | tail hbefore hstep ih =>
    have hfiled₁ : catalog.Filed _ := fun id h hfile =>
      (Steps.grown hbefore hs).isSome_content? h.path (hfiled id h hfile)
    exact ih.trans (hstep.sameShape (Steps.sound hbefore hs) hno hfiled₁)

theorem Step.content (hstep : Step catalog may s s') (hs : s.pool.Sound) {p : Path}
    (hp : ∀ id h, catalog.file id = .ok h → h.path ≠ p) :
    s'.files.content p = s.files.content p := by
  rcases hstep.files_cases hs with hsame | ⟨table, h, bytes, hfile, -, hput⟩ | ⟨-, path, hnone, hput⟩
  · rw [hsame]
  · rw [hput, content_put, if_neg]
    exact fun hpath => hp table h hfile hpath.symm
  · rw [hput, content_put_empty hnone]

/-- The bytes of a file that belongs to no table stay. -/
theorem Steps.content (hsteps : Steps catalog may s s') (hs : s.pool.Sound) {p : Path}
    (hp : ∀ id h, catalog.file id = .ok h → h.path ≠ p) :
    s'.files.content p = s.files.content p := by
  induction hsteps with
  | refl => rfl
  | tail hbefore hstep ih => exact (hstep.content (Steps.sound hbefore hs) hp).trans ih

end Storage

end RowStore
