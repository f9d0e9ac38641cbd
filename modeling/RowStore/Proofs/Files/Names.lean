import RowStore.Files

/-!
Where names lead.

1. The path of the file called `name` (`Files.pathOf`) is found without looking at the bytes of
   any file; `openFile` only has to ask whether there is a file at that path (`openFile_eq`).
2. So a name leads to the same path, or is refused for the same reason, in two trees of the same
   shape (`pathOf_congr`), and a name that leads to a path still does when further files were made
   (`pathOf_grown`).
3. Making directories that are there changes nothing (`makeDirectories_again`).
-/

namespace RowStore.Files

variable {f g : Files}

/-! ## Paths of files -/

/-- The path of the file called `name`, there or not. -/
def pathOf (f : Files) (name : String) : Except StorageFault Path := do
  match ← f.locate name with
  | .directory _ => .error .isDirectory
  | .entry dir last =>
    let p := dir ++ [last]
    if Path.endsInSlash name then .error .isDirectory
    else if isLong last then .error .nameTooLong
    else if f.isDirectory p then .error .isDirectory
    else .ok p

/-- The tree in which the file at a path is there. -/
def opened (f : Files) (p : Path) : Files := if (f.content? p).isSome then f else f.put p #[]

theorem openFile_eq (f : Files) (name : String) :
    f.openFile name = (f.pathOf name).map fun p => (p, f.opened p) := by
  unfold openFile pathOf
  simp only [bind, Except.bind]
  cases f.locate name with
  | error fault => rfl
  | ok target =>
    cases target with
    | directory p => rfl
    | entry dir last =>
      simp only
      split
      · rfl
      · split
        · rfl
        · split
          · rfl
          · simp only [Except.map, opened]
            cases f.content? (dir ++ [last]) <;> rfl

/-! ## Trees of the same shape -/

/-- Two trees with the same directories, and with files at the same paths. -/
structure SameShape (f g : Files) : Prop where
  current : g.current = f.current
  directories : g.directories = f.directories
  isSome_content? : ∀ p, (g.content? p).isSome = (f.content? p).isSome

theorem SameShape.refl (f : Files) : SameShape f f := ⟨rfl, rfl, fun _ => rfl⟩

theorem SameShape.trans {k : Files} (h₁ : SameShape f g) (h₂ : SameShape g k) : SameShape f k :=
  ⟨h₂.current.trans h₁.current, h₂.directories.trans h₁.directories,
    fun p => (h₂.isSome_content? p).trans (h₁.isSome_content? p)⟩

theorem SameShape.isDirectory (hshape : SameShape f g) (p : Path) :
    g.isDirectory p = f.isDirectory p := by
  rw [Files.isDirectory, Files.isDirectory, hshape.directories]

theorem SameShape.start (hshape : SameShape f g) (name : String) :
    g.start name = f.start name := by
  rw [Files.start, Files.start, hshape.current]

theorem walk_congr (hshape : SameShape f g) (dir : Path) (names : List String) :
    g.walk dir names = f.walk dir names := by
  induction names generalizing dir with
  | nil => rfl
  | cons name rest ih =>
    unfold walk
    rw [hshape.isDirectory, hshape.isSome_content?, ih, ih, ih]

theorem locate_congr (hshape : SameShape f g) (name : String) :
    g.locate name = f.locate name := by
  unfold locate
  rw [hshape.start]
  simp only [walk_congr hshape]

theorem pathOf_congr (hshape : SameShape f g) (name : String) :
    g.pathOf name = f.pathOf name := by
  unfold pathOf
  rw [locate_congr hshape]
  simp only [hshape.isDirectory]

theorem SameShape.put (hshape : SameShape f g) (p : Path) (bytes bytes' : Bytes) :
    SameShape (f.put p bytes) (g.put p bytes') where
  current := hshape.current
  directories := hshape.directories
  isSome_content? := fun q => by
    rw [content?_put, content?_put]
    split
    · rfl
    · exact hshape.isSome_content? q

/-- Giving new bytes to a file that is there keeps the shape of the tree. -/
theorem SameShape.put_right (hshape : SameShape f g) {p : Path} (bytes : Bytes)
    (hthere : (f.content? p).isSome = true) : SameShape f (g.put p bytes) where
  current := hshape.current
  directories := hshape.directories
  isSome_content? := fun q => by
    rw [content?_put]
    split
    · rename_i hq
      rw [hq, hthere]
      rfl
    · exact hshape.isSome_content? q

/-! ## Trees that grow -/

/-- A file that was not there has no bytes before it is made, and none afterwards. -/
theorem content_put_empty {p : Path} (habsent : f.content? p = none) (q : Path) :
    (f.put p #[]).content q = f.content q := by
  rw [content_put]
  split
  · rename_i hq
    rw [content, hq, habsent]
    rfl
  · rfl

/-- A tree with the same directories, and with more files. -/
structure Grown (f g : Files) : Prop where
  current : g.current = f.current
  directories : g.directories = f.directories
  isSome_content? : ∀ p, (f.content? p).isSome = true → (g.content? p).isSome = true

namespace Grown

theorem refl (f : Files) : Grown f f := ⟨rfl, rfl, fun _ h => h⟩

theorem trans {k : Files} (h₁ : Grown f g) (h₂ : Grown g k) : Grown f k :=
  ⟨h₂.current.trans h₁.current, h₂.directories.trans h₁.directories,
    fun p hp => h₂.isSome_content? p (h₁.isSome_content? p hp)⟩

theorem put (f : Files) (p : Path) (bytes : Bytes) : Grown f (f.put p bytes) :=
  ⟨rfl, rfl, fun q hq => by
    rw [content?_put]
    split
    · rfl
    · exact hq⟩

end Grown

/-! ## Trees in which a file was opened -/

theorem isSome_opened (f : Files) (p : Path) : ((f.opened p).content? p).isSome = true := by
  unfold opened
  split
  · assumption
  · rw [content?_put, if_pos rfl]
    rfl

theorem content_opened (f : Files) (p q : Path) : (f.opened p).content q = f.content q := by
  unfold opened
  split
  · rfl
  · rename_i hnone
    rw [Bool.not_eq_true, Option.isSome_eq_false_iff, Option.isNone_iff_eq_none] at hnone
    exact content_put_empty hnone q

theorem Grown.opened (f : Files) (p : Path) : Grown f (f.opened p) := by
  unfold Files.opened
  split
  · exact .refl f
  · exact .put f p #[]

theorem SameShape.opened (hshape : SameShape f g) (p : Path) :
    SameShape (f.opened p) (g.opened p) := by
  unfold Files.opened
  rw [hshape.isSome_content?]
  split
  · exact hshape
  · exact hshape.put p #[] #[]

/-! ## Names in trees that grew -/

section Directories

-- only directories are asked on the way to a file
variable (hcurrent : g.current = f.current) (hdirectories : g.directories = f.directories)

include hdirectories in
theorem isDirectory_congr (p : Path) : g.isDirectory p = f.isDirectory p := by
  rw [isDirectory, isDirectory, hdirectories]

include hdirectories in
theorem walk_of_directories {dir p : Path} {names : List String}
    (hwalk : f.walk dir names = .ok p) : g.walk dir names = .ok p := by
  induction names generalizing dir with
  | nil => exact hwalk
  | cons name rest ih =>
    unfold walk at hwalk ⊢
    rw [isDirectory_congr hdirectories]
    by_cases hdot : name = "."
    · rw [if_pos hdot] at hwalk ⊢
      exact ih hwalk
    by_cases hdots : name = ".."
    · rw [if_neg hdot, if_pos hdots] at hwalk ⊢
      exact ih hwalk
    rw [if_neg hdot, if_neg hdots] at hwalk ⊢
    by_cases hlong : isLong name = true
    · rw [if_pos hlong] at hwalk
      cases hwalk
    by_cases hdir : f.isDirectory (dir ++ [name]) = true
    · rw [if_neg hlong, if_pos hdir] at hwalk ⊢
      exact ih hwalk
    · rw [if_neg hlong, if_neg hdir] at hwalk
      split at hwalk <;> cases hwalk

include hcurrent hdirectories in
/-- A name that leads to a path does so in every tree with the same directories. -/
theorem pathOf_of_directories {name : String} {p : Path} (hpath : f.pathOf name = .ok p) :
    g.pathOf name = .ok p := by
  have hstart : g.start name = f.start name := by rw [start, start, hcurrent]
  unfold pathOf locate at hpath ⊢
  simp only [bind, Except.bind] at hpath ⊢
  rw [hstart]
  cases hcheck : checkName name with
  | error fault =>
    rw [hcheck] at hpath
    cases hpath
  | ok =>
    rw [hcheck] at hpath
    simp only at hpath ⊢
    by_cases hempty : name = ""
    · rw [if_pos hempty] at hpath
      cases hpath
    rw [if_neg hempty] at hpath ⊢
    cases hnames : (Path.segments name).reverse with
    | nil =>
      rw [hnames] at hpath
      cases hpath
    | cons last before =>
      rw [hnames] at hpath
      simp only at hpath ⊢
      cases hwalk : f.walk (f.start name) before.reverse with
      | error fault =>
        rw [hwalk] at hpath
        cases hpath
      | ok dir =>
        rw [hwalk] at hpath
        rw [walk_of_directories hdirectories hwalk]
        simp only [isDirectory_congr hdirectories] at hpath ⊢
        exact hpath

end Directories

/-- A name that leads to a path still does when further files were made. -/
theorem pathOf_grown (hgrown : Grown f g) {name : String} {p : Path}
    (hpath : f.pathOf name = .ok p) : g.pathOf name = .ok p :=
  pathOf_of_directories hgrown.current hgrown.directories hpath

/-- And it led there before. -/
theorem pathOf_grown_iff (hgrown : Grown f g) {name : String} {p : Path} :
    g.pathOf name = .ok p ↔ f.pathOf name = .ok p :=
  ⟨pathOf_of_directories hgrown.current.symm hgrown.directories.symm, pathOf_grown hgrown⟩

/-! ## Making directories -/

/-- Making directories adds some directories behind those that are there, and nothing else. -/
theorem exists_makeBelow {dir : Path} {names : List String} {r : Except StorageFault Unit}
    (hmake : f.makeBelow dir names = (r, g)) :
    ∃ made, g = { f with directories := f.directories ++ made } := by
  have hnone : f = { f with directories := f.directories ++ [] } := by rw [List.append_nil]
  induction names generalizing f dir with
  | nil =>
    cases hmake
    exact ⟨[], hnone⟩
  | cons name rest ih =>
    unfold makeBelow at hmake
    simp only at hmake
    split at hmake
    · exact ih hmake hnone
    · split at hmake
      · exact ih hmake hnone
      · split at hmake
        · cases hmake
          exact ⟨[], hnone⟩
        · split at hmake
          · exact ih hmake hnone
          · split at hmake
            · cases hmake
              exact ⟨[], hnone⟩
            · obtain ⟨made, rfl⟩ := ih hmake (by rw [List.append_nil])
              exact ⟨_, congrArg (fun dirs => { f with directories := dirs }) (List.append_assoc ..)⟩

theorem mem_directories_makeBelow {dir p : Path} {names : List String} {r : Except StorageFault Unit}
    (hmake : f.makeBelow dir names = (r, g)) (hp : p ∈ f.directories) : p ∈ g.directories := by
  obtain ⟨made, rfl⟩ := exists_makeBelow hmake
  exact List.mem_append_left _ hp

/-- Below a directory where all directories were made, there is nothing left to make. -/
theorem makeBelow_again {k : Files} {dir : Path} {names : List String}
    (hmake : f.makeBelow dir names = (.ok (), g)) (hsub : ∀ p ∈ g.directories, p ∈ k.directories) :
    k.makeBelow dir names = (.ok (), k) := by
  have hdirectory : ∀ {p : Path}, p ∈ g.directories → k.isDirectory p = true := by
    intro p hp
    have hmem := hsub p hp
    simp [isDirectory, hmem]
  induction names generalizing f dir with
  | nil => rfl
  | cons name rest ih =>
    unfold makeBelow at hmake ⊢
    simp only at hmake ⊢
    by_cases hdot : name = "."
    · rw [if_pos hdot] at hmake ⊢
      exact ih hmake
    by_cases hdots : name = ".."
    · rw [if_neg hdot, if_pos hdots] at hmake ⊢
      exact ih hmake
    rw [if_neg hdot, if_neg hdots] at hmake ⊢
    by_cases hlong : isLong name = true
    · rw [if_pos hlong] at hmake
      cases hmake
    rw [if_neg hlong] at hmake ⊢
    by_cases hdir : f.isDirectory (dir ++ [name]) = true
    · rw [if_pos hdir] at hmake
      have hin : dir ++ [name] ∈ f.directories := by simpa [isDirectory] using hdir
      rw [if_pos (hdirectory (mem_directories_makeBelow hmake hin))]
      exact ih hmake
    rw [if_neg hdir] at hmake
    split at hmake
    · cases hmake
    · have hin : dir ++ [name] ∈ f.directories ++ [dir ++ [name]] :=
        List.mem_append_right _ (List.mem_singleton_self _)
      rw [if_pos (hdirectory (mem_directories_makeBelow hmake hin))]
      exact ih hmake

/-- Directories that were made need not be made again, also after further files were made. -/
theorem makeDirectories_again {k : Files} {name : String}
    (hmake : f.makeDirectories name = (.ok (), g)) (hgrown : Grown g k) :
    k.makeDirectories name = (.ok (), k) := by
  unfold makeDirectories at hmake ⊢
  cases hcheck : checkName name with
  | error fault =>
    rw [hcheck] at hmake
    cases hmake
  | ok =>
    rw [hcheck] at hmake
    simp only at hmake ⊢
    have hstart : k.start name = f.start name := by
      obtain ⟨made, rfl⟩ := exists_makeBelow hmake
      rw [start, start, hgrown.current]
    rw [hstart]
    exact makeBelow_again hmake fun p hp => hgrown.directories.symm ▸ hp

end RowStore.Files
