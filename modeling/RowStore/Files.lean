import RowStore.Assoc
import RowStore.Bytes
import RowStore.Error
import RowStore.Files.Path
import RowStore.Text.Utf8

/-!
The file tree that a store lives in.

1. `Files` knows its directories and the bytes of its files, and where names that do not start
   at the root begin.  There are no links: every name leads to one path.
2. A name is followed step by step: `.` stays, `..` goes up, and every name but the last must be
   that of a directory.  What can stop it is a `StorageFault`.
3. `openFile` finds a file or makes an empty one, `readBytes` wants one that is there, and
   `makeDirectories` makes all directories on the way that are missing.
4. No operation removes a file or a directory.
-/

namespace RowStore

/-- Directories and files. -/
structure Files where
  /-- Where names that do not start at the root begin. -/
  current : Path
  /-- The directories other than the root. -/
  directories : List Path
  /-- The files and their bytes. -/
  contents : List (Path × Bytes)
  deriving DecidableEq

namespace Files

/-- A tree with nothing but the root. -/
def empty : Files := ⟨[], [], []⟩

/-- Whether there is a directory at a path. -/
def isDirectory (f : Files) (p : Path) : Bool := p.isEmpty || f.directories.contains p

/-- The bytes of the file at a path, if there is one. -/
def content? (f : Files) (p : Path) : Option Bytes := Assoc.find? p f.contents

/-- The bytes of the file at a path; none if there is no file. -/
def content (f : Files) (p : Path) : Bytes := (f.content? p).getD #[]

/-- The tree with `bytes` as the content of the file at `p`. -/
def put (f : Files) (p : Path) (bytes : Bytes) : Files :=
  { f with contents := Assoc.put p bytes f.contents }

/-- Putting a content changes that file and no other. -/
@[simp]
theorem content?_put (f : Files) (p q : Path) (bytes : Bytes) :
    (f.put p bytes).content? q = if q = p then some bytes else f.content? q :=
  Assoc.find?_put p q bytes f.contents

theorem content_put (f : Files) (p q : Path) (bytes : Bytes) :
    (f.put p bytes).content q = if q = p then bytes else f.content q := by
  simp only [content, content?_put]
  split <;> rfl

/-- Every byte of every file has a number that is a signed word of 64 bits, as on every machine. -/
def Addressable (f : Files) : Prop := ∀ p ∈ Assoc.keys f.contents, (f.content p).size < 0x8000000000000000

instance (f : Files) : Decidable f.Addressable :=
  inferInstanceAs (Decidable (∀ p ∈ _, _ < _))

theorem content_of_not_mem {f : Files} {p : Path} (hp : p ∉ Assoc.keys f.contents) :
    f.content p = #[] := by
  rw [content, content?, Assoc.find?_eq_none_iff.mpr hp]
  rfl

theorem addressable_iff {f : Files} :
    f.Addressable ↔ ∀ p, (f.content p).size < 0x8000000000000000 := by
  constructor
  · intro hf p
    by_cases hp : p ∈ Assoc.keys f.contents
    · exact hf p hp
    · rw [content_of_not_mem hp]
      decide
  · exact fun hf p _ => hf p

/-! ## Following a name -/

/-- What no name may have, whatever it names. -/
def checkName (name : String) : Except StorageFault Unit :=
  if name.toList.contains '\x00' then .error .nullInName
  else if Text.Utf8.size name.toList > Path.longestText then .error .nameTooLong
  else .ok ()

/-- Whether one name of a path is too long for a file or directory. -/
def isLong (name : String) : Bool := Text.Utf8.size name.toList > Path.longestName

/-- Goes down from a directory. -/
def walk (f : Files) (dir : Path) : List String → Except StorageFault Path
  | [] => .ok dir
  | name :: rest =>
    if name = "." then walk f dir rest
    else if name = ".." then walk f dir.parent rest
    else if isLong name then .error .nameTooLong
    else if f.isDirectory (dir ++ [name]) then walk f (dir ++ [name]) rest
    else if (f.content? (dir ++ [name])).isSome then .error .notDirectory
    else .error .noSuchFile

/-- Where the last step of a name leads. -/
inductive Target where
  /-- To a directory that is there. -/
  | directory (p : Path)
  /-- To a place in a directory, there or not. -/
  | entry (directory : Path) (name : String)

/-- Where names begin. -/
def start (f : Files) (name : String) : Path := if Path.isRooted name then [] else f.current

/-- Follows a name up to its last step. -/
def locate (f : Files) (name : String) : Except StorageFault Target := do
  checkName name
  if name = "" then .error .noSuchFile
  else match (Path.segments name).reverse with
    | [] => .ok (.directory (f.start name))
    | last :: before => do
      let dir ← f.walk (f.start name) before.reverse
      if last = "." then .ok (.directory dir)
      else if last = ".." then .ok (.directory dir.parent)
      else .ok (.entry dir last)

/-! ## Operations -/

/-- The path of the file called `name`, and the tree in which it is there. -/
def openFile (f : Files) (name : String) : Except StorageFault (Path × Files) := do
  match ← f.locate name with
  | .directory _ => .error .isDirectory
  | .entry dir last =>
    let p := dir ++ [last]
    if Path.endsInSlash name then .error .isDirectory
    else if isLong last then .error .nameTooLong
    else if f.isDirectory p then .error .isDirectory
    else match f.content? p with
      | some _ => .ok (p, f)
      | none => .ok (p, f.put p #[])

/-- The path and the bytes of the file called `name`. -/
def readBytes (f : Files) (name : String) : Except StorageFault (Path × Bytes) := do
  match ← f.locate name with
  | .directory _ => .error .isDirectory
  | .entry dir last =>
    let p := dir ++ [last]
    if isLong last then .error .nameTooLong
    else if f.isDirectory p then .error .isDirectory
    else match f.content? p with
      | some bytes => if Path.endsInSlash name then .error .notDirectory else .ok (p, bytes)
      | none => .error .noSuchFile

/-- The path and the text of the text file called `name`. -/
def readText (f : Files) (name : String) : Except StorageFault (Path × String) := do
  let (p, bytes) ← f.readBytes name
  match Text.Utf8.decode? bytes.toList with
  | some s => .ok (p, s)
  | none => .error .notUtf8

/-- Makes the missing directories below a directory.  Those made before it fails remain. -/
def makeBelow (f : Files) (dir : Path) : List String → Except StorageFault Unit × Files
  | [] => (.ok (), f)
  | name :: rest =>
    let p := dir ++ [name]
    if name = "." then makeBelow f dir rest
    else if name = ".." then makeBelow f dir.parent rest
    else if isLong name then (.error .nameTooLong, f)
    else if f.isDirectory p then makeBelow f p rest
    else if (f.content? p).isSome then
      (.error (if rest.isEmpty then .fileExists else .notDirectory), f)
    else makeBelow { f with directories := f.directories ++ [p] } p rest

/-- Makes the directory called `name`, and all directories on the way to it. -/
def makeDirectories (f : Files) (name : String) : Except StorageFault Unit × Files :=
  match checkName name with
  | .error e => (.error e, f)
  | .ok () => f.makeBelow (f.start name) (Path.segments name)

end Files

end RowStore
