import RowStore.CommandLine

/-!
The program.

1. It reads the files that a command line can touch into a file tree: the directory of the store,
   the schema file and the files of the tables in it, each with what leads to it.
2. It runs the command line on that tree (`RowStore.CommandLine.run`).
3. It makes the directories that are new and writes the files that are different, prints, and
   returns the exit code.
-/

namespace RowStore.CommandLine

/-- Whether there is a directory at a path. -/
def isOnDisk (p : Path) : IO Bool := do
  try
    let real ← IO.FS.realPath p.text
    real.isDir
  catch _ => pure false

/-- The tree with what is at a path. -/
def survey (p : Path) (files : Files) : IO Files := do
  if ← isOnDisk p then
    if files.isDirectory p then pure files
    else pure { files with directories := files.directories ++ [p] }
  else
    try
      let bytes ← IO.FS.readBinFile p.text
      pure (files.put p bytes.data)
    catch _ => pure files

/-- The tree with what is at the steps of a name, beginning at a directory. -/
def surveyFrom (dir : Path) : List String → Files → IO Files
  | [], files => pure files
  | "." :: rest, files => surveyFrom dir rest files
  | ".." :: rest, files => surveyFrom dir.parent rest files
  | name :: rest, files => do
    let files ← survey (dir ++ [name]) files
    surveyFrom (dir ++ [name]) rest files

/-- The tree with what a name leads to. -/
def surveyName (name : String) (files : Files) : IO Files :=
  surveyFrom (files.start name) (Path.segments name) files

/-- The names of the files of the tables of a schema file. -/
def tableFiles (files : Files) (schemaName : String) : List String :=
  match files.readText schemaName with
  | .error _ => []
  | .ok (path, text) =>
    (Text.lines text).filterMap fun row =>
      match TableLine.parse row with
      | .ok table => some (Path.join path.parent.text (table.name ++ Catalog.fileEnding))
      | .error _ => none

/-- The tree of all that an invocation can touch. -/
def surveyAll (inv : Invocation) (files : Files) : IO Files := do
  let files ← surveyName inv.directory files
  let files ← surveyName inv.schemaName files
  (tableFiles files inv.schemaName).foldlM (fun files name => surveyName name files) files

/-- Makes new directories and writes different files. -/
def store (before after : Files) : IO Unit := do
  for dir in after.directories do
    unless before.isDirectory dir do
      IO.FS.createDirAll dir.text
  for (path, bytes) in after.contents do
    unless before.content? path = some bytes do
      IO.FS.writeBinFile path.text ⟨bytes⟩

/-- The variables of the environment that stand in for flags. -/
def environment : IO (List (String × String)) := do
  let found ← standIns.mapM fun v => do
    pure ((← IO.getEnv v.2).map fun value => (v.2, value))
  pure (found.filterMap id)

end RowStore.CommandLine

open RowStore RowStore.CommandLine in
/-- Runs the command line that the program was started with. -/
def main (words : List String) : IO UInt32 := do
  let environment ← environment
  let current ← IO.currentDir
  let root : Files := ⟨Path.segments current.toString, [], []⟩
  let here ← surveyFrom [] root.current root
  let before ← match Invocation.read environment words with
    | .ok inv => surveyAll inv here
    | .error _ => pure here
  let (outcome, after) := run environment words before
  store before after
  (← IO.getStdout).putStr outcome.output
  (← IO.getStderr).putStr outcome.complaint
  pure (UInt32.ofNat outcome.code)
