import RowStore.Assoc

/-!
The words of a command line.

1. A word that begins with a dash, and is more than a dash, names a flag (`Word`).  A flag has a
   long name, written after two dashes, and may have a letter, written after one.  Its values
   are the words that follow; a single value can also be joined to it, after an equals sign or,
   behind a letter, directly.
2. Two dashes alone end the flags: all words after them stand for themselves.
3. The word that names a command ends the reading; what follows it is for that command to read.
   A word that is awaited as the value of a flag names no command.
4. A flag that is unknown, has too few values or is given twice is a misuse, and so is a word too
   many, or one that is not accepted in its place.
-/

namespace RowStore.CommandLine

/-- Why a command line is not carried out. -/
inductive Stop where
  /-- It cannot be understood. -/
  | misuse
  /-- It asks how to use the program. -/
  | help
  /-- It asks for the version of the program. -/
  | version
  deriving DecidableEq

/-! ## Words -/

/-- A word of a command line, by how it is written. -/
inductive Word where
  /-- The end of the flags. -/
  | endOfFlags
  /-- The long name of a flag, and the value that is joined to it. -/
  | long (name : String) (value : Option String)
  /-- The letter of a flag, and the value that is joined to it. -/
  | short (letter : Char) (value : Option String)
  /-- A word that stands for itself. -/
  | plain (text : String)
  deriving DecidableEq

namespace Word

/-- What is joined to the letter of a flag. -/
def joined : List Char → Option String
  | [] => none
  | '=' :: cs => some (String.ofList cs)
  | cs => some (String.ofList cs)

/-- Tells how a word is written. -/
def ofText (text : String) : Word :=
  match text.toList with
  | ['-', '-'] => .endOfFlags
  | '-' :: '-' :: cs =>
    match cs.dropWhile (· ≠ '=') with
    | [] => .long (String.ofList cs) none
    | _ :: value => .long (String.ofList (cs.takeWhile (· ≠ '='))) (some (String.ofList value))
  | '-' :: c :: cs => .short c (joined cs)
  | _ => .plain text

/-- The value that is joined to a flag. -/
def value : Word → Option String
  | .long _ value | .short _ value => value
  | .endOfFlags | .plain _ => none

end Word

/-! ## What a command takes -/

/-- A named argument. -/
structure Flag where
  /-- Its long name. -/
  name : String
  /-- Its letter, if it has one. -/
  letter : Option Char
  /-- How many values it has. -/
  width : Nat
  /-- Whether it may be given more than once. -/
  repeats : Bool
  /-- Which values it takes. -/
  accepts : String → Bool

/-- Takes every word. -/
def anyWord (_ : String) : Bool := true

/-- What a command takes. -/
structure Shape where
  /-- The flags it knows. -/
  flags : List Flag
  /-- What it takes in the place of each plain word. -/
  words : List (String → Bool)
  /-- Whether further plain words may follow. -/
  more : Bool
  /-- The names of the commands that may end it. -/
  commands : List String
  /-- Whether it can be asked for its version. -/
  hasVersion : Bool

/-- What a command was given. -/
structure Given where
  /-- The flags in order, each with its values. -/
  flags : List (String × List String)
  /-- The plain words in order. -/
  words : List String
  /-- The command that ended the reading, and the words after it. -/
  command : Option (String × List String)
  deriving DecidableEq

namespace Given

/-- Nothing. -/
def nothing : Given := ⟨[], [], none⟩

/-- The values of a flag, if it was given; those of all its occurrences. -/
def values? (g : Given) (name : String) : Option (List String) :=
  match g.flags.filter (·.1 = name) with
  | [] => none
  | given => some (given.flatMap (·.2))

/-- The value of a flag, if it was given. -/
def value? (g : Given) (name : String) : Option String := (g.values? name).bind List.head?

end Given

/-! ## Reading -/

/-- How the next word is understood. -/
inductive Mode where
  /-- As a flag, a command or a plain word. -/
  | free
  /-- As a value of a flag that has some already. -/
  | filling (flag : Flag) (values : List String)
  /-- As a plain word. -/
  | plain

namespace Shape

/-- The flag that a word names. -/
def flagOf (shape : Shape) (word : Word) : Except Stop Flag :=
  match word with
  | .long "help" none | .short 'h' _ => .error .help
  | .long name value =>
    if name = "version" ∧ value = none ∧ shape.hasVersion then .error .version
    else match shape.flags.find? (·.name = name) with
      | some flag => .ok flag
      | none => .error .misuse
  | .short letter _ =>
    if letter = 'V' ∧ shape.hasVersion then .error .version
    else match shape.flags.find? (·.letter = some letter) with
      | some flag => .ok flag
      | none => .error .misuse
  | .endOfFlags | .plain _ => .error .misuse

/-- Adds a flag with all its values. -/
def addFlag (flag : Flag) (values : List String) (g : Given) : Except Stop Given :=
  if values.length ≠ flag.width ∨ !values.all flag.accepts then .error .misuse
  else if (g.values? flag.name).isSome ∧ !flag.repeats then .error .misuse
  else .ok { g with flags := g.flags ++ [(flag.name, values)] }

/-- Adds a plain word. -/
def addWord (shape : Shape) (word : String) (g : Given) : Except Stop Given :=
  let accepted := match shape.words[g.words.length]? with
    | some accepts => accepts word
    | none => shape.more
  if accepted then .ok { g with words := g.words ++ [word] } else .error .misuse

/-- Reads words, when some are read already. -/
def readFrom (shape : Shape) : Mode → List String → Given → Except Stop Given
  | .filling _ _, [], _ => .error .misuse
  | .free, [], g | .plain, [], g => .ok g
  | .plain, word :: rest, g => do
    let g ← shape.addWord word g
    readFrom shape .plain rest g
  | .filling flag values, word :: rest, g =>
    match Word.ofText word with
    | .plain _ =>
      if values.length + 1 < flag.width then
        readFrom shape (.filling flag (values ++ [word])) rest g
      else do
        let g ← addFlag flag (values ++ [word]) g
        readFrom shape .free rest g
    | _ => .error .misuse
  | .free, word :: rest, g =>
    if shape.commands.contains word then .ok { g with command := some (word, rest) }
    else match Word.ofText word with
      | .endOfFlags => readFrom shape .plain rest g
      | .plain _ => do
        let g ← shape.addWord word g
        readFrom shape .free rest g
      | named => do
        let flag ← shape.flagOf named
        match named.value with
        | none => readFrom shape (.filling flag []) rest g
        | some value =>
          let g ← addFlag flag [value] g
          readFrom shape .free rest g

/-- Reads words. -/
def read (shape : Shape) (words : List String) : Except Stop Given :=
  readFrom shape .free words Given.nothing

end Shape

example : Word.ofText "--page-size=64" = .long "page-size" (some "64") := by decide
example : Word.ofText "-d=x" = .short 'd' (some "x") := by decide
example : Word.ofText "-" = .plain "-" := by decide

end RowStore.CommandLine
