import Mathlib.Data.List.Forall2
import RowStore.Proofs.Requests.Steps
import RowStore.Proofs.Text.Words

/-!
A schema file says what was written in it.

Program.  A schema file has a line for each table.  The name stands before the first opening parenthesis, the
columns stand between it and the last closing one, with commas between them, and a column is two or three
words.

1. `Draft` is a table that can be written: its name has no opening parenthesis, no line feed and no white
   space at its ends, the names of its columns have no white space and no comma, and at most one column is
   marked as the key.
2. `WritesFile drafts text` says that a text writes some tables, in whatever way: with any white space around
   words and marks, types in any letter case, blank lines in between, and any line ends.
3. `Reading` says how a line is read; more is read than is written by a draft.  A line that writes a table is
   read as this table (`Draft.WritesLine.parse`), such a file as its tables (`WritesFile.parse`), and to load
   it is to add these tables one after the other (`written_file_is_read_back`).

Crux.  A mark only counts where names cannot have it: the first opening parenthesis comes before all columns,
the last closing one behind them, and no name of a column has a comma.  So parentheses in these names do no
harm, nor do commas and closing parentheses in the name of the table.
-/

namespace RowStore

open Text

namespace TableLine

/-! ## Tables that can be written -/

/-- Letters of one word of a column. -/
def Word (cs : List Char) : Prop := ∀ x ∈ cs, isBlank x = false ∧ x ≠ ','

-- Found by search, the instance would try all characters.
instance (cs : List Char) : Decidable (Word cs) := List.decidableBAll _ cs

/-- A table that can be written in a schema file. -/
structure Draft where
  /-- Its name. -/
  name : String
  /-- It has a name. -/
  name_ne : name ≠ ""
  /-- The name has no opening parenthesis. -/
  name_open : '(' ∉ name.toList
  /-- It has no line feed. -/
  name_line : '\n' ∉ name.toList
  /-- It has no white space at its ends. -/
  name_trim : trim name = name
  /-- The columns, each with whether it is the key. -/
  columns : List (Column × Bool)
  /-- There is a column: a line without columns is refused. -/
  columns_ne : columns ≠ []
  /-- The columns have names. -/
  column_ne : ∀ c ∈ columns, c.1.name ≠ ""
  /-- The names of the columns have no white space and no comma. -/
  column_word : ∀ c ∈ columns, Word c.1.name.toList
  /-- At most one column is the key. -/
  oneKey : (columns.filter (·.2)).length ≤ 1

namespace Draft

/-- The name of the key column, empty if there is none. -/
def key (d : Draft) : String := ((d.columns.find? (·.2)).map (·.1.name)).getD ""

/-- The table. -/
def table (d : Draft) : TableLine :=
  ⟨d.name, ⟨d.columns.map (·.1), by simpa using d.columns_ne⟩, d.key⟩

/-- Of at most one key column, the last is the first. -/
theorem keyOf_columns (d : Draft) : keyOf d.columns = d.key := by
  have hone := d.oneKey
  unfold keyOf key
  rw [← List.head?_filter]
  generalize d.columns.filter (·.2) = marked at hone ⊢
  cases marked with
  | nil => rfl
  | cons c others =>
    cases others with
    | nil => rfl
    | cons c' others =>
      simp only [List.length_cons] at hone
      omega

end Draft

/-! ## Ways of writing them -/

/-- White space inside a line. -/
def Space (cs : List Char) : Prop := ∀ c ∈ cs, isBlank c = true ∧ c ≠ '\n'

instance (cs : List Char) : Decidable (Space cs) := List.decidableBAll _ cs

/-- A type in any letter case. -/
def Spells (type : ColumnType) (word : List Char) : Prop :=
  List.Forall₂ (fun c x => x = c ∨ x = c.toUpper) type.name.toList word

/-- A text writes a column, marked as the key or not. -/
inductive WritesColumn : Column × Bool → List Char → Prop
  | plain (c : Column) {before gap word behind : List Char} (hbefore : Space before) (hgap : Space gap)
    (hgap' : gap ≠ []) (hword : Spells c.type word) (hbehind : Space behind) :
    WritesColumn (c, false) (before ++ (c.name.toList ++ (gap ++ (word ++ behind))))
  | key (c : Column) {before gap word gap' behind : List Char} (hbefore : Space before) (hgap : Space gap)
    (hne : gap ≠ []) (hword : Spells c.type word) (hgap' : Space gap') (hne' : gap' ≠ [])
    (hbehind : Space behind) :
    WritesColumn (c, true)
      (before ++ (c.name.toList ++ (gap ++ (word ++ (gap' ++ (keyTag.toList ++ behind))))))

/-- A line writes a table. -/
inductive Draft.WritesLine (d : Draft) : List Char → Prop
  | mk {before between behind : List Char} {texts : List (List Char)} (hbefore : Space before)
    (hbetween : Space between) (hbehind : Space behind)
    (hcolumns : List.Forall₂ WritesColumn d.columns texts) :
    WritesLine d
      (before ++ d.name.toList ++ between ++ '(' :: ([','].intercalate texts ++ ')' :: behind))

/-- A text writes some tables.  A carriage return before a line feed is white space like any other. -/
inductive WritesFile : List Draft → List Char → Prop
  /-- The last line is blank, or there is none. -/
  | lastBlank {line : List Char} (hline : Space line) : WritesFile [] line
  /-- The last line writes a table, and no line feed follows. -/
  | lastTable {d : Draft} {line : List Char} (hline : d.WritesLine line) : WritesFile [d] line
  /-- A blank line, and what follows it. -/
  | blank {drafts : List Draft} {line text : List Char} (hline : Space line)
    (hrest : WritesFile drafts text) : WritesFile drafts (line ++ '\n' :: text)
  /-- A line that writes a table, and what follows it. -/
  | table {d : Draft} {drafts : List Draft} {line text : List Char} (hline : d.WritesLine line)
    (hrest : WritesFile drafts text) : WritesFile (d :: drafts) (line ++ '\n' :: text)

/-! ## Marks -/

section Marks

variable {mark : Char} {before after : List Char}

theorem cutFirst_append (h : mark ∉ before) (after : List Char) :
    cutFirst mark (before ++ mark :: after) = some (before, after) := by
  induction before with
  | nil => simp [cutFirst]
  | cons c before ih =>
    rw [List.mem_cons, not_or] at h
    rw [List.cons_append, cutFirst, if_neg (Ne.symm h.1), ih h.2]
    rfl

theorem cutLast_append (h : mark ∉ after) (before : List Char) :
    cutLast mark (before ++ mark :: after) = some before := by
  have hreverse : (before ++ mark :: after).reverse = after.reverse ++ mark :: before.reverse := by simp
  rw [cutLast, hreverse, cutFirst_append (by simpa using h)]
  simp

theorem not_mem_intercalate {x : Char} (hx : x ≠ ',') {texts : List (List Char)}
    (h : ∀ text ∈ texts, x ∉ text) : x ∉ [','].intercalate texts := by
  induction texts with
  | nil => exact nofun
  | cons text texts ih =>
    obtain ⟨hfirst, hrest⟩ := List.forall_mem_cons.mp h
    cases texts with
    | nil => simpa [List.intercalate] using hfirst
    | cons next texts =>
      rw [List.intercalate_cons_cons, List.mem_append, List.mem_append, List.mem_singleton, not_or, not_or]
      exact ⟨⟨hfirst, hx⟩, ih hrest⟩

end Marks

/-! ## Words, white space and types -/

namespace Word

variable {cs : List Char}

theorem noBlank (h : Word cs) : ∀ x ∈ cs, isBlank x = false := fun x hx => (h x hx).1

/-- No comma and no white space is in a word. -/
theorem not_mem (h : Word cs) {x : Char} (hx : x = ',' ∨ isBlank x = true) : x ∉ cs := by
  intro hmem
  obtain ⟨hblank, hcomma⟩ := h x hmem
  rcases hx with rfl | hx
  · exact hcomma rfl
  · rw [hblank] at hx
    cases hx

end Word

namespace Space

variable {cs : List Char}

theorem blank (h : Space cs) : ∀ c ∈ cs, isBlank c = true := fun c hc => (h c hc).1

/-- What is no blank, and the line feed, is not in white space. -/
theorem not_mem (h : Space cs) {x : Char} (hx : isBlank x = false ∨ x = '\n') : x ∉ cs := by
  intro hmem
  obtain ⟨hblank, hline⟩ := h x hmem
  rcases hx with hx | rfl
  · rw [hblank] at hx
    cases hx
  · exact hline rfl

theorem chomp (h : Space cs) : Space (Text.chomp cs) := by
  unfold Text.chomp
  split
  · exact fun c hc => h c (List.dropLast_subset cs hc)
  · exact h

end Space

namespace Spells

variable {type : ColumnType} {word : List Char}

/-- A letter of a type, in either case, is an ASCII letter, and in lower case it is that letter. -/
theorem letters (type : ColumnType) : ∀ c ∈ type.name.toList, ∀ x, x = c ∨ x = c.toUpper →
    (isBlank x = false ∧ x ≠ ',') ∧ x.toNat < 0x80 ∧ x.toLower = c := by
  have hboth : (type.name.toList.all fun c => [c, c.toUpper].all fun x =>
      decide ((isBlank x = false ∧ x ≠ ',') ∧ x.toNat < 0x80 ∧ x.toLower = c)) = true := by
    cases type <;> decide
  intro c hc x hx
  have hletter := List.all_eq_true.mp (List.all_eq_true.mp hboth c hc) x (by simpa using hx)
  exact of_decide_eq_true hletter

theorem chars_and_lower (h : Spells type word) :
    Word word ∧ (∀ x ∈ word, x.toNat < 0x80) ∧ word.map Char.toLower = type.name.toList := by
  have hletters := letters type
  unfold Spells at h
  generalize type.name.toList = name at h hletters
  induction h with
  | nil => exact ⟨nofun, nofun, rfl⟩
  | cons hx _ ih =>
    obtain ⟨hfirst, hrest⟩ := List.forall_mem_cons.mp hletters
    obtain ⟨hchar, hascii, hlower⟩ := hfirst _ hx
    obtain ⟨hword, hall, hmap⟩ := ih hrest
    exact ⟨List.forall_mem_cons.mpr ⟨hchar, hword⟩, List.forall_mem_cons.mpr ⟨hascii, hall⟩,
      by rw [List.map_cons, hlower, hmap]⟩

theorem isWord (h : Spells type word) : Word word := h.chars_and_lower.1

theorem ne_nil (h : Spells type word) : word ≠ [] := by
  rintro rfl
  have hname := h.chars_and_lower.2.2
  cases type <;> cases hname

/-- A type is read from its name in any letter case. -/
theorem typed (h : Spells type word) : parseColumn.typed (String.ofList word) = .ok type := by
  obtain ⟨hword, hascii, hlower⟩ := h.chars_and_lower
  have htrim : trim (String.ofList word) = String.ofList word := by
    rw [trim, String.toList_ofList, trimChars_of_noBlank hword.noBlank]
  have hcase : lowercase (String.ofList word) = type.name := by
    rw [lowercase_ofList hascii, hlower, String.ofList_toList]
  simp only [parseColumn.typed, ColumnType.parse, htrim, hcase, ColumnType.named?_name, Option.elim]

end Spells

/-! ## Columns -/

namespace WritesColumn

variable {c : Column × Bool} {text : List Char}

/-- **A column is read** as it was written. -/
theorem parse (h : WritesColumn c text) (hne : c.1.name ≠ "") (hname : Word c.1.name.toList) :
    parseColumn text = .ok c := by
  cases h with
  | plain c hbefore hgap hgap' hspells hbehind =>
    have hne' : c.name.toList ≠ [] := by simpa using hne
    rw [parseColumn, words, String.toList_ofList, wordsFrom_blanks hbefore.blank,
      wordsFrom_word (Word.noBlank hname) hne' hgap.blank hgap',
      wordsFrom_last hspells.isWord.noBlank hspells.ne_nil hbehind.blank]
    simp only [List.map_cons, List.map_nil, String.ofList_toList, hspells.typed, bind, Except.bind]
  | key c hbefore hgap hgap' hspells hsecond hsecond' hbehind =>
    have hne' : c.name.toList ≠ [] := by simpa using hne
    have htag : Word keyTag.toList := by decide
    rw [parseColumn, words, String.toList_ofList, wordsFrom_blanks hbefore.blank,
      wordsFrom_word (Word.noBlank hname) hne' hgap.blank hgap',
      wordsFrom_word hspells.isWord.noBlank hspells.ne_nil hsecond.blank hsecond',
      wordsFrom_last htag.noBlank (by decide) hbehind.blank]
    simp only [List.map_cons, List.map_nil, String.ofList_toList, hspells.typed, bind, Except.bind, if_true]

/-- No comma and no line feed is in the text of a column. -/
theorem not_mem (h : WritesColumn c text) (hname : Word c.1.name.toList) {x : Char}
    (hx : x = ',' ∨ x = '\n') : x ∉ text := by
  have hspace : ∀ {cs}, Space cs → x ∉ cs := by
    intro cs hcs
    exact hcs.not_mem (hx.imp_left (by rintro rfl; decide))
  have hword : ∀ {cs}, Word cs → x ∉ cs := by
    intro cs hcs
    exact hcs.not_mem (hx.imp_right (by rintro rfl; decide))
  have htag : Word keyTag.toList := by decide
  cases h with
  | plain c hbefore hgap _ hspells hbehind =>
    simp only [List.mem_append, not_or]
    exact ⟨hspace hbefore, hword hname, hspace hgap, hword hspells.isWord, hspace hbehind⟩
  | key c hbefore hgap _ hspells hgap' _ hbehind =>
    simp only [List.mem_append, not_or]
    exact ⟨hspace hbefore, hword hname, hspace hgap, hword hspells.isWord, hspace hgap', hword htag,
      hspace hbehind⟩

end WritesColumn

/-- The columns are read one after the other. -/
theorem parseColumns_of_writes {columns : List (Column × Bool)} {texts : List (List Char)}
    (h : List.Forall₂ (fun c text => parseColumn text = .ok c) columns texts) :
    parseColumns texts = .ok columns := by
  induction h with
  | nil => rfl
  | cons hfirst _ ih =>
    rw [parseColumns, hfirst, ih]
    rfl

/-- No comma and no line feed is in the text of any column. -/
theorem not_mem_columnTexts {columns : List (Column × Bool)} {texts : List (List Char)}
    (hwords : ∀ c ∈ columns, Word c.1.name.toList) (hcolumns : List.Forall₂ WritesColumn columns texts)
    {x : Char} (hx : x = ',' ∨ x = '\n') : ∀ text ∈ texts, x ∉ text := by
  intro text htext
  obtain ⟨i, hi, rfl⟩ := List.getElem_of_mem htext
  have hlength : i < columns.length := hcolumns.length_eq ▸ hi
  have hwrites : WritesColumn columns[i] texts[i] := hcolumns.get hlength hi
  exact hwrites.not_mem (hwords _ (List.getElem_mem hlength)) hx

/-! ## How a line is read -/

/-- How a line is read as a table: as one that writes its name and its columns, any number of which may be
    marked as the key, and then any text without a closing parenthesis. -/
structure Reading (t : TableLine) (columns : List (Column × Bool)) (behind line : List Char) : Prop where
  name_ne : t.name ≠ ""
  name_open : '(' ∉ t.name.toList
  name_trim : trim t.name = t.name
  column_ne : ∀ c ∈ columns, c.1.name ≠ ""
  column_word : ∀ c ∈ columns, Word c.1.name.toList
  schema_eq : columns.map (·.1) = t.schema.columns
  key_eq : keyOf columns = t.primaryKey
  behind_close : ')' ∉ behind
  text : ∃ before between texts, Space before ∧ Space between ∧ List.Forall₂ WritesColumn columns texts ∧
    line = before ++ t.name.toList ++ between ++ '(' :: ([','].intercalate texts ++ ')' :: behind)

namespace Reading

variable {t : TableLine} {columns : List (Column × Bool)} {behind line : List Char}

/-- Where such a line is cut. -/
theorem parts (h : Reading t columns behind line) : ∃ before inner,
    line = before ++ '(' :: (inner ++ ')' :: behind) ∧ '(' ∉ before ∧ trimChars before = t.name.toList ∧
      parseColumns (inner.splitOn ',') = .ok columns := by
  obtain ⟨before, between, texts, hbefore, hbetween, hcolumns, hline⟩ := h.text
  have hopen : '(' ∉ before ++ t.name.toList ++ between := by
    simp only [List.mem_append, not_or]
    exact ⟨⟨hbefore.not_mem (Or.inl (by decide)), h.name_open⟩, hbetween.not_mem (Or.inl (by decide))⟩
  have hname : trimChars (before ++ t.name.toList ++ between) = t.name.toList := by
    rw [trimChars_append hbefore.blank hbetween.blank]
    simpa [trim] using congrArg String.toList h.name_trim
  have htexts : texts ≠ [] := by
    rintro rfl
    have hnone : columns = [] := List.forall₂_nil_right_iff.mp hcolumns
    exact t.schema.ne_nil (by rw [← h.schema_eq, hnone, List.map_nil])
  have hsplit : ([','].intercalate texts).splitOn ',' = texts :=
    List.splitOn_intercalate ',' (not_mem_columnTexts h.column_word hcolumns (Or.inl rfl)) htexts
  refine ⟨_, _, hline, hopen, hname, ?_⟩
  rw [hsplit]
  refine parseColumns_of_writes ?_
  rw [List.forall₂_iff_get] at hcolumns ⊢
  refine ⟨hcolumns.1, fun i hi hi' => ?_⟩
  have hmem : columns.get ⟨i, hi⟩ ∈ columns := List.get_mem ..
  exact (hcolumns.2 i hi hi').parse (h.column_ne _ hmem) (h.column_word _ hmem)

/-- A line is read as its table. -/
theorem parse (h : Reading t columns behind line) : TableLine.parse (String.ofList line) = .ok t := by
  obtain ⟨before, inner, rfl, hopen, hname, hread⟩ := h.parts
  have hne : t.name.toList ≠ [] := by simpa using h.name_ne
  have hschema : Schema.ofColumns (columns.map (·.1)) = .ok t.schema := by
    rw [h.schema_eq]
    exact dif_pos t.schema.ne_nil
  rw [TableLine.parse, String.toList_ofList, cutFirst_append hopen]
  simp only [cutLast_append h.behind_close, hname, if_neg hne, hread, bind, Except.bind, hschema,
    String.ofList_toList, h.key_eq]

end Reading

/-! ## Lines -/

namespace Draft.WritesLine

variable {d : Draft} {line : List Char}

/-- Up to its mark, a line that writes a table is read as it, and nothing but white space follows. -/
theorem reading (h : d.WritesLine line) : ∃ behind, Space behind ∧ Reading d.table d.columns behind line := by
  obtain @⟨before, between, behind, texts, hbefore, hbetween, hbehind, hcolumns⟩ := h
  exact ⟨behind, hbehind,
    { name_ne := d.name_ne
      name_open := d.name_open
      name_trim := d.name_trim
      column_ne := d.column_ne
      column_word := d.column_word
      schema_eq := rfl
      key_eq := d.keyOf_columns
      behind_close := hbehind.not_mem (Or.inl (by decide))
      text := ⟨before, between, texts, hbefore, hbetween, hcolumns, rfl⟩ }⟩

/-- **A line is read** as the table that it writes. -/
theorem parse (h : d.WritesLine line) : TableLine.parse (String.ofList line) = .ok d.table := by
  obtain ⟨behind, -, hreading⟩ := h.reading
  exact hreading.parse

/-- A line that writes a table has no line feed. -/
theorem no_feed (h : d.WritesLine line) : '\n' ∉ line := by
  obtain ⟨hbefore, hbetween, hbehind, hcolumns⟩ := h
  have hcolumn := not_mem_intercalate (by decide) (not_mem_columnTexts d.column_word hcolumns (Or.inr rfl))
  have hspace : ∀ {cs}, Space cs → '\n' ∉ cs := fun hcs => hcs.not_mem (Or.inr rfl)
  simp only [List.mem_append, List.mem_cons, not_or]
  exact ⟨⟨⟨hspace hbefore, d.name_line⟩, hspace hbetween⟩, by decide, hcolumn, by decide, hspace hbehind⟩

/-- It still writes the table without a carriage return at its end. -/
theorem chomp (h : d.WritesLine line) : d.WritesLine (Text.chomp line) := by
  obtain @⟨before, between, behind, texts, hbefore, hbetween, hbehind, hcolumns⟩ := h
  have hend : ∀ l : List Char, Text.chomp (l ++ ')' :: behind) = l ++ ')' :: Text.chomp behind := by
    intro l
    rw [Text.chomp, Text.chomp, List.getLast?_append_of_ne_nil _ (List.cons_ne_nil _ _),
      List.dropLast_append_of_ne_nil (List.cons_ne_nil _ _)]
    cases behind with
    | nil => rfl
    | cons c behind =>
      rw [List.getLast?_cons_cons, List.dropLast_cons_of_ne_nil (List.cons_ne_nil _ _)]
      split <;> rfl
  have hline := WritesLine.mk hbefore hbetween hbehind.chomp hcolumns
  rw [← List.cons_append, ← List.append_assoc] at hline ⊢
  rwa [hend]

/-- It is not blank. -/
theorem not_blank (h : d.WritesLine line) : isBlankLine (String.ofList line) = false := by
  obtain ⟨hbefore, hbetween, hbehind, hcolumns⟩ := h
  rw [isBlankLine, String.toList_ofList, Bool.eq_false_iff, Ne, List.all_eq_true]
  intro hall
  have hmark := hall '(' (by simp)
  exact absurd hmark (by decide)

end Draft.WritesLine

/-! ## Files -/

theorem Space.isBlankLine {line : List Char} (h : Space line) :
    Text.isBlankLine (String.ofList line) = true := by
  rw [Text.isBlankLine, String.toList_ofList, List.all_eq_true]
  exact h.blank

/-- **A file is read** line by line as the tables that it writes. -/
theorem WritesFile.parse {drafts : List Draft} {text : List Char} (h : WritesFile drafts text) :
    ((lines (String.ofList text)).filter fun line => !Text.isBlankLine line).mapM TableLine.parse =
      .ok (drafts.map Draft.table) := by
  rw [lines, String.toList_ofList]
  induction h with
  | @lastBlank line hline =>
    by_cases hnil : line = []
    · rw [hnil]
      rfl
    · rw [linesFrom_last (hline.not_mem (Or.inr rfl)) hnil, List.map_singleton, List.filter_cons,
        hline.isBlankLine]
      rfl
  | @lastTable d line hline =>
    have hnil : line ≠ [] := by
      rintro rfl
      exact absurd hline.not_blank (by decide)
    rw [linesFrom_last hline.no_feed hnil, List.map_singleton, List.filter_cons, hline.not_blank]
    simp only [Bool.not_false, if_true, List.filter_nil, List.mapM_cons, hline.parse]
    rfl
  | blank hline hrest ih =>
    rw [linesFrom_feed (hline.not_mem (Or.inr rfl)), List.map_cons, List.filter_cons,
      hline.chomp.isBlankLine]
    exact ih
  | table hline hrest ih =>
    rw [linesFrom_feed hline.no_feed, List.map_cons, List.filter_cons, hline.chomp.not_blank]
    simp only [Bool.not_false, if_true, List.mapM_cons, hline.chomp.parse, ih]
    rfl

end TableLine

/-! ## Loading -/

namespace Catalog

variable {pageSize : Nat} {dir : Path}

/-- Adds some tables, one after the other. -/
def addTables (pageSize : Nat) (dir : Path) :
    List TableLine → Catalog → Files → Except Error (List TableId) × Catalog × Files
  | [], c, files => (.ok [], c, files)
  | table :: tables, c, files =>
    match addLine pageSize dir table c files with
    | (.error e, c, files) => (.error e, c, files)
    | (.ok id, c, files) =>
      match addTables pageSize dir tables c files with
      | (.error e, c, files) => (.error e, c, files)
      | (.ok ids, c, files) => (.ok (id :: ids), c, files)

attribute [local irreducible] addLine in
theorem addTables_cons (pageSize : Nat) (dir : Path) (table : TableLine) (tables : List TableLine)
    (c : Catalog) (files : Files) :
    addTables pageSize dir (table :: tables) c files =
      match addLine pageSize dir table c files with
      | (.error e, c, files) => (.error e, c, files)
      | (.ok id, c, files) =>
        match addTables pageSize dir tables c files with
        | (.error e, c, files) => (.error e, c, files)
        | (.ok ids, c, files) => (.ok (id :: ids), c, files) := rfl

/-- When all of some lines can be read, the first one can, and so can the others. -/
theorem ok_of_mapM_cons {row : String} {rows : List String} {tables : List TableLine}
    (h : (row :: rows).mapM TableLine.parse = .ok tables) :
    ∃ table others, TableLine.parse row = .ok table ∧ rows.mapM TableLine.parse = .ok others ∧
      tables = table :: others := by
  rw [List.mapM_cons] at h
  obtain ⟨table, hparse, h⟩ := ok_of_bind h
  obtain ⟨others, hrest, h⟩ := ok_of_bind h
  exact ⟨table, others, hparse, hrest, (Except.ok.inj h).symm⟩

/-- Lines that can be read are added like the tables that they are. -/
theorem addLines_eq_addTables {rows : List String} {tables : List TableLine}
    (hread : (rows.filter fun line => !isBlankLine line).mapM TableLine.parse = .ok tables)
    (name : String) (number : Nat) (c : Catalog) (files : Files) :
    addLines pageSize name dir number rows c files = addTables pageSize dir tables c files := by
  induction rows generalizing number tables c files with
  | nil =>
    cases hread
    rfl
  | cons row rows ih =>
    rw [List.filter_cons] at hread
    rw [Storage.addLines_cons]
    by_cases hblank : isBlankLine row = true
    · rw [hblank] at hread
      rw [if_pos hblank]
      exact ih hread (number + 1) c files
    · rw [Bool.eq_false_iff.mpr hblank, Bool.not_false, if_pos rfl] at hread
      obtain ⟨table, others, hparse, hrest, rfl⟩ := ok_of_mapM_cons hread
      rw [if_neg hblank, hparse, addTables_cons]
      rcases hline : addLine pageSize dir table c files with ⟨e | id, c₁, files₁⟩
      · simp only [hline]
      · rcases hothers : addTables pageSize dir others c₁ files₁ with ⟨e | ids, c₂, files₂⟩ <;>
          simp only [hline, ih hrest, hothers]

end Catalog

namespace TableLine

/-- **A schema file says what was written in it.**  Some tables are written line by line, with any white space
    around words and marks, with types in any letter case, and with blank lines in between.  Then each line is
    read as its table, with its name, its columns in their order, their names and types, and the name of the
    column that was marked as the key, if there is one; and to load the file is to add these tables one after
    the other. -/
theorem written_file_is_read_back {drafts : List Draft} {text : List Char} (h : WritesFile drafts text) :
    ((lines (String.ofList text)).filter fun line => !Text.isBlankLine line).mapM TableLine.parse =
        .ok (drafts.map Draft.table) ∧
      ∀ (c : Catalog) (files : Files) (name : String) (path : Path) (pageSize : Nat),
        files.readText name = .ok (path, String.ofList text) →
        c.load files name pageSize =
          Catalog.addTables pageSize path.parent (drafts.map Draft.table) c files := by
  refine ⟨h.parse, fun c files name path pageSize hfile => ?_⟩
  rw [Catalog.load, hfile]
  exact Catalog.addLines_eq_addTables h.parse name 1 c files

/-- A table whose second column is the key, with marks in its name and in the names of its columns. -/
def Draft.marked : Draft where
  name := "stock), old"
  name_ne := by decide
  name_open := by decide
  name_line := by decide
  name_trim := by decide
  columns := [(⟨"f(x", .int⟩, false), (⟨"y)", .string⟩, true)]
  columns_ne := by decide
  column_ne := by decide
  column_word := by decide
  oneKey := by decide

/-- A table without a key. -/
def Draft.keyless : Draft where
  name := "log"
  name_ne := by decide
  name_open := by decide
  name_line := by decide
  name_trim := by decide
  columns := [(⟨"at", .int⟩, false)]
  columns_ne := by decide
  column_ne := by decide
  column_word := by decide
  oneKey := by decide

theorem Draft.marked_written :
    Draft.marked.WritesLine "\tstock), old ( f(x  iNt ,y)\u00a0STRING pk)\r".toList := by
  have hint : Spells .int ['i', 'N', 't'] := .cons (.inl rfl) (.cons (.inr (by decide)) (.cons (.inl rfl) .nil))
  have hstring : Spells .string ['S', 'T', 'R', 'I', 'N', 'G'] :=
    .cons (.inr (by decide)) (.cons (.inr (by decide)) (.cons (.inr (by decide))
      (.cons (.inr (by decide)) (.cons (.inr (by decide)) (.cons (.inr (by decide)) .nil)))))
  have hfirst : WritesColumn (⟨"f(x", .int⟩, false) " f(x  iNt ".toList :=
    @WritesColumn.plain ⟨"f(x", .int⟩ [' '] [' ', ' '] _ [' '] (by decide) (by decide) (by decide) hint
      (by decide)
  have hsecond : WritesColumn (⟨"y)", .string⟩, true) "y)\u00a0STRING pk".toList :=
    @WritesColumn.key ⟨"y)", .string⟩ [] ['\u00a0'] _ [' '] [] (by decide) (by decide) (by decide) hstring
      (by decide) (by decide) (by decide)
  exact @Draft.WritesLine.mk Draft.marked ['\t'] [' '] ['\r'] [_, _] (by decide) (by decide) (by decide)
    (.cons hfirst (.cons hsecond .nil))

theorem Draft.keyless_written : Draft.keyless.WritesLine "log(at int)".toList := by
  have hint : Spells .int ['i', 'n', 't'] := .cons (.inl rfl) (.cons (.inl rfl) (.cons (.inl rfl) .nil))
  have hcolumn : WritesColumn (⟨"at", .int⟩, false) "at int".toList :=
    @WritesColumn.plain ⟨"at", .int⟩ [] [' '] _ [] (by decide) (by decide) (by decide) hint (by decide)
  exact @Draft.WritesLine.mk Draft.keyless [] [] [] [_] (by decide) (by decide) (by decide)
    (.cons hcolumn .nil)

/-- A file with marks in names, a type in mixed case, a blank line, and a table without a key. -/
theorem written_file_is_read_back_with_marks :
    WritesFile [Draft.marked, Draft.keyless]
        "\tstock), old ( f(x  iNt ,y)\u00a0STRING pk)\r\n \nlog(at int)".toList ∧
      ((lines "\tstock), old ( f(x  iNt ,y)\u00a0STRING pk)\r\n \nlog(at int)").filter
          fun line => !Text.isBlankLine line).mapM TableLine.parse =
        .ok [⟨"stock), old", ⟨[⟨"f(x", .int⟩, ⟨"y)", .string⟩], by decide⟩, "y)"⟩,
          ⟨"log", ⟨[⟨"at", .int⟩], by decide⟩, ""⟩] := by
  have hfile : WritesFile [Draft.marked, Draft.keyless]
      "\tstock), old ( f(x  iNt ,y)\u00a0STRING pk)\r\n \nlog(at int)".toList :=
    .table Draft.marked_written
      (@WritesFile.blank _ [' '] _ (by decide) (.lastTable Draft.keyless_written))
  have hread := (written_file_is_read_back hfile).1
  rw [String.ofList_toList] at hread
  exact ⟨hfile, hread⟩

end TableLine

end RowStore
