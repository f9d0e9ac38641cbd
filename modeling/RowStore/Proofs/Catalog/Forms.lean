import RowStore.Proofs.Catalog.Spellings

/-!
What a line of a schema file may look like.

Program.  A line is not read from its first character to its last one.  It is cut at its first opening and at
its last closing parenthesis, and what stands between them is cut at its commas.  Nobody looks at what stands
behind the last closing parenthesis, and every marked column takes the place of the one that was marked
before.

1. What a part is read from can be told from what it is read as: a type is its name in some letter case
   (`Spells.of_typed`), and a column its name, its type and its tag with white space between them
   (`WritesColumn.of_parse`).
2. So a line is read as a table exactly if it has the form of `Reading` (`parse_eq_ok_iff`), and there is only
   one way to read it (`Reading.unique`).
3. A line that is read writes its table, up to white space and letter case, exactly if nothing but white
   space follows and at most one column is marked (`Reading.written_iff`).  Of other lines a part is lost.

Crux.  The parentheses and commas at which a line is cut are determined by the line, so the text behind it and
the marked columns are too: a line that was lost in part cannot be saved by reading it in another way.
-/

namespace RowStore

open Text

namespace TableLine

/-! ## Cuts -/

section Cuts

variable {mark : Char} {cs before after : List Char}

theorem of_cutFirst (h : cutFirst mark cs = some (before, after)) :
    cs = before ++ mark :: after ∧ mark ∉ before := by
  induction cs generalizing before with
  | nil => cases h
  | cons c cs ih =>
    rw [cutFirst] at h
    split at h
    · rename_i hc
      cases h
      exact ⟨by rw [hc]; rfl, List.not_mem_nil⟩
    · rename_i hc
      obtain ⟨⟨before', after'⟩, hrest, hcons⟩ := Option.map_eq_some_iff.mp h
      cases hcons
      obtain ⟨rfl, hnot⟩ := ih hrest
      exact ⟨rfl, fun hmem => (List.mem_cons.mp hmem).elim (fun h => hc h.symm) hnot⟩

theorem of_cutLast (h : cutLast mark cs = some before) :
    ∃ after, cs = before ++ mark :: after ∧ mark ∉ after := by
  obtain ⟨⟨behind, front⟩, hcut, rfl⟩ := Option.map_eq_some_iff.mp h
  obtain ⟨hreverse, hnot⟩ := of_cutFirst hcut
  refine ⟨behind.reverse, ?_, by simpa using hnot⟩
  rw [← List.reverse_reverse cs, hreverse]
  simp

/-- The parts between some marks are parts of the text and have no mark. -/
theorem of_mem_splitOn {text : List Char} (h : text ∈ cs.splitOn mark) : ∀ x ∈ text, x ∈ cs ∧ x ≠ mark := by
  induction cs generalizing text with
  | nil =>
    rw [List.splitOn_nil, List.mem_singleton] at h
    rw [h]
    exact nofun
  | cons c cs ih =>
    have hlater : text ∈ cs.splitOn mark → ∀ x ∈ text, x ∈ c :: cs ∧ x ≠ mark :=
      fun hmem x hx => (ih hmem x hx).imp_left (List.mem_cons_of_mem c)
    rw [List.splitOn_cons_eq_if_modifyHead] at h
    split at h
    · rcases List.mem_cons.mp h with rfl | hrest
      · exact nofun
      · exact hlater hrest
    · rename_i hc
      obtain ⟨first, rest, hsplit⟩ := List.exists_cons_of_ne_nil (List.splitOn_ne_nil mark cs)
      rw [hsplit, List.modifyHead_cons] at h
      rw [hsplit] at ih hlater
      rcases List.mem_cons.mp h with rfl | hrest
      · refine List.forall_mem_cons.mpr ⟨⟨List.mem_cons_self, by simpa using hc⟩, fun x hx => ?_⟩
        exact (ih List.mem_cons_self x hx).imp_left (List.mem_cons_of_mem c)
      · exact hlater (List.mem_cons_of_mem _ hrest)

end Cuts

/-! ## Types and columns -/

theorem space_of_blank {cs : List Char} (hblank : ∀ c ∈ cs, isBlank c = true) (hfeed : '\n' ∉ cs) : Space cs :=
  fun c hc => ⟨hblank c hc, fun h => hfeed (h ▸ hc)⟩

/-- A letter in ASCII is its lower case, or the upper case of it. -/
theorem eq_or_eq_toUpper_toLower {c : Char} (hc : c.toNat < 0x80) : c = c.toLower ∨ c = c.toLower.toUpper := by
  have hall : ∀ n < 0x80, Char.ofNat n = (Char.ofNat n).toLower ∨ Char.ofNat n = (Char.ofNat n).toLower.toUpper := by
    decide
  have hletter := hall c.toNat hc
  rwa [Char.ofNat_toNat] at hletter

theorem eq_name_of_named? {word : String} {type : ColumnType} (h : ColumnType.named? word = some type) :
    word = type.name := by
  unfold ColumnType.named? at h
  split at h
  · cases h
    assumption
  · split at h <;> cases h
    assumption

/-- **A word that is read as a type** is the name of the type in some letter case. -/
theorem Spells.of_typed {type : ColumnType} {word : List Char} (hword : ∀ c ∈ word, isBlank c = false)
    (h : parseColumn.typed (String.ofList word) = .ok type) : Spells type word := by
  have htrim : trim (String.ofList word) = String.ofList word := by
    rw [trim, String.toList_ofList, trimChars_of_noBlank hword]
  have hname : lowercase (String.ofList word) = type.name := by
    rw [parseColumn.typed, ColumnType.parse, htrim] at h
    cases hnamed : ColumnType.named? (lowercase (String.ofList word)) with
    | none =>
      rw [hnamed] at h
      cases h
    | some found =>
      rw [hnamed] at h
      cases h
      exact eq_name_of_named? hnamed
  have hletters : ∀ x ∈ type.name.toList, x.toNat < 0x80 ∧ x ≠ 'k' ∧ x ≠ '\x00' := by
    have hall : (type.name.toList.all fun x => decide (x.toNat < 0x80 ∧ x ≠ 'k' ∧ x ≠ '\x00')) = true := by
      cases type <;> decide
    exact fun x hx => of_decide_eq_true (List.all_eq_true.mp hall x hx)
  have hlower : LetterCase.lowerFrom [] word = type.name.toList := by
    rw [← hname, lowercase, String.toList_ofList, String.toList_ofList]
  have hascii : ∀ c ∈ word, c.toNat < 0x80 := ascii_of_lowerFrom (by rwa [hlower])
  have hmap : word.map Char.toLower = type.name.toList := by
    rw [← hname, lowercase_ofList hascii, String.toList_ofList]
  rw [Spells, ← hmap, List.forall₂_map_left_iff, List.forall₂_same]
  exact fun c hc => eq_or_eq_toUpper_toLower (hascii c hc)

/-- The words of a text that is read as a column. -/
theorem words_of_parseColumn {c : Column × Bool} {text : List Char} (h : parseColumn text = .ok c) :
    ∃ name type, wordsFrom [] text = name :: type :: (if c.2 then [keyTag.toList] else []) ∧
      c.1.name = String.ofList name ∧ parseColumn.typed (String.ofList type) = .ok c.1.type := by
  rw [parseColumn, words, String.toList_ofList] at h
  split at h
  · rename_i htwo
    obtain ⟨name, ws, hname, rfl, htail⟩ := List.map_eq_cons_iff.mp htwo
    obtain ⟨type, ws, rfl, rfl, hnone⟩ := List.map_eq_cons_iff.mp htail
    obtain rfl := List.map_eq_nil_iff.mp hnone
    obtain ⟨found, htyped, h⟩ := ok_of_bind h
    cases h
    exact ⟨name, type, hname, rfl, htyped⟩
  · rename_i hthree
    obtain ⟨name, ws, hname, rfl, htail⟩ := List.map_eq_cons_iff.mp hthree
    obtain ⟨type, ws, rfl, rfl, hlast⟩ := List.map_eq_cons_iff.mp htail
    obtain ⟨tag, ws, rfl, rfl, hnone⟩ := List.map_eq_cons_iff.mp hlast
    obtain rfl := List.map_eq_nil_iff.mp hnone
    obtain ⟨found, htyped, h⟩ := ok_of_bind h
    split at h
    · rename_i htag
      cases h
      refine ⟨name, type, ?_, rfl, htyped⟩
      rw [hname, if_pos rfl, ← htag, String.toList_ofList]
    · cases h
  · cases h

/-- **A text that is read as a column** writes it. -/
theorem WritesColumn.of_parse {c : Column × Bool} {text : List Char} (hfeed : '\n' ∉ text) (hcomma : ',' ∉ text)
    (h : parseColumn text = .ok c) :
    WritesColumn c text ∧ c.1.name ≠ "" ∧ Word c.1.name.toList := by
  obtain ⟨⟨columnName, columnType⟩, mark⟩ := c
  obtain ⟨name, type, hwords, rfl, htyped⟩ := words_of_parseColumn h
  have hne : name ≠ [] := wordsFrom_ne_nil (hwords ▸ List.mem_cons_self)
  have hname : ∀ c ∈ name, isBlank c = false :=
    wordsFrom_noBlank (hwords ▸ List.mem_cons_self) fun c hc => absurd hc List.not_mem_nil
  have htype : ∀ c ∈ type, isBlank c = false :=
    wordsFrom_noBlank (hwords ▸ List.mem_cons_of_mem _ List.mem_cons_self) fun c hc => absurd hc List.not_mem_nil
  have hspells := Spells.of_typed htype htyped
  obtain ⟨before, rest, rfl, hbefore, -, hhead, hrest⟩ := exists_of_wordsFrom hwords
  obtain ⟨gap, rest, rfl, hgap, hgap', hhead', hlast⟩ := exists_of_wordsFrom hrest
  simp only [List.mem_append, not_or] at hfeed hcomma
  obtain ⟨hfeed₁, -, hfeed₂, -, hfeed₃⟩ := hfeed
  have hbefore := space_of_blank hbefore hfeed₁
  have hgap := space_of_blank hgap hfeed₂
  refine ⟨?_, by simpa using hne, ?_⟩
  · cases mark with
    | false =>
      have hbehind := space_of_blank (blank_of_wordsFrom hlast) hfeed₃
      have hwrites := WritesColumn.plain ⟨String.ofList name, columnType⟩ hbefore hgap (hgap' hhead) hspells hbehind
      rwa [String.toList_ofList] at hwrites
    | true =>
      obtain ⟨gap₂, behind, rfl, hgap₂, hgap₂', -, hend⟩ := exists_of_wordsFrom hlast
      simp only [List.mem_append, not_or] at hfeed₃
      obtain ⟨hfeed₃, -, hfeed₄⟩ := hfeed₃
      have hwrites := WritesColumn.key ⟨String.ofList name, columnType⟩ hbefore hgap (hgap' hhead) hspells
        (space_of_blank hgap₂ hfeed₃) (hgap₂' hhead') (space_of_blank (blank_of_wordsFrom hend) hfeed₄)
      rwa [String.toList_ofList] at hwrites
  · rw [String.toList_ofList]
    exact fun x hx => ⟨hname x hx, fun hx' => hcomma.2.1 (hx' ▸ hx)⟩

/-- Texts that are read as columns write them. -/
theorem writes_of_parseColumns {texts : List (List Char)} {columns : List (Column × Bool)}
    (htexts : ∀ text ∈ texts, '\n' ∉ text ∧ ',' ∉ text) (h : parseColumns texts = .ok columns) :
    List.Forall₂ WritesColumn columns texts ∧ ∀ c ∈ columns, c.1.name ≠ "" ∧ Word c.1.name.toList := by
  induction texts generalizing columns with
  | nil =>
    cases h
    exact ⟨.nil, nofun⟩
  | cons text texts ih =>
    obtain ⟨⟨hfeed, hcomma⟩, hrest⟩ := List.forall_mem_cons.mp htexts
    rw [parseColumns] at h
    obtain ⟨column, hcolumn, h⟩ := ok_of_bind h
    obtain ⟨others, hcolumns, h⟩ := ok_of_bind h
    cases h
    obtain ⟨hfirst, hnamed⟩ := WritesColumn.of_parse hfeed hcomma hcolumn
    obtain ⟨hothers, hall⟩ := ih hrest hcolumns
    exact ⟨.cons hfirst hothers, List.forall_mem_cons.mpr ⟨hnamed, hall⟩⟩

/-! ## Lines -/

variable {t : TableLine} {columns columns' : List (Column × Bool)} {behind behind' line : List Char}

/-- What a line that is accepted is cut into. -/
theorem parts_of_parse (h : TableLine.parse (String.ofList line) = .ok t) :
    ∃ before inner behind columns, line = before ++ '(' :: (inner ++ ')' :: behind) ∧ '(' ∉ before ∧
      ')' ∉ behind ∧ trimChars before ≠ [] ∧ parseColumns (inner.splitOn ',') = .ok columns ∧
      t.name = String.ofList (trimChars before) ∧ columns.map (·.1) = t.schema.columns ∧
      keyOf columns = t.primaryKey := by
  rw [TableLine.parse, String.toList_ofList] at h
  cases hopen : cutFirst '(' line with
  | none =>
    rw [hopen] at h
    cases h
  | some cut =>
    obtain ⟨before, after⟩ := cut
    simp only [hopen] at h
    cases hclose : cutLast ')' after with
    | none =>
      rw [hclose] at h
      cases h
    | some inner =>
      simp only [hclose] at h
      split at h
      · cases h
      rename_i hname
      obtain ⟨columns, hcolumns, h⟩ := ok_of_bind h
      obtain ⟨rfl, hopen'⟩ := of_cutFirst hopen
      obtain ⟨behind, rfl, hclose'⟩ := of_cutLast hclose
      split at h
      · rename_i schema hschema
        cases h
        unfold Schema.ofColumns at hschema
        split at hschema <;> cases hschema
        exact ⟨before, inner, behind, columns, rfl, hopen', hclose', hname, hcolumns, rfl, rfl, rfl⟩
      · cases h

/-- **A line that is accepted** has the form of a reading. -/
theorem exists_reading (hfeed : '\n' ∉ line) (h : TableLine.parse (String.ofList line) = .ok t) :
    ∃ columns behind, Reading t columns behind line := by
  obtain ⟨before, inner, behind, columns, rfl, hopen, hclose, hne, hcolumns, hname, hschema, hkey⟩ :=
    parts_of_parse h
  obtain ⟨space, space', hspace, hspace', hbefore⟩ := exists_trimChars before
  simp only [List.mem_append, List.mem_cons, not_or] at hfeed
  obtain ⟨hfeed, -, hinner, -⟩ := hfeed
  obtain ⟨hwrites, hnamed⟩ := writes_of_parseColumns
    (fun text htext => ⟨fun h => hinner (of_mem_splitOn htext _ h).1, fun h => (of_mem_splitOn htext _ h).2 rfl⟩)
    hcolumns
  have hletters : t.name.toList = trimChars before := by rw [hname, String.toList_ofList]
  rw [hbefore] at hopen hfeed
  simp only [List.mem_append, not_or] at hopen hfeed
  exact ⟨columns, behind,
    { name_ne := by simpa [hname] using hne
      name_open := by
        rw [hletters]
        exact hopen.1.2
      name_trim := by rw [trim, hletters, trimChars_trimChars, hname]
      column_ne := fun c hc => (hnamed c hc).1
      column_word := fun c hc => (hnamed c hc).2
      schema_eq := hschema
      key_eq := hkey
      behind_close := hclose
      text := ⟨space, space', inner.splitOn ',', space_of_blank hspace hfeed.1.1,
        space_of_blank hspace' hfeed.2, hwrites, by
          rw [hletters, List.intercalate_splitOn, ← hbefore]⟩ }⟩

/-- **A line is accepted** exactly if it has the form of a reading. -/
theorem parse_eq_ok_iff (hfeed : '\n' ∉ line) :
    TableLine.parse (String.ofList line) = .ok t ↔ ∃ columns behind, Reading t columns behind line :=
  ⟨exists_reading hfeed, fun ⟨_, _, h⟩ => h.parse⟩

namespace Reading

/-- **There is one way** to read a line. -/
theorem unique (h : Reading t columns behind line) {t' : TableLine} (h' : Reading t' columns' behind' line) :
    t = t' ∧ columns = columns' ∧ behind = behind' := by
  have hsame : t = t' := Except.ok.inj (h.parse.symm.trans h'.parse)
  obtain ⟨before, inner, hline, hopen, -, hread⟩ := h.parts
  obtain ⟨before', inner', hline', hopen', -, hread'⟩ := h'.parts
  have hcut := cutFirst_append hopen (inner ++ ')' :: behind)
  rw [← hline, hline', cutFirst_append hopen'] at hcut
  obtain ⟨-, hafter⟩ := Prod.mk.inj (Option.some.inj hcut)
  have hlast := cutLast_append h.behind_close inner
  rw [← hafter, cutLast_append h'.behind_close] at hlast
  obtain rfl := Option.some.inj hlast
  exact ⟨hsame, Except.ok.inj (hread.symm.trans hread'), (List.cons.inj (List.append_cancel_left hafter)).2.symm⟩

end Reading

/-! ## Lines that are lost in part -/

/-- A line is a table as it is written, up to white space and the letter case of types. -/
def Written (t : TableLine) (line : List Char) : Prop := ∃ d : Draft, d.table = t ∧ d.WritesLine line

namespace Draft

variable {d : Draft}

/-- If no name occurs twice, the marked column is the one with the name of the key. -/
theorem marked_iff (hnames : (d.columns.map (·.1.name)).Nodup) {c : Column × Bool} (hc : c ∈ d.columns) :
    c.2 = true ↔ c.1.name = d.key := by
  unfold key
  cases hfind : d.columns.find? (·.2) with
  | none =>
    have hplain := List.find?_eq_none.mp hfind c hc
    exact ⟨fun h => absurd h hplain, fun h => absurd h (d.column_ne c hc)⟩
  | some marked =>
    have hmem := List.mem_of_find?_eq_some hfind
    have hmarked : marked.2 = true := List.find?_some hfind
    constructor
    · intro hmark
      have hone := d.oneKey
      have hfirst : marked ∈ d.columns.filter (·.2) := List.mem_filter.mpr ⟨hmem, hmarked⟩
      have hsecond : c ∈ d.columns.filter (·.2) := List.mem_filter.mpr ⟨hc, hmark⟩
      obtain ⟨only, honly⟩ := List.length_eq_one_iff.mp
        (Nat.le_antisymm hone (List.length_pos_of_mem hfirst))
      rw [honly, List.mem_singleton] at hfirst hsecond
      rw [hfirst, hsecond]
      rfl
    · intro hname
      rw [List.inj_on_of_nodup_map hnames hc hmem hname]
      exact hmarked

/-- A blank behind each comma belongs to the next column. -/
theorem intercalate_blank (first : List Char) (rest : List (List Char)) :
    [',', ' '].intercalate (first :: rest) = [','].intercalate (first :: rest.map (' ' :: ·)) := by
  induction rest generalizing first with
  | nil => simp
  | cons next rest ih =>
    rw [List.intercalate_cons_cons, ih, List.map_cons, List.intercalate_cons_cons,
      List.intercalate_cons_cons_left]
    simp

/-- A column as it is rendered, with white space before it, is written. -/
theorem writes_columnText (hnames : (d.columns.map (·.1.name)).Nodup) {c : Column × Bool} (hc : c ∈ d.columns)
    (space : List Char) (hspace : Space space) :
    WritesColumn c (space ++ (columnText d.key c.1).toList) := by
  have hblank : Space [' '] := by decide
  have hspells : Spells c.1.type c.1.type.name.toList := List.forall₂_same.mpr fun _ _ => .inl rfl
  have hmark := marked_iff hnames hc
  obtain ⟨column, mark⟩ := c
  cases mark with
  | false =>
    have htext : (columnText d.key column).toList =
        column.name.toList ++ ([' '] ++ (column.type.name.toList ++ [])) := by
      rw [columnText, if_neg fun h => absurd (hmark.mpr h) Bool.false_ne_true]
      simp
    rw [htext]
    exact .plain column hspace hblank (List.cons_ne_nil _ _) hspells nofun
  | true =>
    have htext : (columnText d.key column).toList =
        column.name.toList ++ ([' '] ++ (column.type.name.toList ++ ([' '] ++ (keyTag.toList ++ [])))) := by
      rw [columnText, if_pos (hmark.mp rfl)]
      simp
    rw [htext]
    exact .key column hspace hblank (List.cons_ne_nil _ _) hspells hblank (List.cons_ne_nil _ _) nofun

/-- **A table as it is rendered** is written, if no name of a column occurs twice. -/
theorem writes_text (hnames : (d.columns.map (·.1.name)).Nodup) : d.WritesLine d.table.text.toList := by
  obtain ⟨first, rest, hcolumns⟩ := List.exists_cons_of_ne_nil d.columns_ne
  let texts := (columnText d.key first.1).toList :: rest.map fun c => ' ' :: (columnText d.key c.1).toList
  have hwrites : List.Forall₂ WritesColumn d.columns texts := by
    rw [hcolumns]
    refine .cons (writes_columnText hnames (by simp [hcolumns]) [] nofun) ?_
    rw [List.forall₂_map_right_iff, List.forall₂_same]
    exact fun c hc => writes_columnText hnames (by simp [hcolumns, hc]) [' '] (by decide)
  have htext : d.table.text.toList =
      [] ++ d.name.toList ++ [' '] ++ '(' :: ([','].intercalate texts ++ ')' :: []) := by
    have hinner : (", ".intercalate (d.columns.map fun c => columnText d.key c.1)).toList =
        [','].intercalate texts := by
      rw [String.toList_intercalate, hcolumns, List.map_map, List.map_cons]
      refine (intercalate_blank _ _).trans ?_
      rw [List.map_map]
      rfl
    rw [TableLine.text, show d.table.schema.columns = d.columns.map (·.1) from rfl, List.map_map]
    simp only [String.toList_append, show d.table.primaryKey = d.key from rfl, Function.comp_def, hinner]
    simp [Draft.table]
  rw [htext]
  exact .mk nofun (by decide) nofun hwrites

end Draft

namespace Reading

/-- What is read is written, if at most one column is marked and nothing but white space follows. -/
theorem written (h : Reading t columns behind line) (hfeed : '\n' ∉ line) (hbehind : Space behind)
    (hone : (columns.filter (·.2)).length ≤ 1) : Written t line := by
  obtain ⟨before, between, texts, hbefore, hbetween, hcolumns, hline⟩ := h.text
  have hname : '\n' ∉ t.name.toList := fun hmem => hfeed (by simp [hline, hmem])
  have hne : columns ≠ [] := by
    rintro rfl
    exact t.schema.ne_nil h.schema_eq.symm
  let d : Draft := ⟨t.name, h.name_ne, h.name_open, hname, h.name_trim, columns, hne, h.column_ne,
    h.column_word, hone⟩
  have hwrites : d.WritesLine line := hline ▸ .mk hbefore hbetween hbehind hcolumns
  exact ⟨d, Except.ok.inj (hwrites.parse.symm.trans h.parse), hwrites⟩

/-- **A line is written as it is read** exactly if nothing but white space follows and at most one column is
    marked. -/
theorem written_iff (h : Reading t columns behind line) (hfeed : '\n' ∉ line) :
    Written t line ↔ Space behind ∧ (columns.filter (·.2)).length ≤ 1 := by
  refine ⟨?_, fun ⟨hbehind, hone⟩ => h.written hfeed hbehind hone⟩
  rintro ⟨d, rfl, hwrites⟩
  obtain ⟨space, hspace, hreading⟩ := hwrites.reading
  obtain ⟨-, rfl, rfl⟩ := h.unique hreading
  exact ⟨hspace, d.oneKey⟩

end Reading

/-- **What a line that is accepted may look like.**  It has a name, columns between parentheses and with commas
    between them, and then any text without a closing parenthesis; any of the columns may be marked, and the
    last one of them is the key.  Every line of this form is accepted.  The columns, their marks and the text
    behind them are determined by the line, and the line is a table as it is written, up to white space and
    the letter case of types, exactly if nothing but white space follows and at most one column is marked.
    If no name of a column occurs twice, it then differs in nothing else from the table as `text` renders it.

    So text behind the columns, and every mark but the last one, are dropped without a word. -/
theorem accepted_line_form {line : String} (hfeed : '\n' ∉ line.toList) (t : TableLine) :
    (TableLine.parse line = .ok t ↔ ∃ columns behind, Reading t columns behind line.toList) ∧
    (∀ columns behind, Reading t columns behind line.toList →
      (Written t line.toList ↔ Space behind ∧ (columns.filter (·.2)).length ≤ 1)) ∧
    (Written t line.toList → (t.schema.columns.map (·.name)).Nodup →
      ∃ d : Draft, d.table = t ∧ d.WritesLine line.toList ∧ d.WritesLine t.text.toList) := by
  refine ⟨?_, fun columns behind hreading => hreading.written_iff hfeed, ?_⟩
  · rw [← parse_eq_ok_iff hfeed, String.ofList_toList]
  · rintro ⟨d, rfl, hwrites⟩ hnames
    refine ⟨d, rfl, hwrites, Draft.writes_text ?_⟩
    rwa [show d.table.schema.columns = d.columns.map (·.1) from rfl, List.map_map] at hnames

/-- A line with marks in its names, a type in mixed case and white space of several kinds is its table. -/
theorem accepted_line_form_with_marks :
    let line := "\tstock), old ( f(x  iNt ,y)\u00a0STRING pk)\r"
    '\n' ∉ line.toList ∧ TableLine.parse line = .ok Draft.marked.table ∧
      Written Draft.marked.table line.toList ∧
      ∃ d : Draft, d.table = Draft.marked.table ∧ d.WritesLine line.toList ∧
        d.WritesLine "stock), old (f(x int, y) string pk)".toList := by
  intro line
  have hfeed : '\n' ∉ line.toList := by decide
  have htext : Draft.marked.table.text = "stock), old (f(x int, y) string pk)" := by decide
  obtain ⟨behind, hspace, hreading⟩ := Draft.marked_written.reading
  obtain ⟨hread, hwritten, hrendered⟩ := accepted_line_form hfeed Draft.marked.table
  have hline := (hwritten _ behind hreading).mpr ⟨hspace, Draft.marked.oneKey⟩
  have hrender := hrendered hline (by decide)
  rw [htext] at hrender
  exact ⟨hfeed, hread.mpr ⟨_, behind, hreading⟩, hline, hrender⟩

/-- Text behind the columns is lost, and so is the first one of two marks: both lines are accepted, and
    neither is its table. -/
theorem accepted_lines_are_lost_in_part :
    let one : TableLine := ⟨"t", ⟨[⟨"a", .int⟩], by decide⟩, ""⟩
    let two : TableLine := ⟨"t", ⟨[⟨"a", .int⟩, ⟨"b", .int⟩], by decide⟩, "b"⟩
    (TableLine.parse "t (a int) x" = .ok one ∧ ¬ Written one "t (a int) x".toList) ∧
      TableLine.parse "t (a int pk, b int pk)" = .ok two ∧ ¬ Written two "t (a int pk, b int pk)".toList := by
  intro one two
  have hint : Spells .int ['i', 'n', 't'] := .cons (.inl rfl) (.cons (.inl rfl) (.cons (.inl rfl) .nil))
  have hplain : WritesColumn (⟨"a", .int⟩, false) "a int".toList :=
    @WritesColumn.plain ⟨"a", .int⟩ [] [' '] _ [] (by decide) (by decide) (by decide) hint (by decide)
  have hfirst : WritesColumn (⟨"a", .int⟩, true) "a int pk".toList :=
    @WritesColumn.key ⟨"a", .int⟩ [] [' '] _ [' '] [] (by decide) (by decide) (by decide) hint
      (by decide) (by decide) (by decide)
  have hsecond : WritesColumn (⟨"b", .int⟩, true) " b int pk".toList :=
    @WritesColumn.key ⟨"b", .int⟩ [' '] [' '] _ [' '] [] (by decide) (by decide) (by decide) hint
      (by decide) (by decide) (by decide)
  have hone : Reading one [(⟨"a", .int⟩, false)] [' ', 'x'] "t (a int) x".toList :=
    { name_ne := by decide
      name_open := by decide
      name_trim := by decide
      column_ne := by decide
      column_word := by decide
      schema_eq := rfl
      key_eq := rfl
      behind_close := by decide
      text := ⟨[], [' '], _, by decide, by decide, .cons hplain .nil, by decide⟩ }
  have htwo : Reading two [(⟨"a", .int⟩, true), (⟨"b", .int⟩, true)] [] "t (a int pk, b int pk)".toList :=
    { name_ne := by decide
      name_open := by decide
      name_trim := by decide
      column_ne := by decide
      column_word := by decide
      schema_eq := rfl
      key_eq := rfl
      behind_close := by decide
      text := ⟨[], [' '], _, by decide, by decide, .cons hfirst (.cons hsecond .nil), by decide⟩ }
  refine ⟨⟨hone.parse, ?_⟩, htwo.parse, ?_⟩
  · rw [hone.written_iff (by decide)]
    decide
  · rw [htwo.written_iff (by decide)]
    decide

end TableLine

end RowStore
