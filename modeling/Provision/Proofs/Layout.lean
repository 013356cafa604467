import Provision.Inventory.Brew
import Provision.Inventory.Dpkg
import Provision.Proofs.Naming

/-!
# Layout — tables and lists of packages, written and read back

The package table has a row for each installed version, the version list a line for each name.  Both
are laid out in columns with blanks between them, and the table also has headings, architectures and
further columns.  Reading gives back what was laid out, whatever the layout.  This file defines:

* `endLines`, `lines_endLines` — lines with their ends, and the lines of that;
* `takeRun_append`, `firstWord_columns` — runs of characters and of words are cut where the blanks
  are;
* `Gap`, `Version`, `Release` — the parts of a layout, and an installed package at a version;
* `Dpkg.Row`, `Dpkg.Line`, `Dpkg.parse_print` — the table, read back;
* `Brew.Line`, `Brew.parse_print` — the list, read back.
-/

namespace Provision

open Text

/-! ## Lines -/

namespace Text

/-- Some lines, each with a line feed at its end. -/
def endLines (ls : List (List Char)) : List Char :=
  ls.flatMap fun line => line ++ ['\n']

theorem pieces_append {line : List Char} (h : '\n' ∉ line) (cs : List Char) :
    pieces '\n' (line ++ '\n' :: cs) = (line, (pieces '\n' cs).1 :: (pieces '\n' cs).2) := by
  induction line with
  | nil =>
      simp [pieces]
  | cons c line ih =>
      have hc : c ≠ '\n' := fun hsame => h (by simp [hsame])
      have hline : '\n' ∉ line := fun hmem => h (List.mem_cons_of_mem _ hmem)
      simp [pieces, hc, ih hline]

/-- The lines of lines with their ends; a carriage return before an end belongs to it. -/
theorem lines_endLines {ls : List (List Char)} (h : ∀ line ∈ ls, '\n' ∉ line) :
    lines (endLines ls) = ls.map dropReturn := by
  induction ls with
  | nil =>
      rfl
  | cons line ls ih =>
      have hline : '\n' ∉ line := h line (List.mem_cons_self ..)
      have hrest : lines (endLines ls) = ls.map dropReturn :=
        ih fun other hother => h other (List.mem_cons_of_mem _ hother)
      have hends : endLines (line :: ls) = line ++ '\n' :: endLines ls := by simp [endLines]
      calc
        lines (endLines (line :: ls)) = dropReturn line :: lines (endLines ls) := by
          simp [lines, hends, pieces_append hline, closeLines]
        _ = (line :: ls).map dropReturn := by rw [hrest]; rfl

/-- Texts without line feeds are read one by one. -/
theorem filterMap_lines {α β : Type} (text : α → List Char) (read : List Char → Option β)
    (h : ∀ a, '\n' ∉ text a) (as : List α) :
    (lines (endLines (as.map text))).filterMap read =
      as.filterMap fun a => read (dropReturn (text a)) := by
  have hlines : lines (endLines (as.map text)) = (as.map text).map dropReturn := by
    apply lines_endLines
    intro line hline
    rcases List.mem_map.1 hline with ⟨a, -, rfl⟩
    exact h a
  rw [hlines]
  simp [List.filterMap_map, Function.comp_def]

/-! ## Runs -/

section Runs

variable {β : Type} {p : Char → Bool} {rest : List Char → Option β} {run cs : List Char}

theorem takeRun_of_head (h : ∀ c ∈ cs.head?, p c = false) : takeRun p rest cs = none := by
  cases cs with
  | nil =>
      rfl
  | cons c cs =>
      have hc : p c = false := h c rfl
      simp [takeRun, hc]

/-- A run is taken as a whole or not at all where it ends, if the rest matches behind it or does not
begin with a character of its class. -/
theorem takeRun_append (hrun : ∀ c ∈ run, p c = true) (hne : run ≠ [])
    (hend : ∀ c ∈ cs.head?, p c = false)
    (hrest : (rest cs).isSome ∨ ∀ c ds, p c = true → rest (c :: ds) = none) :
    takeRun p rest (run ++ cs) = (rest cs).map fun b => (run, b) := by
  induction run with
  | nil =>
      exact absurd rfl hne
  | cons c run ih =>
      have hc : p c = true := hrun c (List.mem_cons_self ..)
      have htail : ∀ d ∈ run, p d = true := fun d hd => hrun d (List.mem_cons_of_mem _ hd)
      by_cases hlast : run = []
      · -- the run cannot go on, so that the rest begins here
        subst hlast
        simp [takeRun, hc, takeRun_of_head hend]
      · -- to give back would leave a character of the class to the rest
        have hback : (rest cs).isSome ∨ rest (run ++ cs) = none := by
          rcases hrest with hmatch | hnone
          · exact Or.inl hmatch
          · rcases List.exists_cons_of_ne_nil hlast with ⟨d, ds, rfl⟩
            exact Or.inr (hnone d (ds ++ cs) (htail d (List.mem_cons_self ..)))
        rcases hback with hmatch | hnone
        · rcases Option.isSome_iff_exists.1 hmatch with ⟨b, hb⟩
          simp [takeRun, hc, ih htail hlast, hb]
        · simp [takeRun, hc, ih htail hlast, hnone, Function.comp_def]

theorem matches_one {items : List Item} {taken : List (List Char)} {c : Char} (hc : p c = true)
    (hrest : Item.matches items cs = some taken) :
    Item.matches (.one p :: items) (c :: cs) = some ([c] :: taken) := by
  simp [Item.matches, hc, hrest]

/-- An item that may take nothing takes nothing where its class does not go on. -/
theorem matches_atMostOne {items : List Item} {taken : List (List Char)}
    (hend : ∀ c ∈ cs.head?, p c = false) (hrest : Item.matches items cs = some taken) :
    Item.matches (.atMostOne p :: items) cs = some ([] :: taken) := by
  cases cs with
  | nil =>
      simp [Item.matches, hrest]
  | cons c cs =>
      have hc : p c = false := hend c rfl
      simp [Item.matches, hc, hrest]

theorem matches_of_head {items : List Item} (h : ∀ c ∈ cs.head?, p c = false) :
    Item.matches (.atLeastOne p :: items) cs = none := by
  simp [Item.matches, takeRun_of_head h]

theorem matches_append {items : List Item} (hrun : ∀ c ∈ run, p c = true) (hne : run ≠ [])
    (hend : ∀ c ∈ cs.head?, p c = false)
    (hitems : (Item.matches items cs).isSome ∨
      ∀ c ds, p c = true → Item.matches items (c :: ds) = none) :
    Item.matches (.atLeastOne p :: items) (run ++ cs) = (Item.matches items cs).map (run :: ·) := by
  rw [Item.matches, takeRun_append hrun hne hend hitems]
  simp [Function.comp_def]

theorem matches_atLeastOne {items : List Item} {taken : List (List Char)}
    (hrun : ∀ c ∈ run, p c = true) (hne : run ≠ []) (hend : ∀ c ∈ cs.head?, p c = false)
    (hrest : Item.matches items cs = some taken) :
    Item.matches (.atLeastOne p :: items) (run ++ cs) = some (run :: taken) := by
  have hsome : (Item.matches items cs).isSome := by rw [hrest]; rfl
  rw [matches_append hrun hne hend (Or.inl hsome), hrest]
  rfl

end Runs

/-! ## Words -/

section Words

variable {word gap cs : List Char}

theorem firstWord_append (h : ∀ c ∈ word, isBlank c = false) :
    firstWord (word ++ cs) = (word ++ (firstWord cs).1, (firstWord cs).2) := by
  induction word with
  | nil =>
      rfl
  | cons c word ih =>
      have hc : isBlank c = false := h c (List.mem_cons_self ..)
      have hword : ∀ d ∈ word, isBlank d = false := fun d hd => h d (List.mem_cons_of_mem _ hd)
      simp [firstWord, hc, ih hword]

/-- Behind a blank the words begin anew. -/
theorem firstWord_gap (h : ∀ c ∈ gap, isBlank c = true) (hne : gap ≠ []) :
    firstWord (gap ++ cs) = ([], words cs) := by
  induction gap with
  | nil =>
      exact absurd rfl hne
  | cons c gap ih =>
      have hc : isBlank c = true := h c (List.mem_cons_self ..)
      have hgap : ∀ d ∈ gap, isBlank d = true := fun d hd => h d (List.mem_cons_of_mem _ hd)
      by_cases hlast : gap = []
      · subst hlast
        simp [firstWord, hc, words]
      · simp [firstWord, hc, ih hgap hlast, addWord]

end Words

end Text

namespace Inventory

/-! ## Parts of a layout -/

/-- The blanks between two columns. -/
structure Gap where
  chars : List Char
  nonempty : chars ≠ []
  blank : ∀ c ∈ chars, isBlank c = true
  inline : '\n' ∉ chars

/-- A version, which is one word. -/
structure Version where
  text : String
  nonempty : text.toList ≠ []
  solid : ∀ c ∈ text.toList, isBlank c = false

/-- A package with a valid name, at a version. -/
@[ext] structure Release where
  name : String
  version : Version
  named : PackageName.validate name = .ok ()

theorem not_blank_of_named {name : String} (h : PackageName.validate name = .ok ()) :
    ∀ c ∈ name.toList, isBlank c = false := by
  intro c hc
  exact PackageName.not_blank_of_nameCharacter ((PackageName.characters_of_validate h).2 c hc)

/-- No blank is in a word. -/
theorem not_mem_of_solid {cs : List Char} {d : Char} (hd : isBlank d = true)
    (h : ∀ c ∈ cs, isBlank c = false) : d ∉ cs := by
  intro hmem
  have hsolid : isBlank d = false := h d hmem
  exact Bool.noConfusion (hd.symm.trans hsolid)

/-- A text that begins with a run begins with a character of the run. -/
theorem head_of_run {P : Char → Prop} {run cs : List Char} (hne : run ≠ []) (h : ∀ c ∈ run, P c) :
    ∀ c ∈ (run ++ cs).head?, P c := by
  cases run with
  | nil =>
      exact absurd rfl hne
  | cons d ds =>
      intro c hc
      have hd : c = d := by simpa using hc.symm
      exact h c (by simp [hd])

/-- A text that ends in a word does not end in a carriage return. -/
theorem getLast?_of_solid {front word : List Char} (hne : word ≠ [])
    (h : ∀ c ∈ word, isBlank c = false) : (front ++ word).getLast? ≠ some '\r' := by
  intro hlast
  have hword : word.getLast? = some (word.getLast hne) := List.getLast?_eq_some_getLast hne
  have hreturn : word.getLast hne = '\r' := by
    rw [List.getLast?_append, hword] at hlast
    simpa using hlast
  have hmem : '\r' ∈ word := hreturn ▸ List.getLast_mem hne
  exact not_mem_of_solid (by decide) h hmem

/-- What a text begins with it also begins with when it lacks its end. -/
theorem mem_head?_of_dropLast {cs : List Char} {c : Char} (h : c ∈ cs.dropLast.head?) :
    c ∈ cs.head? := by
  cases cs with
  | nil =>
      exact h
  | cons d cs =>
      cases cs with
      | nil =>
          cases h
      | cons e cs =>
          exact h

/-! ## The table -/

namespace Dpkg

/-- The row of an installed package. -/
structure Row where
  release : Release
  /-- The blanks behind the two state letters. -/
  indent : Gap
  /-- The architecture that is given behind a colon. -/
  architecture : Option (List Char)
  gap : Gap
  /-- What follows the version: nothing, or further columns. -/
  rest : List Char
  solid : ∀ arch ∈ architecture, ∀ c ∈ arch, isBlank c = false
  apart : ∀ c ∈ rest.head?, isBlank c = true
  inline : '\n' ∉ rest

/-- A line of text above or between the rows, which does not begin as a row does. -/
structure Heading where
  text : List Char
  apart : ∀ c ∈ text.head?, isLowerLetter c = false
  inline : '\n' ∉ text

inductive Line where
  | heading (h : Heading)
  | row (r : Row)

namespace Row

/-- The name with the architecture, if one is given. -/
def qualifiedName (r : Row) : List Char :=
  match r.architecture with
  | none => r.release.name.toList
  | some arch => r.release.name.toList ++ ':' :: arch

/-- The row up to the version: the package is to be installed, and is. -/
def front (r : Row) : List Char :=
  'i' :: 'i' :: (r.indent.chars ++ r.qualifiedName ++ r.gap.chars) ++ r.release.version.text.toList

def text (r : Row) : List Char :=
  r.front ++ r.rest

end Row

def Line.text : Line → List Char
  | heading h => h.text
  | row r => r.text

/-- The table as it is printed. -/
def print (table : List Line) : String :=
  String.ofList (endLines (table.map Line.text))

/-! ### Reading the table -/

theorem isSolid_iff {c : Char} : isSolid c = true ↔ isBlank c = false := by
  simp [isSolid]

/-- A row falls into its columns. -/
theorem matches_row (indent gap : Gap) {name version rest : List Char} (hname : name ≠ [])
    (hnameSolid : ∀ c ∈ name, isBlank c = false) (hversion : version ≠ [])
    (hversionSolid : ∀ c ∈ version, isBlank c = false)
    (hrest : ∀ c ∈ rest.head?, isBlank c = true) :
    Item.matches row ('i' :: 'i' :: (indent.chars ++ (name ++ (gap.chars ++ (version ++ rest))))) =
      some [['i'], ['i'], [], indent.chars, name, gap.chars, version] := by
  have hflagEnd : ∀ c ∈ (indent.chars ++ (name ++ (gap.chars ++ (version ++ rest)))).head?,
      isSolid c = false := by
    intro c hc
    simp [isSolid, head_of_run indent.nonempty indent.blank c hc]
  have hnameEnd : ∀ c ∈ (gap.chars ++ (version ++ rest)).head?, isSolid c = false := by
    intro c hc
    simp [isSolid, head_of_run gap.nonempty gap.blank c hc]
  have hversionEnd : ∀ c ∈ rest.head?, isSolid c = false := by
    intro c hc
    simp [isSolid, hrest c hc]
  -- no column can take less or more, so that the first match is the row as it was laid out
  apply matches_one (by decide)
  apply matches_one (by decide)
  apply matches_atMostOne hflagEnd
  apply matches_atLeastOne indent.blank indent.nonempty (head_of_run hname hnameSolid)
  apply matches_atLeastOne (fun c hc => isSolid_iff.2 (hnameSolid c hc)) hname hnameEnd
  apply matches_atLeastOne gap.blank gap.nonempty (head_of_run hversion hversionSolid)
  exact matches_atLeastOne (fun c hc => isSolid_iff.2 (hversionSolid c hc)) hversion hversionEnd rfl

namespace Row

theorem qualifiedName_solid (r : Row) : ∀ c ∈ r.qualifiedName, isBlank c = false := by
  have hname : ∀ c ∈ r.release.name.toList, isBlank c = false := not_blank_of_named r.release.named
  have hcolon : isBlank ':' = false := by decide
  intro c hc
  unfold qualifiedName at hc
  cases harch : r.architecture with
  | none =>
      exact hname c (by simpa [harch] using hc)
  | some arch =>
      have hcase : c ∈ r.release.name.toList ∨ c = ':' ∨ c ∈ arch := by simpa [harch] using hc
      rcases hcase with hc | rfl | hc
      · exact hname c hc
      · exact hcolon
      · exact r.solid arch harch c hc

theorem qualifiedName_ne_nil (r : Row) : r.qualifiedName ≠ [] := by
  have hname : r.release.name.toList ≠ [] := (PackageName.characters_of_validate r.release.named).1
  unfold qualifiedName
  cases r.architecture <;> simp [hname]

/-- The architecture is not a part of the name. -/
theorem baseName_qualifiedName (r : Row) : baseName r.qualifiedName = r.release.name.toList := by
  have hname : ∀ c ∈ r.release.name.toList, decide (c ≠ ':') = true := by
    intro c hc
    have hcharacter := (PackageName.characters_of_validate r.release.named).2 c hc
    exact decide_eq_true (PackageName.ne_of_nameCharacter hcharacter (by decide))
  have happend : ∀ cs, (r.release.name.toList ++ cs).takeWhile (fun c => decide (c ≠ ':')) =
      r.release.name.toList ++ cs.takeWhile fun c => decide (c ≠ ':') :=
    fun cs => List.takeWhile_append_of_pos hname
  unfold qualifiedName baseName
  cases r.architecture with
  | none =>
      simpa using happend []
  | some arch =>
      simpa using happend (':' :: arch)

/-- The entry of a row. -/
def entry (r : Row) : Entry :=
  ⟨r.release.name, [r.release.version.text]⟩

/-- A row is read as its entry, whatever stands behind the version. -/
theorem entry_front (r : Row) {rest : List Char} (hrest : ∀ c ∈ rest.head?, isBlank c = true) :
    entry? (r.front ++ rest) = some r.entry := by
  have hmatches := matches_row r.indent r.gap r.qualifiedName_ne_nil r.qualifiedName_solid
    r.release.version.nonempty r.release.version.solid hrest
  simp [ entry?, front, hmatches, installed, baseName_qualifiedName, entry]

theorem inline_text (r : Row) : '\n' ∉ r.text := by
  have hname : '\n' ∉ r.qualifiedName := not_mem_of_solid (by decide) r.qualifiedName_solid
  have hversion : '\n' ∉ r.release.version.text.toList :=
    not_mem_of_solid (by decide) r.release.version.solid
  simp [text, front, r.indent.inline, r.gap.inline, r.inline, hname, hversion]

/-- A carriage return at its end changes nothing about a row. -/
theorem entry_text (r : Row) : entry? (dropReturn r.text) = some r.entry := by
  by_cases hreturn : r.text.getLast? = some '\r'
  · -- the carriage return belongs to the further columns, since a version has none
    have hne : r.rest ≠ [] := by
      intro hnone
      have hfront : r.front.getLast? = some '\r' := by
        simpa only [text, hnone, List.append_nil] using hreturn
      exact getLast?_of_solid r.release.version.nonempty r.release.version.solid hfront
    have hdrop : dropReturn r.text = r.front ++ r.rest.dropLast := by
      calc
        dropReturn r.text = r.text.dropLast := by rw [dropReturn, if_pos hreturn]
        _ = r.front ++ r.rest.dropLast := List.dropLast_append_of_ne_nil hne
    rw [hdrop]
    exact r.entry_front fun c hc => r.apart c (mem_head?_of_dropLast hc)
  · have hkeep : dropReturn r.text = r.front ++ r.rest := by
      rw [dropReturn, if_neg hreturn, text]
    rw [hkeep]
    exact r.entry_front r.apart

end Row

theorem entry_of_head {cs : List Char} (h : ∀ c ∈ cs.head?, isLowerLetter c = false) :
    entry? cs = none := by
  cases cs with
  | nil =>
      rfl
  | cons c cs =>
      have hc : isLowerLetter c = false := h c rfl
      simp [ entry?, row, Item.matches, hc]

theorem Heading.entry_text (h : Heading) : entry? (dropReturn h.text) = none := by
  apply entry_of_head
  intro c hc
  unfold dropReturn at hc
  split at hc
  · exact h.apart c (mem_head?_of_dropLast hc)
  · exact h.apart c hc

namespace Line

/-- The entry of a line, if it is a row. -/
def reading : Line → Option Entry
  | heading _ => none
  | row r => some r.entry

theorem inline_text (l : Line) : '\n' ∉ l.text := by
  cases l with
  | heading h =>
      exact h.inline
  | row r =>
      exact r.inline_text

theorem entry_text (l : Line) : entry? (dropReturn l.text) = l.reading := by
  cases l with
  | heading h =>
      exact h.entry_text
  | row r =>
      exact r.entry_text

end Line

/-- Reading a printed table gives the entries of its rows. -/
theorem parse_print (table : List Line) :
    parse (print table).toList = table.filterMap Line.reading := by
  calc
    parse (print table).toList = (lines (endLines (table.map Line.text))).filterMap entry? := by
      simp [parse, print]
    _ = table.filterMap fun l => entry? (dropReturn l.text) :=
      filterMap_lines Line.text entry? Line.inline_text table
    _ = table.filterMap Line.reading := by
      simp only [Line.entry_text]

end Dpkg

/-! ## The list -/

namespace Brew

/-- The line of a package: its name, and its versions with a gap before each. -/
structure Line where
  name : String
  columns : List (Gap × Version)
  named : PackageName.validate name = .ok ()
  versioned : columns ≠ []

namespace Line

def text (l : Line) : List Char :=
  l.name.toList ++ l.columns.flatMap fun column => column.1.chars ++ column.2.text.toList

/-- The entry of a line. -/
def entry (l : Line) : Entry :=
  ⟨l.name, l.columns.map fun column => column.2.text⟩

end Line

/-- The list as it is printed. -/
def print (list : List Line) : String :=
  String.ofList (endLines (list.map Line.text))

/-! ### Reading the list -/

theorem firstWord_columns (columns : List (Gap × Version)) :
    firstWord (columns.flatMap fun column => column.1.chars ++ column.2.text.toList) =
      ([], columns.map fun column => column.2.text.toList) := by
  induction columns with
  | nil =>
      rfl
  | cons column columns ih =>
      have hgap : ∀ cs, firstWord (column.1.chars ++ cs) = ([], words cs) :=
        fun cs => firstWord_gap column.1.blank column.1.nonempty
      have hne : column.2.text.toList ≠ [] := column.2.nonempty
      simp [hgap, words, firstWord_append column.2.solid, ih, addWord, hne]

namespace Line

/-- The words of a line are its name and its versions. -/
theorem words_text (l : Line) :
    words l.text = l.name.toList :: l.columns.map fun column => column.2.text.toList := by
  have hname : l.name.toList ≠ [] := (PackageName.characters_of_validate l.named).1
  have hsolid : ∀ c ∈ l.name.toList, isBlank c = false := not_blank_of_named l.named
  simp [words, text, firstWord_append hsolid, firstWord_columns, addWord, hname]

theorem entry_text (l : Line) : entry? l.text = some l.entry := by
  simp [ entry?, words_text, entry, Function.comp_def]

theorem inline_text (l : Line) : '\n' ∉ l.text := by
  have hname : '\n' ∉ l.name.toList := not_mem_of_solid (by decide) (not_blank_of_named l.named)
  intro hmem
  rcases List.mem_append.1 hmem with hmem | hmem
  · exact hname hmem
  · rcases List.mem_flatMap.1 hmem with ⟨column, -, hcolumn⟩
    rcases List.mem_append.1 hcolumn with hgap | hversion
    · exact column.1.inline hgap
    · exact not_mem_of_solid (by decide) column.2.solid hversion

/-- A line ends in a version, and so in no carriage return. -/
theorem dropReturn_text (l : Line) : dropReturn l.text = l.text := by
  -- the last column is there, as a line has a version at least
  rcases List.eq_nil_or_concat l.columns with hnone | ⟨columns, last, hcolumns⟩
  · exact absurd hnone l.versioned
  · have htext : l.text = l.name.toList ++
        (columns.flatMap fun column => column.1.chars ++ column.2.text.toList) ++ last.1.chars ++
          last.2.text.toList := by
      simp [text, hcolumns]
    have hlast : l.text.getLast? ≠ some '\r' := by
      rw [htext]
      exact getLast?_of_solid last.2.nonempty last.2.solid
    rw [dropReturn, if_neg hlast]

end Line

/-- Reading a printed list gives the entries of its lines. -/
theorem parse_print (list : List Line) : parse (print list).toList = list.map Line.entry := by
  calc
    parse (print list).toList = (lines (endLines (list.map Line.text))).filterMap entry? := by
      simp [parse, print]
    _ = list.filterMap fun l => entry? (dropReturn l.text) :=
      filterMap_lines Line.text entry? Line.inline_text list
    _ = list.map Line.entry := by
      simp [Line.dropReturn_text, Line.entry_text]

end Brew

end Inventory

end Provision
