import Provision.Proofs.Layout

/-!
# Grammar — what the pattern of a row accepts

The pattern of a row is matched with backtracking: its items take runs as long as they can and give
characters back while the others do not match.  Since blanks and other characters take turns in it,
giving back never helps, and the match is decided by the words of the line.  This file defines:

* `tokens`, `words_eq_tokens` — the words of a text as what is left between its blanks;
* `Columns`, `exists_columns` — a text as words with blanks before each;
* `Dpkg.matches_columns` — the columns of a row are its words, or there are too few;
* `Dpkg.reading` — what a line of the table says, read off its words;
* `Dpkg.parse_eq_readings` — the table is read like that.
-/

namespace Provision

namespace Text

/-! ## Words between blanks -/

/-- What stands between the blanks of a text. -/
def tokens (cs : List Char) : List (List Char) :=
  (cs.splitOnP isBlank).filter (· ≠ [])

theorem exists_splitOnP (cs : List Char) :
    ∃ others, cs.splitOnP isBlank = (firstWord cs).1 :: others ∧
      (firstWord cs).2 = others.filter (· ≠ []) := by
  induction cs with
  | nil =>
      exact ⟨[], rfl, rfl⟩
  | cons c cs ih =>
      rcases ih with ⟨others, hsplit, hwords⟩
      by_cases hc : isBlank c = true
      · refine ⟨(firstWord cs).1 :: others, ?_, ?_⟩
        · simp [List.splitOnP_cons_eq_if_modifyHead, firstWord, hc, hsplit]
        · cases hfirst : (firstWord cs).1 <;> simp [firstWord, hc, addWord, hwords, hfirst]
      · refine ⟨others, ?_, ?_⟩
        · simp [List.splitOnP_cons_eq_if_modifyHead, firstWord, hc, hsplit]
        · simp [firstWord, hc, hwords]

theorem words_eq_tokens (cs : List Char) : words cs = tokens cs := by
  rcases exists_splitOnP cs with ⟨others, hsplit, hwords⟩
  cases hfirst : (firstWord cs).1 <;> simp [words, tokens, addWord, hsplit, hwords, hfirst]

/-- Words with blanks before each, and perhaps blanks behind the last. -/
inductive Columns : List Char → List (List Char) → Prop where
  | nil {gap : List Char} (hgap : ∀ c ∈ gap, isBlank c = true) : Columns gap []
  | cons {gap word cs : List Char} {ws : List (List Char)} (hgap : ∀ c ∈ gap, isBlank c = true)
      (hapart : gap ≠ []) (hword : ∀ c ∈ word, isBlank c = false) (hne : word ≠ [])
      (hrest : Columns cs ws) : Columns (gap ++ (word ++ cs)) (word :: ws)

section Columns

variable {cs : List Char} {ws : List (List Char)} {c : Char}

theorem Columns.cons_blank (hc : isBlank c = true) (h : Columns cs ws) : Columns (c :: cs) ws := by
  cases h with
  | nil hgap =>
      exact Columns.nil (by simpa [hc] using hgap)
  | @cons gap word cs ws hgap hapart hword hne hrest =>
      have hmore : ∀ d ∈ c :: gap, isBlank d = true := by simpa [hc] using hgap
      exact Columns.cons hmore (List.cons_ne_nil c gap) hword hne hrest

/-- Columns do not begin with a word. -/
theorem Columns.head (h : Columns cs ws) : ∀ c ∈ cs.head?, isBlank c = true := by
  cases h with
  | nil hgap =>
      intro c hc
      exact hgap c (List.mem_of_mem_head? hc)
  | cons hgap hapart =>
      exact Inventory.head_of_run hapart hgap

/-- Every text is its first word, perhaps an empty one, before columns of the other words. -/
theorem exists_columns (cs : List Char) :
    ∃ rest, cs = (firstWord cs).1 ++ rest ∧ (∀ c ∈ (firstWord cs).1, isBlank c = false) ∧
      Columns rest (firstWord cs).2 := by
  induction cs with
  | nil =>
      exact ⟨[], rfl, by simp [firstWord], Columns.nil (by simp)⟩
  | cons c cs ih =>
      rcases ih with ⟨rest, hcs, hsolid, hrest⟩
      by_cases hc : isBlank c = true
      · refine ⟨c :: cs, by simp [firstWord, hc], by simp [firstWord, hc], ?_⟩
        cases hfirst : (firstWord cs).1 with
        | nil =>
            have hsame : rest = cs := by simpa [hfirst] using hcs.symm
            have hwords : (firstWord (c :: cs)).2 = (firstWord cs).2 := by
              simp [firstWord, hc, addWord, hfirst]
            subst hsame
            exact hwords ▸ hrest.cons_blank hc
        | cons d ds =>
            -- the blank is the gap before the word that comes next
            have hcolumn : Columns ([c] ++ ((d :: ds) ++ rest)) ((d :: ds) :: (firstWord cs).2) :=
              Columns.cons (by simpa using hc) (by simp) (hfirst ▸ hsolid) (by simp) hrest
            rw [hfirst] at hcs
            simpa [firstWord, hc, addWord, hfirst, ← hcs] using hcolumn
      · have hfirst : firstWord (c :: cs) = (c :: (firstWord cs).1, (firstWord cs).2) := by
          simp [firstWord, hc]
        refine ⟨rest, ?_, ?_, ?_⟩
        · simpa [hfirst] using hcs
        · simpa [hfirst, hc] using hsolid
        · simpa [hfirst] using hrest

end Columns

end Text

namespace Inventory
namespace Dpkg

open Text

/-! ## Rows -/

/-- The state of an installed package: a lower-case letter, the letter of what is installed, and
perhaps an error flag. -/
def marksInstalled : List Char → Bool
  | [desired, state] => isLowerLetter desired && state == 'i'
  | [desired, state, _] => isLowerLetter desired && state == 'i'
  | _ => false

/-- What the columns behind the state say: a name, up to a colon, and a version. -/
def entryOf : List (List Char) → Option Entry
  | name :: version :: _ => some ⟨String.ofList (name.takeWhile (· ≠ ':')), [String.ofList version]⟩
  | _ => none

/-- What a line says: its first word is the state, unless there are blanks before it. -/
def reading (line : List Char) : Option Entry :=
  if line.head?.any isBlank then none
  else
    match tokens line with
    | state :: columns => if marksInstalled state then entryOf columns else none
    | [] => none

/-- The items of a row behind the state. -/
def columnItems : List Item :=
  [.atLeastOne isBlank, .atLeastOne isSolid, .atLeastOne isBlank, .atLeastOne isSolid]

section Rows

variable {cs : List Char} {ws : List (List Char)} {desired state flag : Char}

/-- A word does not begin with a blank, nor blanks with a word. -/
theorem matches_solid_cons {items : List Item} (c : Char) (ds : List Char) (hc : isBlank c = true) :
    Item.matches (.atLeastOne isSolid :: items) (c :: ds) = none := by
  apply matches_of_head
  simp [isSolid, hc]

theorem matches_blank_cons {items : List Item} (c : Char) (ds : List Char) (hc : isSolid c = true) :
    Item.matches (.atLeastOne isBlank :: items) (c :: ds) = none := by
  apply matches_of_head
  simpa [isSolid] using hc

/-- Blanks alone hold no column. -/
theorem matches_blanks {items : List Item} (hgap : ∀ c ∈ cs, isBlank c = true) :
    Item.matches (.atLeastOne isBlank :: .atLeastOne isSolid :: items) cs = none := by
  by_cases hnone : cs = []
  · subst hnone
    rfl
  · have hend : ∀ c ∈ ([] : List Char).head?, isBlank c = false := by simp
    calc
      Item.matches (.atLeastOne isBlank :: .atLeastOne isSolid :: items) cs
          = (Item.matches (.atLeastOne isSolid :: items) []).map (cs :: ·) := by
            simpa using matches_append hgap hnone hend (Or.inr matches_solid_cons)
      _ = none := rfl

theorem solid_of_word {word : List Char} (h : ∀ c ∈ word, isBlank c = false) :
    ∀ c ∈ word, isSolid c = true :=
  fun c hc => isSolid_iff.2 (h c hc)

theorem ends_of_columns (h : Columns cs ws) : ∀ c ∈ cs.head?, isSolid c = false := by
  intro c hc
  simp [isSolid, h.head c hc]

/-- A row has an entry's columns behind its state, or too few. -/
theorem matches_columns (h : Columns cs ws) :
    (Item.matches columnItems cs = none ∧ entryOf ws = none) ∨
      ∃ gap name gap' version more, ws = name :: version :: more ∧
        Item.matches columnItems cs = some [gap, name, gap', version] := by
  cases h with
  | nil hgap =>
      exact Or.inl ⟨matches_blanks hgap, rfl⟩
  | @cons gap name cs ws hgap hapart hname hne hrest =>
      have hmatches : Item.matches columnItems (gap ++ (name ++ cs)) =
          (Item.matches [.atLeastOne isBlank, .atLeastOne isSolid] cs).map fun taken =>
            gap :: name :: taken := by
        rw [columnItems,
          matches_append hgap hapart (head_of_run hne hname) (Or.inr matches_solid_cons),
          matches_append (solid_of_word hname) hne (ends_of_columns hrest)
            (Or.inr matches_blank_cons)]
        simp [Function.comp_def]
      cases hrest with
      | nil hblank =>
          refine Or.inl ⟨?_, rfl⟩
          simp [hmatches, matches_blanks hblank]
      | @cons gap' version cs ws hgap' hapart' hversion hne' hrest' =>
          have hlast : Item.matches [.atLeastOne isBlank, .atLeastOne isSolid]
              (gap' ++ (version ++ cs)) = some [gap', version] :=
            matches_atLeastOne hgap' hapart' (head_of_run hne' hversion)
              (matches_atLeastOne (solid_of_word hversion) hne' (ends_of_columns hrest') rfl)
          refine Or.inr ⟨gap, name, gap', version, ws, rfl, ?_⟩
          simp [hmatches, hlast]

/-! ### The state -/

theorem not_lowerLetter_of_blank {c : Char} (h : isBlank c = true) : isLowerLetter c = false := by
  cases hletter : isLowerLetter c with
  | false =>
      rfl
  | true =>
      have hbounds : 97 ≤ c.toNat ∧ c.toNat ≤ 122 := by
        have hval : c.val.toNat = c.toNat := rfl
        simpa [isLowerLetter, Char.le_def, UInt32.le_iff_toNat_le, hval] using hletter
      simp [isBlank, blankRanges] at h
      omega

/-- The two letters of the state are taken as they stand. -/
theorem matches_letters (hdesired : isLowerLetter desired = true) (hstate : isLetter state = true) :
    Item.matches row (desired :: state :: cs) =
      (Item.matches (.atMostOne isSolid :: columnItems) cs).map fun taken =>
        [desired] :: [state] :: taken := by
  simp [row, columnItems, Item.matches, hdesired, hstate, Function.comp_def]

/-- Whatever the other items take, the state must be the letter of what is installed. -/
theorem entry_of_other {line : List Char} {found : Option (List (List Char))} (hstate : state ≠ 'i')
    (hmatches : Item.matches row line = found.map fun taken => [desired] :: [state] :: taken) :
    entry? line = none := by
  cases found with
  | none =>
      simp [ entry?, hmatches]
  | some taken =>
      unfold entry?
      split
      next _ current _ _ _ _ _ hsome =>
        have hsame : [state] = current := by
          simp only [hmatches, Option.map_some, Option.some.injEq, List.cons.injEq] at hsome
          exact hsome.2.1
        simp [← hsame, installed, hstate]
      next =>
        rfl

/-- A line with another state is no row, or the row of a package that is not installed. -/
theorem entry_of_unmarked (h : (isLowerLetter desired && state == 'i') = false) :
    entry? (desired :: state :: cs) = none := by
  cases hdesired : isLowerLetter desired with
  | false =>
      exact entry_of_head (by simpa using hdesired)
  | true =>
      have hstate : state ≠ 'i' := by simpa [hdesired] using h
      cases hletter : isLetter state with
      | false =>
          simp [ entry?, row, Item.matches, hdesired, hletter]
      | true =>
          exact entry_of_other hstate (matches_letters hdesired hletter)

/-- Where the columns begin at once there is no flag. -/
theorem matches_flag (h : Columns cs ws) :
    Item.matches (.atMostOne isSolid :: columnItems) cs =
      (Item.matches columnItems cs).map ([] :: ·) := by
  cases cs with
  | nil =>
      rfl
  | cons c cs =>
      have hc : isSolid c = false := ends_of_columns h c rfl
      simp [Item.matches, hc]

/-- A third character is the flag, and nothing of the columns. -/
theorem matches_flag_cons (hflag : isSolid flag = true) :
    Item.matches (.atMostOne isSolid :: columnItems) (flag :: cs) =
      (Item.matches columnItems cs).map ([flag] :: ·) := by
  have hback : Item.matches columnItems (flag :: cs) = none := matches_blank_cons flag cs hflag
  simp [Item.matches, hflag, hback]

/-- With the state of an installed package the columns decide, whether or not a flag is taken. -/
theorem entry_of_state {rest taken : List Char} (h : Columns cs ws)
    (hrest : Item.matches (.atMostOne isSolid :: columnItems) rest =
      (Item.matches columnItems cs).map (taken :: ·)) :
    entry? (desired :: state :: rest) =
      if isLowerLetter desired && state == 'i' then entryOf ws else none := by
  cases hmarked : isLowerLetter desired && state == 'i' with
  | false =>
      exact entry_of_unmarked hmarked
  | true =>
      have hstate : isLowerLetter desired = true ∧ state = 'i' := by simpa using hmarked
      rcases hstate with ⟨hdesired, rfl⟩
      have hletter : isLetter 'i' = true := by decide
      have hmatches : Item.matches row (desired :: 'i' :: rest) =
          (Item.matches columnItems cs).map
            fun columns => [desired] :: ['i'] :: taken :: columns := by
        simp [matches_letters hdesired hletter, hrest, Function.comp_def]
      rcases matches_columns h with ⟨hnone, hentry⟩ | ⟨gap, name, gap', version, more, rfl, hsome⟩
      · simp [ entry?, hmatches, hnone, hentry]
      · simp [ entry?, hmatches, hsome, installed, entryOf, baseName]

/-- Behind a flag there is no third letter. -/
theorem entry_of_long {other : Char} (hflag : isSolid flag = true) (hother : isSolid other = true) :
    entry? (desired :: state :: flag :: other :: cs) = none := by
  have hnone : Item.matches columnItems (other :: cs) = none := matches_blank_cons other cs hother
  have hrest : Item.matches (.atMostOne isSolid :: columnItems) (flag :: other :: cs) =
      (Item.matches columnItems []).map ([flag] :: ·) := by
    rw [matches_flag_cons hflag, hnone]
    rfl
  have hempty : Columns [] [] := Columns.nil (by simp)
  have hstate : entry? (desired :: state :: flag :: other :: cs) =
      if isLowerLetter desired && state == 'i' then entryOf [] else none :=
        entry_of_state hempty hrest
  simpa [entryOf] using hstate

/-- A line with its first word and columns behind it says what the word and the columns say. -/
theorem entry_append {word : List Char} (hword : ∀ c ∈ word, isBlank c = false)
    (h : Columns cs ws) :
    entry? (word ++ cs) = if marksInstalled word then entryOf ws else none := by
  match word, solid_of_word hword with
  | [], _ =>
      exact entry_of_head fun c hc => not_lowerLetter_of_blank (h.head c hc)
  | [desired], _ =>
      cases cs with
      | nil =>
          cases hdesired : isLowerLetter desired <;>
            simp [ entry?, row, Item.matches, hdesired, marksInstalled]
      | cons c cs =>
          have hc : c ≠ 'i' := by
            rintro rfl
            exact absurd (h.head 'i' rfl) (by decide)
          exact entry_of_unmarked (by simp [hc])
  | [desired, state], _ =>
      exact entry_of_state h (matches_flag h)
  | [desired, state, flag], hsolid =>
      have hflag : isSolid flag = true := hsolid flag (by simp)
      exact entry_of_state h (matches_flag_cons hflag)
  | desired :: state :: flag :: other :: more, hsolid =>
      have hflag : isSolid flag = true := hsolid flag (by simp)
      have hother : isSolid other = true := hsolid other (by simp)
      exact entry_of_long hflag hother

/-- Each line is read off its words. -/
theorem entry_eq_reading (line : List Char) : entry? line = reading line := by
  rcases exists_columns line with ⟨rest, hline, hword, hrest⟩
  have htokens : tokens line = addWord (firstWord line).1 (firstWord line).2 :=
    (words_eq_tokens line).symm
  have hentry : entry? line =
      if marksInstalled (firstWord line).1 then entryOf (firstWord line).2 else none := by
    rw [← entry_append hword hrest, ← hline]
  cases hfirst : (firstWord line).1 with
  | nil =>
      -- without a first word the line is empty or begins with a blank
      have hsame : rest = line := by simpa [hfirst] using hline.symm
      subst hsame
      cases rest with
      | nil =>
          rfl
      | cons c cs =>
          have hc : isBlank c = true := hrest.head c rfl
          simp [hentry, hfirst, reading, hc, marksInstalled]
  | cons c word =>
      have hhead : line.head? = some c := by rw [hline, hfirst]; rfl
      have hc : isBlank c = false := hword c (by simp [hfirst])
      have hwords : tokens line = (c :: word) :: (firstWord line).2 := by
        simp [htokens, hfirst, addWord]
      simp [hentry, hfirst, reading, hhead, hc, hwords]

end Rows

/-! ## The table -/

theorem splitOn_eq_pieces (table : List Char) :
    table.splitOn '\n' = (pieces '\n' table).1 :: (pieces '\n' table).2 := by
  induction table with
  | nil =>
      rfl
  | cons c cs ih =>
      have hcs : cs.splitOnP (· == '\n') = (pieces '\n' cs).1 :: (pieces '\n' cs).2 := ih
      by_cases hc : c = '\n'
      · simp [List.splitOn, List.splitOnP_cons_eq_if_modifyHead, pieces, hc, hcs]
      · simp [List.splitOn, List.splitOnP_cons_eq_if_modifyHead, pieces, hc, hcs]

/-- A carriage return at the end of a line is one more blank. -/
theorem reading_dropReturn (line : List Char) : reading (dropReturn line) = reading line := by
  by_cases hreturn : line.getLast? = some '\r'
  · rcases List.getLast?_eq_some_iff.1 hreturn with ⟨front, rfl⟩
    have hblank : isBlank '\r' = true := by decide
    have hdrop : dropReturn (front ++ ['\r']) = front := by simp [dropReturn]
    have htokens : tokens (front ++ ['\r']) = tokens front := by
      simp [tokens, List.splitOnP_append_cons front [] hblank]
    cases front with
    | nil =>
        decide
    | cons c front =>
        have hsame : reading (c :: front ++ ['\r']) = reading (c :: front) := by
          unfold reading
          rw [htokens]
          rfl
        exact (congrArg reading hdrop).trans hsame.symm
  · simp [dropReturn, hreturn]

theorem filterMap_closeLines (line : List Char) (others : List (List Char)) :
    (closeLines line others).filterMap reading = (line :: others).filterMap reading := by
  induction others generalizing line with
  | nil =>
      -- a last piece without a character is no line, and says nothing
      cases line <;> simp [closeLines, reading, tokens]
  | cons next others ih =>
      simp [closeLines, List.filterMap_cons, reading_dropReturn, ih]

/-- A table is read line by line, and each line off its words; it is the same to cut it at line
feeds. -/
theorem parse_eq_readings (table : List Char) :
    parse table = (lines table).filterMap reading ∧
      parse table = (table.splitOn '\n').filterMap reading := by
  have hlines : parse table = (lines table).filterMap reading := by
    simp only [parse, funext entry_eq_reading]
  refine ⟨hlines, ?_⟩
  calc
    parse table = (closeLines (pieces '\n' table).1 (pieces '\n' table).2).filterMap reading :=
      hlines
    _ = (table.splitOn '\n').filterMap reading := by
      rw [filterMap_closeLines, splitOn_eq_pieces]

/-- A package on hold is installed, one that was removed is not, and a state has no fourth
letter. -/
example :
    parse "hi  make:amd64:x 4.3\r\nrc  gcc 12\niiRx nasm 2.16".toList = [⟨"make", ["4.3"]⟩] := by
  decide

end Dpkg
end Inventory

end Provision
