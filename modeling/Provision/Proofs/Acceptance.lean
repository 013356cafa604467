import Provision.Proofs.Invocation

/-!
# Acceptance — the command lines that are accepted

The reader of a command line goes from left to right.  It may put off its judgement on a directory,
and it rejects an unknown option before anything else, but none of this matters as long as all goes
well: then each word adds what it says to what is given.  On the other hand nothing is read that is
not made of words.  So the accepted command lines are those that can be written with words that are
consistent.  This file defines:

* `Given.reading`, `Reading.read_settled` — readings with nothing pending, and that no other ones
  matter;
* `Reading.read_words` — words are read if what they say can be given;
* `Reading.owed`, `Reading.exists_invocation` — whatever is read was written with words;
* `Invocation.given`, `ofArguments_iff` — the command lines that are accepted, and what they give;
* `resolve_args` — settings are read back from what is written for them.
-/

namespace Provision
namespace CommandLine

/-! ## Reading an argument -/

/-- The reading in which this is given and nothing is pending. -/
abbrev Given.reading (g : Given) : Reading :=
  { given := g }

namespace Reading

variable {r r' : Reading} {g final : Given} {arg : String}

/-- An argument has two dashes, or one dash with letters behind it, or it is no option. -/
theorem shape (arg : String) :
    (∃ cs, arg.toList = '-' :: '-' :: cs) ∨ (∃ c cs, c ≠ '-' ∧ arg.toList = '-' :: c :: cs) ∨
      isPlain arg = true := by
  simp only [isPlain]
  split
  · rename_i c cs hdash
    by_cases hc : c = '-'
    · exact Or.inl ⟨cs, hc ▸ hdash⟩
    · exact Or.inr (Or.inl ⟨c, cs, hc, hdash⟩)
  · exact Or.inr (Or.inr rfl)

theorem argument_of_long {cs : List Char} (h : arg.toList = '-' :: '-' :: cs) :
    r.argument arg = r.longOption (splitValue cs).1 (splitValue cs).2 := by
  simp only [argument, h]

theorem argument_of_short {c : Char} {cs : List Char} (hdash : c ≠ '-')
    (h : arg.toList = '-' :: c :: cs) : r.argument arg = r.letters (c :: cs) := by
  simp only [argument, h]

theorem argument_of_plain (h : isPlain arg = true) : r.argument arg = r.word arg := by
  simp only [argument]
  split <;> simp_all [isPlain]

theorem read_cons (h : arg ≠ "--") (rest : List String) :
    r.read (arg :: rest) = (r.argument arg).bind fun r => r.read rest := by
  simp [read, h, bind]

theorem press_flag (g : Given) (flag : Flag) :
    g.reading.press (.flag flag) = (g.give flag).map Given.reading := by
  cases hgive : g.give flag <;>
    simp [press, settle, hgive, bind, Except.bind, pure, Except.pure, Except.map]

theorem waiting_ne_value (h : r.settle = .ok g) : r.waiting ≠ .value := by
  intro hvalue
  simp [settle, hvalue] at h

theorem longOption_of_settle (h : r.settle = .ok g) (name : List Char) (value : Option String) :
    r.longOption name value = g.reading.longOption name value := by
  have hsame : r.settle = g.reading.settle := h
  cases value <;> simp only [longOption, press, hsame]

theorem letters_of_settle (h : r.settle = .ok g) (c : Char) (cs : List Char) :
    r.letters (c :: cs) = g.reading.letters (c :: cs) := by
  have hsame : r.settle = g.reading.settle := h
  simp only [letters, press, hsame]

theorem word_of_settle (h : r.settle = .ok g) (arg : String) : r.word arg = g.reading.word arg := by
  have hsame : r.settle = g.reading.settle := h
  cases hwaiting : r.waiting with
  | value =>
      exact absurd hwaiting (waiting_ne_value h)
  | nothing =>
      simp only [word, hwaiting, hsame]
  | judgement directory =>
      simp only [word, hwaiting, hsame]

/-- What is pending is settled before anything else is read. -/
theorem argument_of_settle (h : r.settle = .ok g) (arg : String) :
    r.argument arg = g.reading.argument arg := by
  rcases shape arg with ⟨cs, hlong⟩ | ⟨c, cs, hdash, hshort⟩ | hplain
  · simpa only [argument_of_long hlong] using longOption_of_settle h _ _
  · simpa only [argument_of_short hdash hshort] using letters_of_settle h c cs
  · simpa only [argument_of_plain hplain] using word_of_settle h arg

theorem settle_of_press {switch : Switch} (h : r.press switch = .ok r') :
    ∃ g, r.settle = .ok g := by
  rcases bind_eq_ok_iff.mp h with ⟨g, hsettle, -⟩
  exact ⟨g, hsettle⟩

/-- An argument is read when nothing pending is at fault, or else it is the value that is
expected. -/
theorem settle_of_argument (h : r.argument arg = .ok r') :
    (∃ g, r.settle = .ok g) ∨
      r.waiting = .value ∧ isPlain arg = true ∧ r' = { r with waiting := .judgement arg } := by
  rcases shape arg with ⟨cs, hlong⟩ | ⟨c, cs, hdash, hshort⟩ | hplain
  · -- an option settles what is pending before it does anything
    left
    simp only [argument_of_long hlong, longOption] at h
    split at h
    · rcases bind_eq_ok_iff.mp h with ⟨g, hsettle, -⟩
      exact ⟨g, hsettle⟩
    · split at h
      · cases h
      · cases h
      · exact settle_of_press h
  · left
    simp only [argument_of_short hdash hshort, letters] at h
    split at h
    · cases h
    · rcases bind_eq_ok_iff.mp h with ⟨pressed, hpress, -⟩
      exact settle_of_press hpress
  · simp only [argument_of_plain hplain, word] at h
    split at h
    · rename_i hvalue
      exact Or.inr ⟨hvalue, hplain, (Except.ok.inj h).symm⟩
    · rcases bind_eq_ok_iff.mp h with ⟨g, hsettle, -⟩
      exact Or.inl ⟨g, hsettle⟩

/-- As long as all goes well, what is pending can as well be settled at once. -/
theorem read_settled (h : r.waiting ≠ .value) (args : List String) :
    r.read args = .ok final ↔ ∃ g, r.settle = .ok g ∧ g.reading.read args = .ok final := by
  cases args with
  | nil =>
      simp [read, settle]
  | cons arg rest =>
      by_cases hend : arg = "--"
      · subst hend
        simp only [read, if_true]
        exact bind_eq_ok_iff
      · -- an unknown option is rejected with a pending directory and without one
        simp only [read_cons hend]
        constructor
        · intro hread
          rcases bind_eq_ok_iff.mp hread with ⟨r', harg, -⟩
          rcases settle_of_argument harg with ⟨g, hsettle⟩ | ⟨hvalue, -⟩
          · exact ⟨g, hsettle, argument_of_settle hsettle arg ▸ hread⟩
          · exact absurd hvalue h
        · rintro ⟨g, hsettle, hread⟩
          exact (argument_of_settle hsettle arg).symm ▸ hread

end Reading

/-! ## Reading words -/

namespace Reading

variable {g final : Given}

/-- Letters behind one dash give their flags one after the other. -/
theorem letters_shorts (shorts : List Short) (g : Given) :
    g.reading.letters (shorts.map Short.letter) =
      ((shorts.map Short.flag).foldlM Given.give g).map Given.reading := by
  induction shorts generalizing g with
  | nil =>
      rfl
  | cons s shorts ih =>
      have hswitch : Switch.ofShort? s.letter = some (.flag s.flag) := by
        cases s <;> decide
      cases hgive : g.give s.flag with
      | error rejection =>
          simp [letters, hswitch, press_flag, hgive, bind, Except.bind, Except.map]
      | ok given =>
          simpa [letters, hswitch, press_flag, hgive, bind, Except.bind, Except.map] using ih given

theorem argument_shorts (r : Reading) (first : Short) (more : List Short) :
    r.argument (String.ofList ('-' :: (first :: more).map Short.letter)) =
      r.letters ((first :: more).map Short.letter) := by
  have hdash : first.letter ≠ '-' := by
    cases first <;> decide
  exact argument_of_short hdash (by simp)

theorem argument_name (r : Reading) (flag : Flag) :
    r.argument ("--" ++ flag.name) = r.press (.flag flag) := by
  cases flag <;> rfl

/-- An option ends at the first equals sign; there may be others in its value. -/
theorem splitValue_append {name : List Char} (h : '=' ∉ name) (value : List Char) :
    splitValue (name ++ '=' :: value) = (name, some (String.ofList value)) := by
  have hname : ∀ c ∈ name, decide (c ≠ '=') = true := by
    intro c hmem
    exact decide_eq_true fun hc => h (hc ▸ hmem)
  simp only [splitValue, List.takeWhile_append_of_pos hname, List.dropWhile_append_of_pos hname]
  simp

theorem toList_attached (directory : String) :
    ("--scripts-dir=" ++ directory).toList =
      '-' :: '-' :: (scriptsDirName ++ '=' :: directory.toList) := by
  have hoption : "--scripts-dir=".toList = '-' :: '-' :: (scriptsDirName ++ ['=']) := by
    decide
  simp only [String.toList_append, hoption, List.cons_append, List.append_assoc, List.nil_append]

theorem argument_attached (g : Given) (directory : String) :
    g.reading.argument ("--scripts-dir=" ++ directory) =
      (g.giveScriptsDir directory).map Given.reading := by
  have hname : '=' ∉ scriptsDirName := by
    decide
  cases hgive : g.giveScriptsDir directory <;>
    simp [argument_of_long (toList_attached directory), splitValue_append hname, longOption, settle,
      hgive, bind, Except.bind, pure, Except.pure, Except.map]

theorem argument_separate (g : Given) :
    g.reading.argument "--scripts-dir" = .ok { given := g, waiting := .value } := by
  rfl

theorem argument_package (g : Given) {name : String} (h : isPlain name = true) :
    g.reading.argument name = .ok (g.addPackages [name]).reading := by
  exact argument_of_plain h

/-- An argument that gives something is read if that can be given. -/
theorem read_argument {arg : String} {given : Except Rejection Given} (hend : arg ≠ "--")
    (h : g.reading.argument arg = given.map Given.reading) (tail : List String) :
    g.reading.read (arg :: tail) = .ok final ↔
      ∃ taken, given = .ok taken ∧ taken.reading.read tail = .ok final := by
  cases given <;> simp [read_cons hend, h, Except.map, Except.bind]

/-- A word is read if it can be taken in. -/
theorem read_word (word : Word) (g : Given) (tail : List String) :
    g.reading.read (word.args ++ tail) = .ok final ↔
      ∃ given, g.take word = .ok given ∧ given.reading.read tail = .ok final := by
  cases word with
  | shorts first more =>
      have hend := (Word.shorts first more).ne_end _ List.mem_cons_self
      have harg := (argument_shorts g.reading first more).trans (letters_shorts _ g)
      exact (g.take_shorts first more).symm ▸ read_argument hend harg tail
  | long flag =>
      have hend := (Word.long flag).ne_end _ List.mem_cons_self
      have harg := (argument_name g.reading flag).trans (press_flag g flag)
      exact (g.take_long flag).symm ▸ read_argument hend harg tail
  | attached directory =>
      have hend := (Word.attached directory).ne_end _ List.mem_cons_self
      exact (g.take_attached directory).symm ▸
        read_argument hend (argument_attached g directory) tail
  | separate directory hplain =>
      have htake : g.take (.separate directory hplain) = g.giveScriptsDir directory :=
        g.take_attached directory
      -- the value is judged only when something else is read, which makes no difference if all
      -- goes well
      calc g.reading.read ("--scripts-dir" :: directory :: tail) = .ok final
          ↔ ({ given := g, waiting := .judgement directory } : Reading).read tail = .ok final := by
            simp [read_cons, ne_end_of_plain hplain, argument_separate, argument_of_plain hplain,
              word, Except.bind]
        _ ↔ ∃ given, g.giveScriptsDir directory = .ok given ∧ given.reading.read tail = .ok final :=
            read_settled (by simp) tail
        _ ↔ _ := by
            rw [htake]
  | package name hplain =>
      exact read_argument (ne_end_of_plain hplain) (argument_package g hplain) tail

theorem read_words (words : List Word) (g : Given) (tail : List String) :
    g.reading.read (words.flatMap Word.args ++ tail) = .ok final ↔
      ∃ given, words.foldlM Given.take g = .ok given ∧ given.reading.read tail = .ok final := by
  induction words generalizing g with
  | nil =>
      simp [pure, Except.pure]
  | cons word words ih =>
      have hargs : (word :: words).flatMap Word.args ++ tail =
          word.args ++ (words.flatMap Word.args ++ tail) := by
        simp
      rw [hargs, read_word]
      constructor
      · rintro ⟨taken, htake, hread⟩
        rcases (ih taken).mp hread with ⟨given, hwords, htail⟩
        exact ⟨given, bind_eq_ok_iff.mpr ⟨taken, htake, hwords⟩, htail⟩
      · rintro ⟨given, hwords, htail⟩
        rcases bind_eq_ok_iff.mp hwords with ⟨taken, htake, hrest⟩
        exact ⟨taken, htake, (ih taken).mpr ⟨given, hrest, htail⟩⟩

theorem read_tail (i : Invocation) (g : Given) :
    g.reading.read i.tail = .ok (g.addPackages (i.rest.getD [])) := by
  cases hrest : i.rest with
  | none =>
      simp [Invocation.tail, hrest, read, settle, Given.addPackages_nil]
  | some packages =>
      simp [Invocation.tail, hrest, read, settle, bind, Except.bind, pure, Except.pure]

/-! ## Finding the words -/

/-- The option that still waits for its value. -/
def owed (r : Reading) : List String :=
  if r.waiting = .value then ["--scripts-dir"] else []

variable {r r' : Reading} {arg : String}

theorem owed_reading (g : Given) : g.reading.owed = [] := by
  rfl

/-- A switch that is read is a flag, for help and the version end the reading. -/
theorem press_ok {switch : Switch} (h : g.reading.press switch = .ok r') :
    ∃ flag, switch = .flag flag ∧ ∃ given : Given, r' = given.reading := by
  cases switch with
  | flag flag =>
      cases hgive : g.give flag with
      | error rejection =>
          simp [press_flag, hgive, Except.map] at h
      | ok given =>
          simp only [press_flag, hgive, Except.map, Except.ok.injEq] at h
          exact ⟨flag, rfl, given, h.symm⟩
  | help detailed =>
      cases h
  | version =>
      cases h

theorem exists_short {c : Char} {flag : Flag} (h : Switch.ofShort? c = some (.flag flag)) :
    ∃ s : Short, s.letter = c := by
  by_cases hyes : c = 'y'
  · exact ⟨.yes, hyes.symm⟩
  · by_cases hquiet : c = 'q'
    · exact ⟨.quiet, hquiet.symm⟩
    · by_cases hverbose : c = 'v'
      · exact ⟨.verbose, hverbose.symm⟩
      · simp only [Switch.ofShort?, if_neg hyes, if_neg hquiet, if_neg hverbose] at h
        split at h
        · cases h
        · split at h <;> cases h

theorem exists_name {name : List Char} {flag : Flag} (h : Switch.ofLong? name = some (.flag flag)) :
    ∃ long : Flag, long.name.toList = name := by
  by_cases hyes : name = "yes".toList
  · exact ⟨.yes, hyes.symm⟩
  · by_cases hquiet : name = "quiet".toList
    · exact ⟨.quiet, hquiet.symm⟩
    · by_cases hverbose : name = "verbose".toList
      · exact ⟨.verbose, hverbose.symm⟩
      · by_cases hlist : name = "list".toList
        · exact ⟨.list, hlist.symm⟩
        · simp only [Switch.ofLong?, if_neg hyes, if_neg hquiet, if_neg hverbose, if_neg hlist] at h
          split at h
          · cases h
          · split at h <;> cases h

/-- Letters that are read are those of flags. -/
theorem exists_shorts {cs : List Char} (h : g.reading.letters cs = .ok r') :
    ∃ shorts : List Short, cs = shorts.map Short.letter ∧ ∃ given : Given, r' = given.reading := by
  induction cs generalizing g with
  | nil =>
      exact ⟨[], rfl, g, (Except.ok.inj h).symm⟩
  | cons c cs ih =>
      simp only [letters] at h
      cases hswitch : Switch.ofShort? c with
      | none =>
          simp [hswitch] at h
      | some switch =>
          simp only [hswitch] at h
          rcases bind_eq_ok_iff.mp h with ⟨pressed, hpress, hrest⟩
          rcases press_ok hpress with ⟨flag, hflag, given, hgiven⟩
          rcases exists_short (hflag ▸ hswitch) with ⟨s, hs⟩
          rcases ih (hgiven ▸ hrest) with ⟨shorts, hshorts, hfinal⟩
          exact ⟨s :: shorts, by simp [hs, hshorts], hfinal⟩

/-- What an option was split into makes it up. -/
theorem join_splitValue (cs : List Char) :
    cs = (splitValue cs).1 ++
      match (splitValue cs).2 with
      | none => []
      | some value => '=' :: value.toList := by
  induction cs with
  | nil =>
      rfl
  | cons c cs ih =>
      by_cases hc : c = '='
      · simp [splitValue, hc]
      · simpa [splitValue, hc] using ih

/-- A long option that is read is a flag without a value, or names the scripts directory. -/
theorem exists_option {name : List Char} {value : Option String}
    (h : g.reading.longOption name value = .ok r') :
    (∃ flag : Flag, flag.name.toList = name ∧ value = none ∧ r'.owed = []) ∨
      name = scriptsDirName ∧
        (value = none ∧ r'.owed = ["--scripts-dir"] ∨
          ∃ directory, value = some directory ∧ r'.owed = []) := by
  -- the scripts directory is the one option that takes a value, and its name is looked for first
  by_cases hname : name = scriptsDirName
  · right
    refine ⟨hname, ?_⟩
    cases value with
    | none =>
        left
        have hr : r' = { given := g, waiting := .value } := by
          simpa [longOption, hname, settle, bind, Except.bind, pure, Except.pure, eq_comm] using h
        exact ⟨rfl, hr ▸ rfl⟩
    | some directory =>
        right
        simp only [longOption, hname, if_true] at h
        rcases bind_eq_ok_iff.mp h with ⟨g', -, hrest⟩
        rcases bind_eq_ok_iff.mp hrest with ⟨given, -, hfinal⟩
        exact ⟨directory, rfl, Except.ok.inj hfinal ▸ rfl⟩
  · left
    simp only [longOption, hname, if_false] at h
    split at h
    · cases h
    · cases h
    · rename_i switch hswitch
      rcases press_ok h with ⟨flag, hflag, given, rfl⟩
      rcases exists_name (hflag ▸ hswitch) with ⟨long, hlong⟩
      exact ⟨long, hlong, rfl, owed_reading given⟩

/-- A long option that is read is a word, or the first half of one. -/
theorem spelled_long {cs : List Char} (hlong : arg.toList = '-' :: '-' :: cs)
    (h : g.reading.argument arg = .ok r') :
    ∃ words : List Word, [arg] = words.flatMap Word.args ++ r'.owed := by
  have hdashes : "--".toList = ['-', '-'] := by
    decide
  have hjoin := join_splitValue cs
  rcases exists_option ((argument_of_long hlong).symm.trans h) with
    ⟨flag, hname, hvalue, howed⟩ | ⟨hname, ⟨hvalue, howed⟩ | ⟨directory, hvalue, howed⟩⟩
  · refine ⟨[.long flag], ?_⟩
    have htext : arg = "--" ++ flag.name := by
      apply String.toList_inj.mp
      simpa [hlong, hdashes, hvalue, hname] using hjoin
    simp [howed, Word.args, htext]
  · refine ⟨[], ?_⟩
    have htext : arg = "--scripts-dir" := by
      apply String.toList_inj.mp
      have hoption : "--scripts-dir".toList = '-' :: '-' :: scriptsDirName := by
        decide
      simpa [hlong, hoption, hvalue, hname] using hjoin
    simp [howed, htext]
  · refine ⟨[.attached directory], ?_⟩
    have htext : arg = "--scripts-dir=" ++ directory := by
      apply String.toList_inj.mp
      simpa only [hlong, toList_attached, hvalue, hname, List.cons.injEq, true_and] using hjoin
    simp [howed, Word.args, htext]

/-- What is read is spelled as words, but for an option that still waits for its value. -/
theorem spelled (h : r.argument arg = .ok r') :
    ∃ words : List Word, r.owed ++ [arg] = words.flatMap Word.args ++ r'.owed := by
  rcases settle_of_argument h with ⟨g, hsettle⟩ | ⟨hvalue, hplain, rfl⟩
  · -- nothing is owed, so the argument is a word, or it is the option that is owed from now on
    have hnone : r.owed = [] := if_neg (waiting_ne_value hsettle)
    have harg : g.reading.argument arg = .ok r' := (argument_of_settle hsettle arg).symm.trans h
    rcases shape arg with ⟨cs, hlong⟩ | ⟨c, cs, hdash, hshort⟩ | hplain
    · rcases spelled_long hlong harg with ⟨words, hwords⟩
      exact ⟨words, by simpa [hnone] using hwords⟩
    · rcases exists_shorts ((argument_of_short hdash hshort).symm.trans harg) with
        ⟨shorts, hshorts, given, rfl⟩
      cases shorts with
      | nil =>
          cases hshorts
      | cons first more =>
          refine ⟨[.shorts first more], ?_⟩
          have htext : arg = String.ofList ('-' :: (first :: more).map Short.letter) := by
            simp [← hshorts, ← hshort]
          simp [hnone, owed_reading, Word.args, htext]
    · have hgiven : r' = (g.addPackages [arg]).reading :=
        (Except.ok.inj ((argument_package g hplain).symm.trans harg)).symm
      exact ⟨[.package arg hplain], by simp [hnone, hgiven, owed_reading, Word.args]⟩
  · -- the option that was owed gets its value
    exact ⟨[.separate arg hplain], by simp [owed, hvalue, Word.args]⟩

/-- All arguments that are read are words, and packages behind the end of the options. -/
theorem exists_invocation {args : List String} (h : r.read args = .ok g) :
    ∃ i : Invocation, r.owed ++ args = i.args := by
  -- an option whose value comes next stays in front of what is left, and both make one word
  induction args generalizing r with
  | nil =>
      have hnone : r.owed = [] := if_neg (waiting_ne_value h)
      exact ⟨⟨[], none⟩, by simp [hnone, Invocation.args, Invocation.tail]⟩
  | cons arg rest ih =>
      by_cases hend : arg = "--"
      · subst hend
        simp only [read, if_true] at h
        rcases bind_eq_ok_iff.mp h with ⟨given, hsettle, -⟩
        have hnone : r.owed = [] := if_neg (waiting_ne_value hsettle)
        exact ⟨⟨[], some rest⟩, by simp [hnone, Invocation.args, Invocation.tail]⟩
      · rcases bind_eq_ok_iff.mp ((read_cons hend rest).symm.trans h) with ⟨r', harg, hrest⟩
        rcases ih hrest with ⟨i, hi⟩
        rcases spelled harg with ⟨words, hwords⟩
        refine ⟨⟨words ++ i.words, i.rest⟩, ?_⟩
        calc r.owed ++ arg :: rest
            = (r.owed ++ [arg]) ++ rest := by simp
          _ = words.flatMap Word.args ++ (r'.owed ++ rest) := by simp [hwords]
          _ = words.flatMap Word.args ++ i.args := by rw [hi]
          _ = Invocation.args ⟨words ++ i.words, i.rest⟩ := by
              simp [Invocation.args, Invocation.tail]

end Reading

/-! ## Accepted command lines -/

namespace Invocation

/-- What a command line gives. -/
def given (i : Invocation) : Given :=
  Given.collect i.flags i.directories i.packages

/-- A command line is accepted if it is consistent, and it gives what its words say. -/
theorem ofArguments_args_iff (i : Invocation) {g : Given} :
    Given.ofArguments i.args = .ok g ↔ Consistent i.flags i.directories ∧ g = i.given := by
  have hempty : Consistent [] [] := ⟨List.nodup_nil, by simp, by simp⟩
  calc Given.ofArguments i.args = .ok g
      ↔ ∃ given, i.words.foldlM Given.take (Given.collect [] [] []) = .ok given ∧
          given.reading.read i.tail = .ok g :=
        Reading.read_words i.words (Given.collect [] [] []) i.tail
    _ ↔ Consistent i.flags i.directories ∧ g = i.given := by
        simp only [Given.foldlM_take_iff i.words hempty, Reading.read_tail, List.nil_append]
        constructor
        · rintro ⟨given, ⟨hconsistent, rfl⟩, hg⟩
          exact ⟨hconsistent, (Except.ok.inj hg).symm⟩
        · rintro ⟨hconsistent, rfl⟩
          exact ⟨_, ⟨hconsistent, rfl⟩, rfl⟩

end Invocation

/-- The accepted command lines are the consistent ones, and what they give is what their words
say. -/
theorem ofArguments_iff {args : List String} {g : Given} :
    Given.ofArguments args = .ok g ↔
      ∃ i : Invocation, i.args = args ∧ Consistent i.flags i.directories ∧ g = i.given := by
  constructor
  · intro h
    rcases Reading.exists_invocation h with ⟨i, hi⟩
    have hargs : i.args = args := hi.symm
    exact ⟨i, hargs, i.ofArguments_args_iff.mp (hargs ▸ h)⟩
  · rintro ⟨i, rfl, h⟩
    exact i.ofArguments_args_iff.mpr h

/-! ## Command lines for settings -/

theorem Invocation.Requests.has_given {i : Invocation} {s : Settings} (h : i.Requests s)
    (flag : Flag) : i.given.has flag = flag.isSet s := by
  have hiff := (decide_eq_true_iff (p := flag ∈ i.flags)).trans (h.flags flag)
  exact (Given.has_collect flag).trans (Bool.eq_iff_iff.mpr hiff)

/-- Every command line that is written for some settings is read back as these settings.  The
variables of the options it gives may hold anything. -/
theorem resolve_args (i : Invocation) (s : Settings) (env : Environment) (h : i.Requests s)
    (hdirectory : s.scriptsDir ≠ "") (hpackages : s.packages ≠ [])
    (henv : s.assumeYes = false → env.yes = none ∨ env.yes = some "false") :
    resolve i.args env = .ok s := by
  have hconsistent : Consistent i.flags i.directories := by
    refine ⟨h.nodup, ?_, ?_⟩
    · simp [h.directories]
    · simpa [h.directories] using hdirectory.symm
  have hgiven : Given.ofArguments i.args = .ok i.given :=
    i.ofArguments_args_iff.mpr ⟨hconsistent, rfl⟩
  -- a standing yes that is missing is the one thing that a variable may still change
  have hyes : i.given.yes = s.assumeYes := h.has_given .yes
  have hconsent : i.given.consent env = .ok s.assumeYes := by
    cases hassume : s.assumeYes with
    | true =>
        simp [Given.consent, hyes, hassume]
    | false =>
        rcases henv hassume with hunset | hfalse
        · simp [Given.consent, hyes, hassume, hunset, Environment.readFlag]
        · simp [Given.consent, hyes, hassume, hfalse, Environment.readFlag]
  have hchosen : i.given.directory env = .ok s.scriptsDir := by
    simp [Given.directory, Invocation.given, Given.collect, h.directories]
  have hsettings : i.given.settings s.assumeYes s.scriptsDir = s := by
    have hquiet : i.given.quiet = s.quiet := h.has_given .quiet
    have hverbose : i.given.verbose = s.verbose := h.has_given .verbose
    have hlist : i.given.list = s.listOnly := h.has_given .list
    have hnames : i.given.packages = s.packages := h.packages
    simp [Given.settings, hquiet, hverbose, hlist, hnames, hpackages]
  calc resolve i.args env
      = i.given.resolve env := resolve_of_given hgiven
    _ = .ok (i.given.settings s.assumeYes s.scriptsDir) := by
        simp only [Given.resolve, hconsent, hchosen, Except.bind, Except.map]
    _ = .ok s := congrArg _ hsettings

/-- A command line with bundled letters, values that look like options and unusable variables. -/
theorem resolve_args_entangled :
    resolve ["nasm", "-vy", "--scripts-dir=-q=--", "", "--list", "--", "-", "--quiet"]
        ⟨some "maybe", some ""⟩ =
      .ok ⟨true, false, true, true, "-q=--", ["nasm", "", "-", "--quiet"]⟩ := by
  have hrequests : Invocation.Requests
      ⟨[.package "nasm" (isPlain_of_head (by decide)), .shorts .verbose [.yes], .attached "-q=--",
        .package "" (isPlain_of_head (by decide)), .long .list], some ["-", "--quiet"]⟩
      ⟨true, false, true, true, "-q=--", ["nasm", "", "-", "--quiet"]⟩ := by
    refine ⟨by decide, ?_, rfl, rfl⟩
    intro flag
    cases flag <;> decide
  exact resolve_args _ _ ⟨some "maybe", some ""⟩ hrequests (by decide) (by decide) (by decide)

end CommandLine
end Provision
