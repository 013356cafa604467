import Provision.Proofs.Acceptance

/-!
# Fallback — variables in place of missing options

A variable of the environment does what its option would do if it stood in front of the arguments.
Where the option is given, the variable is not even looked at; where the arguments are rejected, no
variable is.  This file defines:

* `givesYes`, `givesDirectory` — which of the two options the arguments name;
* `Invocation.prepend` — a command line with one more word in front;
* `Given.resolve_unaided` — what is given decides alone where no variable has a say;
* `Fallback` — what the environment makes of arguments that are accepted without it;
* `resolve_environment` — the environment can do nothing else.
-/

namespace Provision
namespace CommandLine

/-! ## Options that are named -/

/-- The argument is `--yes`, or there is a `y` among the letters behind its dash. -/
def pressesYes (arg : String) : Bool :=
  match arg.toList with
  | '-' :: '-' :: name => name = Flag.yes.name.toList
  | '-' :: letters => letters.contains 'y'
  | _ => false

/-- The argument is the option of the scripts directory, with or without a value. -/
def namesDirectory (arg : String) : Bool :=
  match arg.toList with
  | '-' :: '-' :: option => (Reading.splitValue option).1 = scriptsDirName
  | _ => false

/-- The standing yes is given before the end of the options. -/
def givesYes (args : List String) : Bool :=
  (args.takeWhile (· ≠ "--")).any pressesYes

/-- The scripts directory is given before the end of the options. -/
def givesDirectory (args : List String) : Bool :=
  (args.takeWhile (· ≠ "--")).any namesDirectory

theorem toList_of_plain {text : String} (h : isPlain text = true) :
    text.toList = ['-'] ∨ text.toList.head? ≠ some '-' := by
  cases htext : text.toList with
  | nil =>
      simp
  | cons c cs =>
      by_cases hdash : c = '-'
      · cases cs <;> simp_all [isPlain]
      · simp [hdash]

theorem pressesYes_of_plain {text : String} (h : isPlain text = true) :
    pressesYes text = false := by
  rcases toList_of_plain h with hdash | hhead
  · simp [pressesYes, hdash]
  · simp only [pressesYes]
    split <;> simp_all

theorem namesDirectory_of_plain {text : String} (h : isPlain text = true) :
    namesDirectory text = false := by
  rcases toList_of_plain h with hdash | hhead
  · simp [namesDirectory, hdash]
  · simp only [namesDirectory]
    split <;> simp_all

theorem pressesYes_of_long {arg : String} {cs : List Char} (h : arg.toList = '-' :: '-' :: cs) :
    pressesYes arg = decide (cs = Flag.yes.name.toList) := by
  simp only [pressesYes, h]

theorem namesDirectory_of_long {arg : String} {cs : List Char} (h : arg.toList = '-' :: '-' :: cs) :
    namesDirectory arg = decide ((Reading.splitValue cs).1 = scriptsDirName) := by
  simp only [namesDirectory, h]

theorem Short.contains_letters (shorts : List Short) :
    (shorts.map Short.letter).contains 'y' = decide (Flag.yes ∈ shorts.map Short.flag) := by
  induction shorts with
  | nil =>
      rfl
  | cons s shorts ih =>
      cases s <;> simp_all [letter, flag]

namespace Word

/-- What a word says about the standing yes can be seen from its arguments. -/
theorem any_pressesYes (word : Word) :
    word.args.any pressesYes = decide (Flag.yes ∈ word.flags) := by
  -- of all words only letters and a long flag can press it
  cases word with
  | shorts first more =>
      have htext : pressesYes (String.ofList ('-' :: (first :: more).map Short.letter)) =
          ((first :: more).map Short.letter).contains 'y' := by
        cases first <;> simp [pressesYes, Short.letter]
      have hany : (shorts first more).args.any pressesYes =
          pressesYes (String.ofList ('-' :: (first :: more).map Short.letter)) :=
        Bool.or_false _
      exact (hany.trans htext).trans (Short.contains_letters (first :: more))
  | long flag =>
      cases flag <;> decide
  | attached directory =>
      have hname : scriptsDirName ++ '=' :: directory.toList ≠ Flag.yes.name.toList := by
        have hfirst : scriptsDirName = 's' :: "cripts-dir".toList := by
          decide
        have hyes : Flag.yes.name.toList = ['y', 'e', 's'] := by
          decide
        simp [hfirst, hyes]
      simp [args, flags, pressesYes_of_long (Reading.toList_attached directory), hname]
  | separate directory hplain =>
      have hoption : pressesYes "--scripts-dir" = false := by
        decide
      simp [args, flags, hoption, pressesYes_of_plain hplain]
  | package name hplain =>
      simp [args, flags, pressesYes_of_plain hplain]

theorem any_namesDirectory (word : Word) :
    word.args.any namesDirectory = !word.directories.isEmpty := by
  cases word with
  | shorts first more =>
      cases first <;> simp [args, directories, namesDirectory, Short.letter]
  | long flag =>
      cases flag <;> decide
  | attached directory =>
      have hname : '=' ∉ scriptsDirName := by
        decide
      simp [args, directories, namesDirectory_of_long (Reading.toList_attached directory),
        Reading.splitValue_append hname]
  | separate directory hplain =>
      have hoption : namesDirectory "--scripts-dir" = true := by
        decide
      simp [args, directories, hoption]
  | package name hplain =>
      simp [args, directories, namesDirectory_of_plain hplain]

end Word
namespace Invocation

variable (i : Invocation)

/-- The options end where the words do. -/
theorem takeWhile_args : i.args.takeWhile (· ≠ "--") = i.words.flatMap Word.args := by
  have hwords : ∀ arg ∈ i.words.flatMap Word.args, decide (arg ≠ "--") = true := by
    intro arg hmem
    rcases List.mem_flatMap.mp hmem with ⟨word, -, harg⟩
    exact decide_eq_true (word.ne_end arg harg)
  have htail : i.tail.takeWhile (· ≠ "--") = [] := by
    cases hrest : i.rest <;> simp [tail, hrest]
  calc i.args.takeWhile (· ≠ "--")
      = i.words.flatMap Word.args ++ i.tail.takeWhile (· ≠ "--") :=
        List.takeWhile_append_of_pos hwords
    _ = i.words.flatMap Word.args := by simp only [htail, List.append_nil]

theorem givesYes_args : givesYes i.args = i.given.yes := by
  calc givesYes i.args
      = i.words.any fun word => decide (Flag.yes ∈ word.flags) := by
        simp only [givesYes, takeWhile_args, List.any_flatMap, Word.any_pressesYes]
    _ = decide (Flag.yes ∈ i.flags) := by
        apply Bool.eq_iff_iff.mpr
        simp [flags]

theorem givesDirectory_args : givesDirectory i.args = i.given.scriptsDir.isSome := by
  calc givesDirectory i.args
      = i.words.any fun word => !word.directories.isEmpty := by
        simp only [givesDirectory, takeWhile_args, List.any_flatMap, Word.any_namesDirectory]
    _ = !i.directories.isEmpty := by
        apply Bool.eq_iff_iff.mpr
        simp [directories]
    _ = i.given.scriptsDir.isSome := by
        cases hdirectories : i.directories <;> simp [given, Given.collect, hdirectories]

/-! ## One more word in front -/

def prepend (word : Word) : Invocation :=
  ⟨word :: i.words, i.rest⟩

theorem args_prepend (word : Word) : (i.prepend word).args = word.args ++ i.args := by
  simp [prepend, args, tail]

end Invocation

section Prepend

variable {args : List String} {g : Given}

theorem ofArguments_yes (h : Given.ofArguments args = .ok g) (hmissing : g.yes = false) :
    Given.ofArguments ("-y" :: args) = .ok { g with yes := true } := by
  rcases ofArguments_iff.mp h with ⟨i, rfl, hconsistent, rfl⟩
  have hnew : Flag.yes ∉ i.flags := of_decide_eq_false hmissing
  have hprepended : Consistent (Flag.yes :: i.flags) i.directories :=
    ⟨List.nodup_cons.mpr ⟨hnew, hconsistent.nodup⟩, hconsistent.single, hconsistent.named⟩
  refine ofArguments_iff.mpr ⟨i.prepend (.shorts .yes []), i.args_prepend _, hprepended, ?_⟩
  simp [Invocation.given, Given.collect, Invocation.prepend, Invocation.flags,
    Invocation.directories, Invocation.packages, Word.flags, Word.directories, Word.packages,
    Short.flag]

theorem ofArguments_directory (h : Given.ofArguments args = .ok g) (hmissing : g.scriptsDir = none)
    {directory : String} (hdirectory : directory ≠ "") :
    Given.ofArguments (("--scripts-dir=" ++ directory) :: args) =
      .ok { g with scriptsDir := some directory } := by
  rcases ofArguments_iff.mp h with ⟨i, rfl, hconsistent, rfl⟩
  have hnone : i.directories = [] := List.head?_eq_none_iff.mp hmissing
  have hprepended : Consistent i.flags (directory :: i.directories) := by
    refine ⟨hconsistent.nodup, ?_, ?_⟩
    · simp [hnone]
    · simpa [hnone] using hdirectory.symm
  refine ofArguments_iff.mpr ⟨i.prepend (.attached directory), i.args_prepend _, hprepended, ?_⟩
  simp [Invocation.given, Given.collect, Invocation.prepend, Invocation.flags,
    Invocation.directories, Invocation.packages, Word.flags, Word.directories, Word.packages]

end Prepend

/-! ## The environment -/

/-- What an environment makes of arguments that come to some settings without it. -/
structure Fallback (args : List String) (settings : Settings) (env : Environment) : Prop where
  yes_given : givesYes args = true →
    ∀ value, resolve args { env with yes := value } = resolve args env
  directory_given : givesDirectory args = true →
    ∀ value, resolve args { env with scriptsDir := value } = resolve args env
  yes_true : givesYes args = false → env.yes = some "true" →
    ∀ value, resolve args env = resolve ("-y" :: args) { env with yes := value }
  yes_false : env.yes = some "false" → resolve args env = resolve args { env with yes := none }
  yes_invalid : givesYes args = false → ∀ text, env.yes = some text → text ≠ "true" →
    text ≠ "false" → resolve args env = .error .invalidValue
  directory_named : givesDirectory args = false → ∀ directory, env.scriptsDir = some directory →
    directory ≠ "" → ∀ value, resolve args env =
      resolve (("--scripts-dir=" ++ directory) :: args) { env with scriptsDir := value }
  directory_invalid : givesDirectory args = false → env.scriptsDir = some "" →
    resolve args env = .error .invalidValue
  otherwise : (givesYes args = true ∨ env.yes = none ∨ env.yes = some "false") →
    (givesDirectory args = true ∨ env.scriptsDir = none) → resolve args env = .ok settings
  /-- The arguments are accepted with `-y` in front, which changes nothing else. -/
  yes_prepended : givesYes args = false →
    resolve ("-y" :: args) {} = .ok { settings with assumeYes := true }
  /-- The arguments are accepted with a directory in front, which changes nothing else. -/
  directory_prepended : givesDirectory args = false → ∀ directory, directory ≠ "" →
    resolve (("--scripts-dir=" ++ directory) :: args) {} =
      .ok { settings with scriptsDir := directory }

namespace Given

variable {g : Given} {env : Environment}

theorem consent_of_missing (h : g.yes = false) : g.consent env = Environment.readFlag env.yes := by
  simp [consent, h]

theorem directory_of_missing (h : g.scriptsDir = none) :
    g.directory env = Environment.readDirectory env.scriptsDir := by
  simp only [directory, h]

/-- With the standing yes given, its variable is not looked at. -/
theorem resolve_of_yes (h : g.yes = true) (value : Option String) :
    g.resolve { env with yes := value } = g.resolve env := by
  simp only [resolve, consent, directory, h, if_true]

/-- With a directory given, its variable is not looked at. -/
theorem resolve_of_directory {chosen : String} (h : g.scriptsDir = some chosen)
    (value : Option String) : g.resolve { env with scriptsDir := value } = g.resolve env := by
  simp only [resolve, consent, directory, h]

theorem resolve_yes_true (h : g.yes = false) (htrue : env.yes = some "true")
    (value : Option String) :
    g.resolve env = resolve { g with yes := true } { env with yes := value } := by
  have hconsent : g.consent env = .ok true := by
    simp [consent_of_missing h, htrue, Environment.readFlag]
  calc g.resolve env
      = (g.directory env).map fun directory => g.settings true directory := by
        simp only [resolve, hconsent, Except.bind]
    _ = resolve { g with yes := true } { env with yes := value } := rfl

theorem resolve_yes_false (hfalse : env.yes = some "false") :
    g.resolve env = g.resolve { env with yes := none } := by
  simp [resolve, consent, directory, hfalse, Environment.readFlag]

theorem resolve_yes_invalid (h : g.yes = false) {text : String} (htext : env.yes = some text)
    (htrue : text ≠ "true") (hfalse : text ≠ "false") : g.resolve env = .error .invalidValue := by
  have hconsent : g.consent env = .error .invalidValue := by
    simp [consent_of_missing h, htext, htrue, hfalse, Environment.readFlag]
  simp only [resolve, hconsent, Except.bind]

theorem resolve_directory_named (h : g.scriptsDir = none) {named : String}
    (hnamed : env.scriptsDir = some named) (hnonempty : named ≠ "") (value : Option String) :
    g.resolve env =
      resolve { g with scriptsDir := some named } { env with scriptsDir := value } := by
  have hdirectory : g.directory env = .ok named := by
    simp [directory_of_missing h, hnamed, hnonempty, Environment.readDirectory]
  calc g.resolve env
      = (g.consent env).bind fun yes => .ok (g.settings yes named) := by
        simp only [resolve, hdirectory, Except.map]
    _ = resolve { g with scriptsDir := some named } { env with scriptsDir := value } := rfl

/-- Only the value of the variable can be at fault. -/
theorem rejection_of_consent {rejection : Rejection} (h : g.consent env = .error rejection) :
    rejection = .invalidValue := by
  cases hyes : g.yes with
  | true =>
      simp [consent, hyes] at h
  | false =>
      have hread := (consent_of_missing hyes).symm.trans h
      simp only [Environment.readFlag] at hread
      split at hread
      · cases hread
      · split at hread
        · cases hread
        · split at hread
          · cases hread
          · exact (Except.error.inj hread).symm

theorem resolve_directory_invalid (h : g.scriptsDir = none) (hempty : env.scriptsDir = some "") :
    g.resolve env = .error .invalidValue := by
  have hdirectory : g.directory env = .error .invalidValue := by
    simp [directory_of_missing h, hempty, Environment.readDirectory]
  -- where the standing yes is at fault as well, the complaint is the same
  cases hconsent : g.consent env with
  | error rejection =>
      simp only [resolve, hconsent, rejection_of_consent hconsent, Except.bind]
  | ok yes =>
      simp only [resolve, hconsent, hdirectory, Except.bind, Except.map]

/-- Where no variable has a say, what is given decides alone. -/
theorem resolve_unaided (hyes : g.yes = true ∨ env.yes = none ∨ env.yes = some "false")
    (hdirectory : g.scriptsDir.isSome = true ∨ env.scriptsDir = none) :
    g.resolve env = .ok (g.settings g.yes (g.scriptsDir.getD ".")) := by
  have hconsent : g.consent env = .ok g.yes := by
    cases hset : g.yes with
    | true =>
        simp [consent, hset]
    | false =>
        rcases hyes with hgiven | hunset | hfalse
        · simp [hset] at hgiven
        · simp [consent_of_missing hset, hunset, Environment.readFlag]
        · simp [consent_of_missing hset, hfalse, Environment.readFlag]
  have hchosen : g.directory env = .ok (g.scriptsDir.getD ".") := by
    cases hset : g.scriptsDir with
    | some chosen =>
        simp [directory, hset]
    | none =>
        rcases hdirectory with hgiven | hunset
        · simp [hset] at hgiven
        · simp [directory_of_missing hset, hunset, Environment.readDirectory]
  simp only [resolve, hconsent, hchosen, Except.bind, Except.map]

end Given

section Resolve

variable {args : List String} {g : Given}

/-- Without an environment, accepted arguments come to settings. -/
theorem resolve_nothing (h : Given.ofArguments args = .ok g) :
    resolve args {} = .ok (g.settings g.yes (g.scriptsDir.getD ".")) :=
  (resolve_of_given h).trans (Given.resolve_unaided (Or.inr (Or.inl rfl)) (Or.inr rfl))

theorem givesYes_of_given (h : Given.ofArguments args = .ok g) : givesYes args = g.yes := by
  rcases ofArguments_iff.mp h with ⟨i, rfl, -, rfl⟩
  exact i.givesYes_args

theorem givesDirectory_of_given (h : Given.ofArguments args = .ok g) :
    givesDirectory args = g.scriptsDir.isSome := by
  rcases ofArguments_iff.mp h with ⟨i, rfl, -, rfl⟩
  exact i.givesDirectory_args

theorem fallback_of_given (h : Given.ofArguments args = .ok g) (env : Environment) :
    Fallback args (g.settings g.yes (g.scriptsDir.getD ".")) env := by
  have hresolve (other : Environment) : resolve args other = g.resolve other := resolve_of_given h
  have hyes : givesYes args = g.yes := givesYes_of_given h
  have hdirectory : givesDirectory args = g.scriptsDir.isSome := givesDirectory_of_given h
  have hnone (hmissing : givesDirectory args = false) : g.scriptsDir = none :=
    Option.isNone_iff_eq_none.mp (Option.isSome_eq_false_iff.mp (hdirectory.symm.trans hmissing))
  -- each case is one on what is given, with the two options seen from the arguments
  constructor
  case yes_given =>
    intro hgiven value
    simpa only [hresolve] using Given.resolve_of_yes (hyes.symm.trans hgiven) value
  case directory_given =>
    intro hgiven value
    rcases Option.isSome_iff_exists.mp (hdirectory.symm.trans hgiven) with ⟨chosen, hchosen⟩
    simpa only [hresolve] using Given.resolve_of_directory hchosen value
  case yes_true =>
    intro hmissing htrue value
    have hunset : g.yes = false := hyes.symm.trans hmissing
    simpa only [hresolve, resolve_of_given (ofArguments_yes h hunset)] using
      Given.resolve_yes_true hunset htrue value
  case yes_false =>
    intro hfalse
    simpa only [hresolve] using Given.resolve_yes_false hfalse
  case yes_invalid =>
    intro hmissing text htext htrue hfalse
    exact (hresolve env).trans
      (Given.resolve_yes_invalid (hyes.symm.trans hmissing) htext htrue hfalse)
  case directory_named =>
    intro hmissing named hnamed hnonempty value
    have hprepended := ofArguments_directory h (hnone hmissing) hnonempty
    simpa only [hresolve, resolve_of_given hprepended] using
      Given.resolve_directory_named (hnone hmissing) hnamed hnonempty value
  case directory_invalid =>
    intro hmissing hempty
    exact (hresolve env).trans (Given.resolve_directory_invalid (hnone hmissing) hempty)
  case otherwise =>
    intro hconsents hdirects
    rw [hyes] at hconsents
    rw [hdirectory] at hdirects
    exact (hresolve env).trans (Given.resolve_unaided hconsents hdirects)
  case yes_prepended =>
    intro hmissing
    exact resolve_nothing (ofArguments_yes h (hyes.symm.trans hmissing))
  case directory_prepended =>
    intro hmissing named hnonempty
    exact resolve_nothing (ofArguments_directory h (hnone hmissing) hnonempty)

end Resolve

/-- The environment is looked at after the arguments, for the options that are missing. -/
theorem resolve_environment (args : List String) (env : Environment) :
    match resolve args {} with
    | .error rejection => resolve args env = .error rejection
    | .ok settings => Fallback args settings env := by
  cases hgiven : Given.ofArguments args with
  | error rejection =>
      simp only [resolve_of_rejected hgiven]
  | ok g =>
      simp only [resolve_nothing hgiven]
      exact fallback_of_given hgiven env

example : resolve ["-q", "nasm"] ⟨some "true", some "-y"⟩ =
    resolve ["--scripts-dir=-y", "-y", "-q", "nasm"] ⟨some "maybe", some ""⟩ := by
  rfl

end CommandLine
end Provision
