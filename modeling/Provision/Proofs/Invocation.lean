import Provision.CommandLine.Basic

/-!
# Invocation — the ways to write settings down as arguments

The same settings can be asked for in many ways: flags by name or by letter, the letters apart or
behind one dash, the directory attached to its option or after it, options and packages in any
order, and the last packages behind `--`.  What such a command line gives is what its words say
together, provided that they give no flag twice and at most one directory.  This file defines:

* `resolve` — the settings that a call comes to;
* `Short`, `Word`, `Invocation` — what stands at one place of a command line, and whole command
  lines;
* `Consistent` — no flag twice, and at most one directory;
* `Given.collect` — what some flags, directories and packages give together;
* `Given.take`, `foldlM_take_iff` — what a word gives, and words that can be given one after the
  other;
* `Invocation.Requests` — command lines that are written for some settings.
-/

namespace Provision
namespace CommandLine

/-! ## From what is given to settings -/

/-- The settings that the arguments and the environment come to. -/
def resolve (args : List String) (env : Environment) : Except Rejection Settings :=
  (Options.parse args env).map Options.settings

namespace Given

/-- The standing yes: given, or else the variable's. -/
def consent (g : Given) (env : Environment) : Except Rejection Bool :=
  if g.yes then .ok true else Environment.readFlag env.yes

/-- The scripts directory: given, or else the variable's. -/
def directory (g : Given) (env : Environment) : Except Rejection String :=
  match g.scriptsDir with
  | some directory => .ok directory
  | none => Environment.readDirectory env.scriptsDir

/-- The settings, once the standing yes and the scripts directory are known. -/
def settings (g : Given) (yes : Bool) (directory : String) : Settings :=
  ⟨yes, g.quiet, g.verbose, g.list, directory,
    if g.packages.isEmpty then Tool.standard else g.packages⟩

/-- The settings that what is given comes to; the standing yes is looked up first. -/
def resolve (g : Given) (env : Environment) : Except Rejection Settings :=
  (g.consent env).bind fun yes => (g.directory env).map fun directory => g.settings yes directory

theorem complete_settings (g : Given) (env : Environment) :
    (g.complete env).map Options.settings = g.resolve env := by
  cases hconsent : g.consent env <;> cases hdirectory : g.directory env <;>
    cases hyes : g.yes <;> cases hdir : g.scriptsDir <;>
    simp_all [complete, resolve, consent, directory, bind, Except.bind, pure, Except.pure,
      Except.map, Options.settings, settings]

end Given

section Resolve

variable {args : List String} {env : Environment}

theorem resolve_of_given {g : Given} (h : Given.ofArguments args = .ok g) :
    resolve args env = g.resolve env := by
  have hparse : Options.parse args env = g.complete env := by
    simp [Options.parse, h, bind, Except.bind]
  exact (congrArg _ hparse).trans (g.complete_settings env)

theorem resolve_of_rejected {rejection : Rejection}
    (h : Given.ofArguments args = .error rejection) : resolve args env = .error rejection := by
  simp [resolve, Options.parse, h, bind, Except.bind, Except.map]

/-- A call is decided by the settings it comes to. -/
theorem run_eq_of_resolve {settings : Settings} (platform : Platform) (world : World)
    (h : resolve args env = .ok settings) :
    run platform args env world = runSettings platform settings world := by
  cases hparse : Options.parse args env with
  | error rejection =>
      simp [resolve, hparse, Except.map] at h
  | ok options =>
      have hsettings : options.settings = settings := by
        simpa [resolve, hparse, Except.map] using h
      simp only [run, hparse, hsettings]

end Resolve

/-! ## Words -/

namespace Flag

def name : Flag → String
  | yes => "yes"
  | quiet => "quiet"
  | verbose => "verbose"
  | list => "list"

/-- The flag is set in the settings. -/
def isSet (s : Settings) : Flag → Bool
  | yes => s.assumeYes
  | quiet => s.quiet
  | verbose => s.verbose
  | list => s.listOnly

end Flag

/-- The flags that have a letter. -/
inductive Short where
  | yes
  | quiet
  | verbose
  deriving DecidableEq, Repr

namespace Short

def flag : Short → Flag
  | yes => .yes
  | quiet => .quiet
  | verbose => .verbose

def letter : Short → Char
  | yes => 'y'
  | quiet => 'q'
  | verbose => 'v'

end Short

/-- A text that is no option: it does not start with a dash, or it is a single dash. -/
def isPlain (text : String) : Bool :=
  match text.toList with
  | '-' :: _ :: _ => false
  | _ => true

theorem isPlain_of_head {text : String} (h : text.toList.head? ≠ some '-') :
    isPlain text = true := by
  cases htext : text.toList with
  | nil =>
      simp [isPlain, htext]
  | cons c cs =>
      have hdash : c ≠ '-' := by
        simpa [htext] using h
      simp [isPlain, htext, hdash]

theorem ne_end_of_plain {text : String} (h : isPlain text = true) : text ≠ "--" := by
  intro hend
  simp [hend, isPlain] at h

/-- What stands at one place of a command line, before the end of the options. -/
inductive Word where
  /-- One or more letters behind a dash. -/
  | shorts (first : Short) (more : List Short)
  | long (flag : Flag)
  | attached (directory : String)
  | separate (directory : String) (h : isPlain directory = true)
  | package (name : String) (h : isPlain name = true)

namespace Word

def args : Word → List String
  | shorts first more => [String.ofList ('-' :: (first :: more).map Short.letter)]
  | long flag => ["--" ++ flag.name]
  | attached directory => ["--scripts-dir=" ++ directory]
  | separate directory _ => ["--scripts-dir", directory]
  | package name _ => [name]

def flags : Word → List Flag
  | shorts first more => (first :: more).map Short.flag
  | long flag => [flag]
  | _ => []

def directories : Word → List String
  | attached directory => [directory]
  | separate directory _ => [directory]
  | _ => []

def packages : Word → List String
  | package name _ => [name]
  | _ => []

/-- No word ends the options. -/
theorem ne_end (word : Word) : ∀ arg ∈ word.args, arg ≠ "--" := by
  cases word with
  | shorts first more =>
      have hend : String.ofList ('-' :: (first :: more).map Short.letter) ≠ "--" := by
        intro heq
        have hlist := congrArg String.toList heq
        cases first <;> simp [Short.letter] at hlist
      simpa only [args, List.forall_mem_singleton] using hend
  | long flag =>
      cases flag <;> decide
  | attached directory =>
      have hend : "--scripts-dir=" ++ directory ≠ "--" := by
        intro heq
        have hlist := congrArg String.toList heq
        simp at hlist
      simpa only [args, List.forall_mem_singleton] using hend
  | separate directory hplain =>
      simpa [args] using ne_end_of_plain hplain
  | package name hplain =>
      simpa [args] using ne_end_of_plain hplain

end Word

/-- A command line: words, and the packages after the end of the options if it is marked. -/
structure Invocation where
  words : List Word
  rest : Option (List String)

namespace Invocation

def tail (i : Invocation) : List String :=
  match i.rest with
  | none => []
  | some packages => "--" :: packages

def args (i : Invocation) : List String :=
  i.words.flatMap Word.args ++ i.tail

def flags (i : Invocation) : List Flag :=
  i.words.flatMap Word.flags

def directories (i : Invocation) : List String :=
  i.words.flatMap Word.directories

def packages (i : Invocation) : List String :=
  i.words.flatMap Word.packages ++ i.rest.getD []

end Invocation

/-- No flag is given twice, and at most one directory, which is not empty. -/
structure Consistent (flags : List Flag) (directories : List String) : Prop where
  nodup : flags.Nodup
  single : directories.length ≤ 1
  named : "" ∉ directories

theorem Consistent.left {flags more : List Flag} {directories others : List String}
    (h : Consistent (flags ++ more) (directories ++ others)) : Consistent flags directories where
  nodup := (List.nodup_append.mp h.nodup).1
  single := by
    have hsingle := h.single
    simp only [List.length_append] at hsingle
    omega
  named hmem := h.named (List.mem_append_left others hmem)

/-! ## What is given together -/

namespace Given

/-- What some flags, directories and packages give together; the first directory counts. -/
def collect (flags : List Flag) (directories packages : List String) : Given where
  yes := decide (Flag.yes ∈ flags)
  quiet := decide (Flag.quiet ∈ flags)
  verbose := decide (Flag.verbose ∈ flags)
  list := decide (Flag.list ∈ flags)
  scriptsDir := directories.head?
  packages := packages

variable {flags : List Flag} {directories packages : List String}

theorem has_collect (flag : Flag) :
    (collect flags directories packages).has flag = decide (flag ∈ flags) := by
  cases flag <;> rfl

theorem set_collect (flag : Flag) :
    (collect flags directories packages).set flag =
      collect (flags ++ [flag]) directories packages := by
  cases flag <;> simp [collect, set]

theorem give_collect (flag : Flag) :
    (collect flags directories packages).give flag =
      if flag ∈ flags then .error .argumentConflict
      else .ok (collect (flags ++ [flag]) directories packages) := by
  simp only [give, has_collect, set_collect, decide_eq_true_eq]

theorem giveScriptsDir_collect (directory : String) :
    (collect flags directories packages).giveScriptsDir directory =
      if directories ≠ [] then .error .argumentConflict
      else if directory = "" then .error .invalidValue
      else .ok (collect flags (directories ++ [directory]) packages) := by
  cases directories <;> simp [giveScriptsDir, collect]

end Given

/-! ## What words give -/

/-- A computation that goes well goes well in both of its parts. -/
theorem bind_eq_ok_iff {ε α β : Type} {x : Except ε α} {f : α → Except ε β} {b : β} :
    x.bind f = .ok b ↔ ∃ a, x = .ok a ∧ f a = .ok b := by
  cases x <;> simp [Except.bind]

namespace Given

/-- Give all that a word says: its flags, its directory and its package. -/
def take (g : Given) (word : Word) : Except Rejection Given :=
  (word.flags.foldlM give g).bind fun g =>
    (word.directories.foldlM giveScriptsDir g).bind fun g => .ok (g.addPackages word.packages)

theorem addPackages_nil (g : Given) : g.addPackages [] = g := by
  simp [addPackages]

theorem take_shorts (g : Given) (first : Short) (more : List Short) :
    g.take (.shorts first more) = ((first :: more).map Short.flag).foldlM give g := by
  simp only [take, Word.flags, Word.directories, Word.packages]
  cases ((first :: more).map Short.flag).foldlM give g <;>
    simp [Except.bind, pure, Except.pure, addPackages_nil]

theorem take_long (g : Given) (flag : Flag) : g.take (.long flag) = g.give flag := by
  cases hgive : g.give flag <;>
    simp [take, Word.flags, Word.directories, Word.packages, hgive, Except.bind, bind, pure,
      Except.pure, addPackages_nil]

theorem take_attached (g : Given) (directory : String) :
    g.take (.attached directory) = g.giveScriptsDir directory := by
  cases hgive : g.giveScriptsDir directory <;>
    simp [take, Word.flags, Word.directories, Word.packages, hgive, Except.bind, bind, pure,
      Except.pure, addPackages_nil]

variable {g : Given} {flags : List Flag} {directories packages : List String}

theorem foldlM_give_iff (more : List Flag) (h : flags.Nodup) :
    more.foldlM give (collect flags directories packages) = .ok g ↔
      (flags ++ more).Nodup ∧ g = collect (flags ++ more) directories packages := by
  induction more generalizing flags with
  | nil =>
      simp [h, pure, Except.pure, eq_comm]
  | cons flag more ih =>
      by_cases hmem : flag ∈ flags
      · have htwice : ¬(flags ++ flag :: more).Nodup := by
          intro hnodup
          exact (List.nodup_append.mp hnodup).2.2 flag hmem flag List.mem_cons_self rfl
        simp [give_collect, hmem, htwice, bind, Except.bind]
      · have hnodup : (flags ++ [flag]).Nodup := by
          refine List.nodup_append.mpr ⟨h, by simp, ?_⟩
          intro other hother last hlast heq
          exact hmem (heq.trans (List.mem_singleton.mp hlast) ▸ hother)
        simpa [give_collect, hmem, bind, Except.bind] using ih hnodup

theorem foldlM_giveScriptsDir_iff (more : List String) (hsingle : directories.length ≤ 1)
    (hnamed : "" ∉ directories) :
    more.foldlM giveScriptsDir (collect flags directories packages) = .ok g ↔
      ((directories ++ more).length ≤ 1 ∧ "" ∉ directories ++ more) ∧
        g = collect flags (directories ++ more) packages := by
  induction more generalizing directories with
  | nil =>
      simp [hsingle, hnamed, pure, Except.pure, eq_comm]
  | cons directory more ih =>
      cases directories with
      | cons first others =>
          simp [giveScriptsDir_collect, bind, Except.bind]
      | nil =>
          by_cases hempty : directory = ""
          · simp [giveScriptsDir_collect, hempty, bind, Except.bind]
          · have hrest := @ih [directory] (by simp) (by simpa using Ne.symm hempty)
            simpa [giveScriptsDir_collect, hempty, bind, Except.bind] using hrest

/-- A word can be taken in if all is still consistent with it. -/
theorem take_collect_iff (word : Word) (h : Consistent flags directories) :
    (collect flags directories packages).take word = .ok g ↔
      Consistent (flags ++ word.flags) (directories ++ word.directories) ∧
        g = collect (flags ++ word.flags) (directories ++ word.directories)
          (packages ++ word.packages) := by
  constructor
  · intro htake
    rcases bind_eq_ok_iff.mp htake with ⟨flagged, hflags, hrest⟩
    rcases (foldlM_give_iff _ h.nodup).mp hflags with ⟨hnodup, rfl⟩
    rcases bind_eq_ok_iff.mp hrest with ⟨directed, hdirectories, hpackages⟩
    rcases (foldlM_giveScriptsDir_iff _ h.single h.named).mp hdirectories with
      ⟨⟨hsingle, hnamed⟩, rfl⟩
    exact ⟨⟨hnodup, hsingle, hnamed⟩, (Except.ok.inj hpackages).symm⟩
  · rintro ⟨⟨hnodup, hsingle, hnamed⟩, rfl⟩
    refine bind_eq_ok_iff.mpr ⟨_, (foldlM_give_iff _ h.nodup).mpr ⟨hnodup, rfl⟩, ?_⟩
    exact bind_eq_ok_iff.mpr
      ⟨_, (foldlM_giveScriptsDir_iff _ h.single h.named).mpr ⟨⟨hsingle, hnamed⟩, rfl⟩, rfl⟩

/-- Words can be taken in one after the other if they are consistent together. -/
theorem foldlM_take_iff (words : List Word) (h : Consistent flags directories) :
    words.foldlM take (collect flags directories packages) = .ok g ↔
      Consistent (flags ++ words.flatMap Word.flags)
          (directories ++ words.flatMap Word.directories) ∧
        g = collect (flags ++ words.flatMap Word.flags)
          (directories ++ words.flatMap Word.directories)
          (packages ++ words.flatMap Word.packages) := by
  -- what was taken in so far is the front of what has to be consistent
  induction words generalizing flags directories packages with
  | nil =>
      simp [h, pure, Except.pure, eq_comm]
  | cons word words ih =>
      simp only [List.foldlM_cons, List.flatMap_cons, ← List.append_assoc]
      constructor
      · intro hwords
        rcases bind_eq_ok_iff.mp hwords with ⟨taken, hword, hrest⟩
        rcases (take_collect_iff word h).mp hword with ⟨hconsistent, rfl⟩
        exact (ih hconsistent).mp hrest
      · rintro ⟨hconsistent, hgiven⟩
        have hword := hconsistent.left
        exact bind_eq_ok_iff.mpr
          ⟨_, (take_collect_iff word h).mpr ⟨hword, rfl⟩, (ih hword).mpr ⟨hconsistent, hgiven⟩⟩

end Given

/-! ## Command lines for settings -/

namespace Invocation

/-- The command line is written for the settings: it gives the flags that are set and no others,
each once, the directory, and the packages in their order. -/
structure Requests (i : Invocation) (s : Settings) : Prop where
  nodup : i.flags.Nodup
  flags : ∀ flag, flag ∈ i.flags ↔ flag.isSet s = true
  directories : i.directories = [s.scriptsDir]
  packages : i.packages = s.packages

/-- One command line for the settings: each flag by its name, and all packages at the end. -/
def ofSettings (s : Settings) : Invocation where
  words :=
    .attached s.scriptsDir ::
      ([Flag.yes, .quiet, .verbose, .list].filter fun flag => flag.isSet s).map Word.long
  rest := some s.packages

theorem ofSettings_requests (s : Settings) : (ofSettings s).Requests s := by
  have hflags : (ofSettings s).flags =
      [Flag.yes, .quiet, .verbose, .list].filter fun flag => flag.isSet s := by
    simp [ofSettings, Invocation.flags, Word.flags, List.flatMap_map]
  refine ⟨?_, ?_, ?_, ?_⟩
  · have hnodup : [Flag.yes, .quiet, .verbose, .list].Nodup := by
      decide
    rw [hflags]
    exact hnodup.filter _
  · intro flag
    cases flag <;> simp [hflags]
  · simp [ofSettings, Invocation.directories, Word.directories, List.flatMap_map]
  · simp [ofSettings, Invocation.packages, Word.packages, List.flatMap_map]

end Invocation

end CommandLine
end Provision
