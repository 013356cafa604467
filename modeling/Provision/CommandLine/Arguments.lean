import Provision.Settings

/-!
# Arguments — reading the command line

Arguments are read from left to right, and the first one at fault decides.  A flag is given at most
once, short flags may share a dash, `--` makes packages of all that follows, and a single dash is a
package.  The scripts directory comes after `=` or as an argument of its own.  In the second case it
is judged only when the next known option, the next package or the end of the options is reached, so
that an unknown option in between is reported first.  This file defines:

* `Rejection` — why the arguments give no settings;
* `Given` — what the arguments say, and `Given.ofArguments` that reads them;
* `Environment`, `Given.complete` — the variables that stand in for missing options;
* `Options.parse`, `Options.settings` — the settings that come out.
-/

namespace Provision
namespace CommandLine

/-! ## Rejections -/

/-- Why there are no settings: help or the version is asked for, or an argument is at fault. -/
inductive Rejection where
  | help (detailed : Bool)
  | version
  | unknownArgument
  | argumentConflict
  | invalidValue
  | tooManyValues
  deriving DecidableEq, Repr

/-- Asking for help or the version is no mistake. -/
def Rejection.exitCode : Rejection → Nat
  | help _ | version => 0
  | _ => 2

/-! ## Options -/

inductive Flag where
  | yes
  | quiet
  | verbose
  | list
  deriving DecidableEq, Repr

inductive Switch where
  | flag (flag : Flag)
  | help (detailed : Bool)
  | version
  deriving DecidableEq, Repr

def Switch.ofLong? (name : List Char) : Option Switch :=
  if name = "yes".toList then some (.flag .yes)
  else if name = "quiet".toList then some (.flag .quiet)
  else if name = "verbose".toList then some (.flag .verbose)
  else if name = "list".toList then some (.flag .list)
  else if name = "help".toList then some (.help true)
  else if name = "version".toList then some .version
  else none

def Switch.ofShort? (letter : Char) : Option Switch :=
  if letter = 'y' then some (.flag .yes)
  else if letter = 'q' then some (.flag .quiet)
  else if letter = 'v' then some (.flag .verbose)
  else if letter = 'h' then some (.help false)
  else if letter = 'V' then some .version
  else none

def scriptsDirName : List Char :=
  "scripts-dir".toList

/-! ## What is given -/

structure Given where
  yes : Bool := false
  quiet : Bool := false
  verbose : Bool := false
  list : Bool := false
  scriptsDir : Option String := none
  packages : List String := []
  deriving DecidableEq, Repr

namespace Given

def has (g : Given) : Flag → Bool
  | .yes => g.yes
  | .quiet => g.quiet
  | .verbose => g.verbose
  | .list => g.list

def set (g : Given) : Flag → Given
  | .yes => { g with yes := true }
  | .quiet => { g with quiet := true }
  | .verbose => { g with verbose := true }
  | .list => { g with list := true }

/-- Give a flag, which must not have been given before. -/
def give (g : Given) (flag : Flag) : Except Rejection Given :=
  if g.has flag then .error .argumentConflict else .ok (g.set flag)

/-- Give the scripts directory, once only and not empty. -/
def giveScriptsDir (g : Given) (directory : String) : Except Rejection Given :=
  if g.scriptsDir.isSome then .error .argumentConflict
  else if directory.isEmpty then .error .invalidValue
  else .ok { g with scriptsDir := some directory }

def addPackages (g : Given) (packages : List String) : Given :=
  { g with packages := g.packages ++ packages }

end Given

/-! ## Reading -/

/-- What is still to be settled about the scripts directory. -/
inductive Waiting where
  | nothing
  /-- The option was given and its value must come next. -/
  | value
  | judgement (directory : String)
  deriving DecidableEq, Repr

structure Reading where
  given : Given := {}
  waiting : Waiting := .nothing
  deriving DecidableEq, Repr

namespace Reading

def settle (r : Reading) : Except Rejection Given :=
  match r.waiting with
  | .nothing => .ok r.given
  | .value => .error .invalidValue
  | .judgement directory => r.given.giveScriptsDir directory

def press (r : Reading) (switch : Switch) : Except Rejection Reading := do
  let given ← r.settle
  match switch with
  | .help detailed => .error (.help detailed)
  | .version => .error .version
  | .flag flag =>
      let given ← given.give flag
      return { given }

/-- Read the letters after a dash. -/
def letters (r : Reading) : List Char → Except Rejection Reading
  | [] => .ok r
  | c :: cs =>
      match Switch.ofShort? c with
      | none => .error .unknownArgument
      | some switch => do
          let r ← r.press switch
          r.letters cs

/-- Read a long option by its name and the value attached to it. -/
def longOption (r : Reading) (name : List Char) (value : Option String) :
    Except Rejection Reading :=
  if name = scriptsDirName then do
    let given ← r.settle
    match value with
    | none => return { given, waiting := .value }
    | some directory =>
        let given ← given.giveScriptsDir directory
        return { given }
  else
    match Switch.ofLong? name, value with
    | none, _ => .error .unknownArgument
    | some _, some _ => .error .tooManyValues
    | some switch, none => r.press switch

/-- Read an argument that is no option: the value that is expected, or else a package. -/
def word (r : Reading) (argument : String) : Except Rejection Reading :=
  match r.waiting with
  | .value => .ok { r with waiting := .judgement argument }
  | _ => do
      let given ← r.settle
      return { given := given.addPackages [argument] }

/-- The name before the first equals sign, and the value after it. -/
def splitValue (cs : List Char) : List Char × Option String :=
  (cs.takeWhile (· ≠ '='),
    match cs.dropWhile (· ≠ '=') with
    | [] => none
    | _ :: value => some (String.ofList value))

/-- Read one argument other than the end of the options. -/
def argument (r : Reading) (arg : String) : Except Rejection Reading :=
  match arg.toList with
  | '-' :: '-' :: cs =>
      let (name, value) := splitValue cs
      r.longOption name value
  | '-' :: c :: cs => r.letters (c :: cs)
  | _ => r.word arg

def read (r : Reading) : List String → Except Rejection Given
  | [] => r.settle
  | arg :: rest =>
      if arg = "--" then do
        let given ← r.settle
        return given.addPackages rest
      else do
        let r ← r.argument arg
        r.read rest

end Reading

def Given.ofArguments (args : List String) : Except Rejection Given :=
  ({} : Reading).read args

/-! ## The environment -/

/-- The variables that stand in for options: for `--yes` and for `--scripts-dir`. -/
structure Environment where
  yes : Option String := none
  scriptsDir : Option String := none
  deriving DecidableEq, Repr

namespace Environment

/-- A flag in the environment is one of two words. -/
def readFlag : Option String → Except Rejection Bool
  | none => .ok false
  | some text =>
      if text = "true" then .ok true
      else if text = "false" then .ok false
      else .error .invalidValue

/-- A directory in the environment is any text but the empty one; without it, the working directory
is meant. -/
def readDirectory : Option String → Except Rejection String
  | none => .ok "."
  | some text => if text.isEmpty then .error .invalidValue else .ok text

end Environment

/-! ## Options in force -/

structure Options where
  yes : Bool
  quiet : Bool
  verbose : Bool
  list : Bool
  scriptsDir : String
  packages : List String
  deriving DecidableEq, Repr

/-- Look up in the environment what is not given. -/
def Given.complete (g : Given) (env : Environment) : Except Rejection Options := do
  let yes ← if g.yes then .ok true else Environment.readFlag env.yes
  let scriptsDir ←
    match g.scriptsDir with
    | some directory => .ok directory
    | none => Environment.readDirectory env.scriptsDir
  return ⟨yes, g.quiet, g.verbose, g.list, scriptsDir, g.packages⟩

namespace Options

/-- Read a command line with its environment, which is looked at only after the arguments. -/
def parse (args : List String) (env : Environment) : Except Rejection Options := do
  let given ← Given.ofArguments args
  given.complete env

/-- The settings: without packages, the standard tools are requested. -/
def settings (o : Options) : Settings where
  assumeYes := o.yes
  quiet := o.quiet
  verbose := o.verbose
  listOnly := o.list
  scriptsDir := o.scriptsDir
  packages := if o.packages.isEmpty then Tool.standard else o.packages

end Options
end CommandLine
end Provision
