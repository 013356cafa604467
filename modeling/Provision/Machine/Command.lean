import Provision.Text.Null

/-!
# Command — what is started

A command is a program with its arguments and perhaps a directory to start it in.  Superuser rights
are got by starting `sudo` with the program as its first argument.  A command with a text that
cannot be handed to the system is never started.
-/

namespace Provision

structure Command where
  program : String
  args : List String
  /-- The directory to start in; without one it is the working directory. -/
  directory : Option String := none
  deriving DecidableEq, Repr

namespace Command

def direct (program : String) (args : List String) : Command :=
  ⟨program, args, none⟩

/-- Start a program with superuser rights. -/
def elevated (program : String) (args : List String) : Command :=
  ⟨"sudo", program :: args, none⟩

/-- Start a program, with superuser rights or not. -/
def program? (superuser : Bool) (program : String) (args : List String) : Command :=
  if superuser then elevated program args else direct program args

/-- Have a shell interpret a line. -/
def shell (superuser : Bool) (line : String) : Command :=
  program? superuser "sh" ["-c", line]

def within (c : Command) (directory : String) : Command :=
  { c with directory := some directory }

def argv (c : Command) : List String :=
  c.program :: c.args

/-- The command has a text that cannot be handed to the system. -/
def hasNull (c : Command) : Bool :=
  (c.argv ++ c.directory.toList).any Text.hasNull

def shownProgram (c : Command) : String :=
  Text.withoutNull c.program

def shownArgs (c : Command) : List String :=
  c.args.map Text.withoutNull

/-- The command as the operator would type it, without quoting. -/
def display (c : Command) : String :=
  String.intercalate " " (c.shownProgram :: c.shownArgs)

/-- Where no text has a null character the program and its arguments are shown as they are. -/
theorem display_eq_argv {c : Command} (h : ∀ text ∈ c.argv, Text.hasNull text = false) :
    c.display = String.intercalate " " c.argv := by
  have hp : c.shownProgram = c.program :=
    Text.withoutNull_eq_self (h c.program (List.mem_cons_self ..))
  have ha : c.shownArgs = c.args :=
    (List.map_congr_left fun text ht =>
      Text.withoutNull_eq_self (h text (List.mem_cons_of_mem _ ht))).trans (List.map_id _)
  rw [display, argv, hp, ha]

end Command
end Provision
