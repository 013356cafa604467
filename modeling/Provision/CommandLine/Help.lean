import Provision.CommandLine.Arguments
import Provision.Text.Column

/-!
# Help — how the program is called

The help has a purpose, the form of a call and two sections of topics.  A brief help has one line
for each topic; a detailed one describes a topic below its label and sets topics apart by empty
lines.  Topics that the environment can stand in for say what their variable holds.  This file
defines:

* `Topic` — an argument with its description;
* `Help.positionals`, `Help.options` — the topics of the two sections;
* `Help.text` — the whole help.
-/

namespace Provision
namespace CommandLine

/-- An argument with its description, and notes on where its value comes from. -/
structure Topic where
  label : String
  description : String
  notes : List String := []
  deriving DecidableEq, Repr

namespace Topic

/-- A topic on one line, described beside the column of the labels. -/
def brief (labels : Nat) (t : Topic) : String :=
  "  " ++ Text.padRight labels t.label ++ "  " ++
    Text.hanging (labels + 4) (String.intercalate " " (t.description :: t.notes))

/-- A topic with the description below its label, and the notes below that. -/
def detailed (t : Topic) : String :=
  let notes := if t.notes.isEmpty then [] else [String.intercalate "\n" t.notes]
  "  " ++ t.label ++ "\n" ++ Text.blanks 10 ++
    Text.hanging 10 (String.intercalate "\n\n" (t.description :: notes))

end Topic

namespace Help

def purpose (detailed : Bool) : String :=
  if detailed then
    "Detects the host OS and installs or upgrades the HydraOS build toolchain " ++
      "(make, x86_64-elf binutils and gcc, nasm, xorriso, grub2) through apt or Homebrew"
  else "Install the HydraOS build toolchain"

/-- The note on a variable of the environment and on what it holds. -/
def variableNote (name : String) (value : Option String) : String :=
  "[env: " ++ name ++ "=" ++ value.getD "" ++ "]"

def positionals : List Topic :=
  [⟨"[PACKAGE]...", "Packages to install instead of the default toolchain list", []⟩]

def options (detailed : Bool) (env : Environment) : List Topic :=
  [⟨"-v, --verbose", "Echo every external command before running it", []⟩,
    ⟨"-q, --quiet", "Only print warnings and errors", []⟩,
    ⟨"-y, --yes", "Answer \"yes\" to every install prompt",
      [variableNote "HYDRA_SETUP_YES" env.yes]⟩,
    ⟨"    --scripts-dir <DIR>", "Directory containing the linux/ and mac/ build scripts",
      [variableNote "HYDRA_SETUP_SCRIPTS_DIR" env.scriptsDir, "[default: .]"]⟩,
    ⟨"    --list", "Show what would be installed on this host and exit", []⟩,
    ⟨"-h, --help",
      if detailed then "Print help (see a summary with '-h')"
      else "Print help (see more with '--help')", []⟩,
    ⟨"-V, --version", "Print version", []⟩]

def listing (detailed : Bool) (heading : String) (entries : List Topic) : String :=
  let shown :=
    if detailed then entries.map Topic.detailed
    else entries.map (Topic.brief (Text.widest (entries.map Topic.label)))
  heading ++ ":\n" ++ String.intercalate (if detailed then "\n\n" else "\n") shown

def text (detailed : Bool) (env : Environment) : String :=
  String.intercalate "\n\n"
    [purpose detailed, "Usage: hydra-setup [OPTIONS] [PACKAGE]...",
      listing detailed "Arguments" positionals,
      listing detailed "Options" (options detailed env)]

end Help
end CommandLine
end Provision
