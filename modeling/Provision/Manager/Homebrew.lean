import Provision.Inventory.Brew
import Provision.Machine.Process
import Provision.PackageName

/-!
# Homebrew — the package manager of macOS

Packages are looked up in the list of `brew list --versions`.  Where `brew` is missing it is
installed by its own script.  A name is validated before any command is made of it.
-/

namespace Provision
namespace Homebrew

open Text

def command (args : List String) : Command :=
  .direct "brew" args

def installLine : String :=
  "/bin/bash -c \"$(curl -fsSL https://raw.githubusercontent.com/Homebrew/install/HEAD/install.sh)\""

/-- Homebrew is usable where there is a program `brew`. -/
def isAvailable (w : World) : Bool :=
  w.hasProgram "brew"

/-- Install Homebrew, unless it is there. -/
def bootstrap (w : World) (tone : Tone) : Logged (Except Failure Unit) :=
  if isAvailable w then .quietly (.ok ()) else w.checked tone (.shell false installLine)

def update (w : World) (tone : Tone) : Logged (Except Failure Unit) :=
  w.checked tone (command ["update"])

/-- The packages of a list that was printed with success. -/
def entries (effect : Effect) : Except Failure (List Inventory.Entry) :=
  if effect.status.isSuccess then .ok (Inventory.Brew.parse (Utf8.lossy effect.stdout))
  else .error (.manager "Failed to list brew packages")

/-- A package is installed, at the version if one is given. -/
def isInstalled (w : World) (tone : Tone) (package : String) (version : Option String) :
    Logged (Except Failure Bool) :=
  match PackageName.validate package with
  | .error failure => .quietly (.error failure)
  | .ok _ =>
      (w.captured tone (command ["list", "--versions"])).map fun r =>
        (r.bind entries).map fun list => Inventory.contains list package version

def install (w : World) (tone : Tone) (package : String) : Logged (Except Failure Unit) :=
  match PackageName.validate package with
  | .error failure => .quietly (.error failure)
  | .ok _ => w.checked tone (command ["install", package])

def upgrade (w : World) (tone : Tone) (package : String) : Logged (Except Failure Unit) :=
  match PackageName.validate package with
  | .error failure => .quietly (.error failure)
  | .ok _ => w.checked tone (command ["upgrade", package])

end Homebrew
end Provision
