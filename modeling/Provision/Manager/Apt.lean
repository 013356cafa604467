import Provision.Inventory.Dpkg
import Provision.Machine.Process
import Provision.PackageName
import Provision.Platform

/-!
# Apt — the package manager of Ubuntu

Changes are made by `sudo apt`, installed packages are looked up in the table of `dpkg -l`.  A name
is validated before any command is made of it.
-/

namespace Provision
namespace Apt

open Text

/-- `sudo apt` with some arguments. -/
def command (args : List String) : Command :=
  .elevated "apt" args

/-- Apt is usable where the distribution reports the supported name, with whatever exit status. -/
def isAvailable (w : World) (tone : Tone) : Logged Bool :=
  (w.captured tone (.direct "lsb_release" ["-is"])).map fun
    | .ok effect => isSupportedDistribution (Utf8.lossy effect.stdout)
    | .error _ => false

def bootstrap : Logged (Except Failure Unit) :=
  .quietly
    (.error (.manager ("this setup is intended for " ++ supportedDistribution ++ " systems only")))

def update (w : World) (tone : Tone) : Logged (Except Failure Unit) :=
  w.checked tone (command ["update"])

/-- A package is installed, at the version if one is given.  The exit status says nothing: for a
package that is not known, the table is empty. -/
def isInstalled (w : World) (tone : Tone) (package : String) (version : Option String) :
    Logged (Except Failure Bool) :=
  match PackageName.validate package with
  | .error failure => .quietly (.error failure)
  | .ok _ =>
      (w.captured tone (.direct "dpkg" ["-l", package])).map fun r => r.map fun effect =>
        Inventory.contains (Inventory.Dpkg.parse (Utf8.lossy effect.stdout)) package version

def install (w : World) (tone : Tone) (package : String) : Logged (Except Failure Unit) :=
  match PackageName.validate package with
  | .error failure => .quietly (.error failure)
  | .ok _ => w.checked tone (command ["install", "-y", package])

def upgrade (w : World) (tone : Tone) (package : String) : Logged (Except Failure Unit) :=
  match PackageName.validate package with
  | .error failure => .quietly (.error failure)
  | .ok _ => w.checked tone (command ["upgrade", "-y", package])

end Apt
end Provision
