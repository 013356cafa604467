import Provision.Manager.Apt
import Provision.Manager.Homebrew

/-!
# Manager — the package manager of a back end

The operations that both package managers have, by back end.
-/

namespace Provision
namespace Backend

def isAvailable (w : World) (tone : Tone) : Backend → Logged Bool
  | apt => Apt.isAvailable w tone
  | homebrew => .quietly (Homebrew.isAvailable w)

def bootstrap (w : World) (tone : Tone) : Backend → Logged (Except Failure Unit)
  | apt => Apt.bootstrap
  | homebrew => Homebrew.bootstrap w tone

def update (w : World) (tone : Tone) : Backend → Logged (Except Failure Unit)
  | apt => Apt.update w tone
  | homebrew => Homebrew.update w tone

def isInstalled (w : World) (tone : Tone) (package : String) (version : Option String) :
    Backend → Logged (Except Failure Bool)
  | apt => Apt.isInstalled w tone package version
  | homebrew => Homebrew.isInstalled w tone package version

def install (w : World) (tone : Tone) (package : String) :
    Backend → Logged (Except Failure Unit)
  | apt => Apt.install w tone package
  | homebrew => Homebrew.install w tone package

def upgrade (w : World) (tone : Tone) (package : String) :
    Backend → Logged (Except Failure Unit)
  | apt => Apt.upgrade w tone package
  | homebrew => Homebrew.upgrade w tone package

end Backend
end Provision
