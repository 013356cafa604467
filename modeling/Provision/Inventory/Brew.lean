import Provision.Inventory.Basic
import Provision.Text.Blank
import Provision.Text.Lines

/-!
# Brew — the version list of `brew list --versions`

Each line with a word on it is for one package: its name and then its versions.
-/

namespace Provision
namespace Inventory
namespace Brew

open Text

/-- The package on a line, if the line has a word. -/
def entry? (line : List Char) : Option Entry :=
  match words line with
  | [] => none
  | name :: versions => some ⟨String.ofList name, versions.map String.ofList⟩

/-- The packages of a list, in the order of its lines. -/
def parse (list : List Char) : List Entry :=
  (lines list).filterMap entry?

end Brew
end Inventory
end Provision
