import Provision.Inventory.Basic
import Provision.Text.Blank
import Provision.Text.Lines
import Provision.Text.Pattern

/-!
# Dpkg — the package table of `dpkg -l`

A row of the table begins with two status letters, the desired state and the current one, and
perhaps an error flag; the name and the version follow as columns.  A name may carry an architecture
after a colon.  This file defines:

* `Dpkg.row` — the pattern of a row;
* `Dpkg.entry?` — the installed package on a line;
* `Dpkg.parse` — the installed packages of a table.
-/

namespace Provision
namespace Inventory
namespace Dpkg

open Text

/-! ## The row -/

def isLowerLetter (c : Char) : Bool :=
  'a' ≤ c && c ≤ 'z'

def isLetter (c : Char) : Bool :=
  isLowerLetter c || ('A' ≤ c && c ≤ 'Z')

def isSolid (c : Char) : Bool :=
  !isBlank c

/-- Desired state, current state, error flag, name and version, the columns set off by blanks. -/
def row : List Item :=
  [.one isLowerLetter, .one isLetter, .atMostOne isSolid, .atLeastOne isBlank, .atLeastOne isSolid,
    .atLeastOne isBlank, .atLeastOne isSolid]

/-- The current state of a package that is installed. -/
def installed : Char :=
  'i'

/-- A name without its architecture. -/
def baseName (name : List Char) : List Char :=
  name.takeWhile (· ≠ ':')

/-! ## The table -/

/-- The package on a line, if the line is a row and the package is installed. -/
def entry? (line : List Char) : Option Entry :=
  match Item.matches row line with
  | some [_, state, _, _, name, _, version] =>
      if state = [installed] then
        some ⟨String.ofList (baseName name), [String.ofList version]⟩
      else none
  | _ => none

/-- The installed packages of a table, in the order of its rows. -/
def parse (table : List Char) : List Entry :=
  (lines table).filterMap entry?

end Dpkg
end Inventory
end Provision
