/-!
# Column — placing text on lines

Widths are counted in characters.  This file defines:

* `indentation` — two blanks for each level;
* `padRight` — a text filled up with blanks, so that what follows starts in a fixed column;
* `hanging` — a text whose further lines start in the column of its first.
-/

namespace Provision
namespace Text

def blanks (width : Nat) : String :=
  String.ofList (List.replicate width ' ')

def indentation (level : Nat) : String :=
  blanks (2 * level)

/-- Fill a text up with blanks to a width; a longer text stays as it is. -/
def padRight (width : Nat) (text : String) : String :=
  text ++ blanks (width - text.length)

/-- A text that starts in a column: each of its line ends is followed by blanks up to that
column. -/
def hanging (column : Nat) (text : String) : String :=
  String.ofList (text.toList.flatMap fun c =>
    if c = '\n' then '\n' :: List.replicate column ' ' else [c])

def widest (texts : List String) : Nat :=
  (texts.map String.length).foldl max 0

/-! ## Widths -/

theorem length_blanks (width : Nat) : (blanks width).length = width := by
  simp [blanks]

/-- A filled text is as wide as asked for, or as wide as it was. -/
theorem length_padRight (width : Nat) (text : String) :
    (padRight width text).length = max width text.length := by
  rw [padRight, String.length_append, length_blanks]
  omega

end Text
end Provision
