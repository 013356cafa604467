/-!
# Blank — white space, trimming and words

White space is what Unicode gives the property White_Space: 25 characters, ASCII and others.  The
zero-width space, the byte-order mark and the four information separators do not have it.
This file defines:

* `isBlank c` — `c` is white space, by the table `blankRanges`;
* `trim cs` — `cs` without the white space at its two ends;
* `words cs` — the maximal runs of other characters in `cs`, in order.
-/

namespace Provision
namespace Text

/-! ## The property -/

/-- The code points with the property White_Space, as closed ranges in increasing order. -/
def blankRanges : List (Nat × Nat) :=
  [(0x09, 0x0D), (0x20, 0x20), (0x85, 0x85), (0xA0, 0xA0), (0x1680, 0x1680), (0x2000, 0x200A),
    (0x2028, 0x2029), (0x202F, 0x202F), (0x205F, 0x205F), (0x3000, 0x3000)]

/-- A character is blank when its code point lies in one of the ranges. -/
def isBlank (c : Char) : Bool :=
  blankRanges.any fun r => r.1 ≤ c.toNat && c.toNat ≤ r.2

/-- The table extends what the core library calls white space. -/
theorem isBlank_of_isWhitespace {c : Char} (h : c.isWhitespace = true) : isBlank c = true := by
  simp only [Char.isWhitespace, Bool.or_eq_true, decide_eq_true_eq] at h
  rcases h with ((h | h) | h) | h <;> subst h <;> decide

/-! ## Trimming -/

def trimLeft (cs : List Char) : List Char :=
  cs.dropWhile isBlank

def trimRight (cs : List Char) : List Char :=
  (cs.reverse.dropWhile isBlank).reverse

def trim (cs : List Char) : List Char :=
  trimRight (trimLeft cs)

/-! ## Words -/

/-- Put a word before the others, unless it is empty. -/
def addWord (w : List Char) (ws : List (List Char)) : List (List Char) :=
  if w.isEmpty then ws else w :: ws

/-- The characters up to the first blank, and the words after it. -/
def firstWord : List Char → List Char × List (List Char)
  | [] => ([], [])
  | c :: cs =>
      let (w, ws) := firstWord cs
      if isBlank c then ([], addWord w ws) else (c :: w, ws)

/-- The words of a text: its maximal runs of characters that are not blank. -/
def words (cs : List Char) : List (List Char) :=
  let (w, ws) := firstWord cs
  addWord w ws

end Text
end Provision
