/-!
# Lines — cutting a sequence at separators

This file defines:

* `pieces sep xs` — the runs of `xs` between separators, the first one apart from the others, so
  that there is always one;
* `lines cs` — the lines of a text: each ends with a line feed, which is left out together with one
  carriage return before it, and the last one may lack its end;
* `inputLines bs` — the lines of an input of bytes, each with its line feed.
-/

namespace Provision
namespace Text

/-! ## Separators -/

/-- The run up to the first separator, and the runs after it. -/
def pieces {α : Type} [DecidableEq α] (sep : α) : List α → List α × List (List α)
  | [] => ([], [])
  | x :: xs =>
      let (p, ps) := pieces sep xs
      if x = sep then ([], p :: ps) else (x :: p, ps)

/-! ## Lines of a text -/

/-- A line without the carriage return that belongs to its end. -/
def dropReturn (line : List Char) : List Char :=
  if line.getLast? = some '\r' then line.dropLast else line

/-- All pieces but the last are ended lines; the last is a line if it has a character. -/
def closeLines : List Char → List (List Char) → List (List Char)
  | last, [] => if last.isEmpty then [] else [last]
  | line, next :: rest => dropReturn line :: closeLines next rest

def lines (cs : List Char) : List (List Char) :=
  let (p, ps) := pieces '\n' cs
  closeLines p ps

/-! ## Lines of an input -/

def lineFeed : UInt8 := 0x0A

/-- Put a byte at the front of the first line. -/
def pushByte (b : UInt8) : List (List UInt8) → List (List UInt8)
  | [] => [[b]]
  | line :: rest => (b :: line) :: rest

/-- The lines of an input, each with the line feed that ends it; only the last may lack one. -/
def inputLines : List UInt8 → List (List UInt8)
  | [] => []
  | b :: bs => if b = lineFeed then [b] :: inputLines bs else pushByte b (inputLines bs)

theorem flatten_pushByte (b : UInt8) (ls : List (List UInt8)) :
    (pushByte b ls).flatten = b :: ls.flatten := by
  cases ls <;> rfl

/-- Cutting an input into lines loses no byte. -/
theorem flatten_inputLines (bs : List UInt8) : (inputLines bs).flatten = bs := by
  induction bs with
  | nil => rfl
  | cons b bs ih =>
      by_cases h : b = lineFeed
      · simp [inputLines, h, ih]
      · simp [inputLines, h, flatten_pushByte, ih]

end Text
end Provision
