/-!
# Pattern — character classes matched leftmost first

A pattern is a list of items over character classes and is matched at the start of a text; what
follows the match is free.  As usual for such patterns an item takes as much as it can, and gives
back one character at a time while the items after it do not match.  This file defines:

* `Item` — one character, at most one, or at least one of a class;
* `Item.matches` — the first match of a pattern in that order: what each item takes.
-/

namespace Provision
namespace Text

inductive Item where
  /-- One character of the class. -/
  | one (p : Char → Bool)
  /-- One character of the class, or else nothing. -/
  | atMostOne (p : Char → Bool)
  /-- Some characters of the class, as many as possible. -/
  | atLeastOne (p : Char → Bool)

/-- The longest run of a class, of one character or more, after which `rest` succeeds. -/
def takeRun {β : Type} (p : Char → Bool) (rest : List Char → Option β) :
    List Char → Option (List Char × β)
  | [] => none
  | c :: cs =>
      if p c then
        ((takeRun p rest cs).map fun r => (c :: r.1, r.2)).or ((rest cs).map fun r => ([c], r))
      else none

/-- Match the items in order: what each takes, in the first match. -/
def Item.matches : List Item → List Char → Option (List (List Char))
  | [], _ => some []
  | .one _ :: _, [] => none
  | .one p :: items, c :: cs =>
      if p c then (Item.matches items cs).map ([c] :: ·) else none
  | .atMostOne _ :: items, [] => (Item.matches items []).map ([] :: ·)
  | .atMostOne p :: items, c :: cs =>
      if p c then
        ((Item.matches items cs).map ([c] :: ·)).or ((Item.matches items (c :: cs)).map ([] :: ·))
      else (Item.matches items (c :: cs)).map ([] :: ·)
  | .atLeastOne p :: items, cs =>
      (takeRun p (Item.matches items) cs).map fun r => r.1 :: r.2

end Text
end Provision
