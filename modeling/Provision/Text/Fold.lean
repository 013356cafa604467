/-!
# Fold — letter case

Answers and identifiers are compared in lower case, and always with names made of ASCII characters.
This file defines:

* `foldChar c` — the lower-case form of `c` as far as it is a single ASCII letter;
* `fold cs` — the same for every character of a text.

Only the capitals A–Z and the Kelvin sign U+212A have such a form.  Every other character has a
lower-case form with a character outside ASCII (also U+0130, whose form is `i` and a combining dot),
and so does not take part in any ASCII name, whether mapped or left alone.
-/

namespace Provision
namespace Text

/-- The Kelvin sign, the one character outside ASCII that is a capital of an ASCII letter alone. -/
def kelvinSign : Char := '\u212A'

/-- The lower-case form of a character where that is a single ASCII letter. -/
def foldChar (c : Char) : Char :=
  if c = kelvinSign then 'k' else c.toLower

def fold (cs : List Char) : List Char :=
  cs.map foldChar

end Text
end Provision
