/-!
# Null — texts that can be handed to the system

The system takes a text to end at its first null character, so a text that has one cannot be handed
over.  Where such a text is shown, a word for it is shown in its place.
-/

namespace Provision
namespace Text

def hasNull (text : String) : Bool :=
  text.toList.contains '\x00'

def withoutNull (text : String) : String :=
  if hasNull text then "<string-with-nul>" else text

/-- A text that can be handed over is shown as it is. -/
theorem withoutNull_eq_self {text : String} (h : hasNull text = false) :
    withoutNull text = text := by
  simp [withoutNull, h]

/-- What is shown has no null character. -/
theorem hasNull_withoutNull (text : String) : hasNull (withoutNull text) = false := by
  unfold withoutNull
  split
  · decide
  · simpa using ‹¬hasNull text = true›

end Text
end Provision
