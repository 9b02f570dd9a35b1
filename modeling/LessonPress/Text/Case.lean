/-!
# Letter case

## Lower case for the letters of ASCII
-/

namespace LessonPress
namespace Text

def asciiLower (c : Char) : Char :=
  if 65 ≤ c.toNat ∧ c.toNat ≤ 90 then Char.ofNat (c.toNat + 32) else c

end Text
end LessonPress
