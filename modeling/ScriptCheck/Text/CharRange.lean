/-!
Sets of characters given by ranges of code points.

A set is stored as the ascending list of the code points at which membership changes, starting
from "not a member": `[a, b, c]` holds the points from `a` up to but excluding `b`, and all points
from `c` on.
-/

namespace ScriptCheck.Text

/-- Membership in a set given by its points of change: an odd number of them has been reached. -/
def inRanges (changes : List Nat) (c : Char) : Bool :=
  (changes.takeWhile (· ≤ c.toNat)).length % 2 == 1

end ScriptCheck.Text
