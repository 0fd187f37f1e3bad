/-!
# Sets of characters as ranges

A class of characters is a list of closed ranges of code points in increasing order.  Membership walks the list and
stops at the first range that starts above the character, so a character near the start of the code space is
decided after a few steps whatever the length of the table.
-/

namespace Accelerator.Text

/-- Closed ranges of code points, disjoint and in increasing order. -/
abbrev Ranges := List (Nat × Nat)

/-- Whether a code point lies in one of the ranges. -/
def Ranges.holds (n : Nat) : Ranges → Bool
  | [] => false
  | (lo, hi) :: rest => lo ≤ n && (n ≤ hi || Ranges.holds n rest)

end Accelerator.Text
