import Accelerator.Text.Alphabetic
import Accelerator.Text.DefaultIgnorable
import Accelerator.Text.GraphemeExtend
import Accelerator.Text.Numeric
import Accelerator.Text.Unprintable
import Accelerator.Text.WhiteSpace

/-!
# Character classes

The classes of characters that the program text, the check scripts and the messages tell apart.
-/

namespace Accelerator.Text

/-- White space: what may stand between two tokens. -/
def isBlank (c : Char) : Bool := whiteSpace.holds c.toNat

/-- A letter in the sense of the property Alphabetic. -/
def isAlphabetic (c : Char) : Bool := alphabetic.holds c.toNat

/-- A letter or a number. -/
def isAlphanumeric (c : Char) : Bool := isAlphabetic c || numeric.holds c.toNat

/-- The letters among the grapheme extenders, the two halfwidth sound marks.  They take room of their own. -/
def spacingExtenders : Ranges := [(0xFF9E, 0xFF9F)]

/-- A character that attaches to the one before it. -/
def isCombining (c : Char) : Bool := graphemeExtend.holds c.toNat && !spacingExtenders.holds c.toNat

/-- Whether a message shows the character itself rather than its number. -/
def isPrintable (c : Char) : Bool :=
  !(isCombining c || defaultIgnorable.holds c.toNat || unprintable.holds c.toNat)

end Accelerator.Text
