import EventContracts.Text.Blank
import EventContracts.Text.Digit
import EventContracts.Text.Word

/-!
# Character sets

The sets of characters that a pattern can ask for at one place.
-/

namespace EventContracts

inductive CharSet where
  | nothing
  | range (first last : Char)
  | digit
  | word
  | blank
  | either (left right : CharSet)
  | other (than : CharSet)
deriving DecidableEq, Repr

namespace CharSet

def has (c : Char) : CharSet → Bool
  | nothing => false
  | range first last => first ≤ c && c ≤ last
  | digit => Text.isDecimalDigit c
  | word => Text.isWord c
  | blank => Text.isBlank c
  | either left right => has c left || has c right
  | other than => !has c than

def one (c : Char) : CharSet := range c c

def line : CharSet := other (one '\n')

end CharSet

end EventContracts
