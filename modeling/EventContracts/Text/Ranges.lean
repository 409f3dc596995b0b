/-!
# Sets of characters as ranges

A set of code points is held as the ascending list of the points where membership changes: the
first number is the first member, the next one the first code point after it that is not a member,
and so on.
-/

namespace EventContracts.Text

/-- Membership in the set whose boundaries are given: an odd number of them has been passed. -/
def inRanges (bounds : List Nat) (n : Nat) : Bool :=
  match bounds with
  | [] => false
  | b :: rest => if n < b then false else !inRanges rest n

end EventContracts.Text
