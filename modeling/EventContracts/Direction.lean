/-!
# Directions

Data is received and validated, or it is produced and sent out.
-/

namespace EventContracts

inductive Direction where
  | input
  | output
deriving DecidableEq, Repr, Inhabited

namespace Direction

/-- The other direction, in which an acknowledgement flows. -/
def flip : Direction → Direction
  | input => output
  | output => input

def text : Direction → String
  | input => "input"
  | output => "output"

def isOutput : Direction → Bool
  | input => false
  | output => true

@[simp] theorem flip_flip (d : Direction) : d.flip.flip = d := by cases d <;> rfl

end Direction

end EventContracts
