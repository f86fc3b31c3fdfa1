/-!
# Cancellation

A token is asked whether to stop, at each point where stopping is possible. It lets a number of checks
pass and stops at every later one; a token without a number never stops.
-/

namespace ChangeImpact

/-- How many more checks pass, if there is a limit. -/
structure Token where
  left : Option Nat := none
deriving DecidableEq, Repr

namespace Token

/-- Whether to stop now. -/
def stops (t : Token) : Bool := t.left == some 0

/-- The token after a check. -/
def next (t : Token) : Token := ⟨t.left.map (· - 1)⟩

end Token

end ChangeImpact
