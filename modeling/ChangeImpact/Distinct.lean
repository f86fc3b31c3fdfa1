/-!
# First occurrences

`keepFirst` keeps, of all elements that agree, the first one, in order.
-/

namespace ChangeImpact

variable {α : Type}

/-- Adds to a list the elements that agree with none before them. -/
def addNew (agree : α → α → Bool) : (kept : List α) → List α → List α
  | kept, [] => kept
  | kept, x :: xs => if kept.any (agree · x) then addNew agree kept xs else addNew agree (kept ++ [x]) xs

/-- The first of all elements that agree, in order. -/
def keepFirst (agree : α → α → Bool) (xs : List α) : List α := addNew agree [] xs

end ChangeImpact
