/-!
# Cutting texts

`splitAt` cuts a text at every occurrence of a character, `beforeFirst` and `afterFirst` at the first
one only.
-/

namespace ChangeImpact.Text

/-- The parts of a text between the occurrences of a character; there is always one. -/
def splitAt (mark : Char) : List Char → List (List Char)
  | [] => [[]]
  | c :: cs =>
    if c == mark then [] :: splitAt mark cs else
      match splitAt mark cs with
      | part :: parts => (c :: part) :: parts
      | [] => [[c]]

/-- The part of a text before the first occurrence of a character. -/
def beforeFirst (mark : Char) (cs : List Char) : List Char := cs.takeWhile (· != mark)

/-- The part of a text after the first occurrence of a character. -/
def afterFirst (mark : Char) (cs : List Char) : List Char := (cs.dropWhile (· != mark)).drop 1

end ChangeImpact.Text
