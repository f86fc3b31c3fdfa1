import ChangeImpact.Text.Printable
import ChangeImpact.Text.Casing.Table

/-!
# Small and capital letters

`lower` and `upper` map a whole text. Both are total and work character by character, with one
exception: a capital sigma at the end of a word has a small form of its own, so `lower` looks at
the characters around it.
-/

namespace ChangeImpact.Text

open Casing

/-- The first character that is not skipped is a cased letter. -/
def nextIsCased (cs : List Char) : Bool :=
  match cs.dropWhile fun c => inRanges ignorableRanges c.toNat with
  | [] => false
  | c :: _ => inRanges casedRanges c.toNat

/-- The small form of one character; `before` holds the characters to its left, nearest first. -/
def lowerChar (before : List Char) (c : Char) (after : List Char) : List Char :=
  if c.toNat < 0x80 then
    [if 0x41 ≤ c.toNat && c.toNat ≤ 0x5a then Char.ofNat (c.toNat + 0x20) else c]
  else if c.toNat == 0x3a3 then
    [if nextIsCased before && !nextIsCased after then Char.ofNat 0x3c2 else Char.ofNat 0x3c3]
  else if c.toNat == 0x130 then [Char.ofNat 0x69, Char.ofNat 0x307]
  else [((Run.lookup lowerRuns c.toNat).map Char.ofNat).getD c]

def lowerFrom (before : List Char) : List Char → List Char
  | [] => []
  | c :: cs => lowerChar before c cs ++ lowerFrom (c :: before) cs

/-- The capital form of one character. -/
def upperChar (c : Char) : List Char :=
  if c.toNat < 0x80 then
    [if 0x61 ≤ c.toNat && c.toNat ≤ 0x7a then Char.ofNat (c.toNat - 0x20) else c]
  else
    match upperExpansions.find? fun e => e.1 == c.toNat with
    | some e => e.2.map Char.ofNat
    | none => [((Run.lookup upperRuns c.toNat).map Char.ofNat).getD c]

/-- A text in small letters. -/
def lower (s : List Char) : List Char := lowerFrom [] s

/-- A text in capital letters. -/
def upper (s : List Char) : List Char := s.flatMap upperChar

end ChangeImpact.Text
