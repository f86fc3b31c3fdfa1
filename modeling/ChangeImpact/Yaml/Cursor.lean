import ChangeImpact.Yaml.Problem

/-!
# Reading position in a YAML text

A cursor is what is left of the text and where that is. The character past the end reads as the null
character, which no text holds. Line breaks are those of the format; a carriage return with a line
feed is one break, and the byte order mark has no width. A text may come piece by piece, so a cursor
also knows how far the text has been looked at.
-/

namespace ChangeImpact.Yaml

/-- What is left of a text and where it starts. -/
structure Cursor where
  rest : List Char
  /-- The length of the whole text. -/
  size : Nat := rest.length
  index : Nat := 0
  line : Nat := 0
  column : Nat := 0
  /-- How many characters have been looked at. -/
  seen : Nat := 1
deriving Repr, Inhabited

/-- The null character, which stands for the end of the text. -/
def eof : Char := Char.ofNat 0

def byteOrderMark : Char := Char.ofNat 0xfeff

/-- The text that pieces make, of which the last stands first. -/
def textOf (pieces : List (List Char)) : List Char := pieces.reverse.flatten

/-- A character that breaks a line. -/
def isBreak (c : Char) : Bool :=
  c == '\r' || c == '\n' || c.toNat == 0x85 || c.toNat == 0x2028 || c.toNat == 0x2029

/-- A line break or the end of the text. -/
def isLineEnd (c : Char) : Bool := c == eof || isBreak c

/-- A space, a line break or the end of the text. -/
def isSpaceOrEnd (c : Char) : Bool := c == ' ' || isLineEnd c

/-- A space, a tab, a line break or the end of the text. -/
def isGap (c : Char) : Bool := c == '\t' || isSpaceOrEnd c

namespace Cursor

def mark (c : Cursor) : Mark := ⟨c.line, c.column⟩

/-- How many characters are left. -/
def left (c : Cursor) : Nat := c.size - c.index

/-- The character `k` places ahead. -/
def peekAt (c : Cursor) (k : Nat) : Char := c.rest.getD k eof

def peek (c : Cursor) : Char := c.peekAt 0

/-- Notes that some characters from the cursor on have been looked at. -/
def look (count : Nat) (c : Cursor) : Cursor := { c with seen := max c.seen (c.index + count) }

/-- Moves over one character, to one that is looked at. A shift is no character of its own. -/
def next (c : Cursor) : Cursor :=
  match c.rest with
  | [] => c
  | ch :: rest =>
    if ch == Text.shift then { c with rest } else
      let after := { c.look 2 with rest, index := c.index + 1 }
      if isBreak ch && !(ch == '\r' && rest.head? == some '\n') then
        { after with line := c.line + 1, column := 0 }
      else if ch == byteOrderMark then after
      else { after with column := c.column + 1 }

/-- Moves over some characters. -/
def advance : Nat → Cursor → Cursor
  | 0, c => c
  | n + 1, c => advance n c.next

/-- The characters of a class at the cursor, and the cursor behind them. -/
def span (p : Char → Bool) (c : Cursor) : List Char × Cursor :=
  let run := c.rest.takeWhile p
  (run, advance run.length c)

/-- Moves over the characters of a class. -/
def skip (p : Char → Bool) (c : Cursor) : Cursor := (c.span p).2

def skipSpaces (c : Cursor) : Cursor := c.skip (· == ' ')

/-- Moves to the end of the line if a comment starts here. -/
def skipComment (c : Cursor) : Cursor :=
  if c.peek == '#' then c.skip fun ch => !isLineEnd ch else c

/-- The line break at the cursor as it is kept, none if there is none here: most breaks become a line
feed, and the two separator characters stay. -/
def lineBreak (c : Cursor) : List Char × Cursor :=
  let ch := c.peek
  if ch == '\r' && c.peekAt 1 == '\n' then (['\n'], advance 2 c)
  else if ch == '\r' || ch == '\n' || ch.toNat == 0x85 then (['\n'], c.next)
  else if isBreak ch then ([ch], c.next)
  else ([], c)

/-- A document marker of three equal characters stands here. -/
def atMarker (c : Cursor) (ch : Char) : Bool :=
  c.peek == ch && c.peekAt 1 == ch && c.peekAt 2 == ch && isGap (c.peekAt 3)

/-- The start or the end of a document is marked here. -/
def atDocumentMarker (c : Cursor) : Bool := c.atMarker '-' || c.atMarker '.'

/-- Looks for a document marker: at three characters, and at the one behind them if they are equal. -/
def lookForMarker (c : Cursor) : Cursor :=
  let three := c.rest.take 3
  c.look (if three == ['-', '-', '-'] || three == ['.', '.', '.'] then 4 else 3)

/-- Fails at the cursor. -/
def fail {α : Type} (c : Cursor) (cause : Cause) (activity : Activity) (start : Mark) :
    Except Failure α :=
  .error (.problem {
    cause, mark := c.mark, activity := some (activity, some start), reached := c.seen })

/-- Fails at the cursor without an activity. -/
def failBare {α : Type} (c : Cursor) (cause : Cause) : Except Failure α :=
  .error (.problem { cause, mark := c.mark, reached := c.seen })

end Cursor

end ChangeImpact.Yaml
