import ChangeImpact.Yaml.Cursor

/-!
# Block scalars

The header of a block scalar says what becomes of the line breaks at its end and may fix its
indentation; otherwise the first line that is not blank fixes it. A literal scalar keeps its line
breaks, a folded one turns single breaks between lines that start with text into spaces.
-/

namespace ChangeImpact.Yaml

/-- What becomes of the line breaks at the end of a block scalar. -/
inductive Chomping where
  | clip
  | keep
  | strip
deriving DecidableEq, Repr

/-- A sign that chooses a chomping. -/
def chompingOf? : Char → Option Chomping
  | '+' => some .keep
  | '-' => some .strip
  | _ => none

/-- A digit that fixes the indentation; zero is refused. -/
def indentDigit (start : Mark) (c : Cursor) : Except Failure (Option Nat × Cursor) :=
  let ch := c.peek
  if '0' ≤ ch && ch ≤ '9' then
    if ch == '0' then c.fail .zeroIndent .blockScalar start
    else .ok (some (ch.toNat - '0'.toNat), c.next)
  else .ok (none, c)

/-- The header of a block scalar: a sign and a digit in either order. -/
def blockHeader (start : Mark) (c : Cursor) : Except Failure (Chomping × Option Nat × Cursor) := do
  let (chomping, width, c) ← match chompingOf? c.peek with
    | some ch => do
      let (width, c) ← indentDigit start c.next
      pure (ch, width, c)
    | none => do
      let (width, c) ← indentDigit start c
      match width, chompingOf? c.peek with
      | some _, some ch => pure (ch, width, c.next)
      | _, _ => pure (.clip, width, c)
  if !isSpaceOrEnd c.peek then c.fail (.notIndicator c.peek) .blockScalar start
  return (chomping, width, c)

/-- The rest of the line after the header. -/
def blockHeaderEnd (start : Mark) (c : Cursor) : Except Failure Cursor :=
  let c := c.skipSpaces.skipComment
  if isLineEnd c.peek then .ok c.lineBreak.2 else c.fail (.notLineEnd c.peek) .blockScalar start

/-- Line breaks, the last one first, and where it ended. -/
structure Breaks where
  pieces : List (List Char)
  stop : Mark

/-- Blank lines before the first line of text, and the widest indentation seen among them and it. -/
def blockIndentation : (fuel : Nat) → Breaks → (widest : Nat) → Cursor → Breaks × Nat × Cursor
  | 0, read, widest, c => (read, widest, c)
  | fuel + 1, read, widest, c =>
    if c.peek == ' ' then
      let c := c.next
      blockIndentation fuel read (max widest c.column) c
    else if isBreak c.peek then
      let (br, c) := c.lineBreak
      blockIndentation fuel ⟨br :: read.pieces, c.mark⟩ widest c
    else (read, widest, c)

/-- Moves over spaces up to the indentation. -/
def skipIndent (indent : Nat) (c : Cursor) : Cursor :=
  Cursor.advance (min (c.rest.takeWhile (· == ' ')).length (indent - c.column)) c

/-- Blank lines between lines of text. -/
def blockBreaks (indent : Nat) : (fuel : Nat) → Breaks → Cursor → Breaks × Cursor
  | 0, read, c => (read, c)
  | fuel + 1, read, c =>
    let c := skipIndent indent c
    if isBreak c.peek then
      let (br, c) := c.lineBreak
      blockBreaks indent fuel ⟨br :: read.pieces, c.mark⟩ c
    else (read, c)

/-- The lines of a block scalar from the cursor on; `breaks` holds the blank lines before it, `last`
the break that ended the line before. The result is the pieces of the text, the last one first, the
last line's break, the blank lines at the end and the cursor. -/
def blockLines (folded : Bool) (indent : Nat) : (fuel : Nat) → (read : List (List Char)) → Breaks →
    (last : List Char) → Cursor → List (List Char) × List Char × Breaks × Cursor
  | 0, read, breaks, last, c => (read, last, breaks, c)
  | fuel + 1, read, breaks, last, c =>
    if c.column == indent && c.peek != eof then
      let startsWithText := !(c.peek == ' ' || c.peek == '\t')
      let (line, c) := c.span fun ch => !isLineEnd ch
      let read := line :: (breaks.pieces ++ read)
      let (br, c) := c.lineBreak
      let (breaks, c) := blockBreaks indent (c.left + 1) ⟨[], c.mark⟩ c
      if c.column == indent && c.peek != eof then
        let joined :=
          if folded && br == ['\n'] && startsWithText && !(c.peek == ' ' || c.peek == '\t') then
            if breaks.pieces.isEmpty then [' '] else []
          else br
        blockLines folded indent fuel (joined :: read) breaks br c
      else (read, br, breaks, c)
    else (read, last, breaks, c)

/-- The block scalar at the cursor in a context of the given indentation, and the mark of its end. -/
def blockScalar (folded : Bool) (indent : Int) (c : Cursor) :
    Except Failure (List Char × Mark × Cursor) := do
  let start := c.mark
  let (chomping, width, c) ← blockHeader start c.next
  let c ← blockHeaderEnd start c
  let least := (max (indent + 1) 1).toNat
  let (breaks, indent, c) := match width with
    | none =>
      let (breaks, widest, c) := blockIndentation (c.left + 1) ⟨[], c.mark⟩ 0 c
      (breaks, max least widest, c)
    | some w =>
      let indent := least + w - 1
      let (breaks, c) := blockBreaks indent (c.left + 1) ⟨[], c.mark⟩ c
      (breaks, indent, c)
  let (read, last, breaks, c) := blockLines folded indent (c.left + 1) [] breaks [] c
  let ending := match chomping with
    | .strip => []
    | .clip => last
    | .keep => last ++ textOf breaks.pieces
  return (textOf (ending :: read), breaks.stop, c)

end ChangeImpact.Yaml
