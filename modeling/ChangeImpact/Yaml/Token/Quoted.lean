import ChangeImpact.Number.Numeral
import ChangeImpact.Yaml.Cursor

/-!
# Quoted scalars

In single quotes only the quote is escaped, by doubling it; in double quotes a backslash escapes.
A line break inside either is folded to a space and further breaks are kept.
-/

namespace ChangeImpact.Yaml

/-- Escapes of one character. -/
def quotedEscape? : Char → Option Nat
  | '0' => some 0x00
  | 'a' => some 0x07
  | 'b' => some 0x08
  | 't' => some 0x09
  | '\t' => some 0x09
  | 'n' => some 0x0a
  | 'v' => some 0x0b
  | 'f' => some 0x0c
  | 'r' => some 0x0d
  | 'e' => some 0x1b
  | ' ' => some 0x20
  | '"' => some 0x22
  | '\\' => some 0x5c
  | '/' => some 0x2f
  | 'N' => some 0x85
  | '_' => some 0xa0
  | 'L' => some 0x2028
  | 'P' => some 0x2029
  | _ => none

/-- The number of hexadecimal digits of an escape by code point. -/
def quotedCodeWidth? : Char → Option Nat
  | 'x' => some 2
  | 'u' => some 4
  | 'U' => some 8
  | _ => none

/-- The number that hexadecimal digits write. -/
def hexValue (cs : List Char) : Nat := (Numeral.digits? 16 cs).getD 0

/-- The text of a code point, whose digits have been looked at. -/
def escapedPoint (c : Cursor) (code : Nat) : Except Failure (List Char) :=
  if 0x80000000 ≤ code then .error (.fault (.overflow .codePoint) c.seen)
  else if 0x110000 ≤ code then .error (.fault (.value .codePoint) c.seen)
  else .ok (Text.Point.ofCode code).text

/-- Blanks and breaks at the start of lines inside quotes; only the breaks are kept. -/
def quotedBreaks (start : Mark) :
    (fuel : Nat) → List (List Char) → Cursor → Except Failure (List Char × Cursor)
  | 0, read, c => .ok (textOf read, c)
  | fuel + 1, read, c =>
    let c := c.lookForMarker
    if c.atDocumentMarker then c.fail .documentSeparator .quoted start else
      let c := c.skip fun ch => ch == ' ' || ch == '\t'
      if isBreak c.peek then
        let (br, c) := c.lineBreak
        quotedBreaks start fuel (br :: read) c
      else .ok (textOf read, c)

/-- What a backslash at the cursor stands for. -/
def quotedBackslash (start : Mark) (c : Cursor) : Except Failure (List Char × Cursor) :=
  let c := c.next
  let ch := c.peek
  match quotedEscape? ch with
  | some code => .ok ([Char.ofNat code], c.next)
  | none =>
    match quotedCodeWidth? ch with
    | some width => do
      let c := c.next
      let digits := (c.rest.take width).takeWhile Text.isHexDigit
      if digits.length < width then
        (c.look (digits.length + 1)).fail (.notHex width (c.peekAt digits.length)) .doubleQuoted start
      return (← escapedPoint (c.look width) (hexValue digits), Cursor.advance width c)
    | none =>
      if isBreak ch then
        let (_, c) := c.lineBreak
        quotedBreaks start (c.left + 1) [] c
      else c.fail (.unknownEscape ch) .doubleQuoted start

/-- The pieces up to the next blank or the closing quote, before those that are read. -/
def quotedRun (double : Bool) (start : Mark) :
    (fuel : Nat) → List (List Char) → Cursor → Except Failure (List (List Char) × Cursor)
  | 0, read, c => .ok (read, c)
  | fuel + 1, read, c =>
    let (run, c) := c.span fun ch => !(ch == '\'' || ch == '"' || ch == '\\' || isGap ch)
    let read := run :: read
    let ch := c.peek
    if !double && ch == '\'' && c.peekAt 1 == '\'' then
      quotedRun double start fuel (['\''] :: read) (Cursor.advance 2 c)
    else if (double && ch == '\'') || (!double && (ch == '"' || ch == '\\')) then
      quotedRun double start fuel ([ch] :: read) c.next
    else if double && ch == '\\' then do
      let (more, c) ← quotedBackslash start c
      quotedRun double start fuel (more :: read) c
    else .ok (read, c)

/-- The blanks and breaks between two runs, folded. -/
def quotedSpace (start : Mark) (c : Cursor) : Except Failure (List Char × Cursor) :=
  let (blanks, c) := c.span fun ch => ch == ' ' || ch == '\t'
  if c.peek == eof then c.fail .endOfStream .quoted start
  else if isBreak c.peek then do
    let (br, c) := c.lineBreak
    let (breaks, c) ← quotedBreaks start (c.left + 1) [] c
    let first := if br != ['\n'] then br else if breaks.isEmpty then [' '] else []
    return (first ++ breaks, c)
  else .ok (blanks, c)

/-- Reads on up to the closing quote. -/
def quotedFrom (double : Bool) (start : Mark) :
    (fuel : Nat) → List (List Char) → Cursor → Except Failure (List Char × Cursor)
  | 0, read, c => .ok (textOf read, c)
  | fuel + 1, read, c => do
    if c.peek == (if double then '"' else '\'') then return (textOf read, c.next)
    let (space, c) ← quotedSpace start c
    let (read, c) ← quotedRun double start (c.left + 1) (space :: read) c
    quotedFrom double start fuel read c

/-- The quoted scalar at the cursor. -/
def quotedScalar (double : Bool) (c : Cursor) : Except Failure (List Char × Cursor) := do
  let start := c.mark
  let (read, c) ← quotedRun double start (c.left + 1) [] c.next
  quotedFrom double start (c.left + 1) read c

end ChangeImpact.Yaml
