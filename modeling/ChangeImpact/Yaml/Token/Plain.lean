import ChangeImpact.Yaml.Cursor

/-!
# Plain scalars

A plain scalar has no delimiters: it ends where an indicator starts, at a comment, at a document
marker, or where the text is indented less than its context. A line break inside it is folded to a
space, and further breaks are kept.
-/

namespace ChangeImpact.Yaml

/-- A plain scalar by its pieces, the last one first, the mark of its end, and whether a line ended
after it. -/
structure Plain where
  pieces : List (List Char)
  stop : Mark
  endedLine : Bool

def isFlowIndicator (c : Char) : Bool :=
  c == ',' || c == '[' || c == ']' || c == '\x7b' || c == '\x7d'

/-- The characters of a plain scalar up to the next blank or indicator. -/
def plainRun (inFlow : Bool) : List Char → List Char
  | [] => []
  | c :: rest =>
    let after := rest.headD eof
    if isGap c || (c == ':' && (isGap after || (inFlow && isFlowIndicator after))) ||
        (inFlow && (c == '?' || isFlowIndicator c)) then []
    else c :: plainRun inFlow rest

/-- Spaces and line breaks after the first break; none where a document is marked. -/
def plainBreaks : (fuel : Nat) → List (List Char) → Cursor → Option (List Char) × Cursor
  | 0, read, c => (some (textOf read), c)
  | fuel + 1, read, c =>
    if c.peek == ' ' then plainBreaks fuel read c.next
    else if isBreak c.peek then
      let (br, c) := c.lineBreak
      let c := c.lookForMarker
      if c.atDocumentMarker then (none, c) else plainBreaks fuel (br :: read) c
    else (some (textOf read), c)

/-- What stands between two runs of a plain scalar: what it is folded to, and whether a line ended. -/
def plainSpace (c : Cursor) : List Char × Bool × Cursor :=
  let (blanks, c) := c.span (· == ' ')
  if isBreak c.peek then
    let (br, c) := c.lineBreak
    let c := c.lookForMarker
    if c.atDocumentMarker then ([], true, c) else
      match plainBreaks (c.left + 1) [] c with
      | (none, c) => ([], true, c)
      | (some breaks, c) =>
        let first := if br != ['\n'] then br else if breaks.isEmpty then [' '] else []
        (first ++ breaks, true, c)
  else (blanks, false, c)

/-- Reads on: `read` is the scalar so far, `space` what follows it if it goes on. -/
def plainFrom (indent : Int) (inFlow : Bool) :
    (fuel : Nat) → Plain → (space : List Char) → Cursor → Plain × Cursor
  | 0, read, _, c => (read, c)
  | fuel + 1, read, space, c =>
    if c.peek == '#' then (read, c) else
      let run := plainRun inFlow c.rest
      let c := Cursor.advance run.length c
      let c := if c.peek == ':' then c.look 2 else c
      if run.isEmpty then (read, c) else
        let stop := c.mark
        let (after, endedLine, c) := plainSpace c
        let read := { pieces := run :: space :: read.pieces, stop, endedLine }
        if after.isEmpty || c.peek == '#' || (!inFlow && (c.column : Int) < indent) then (read, c)
        else plainFrom indent inFlow fuel read after c

/-- The plain scalar at the cursor, in a context of the given indentation. -/
def plainScalar (indent : Int) (inFlow : Bool) (c : Cursor) : Plain × Cursor :=
  plainFrom (indent + 1) inFlow (c.left + 1) ⟨[], c.mark, false⟩ [] c

end ChangeImpact.Yaml
