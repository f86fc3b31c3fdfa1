import ChangeImpact.Yaml.Token.Quoted

/-!
# Anchors, tags and directives

The words that stand before a node or a document: names of anchors and aliases, tags made of a
handle and a suffix, and directives that set the version or declare a tag handle.
-/

namespace ChangeImpact.Yaml

/-- A character of a name. -/
def isWord (c : Char) : Bool :=
  ('0' ≤ c && c ≤ '9') || ('A' ≤ c && c ≤ 'Z') || ('a' ≤ c && c ≤ 'z') || c == '-' || c == '_'

/-- A character of a tag. -/
def isUri (c : Char) : Bool := isWord c || ";/?:@&=+$,.!~*'()[]%".toList.contains c

/-- The name of an anchor or an alias, after its indicator. -/
def labelName (activity : Activity) (c : Cursor) : Except Failure (String × Cursor) := do
  let start := c.mark
  let (name, c) := c.next.span isWord
  if name.isEmpty then c.fail (.notWord c.peek) activity start
  let ch := c.peek
  if !(isGap ch || "?:,]\x7d%@`".toList.contains ch) then c.fail (.notWord ch) activity start
  return (String.ofList name, c)

/-- The bytes of a run of percent escapes, after those that are read, the last one first. -/
def uriBytes (activity : Activity) (start : Mark) :
    (fuel : Nat) → List UInt8 → Cursor → Except Failure (List UInt8 × Cursor)
  | 0, read, c => .ok (read.reverse, c)
  | fuel + 1, read, c =>
    if c.peek == '%' then
      let c := c.next
      let digits := (c.rest.take 2).takeWhile Text.isHexDigit
      if digits.length < 2 then
        (c.look (digits.length + 1)).fail (.notUriHex (c.peekAt digits.length)) activity start
      else uriBytes activity start fuel (UInt8.ofNat (hexValue digits) :: read) (Cursor.advance 2 c)
    else .ok (read.reverse, c)

/-- The characters of a tag from the cursor on. -/
def uriFrom (activity : Activity) (start : Mark) :
    (fuel : Nat) → List (List Char) → Cursor → Except Failure (List Char × Cursor)
  | 0, read, c => .ok (textOf read, c)
  | fuel + 1, read, c =>
    let (run, c) := c.span fun ch => isUri ch && ch != '%'
    let read := run :: read
    if c.peek == '%' then do
      let place := c.mark
      let (bytes, c) ← uriBytes activity start (c.left + 1) [] c
      match Text.Utf8.decode bytes with
      | .ok cs => uriFrom activity start fuel (cs :: read) c
      | .error f =>
        .error (.problem {
          cause := .badUri f, mark := place, activity := some (activity, some start)
          reached := c.seen })
    else .ok (textOf read, c)

/-- A tag or its prefix. At least one character must stand here. -/
def uri (activity parsing : Activity) (start : Mark) (c : Cursor) :
    Except Failure (String × Cursor) := do
  if !isUri c.peek then c.fail (.notUri c.peek) parsing start
  let (cs, c) ← uriFrom activity start (c.left + 1) [] c
  return (String.ofList cs, c)

/-- A tag handle: an exclamation mark, or a word between two. -/
def tagHandle (activity : Activity) (start : Mark) (c : Cursor) :
    Except Failure (String × Cursor) := do
  if c.peek != '!' then c.fail (.notHandle c.peek) activity start
  if c.peekAt 1 == ' ' then return ("!", c.next)
  let (word, after) := c.next.span isWord
  if after.peek != '!' then after.fail (.notHandle after.peek) activity start
  return (String.ofList ('!' :: word ++ ['!']), after.next)

/-- A tag as written: a suffix, with a handle unless it is complete. -/
structure TagText where
  handle : Option String
  suffix : String
deriving DecidableEq, Repr

/-- The tag at the cursor. -/
def tagText (c : Cursor) : Except Failure (TagText × Cursor) := do
  let start := c.mark
  let (tag, c) ← show Except Failure (TagText × Cursor) from
    if c.peekAt 1 == '<' then do
      let (suffix, c) ← uri .tag .tagUri start (Cursor.advance 2 c)
      if c.peek != '>' then c.fail (.notClosed c.peek) .tagUri start
      return (⟨none, suffix⟩, c.next)
    else if isGap (c.peekAt 1) then return (⟨none, "!"⟩, c.next)
    else do
      let ahead := (c.rest.tail.takeWhile fun ch => !isSpaceOrEnd ch && ch != '!').length
      let c := c.look (ahead + 2)
      let (handle, c) ← if c.peekAt (ahead + 1) == '!' then tagHandle .tag start c
        else pure ("!", c.next)
      let (suffix, c) ← uri .tag .tagUri start c
      return (⟨some handle, suffix⟩, c)
  if !isSpaceOrEnd c.peek then c.fail (.notSpace c.peek) .tag start
  return (tag, c)

/-- A directive. Those with other names have no effect. -/
inductive Directive where
  | version (major minor : Nat)
  | handle (handle tagPrefix : String)
  | other
deriving DecidableEq, Repr

/-- A number of the version. -/
def versionNumber (start : Mark) (c : Cursor) : Except Failure (Nat × Cursor) := do
  let (digits, after) := c.span fun ch => '0' ≤ ch && ch ≤ '9'
  if digits.isEmpty then c.fail (.notDigit c.peek) .directive start
  if Numeral.mostDigits < digits.length then
    .error (.fault (.value (.tooManyDigits digits.length)) after.seen)
  return ((Numeral.digits? 10 digits).getD 0, after)

/-- The version of the format. -/
def versionDirective (start : Mark) (c : Cursor) : Except Failure (Directive × Cursor) := do
  let (major, c) ← versionNumber start c.skipSpaces
  if c.peek != '.' then c.fail (.notDigitOrPoint c.peek) .directive start
  let (minor, c) ← versionNumber start c.next
  if !isSpaceOrEnd c.peek then c.fail (.notDigitOrSpace c.peek) .directive start
  return (.version major minor, c)

/-- The declaration of a tag handle. -/
def handleDirective (start : Mark) (c : Cursor) : Except Failure (Directive × Cursor) := do
  let (handle, c) ← tagHandle .directive start c.skipSpaces
  if c.peek != ' ' then c.fail (.notSpace c.peek) .directive start
  let (tagPrefix, c) ← uri .directive .directiveUri start c.skipSpaces
  if !isSpaceOrEnd c.peek then c.fail (.notSpace c.peek) .directive start
  return (.handle handle tagPrefix, c)

/-- The directive at the cursor and the mark of its end. -/
def directive (c : Cursor) : Except Failure (Directive × Mark × Cursor) := do
  let start := c.mark
  let (name, c) := c.next.span isWord
  if name.isEmpty || !isSpaceOrEnd c.peek then c.fail (.notWord c.peek) .directive start
  let (d, stop, c) ← show Except Failure (Directive × Mark × Cursor) from
    match String.ofList name with
    | "YAML" => do
      let (d, c) ← versionDirective start c
      return (d, c.mark, c)
    | "TAG" => do
      let (d, c) ← handleDirective start c
      return (d, c.mark, c)
    | _ => return (.other, c.mark, c.skip fun ch => !isLineEnd ch)
  let c := c.skipSpaces.skipComment
  if !isLineEnd c.peek then c.fail (.notLineEnd c.peek) .directive start
  return (d, stop, c.lineBreak.2)

end ChangeImpact.Yaml
