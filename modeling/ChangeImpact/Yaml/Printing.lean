import ChangeImpact.Yaml.Tag

/-!
# Writing YAML

`Yaml.text` writes a mapping in block style: keys in order, two columns for each level, sequences not
indented more than their key, and empty collections in brackets. A text is plain where it would be
read back as the same text, else in single quotes, and in double quotes when it holds characters that
must be escaped. Long texts are folded at spaces beyond column 80.
-/

namespace ChangeImpact.Yaml

/-- What has been written, and what the place where it ends admits. -/
structure Sheet where
  /-- The characters written, last first. -/
  written : List Char := []
  column : Nat := 0
  /-- A blank or nothing stands right before. -/
  afterBlank : Bool := true
  /-- Only indentation and indicators that open an entry stand on the line so far. -/
  indenting : Bool := true

namespace Sheet

/-- The column beyond which texts are folded. -/
def width : Nat := 80

def put (s : Sheet) (cs : List Char) : Sheet :=
  { s with written := cs.reverse ++ s.written, column := s.column + cs.length }

def newline (s : Sheet) : Sheet :=
  { written := '\n' :: s.written, column := 0, afterBlank := true, indenting := true }

/-- Moves to a column, on a new line unless the line is only indented so far. -/
def indent (s : Sheet) (column : Nat) : Sheet :=
  let s := if !s.indenting || column < s.column || (s.column == column && !s.afterBlank) then s.newline
    else s
  if s.column < column then
    { s.put (List.replicate (column - s.column) ' ') with afterBlank := true }
  else s

/-- Writes an indicator, with a blank before it if it needs one. -/
def indicator (s : Sheet) (cs : List Char) (needsBlank : Bool) (blankAfter opens : Bool := false) :
    Sheet :=
  let s := if s.afterBlank || !needsBlank then s.put cs else s.put (' ' :: cs)
  { s with afterBlank := blankAfter, indenting := s.indenting && opens }

/-- Marks that text stands here. -/
def afterText (s : Sheet) : Sheet := { s with afterBlank := false, indenting := false }

end Sheet

/-- What the characters of a text allow. -/
structure Shape where
  multiline : Bool
  plain : Bool
  singleQuoted : Bool

/-- Line breaks inside a text that is written. -/
def isTextBreak (c : Char) : Bool :=
  c == '\n' || c.toNat == 0x85 || c.toNat == 0x2028 || c.toNat == 0x2029

/-- Characters that only double quotes can hold. -/
def isSpecial (c : Char) : Bool := !(c == '\n' || (0x20 ≤ c.toNat && c.toNat ≤ 0x7e))

/-- An indicator at a place where a plain text may not have it: `before` says that a blank stands
before, `after` that one stands behind. -/
def isIndicator (first before after : Bool) (c : Char) : Bool :=
  if first then
    "#,[]\x7b\x7d&*!|>'\"%@`".toList.contains c || ((c == '?' || c == ':' || c == '-') && after)
  else (c == ':' && after) || (c == '#' && before)

/-- Some character of a text is an indicator where it stands. -/
def hasIndicator : (first before : Bool) → List Char → Bool
  | _, _, [] => false
  | first, before, c :: cs =>
    isIndicator first before (isGap (cs.headD eof)) c || hasIndicator false (isGap c) cs

/-- Two characters of the given classes stand side by side. -/
def hasAdjacent (p q : Char → Bool) : List Char → Bool
  | [] => false
  | c :: cs => (p c && (cs.head?.map q).getD false) || hasAdjacent p q cs

/-- What a text allows; an empty text is judged by its tag alone. -/
def Shape.of (cs : List Char) : Shape :=
  if cs.isEmpty then { multiline := false, plain := true, singleQuoted := true } else
    let isEdge (c : Char) : Bool := c == ' ' || isTextBreak c
    let edge := isEdge (cs.headD eof) || isEdge (cs.getLastD eof)
    let breakSpace := hasAdjacent isTextBreak (· == ' ') cs
    let spaceBreak := hasAdjacent (· == ' ') isTextBreak cs
    let special := cs.any isSpecial
    let breaks := cs.any isTextBreak
    let marker := ['-', '-', '-'].isPrefixOf cs || ['.', '.', '.'].isPrefixOf cs
    { multiline := breaks
      plain := !(edge || breakSpace || spaceBreak || special || breaks || marker ||
        hasIndicator true true cs)
      singleQuoted := !(breakSpace || spaceBreak || special) }

/-- Runs of a text: maximal runs of spaces, of line breaks, and of anything else. -/
inductive RunKind where
  | spaces
  | breaks
  | text
deriving DecidableEq

def RunKind.of (c : Char) : RunKind :=
  if c == ' ' then .spaces else if isTextBreak c then .breaks else .text

/-- Cuts a text into runs. -/
def runs : List Char → List (RunKind × List Char)
  | [] => []
  | c :: cs =>
    match runs cs with
    | (kind, run) :: more =>
      if kind == RunKind.of c then (kind, c :: run) :: more
      else (RunKind.of c, [c]) :: (kind, run) :: more
    | [] => [(RunKind.of c, [c])]

/-- Writes a plain text. A single space beyond the width becomes a line break. -/
def putPlain (column : Nat) (fold : Bool) (cs : List Char) (s : Sheet) : Sheet :=
  if cs.isEmpty then s else
    let s := (if s.afterBlank then s else s.put [' ']).afterText
    (runs cs).foldl (fun s run =>
      if run.1 == .spaces && run.2.length == 1 && Sheet.width < s.column && fold then
        (s.indent column).afterText
      else s.put run.2) s

/-- Writes the runs of a text in single quotes; `first` is set for the first of them. -/
def putQuotedRuns (column : Nat) (fold : Bool) :
    (first : Bool) → List (RunKind × List Char) → Sheet → Sheet
  | _, [], s => s
  | first, (kind, run) :: more, s =>
    let s := match kind with
      | .spaces =>
        if run.length == 1 && Sheet.width < s.column && fold && !first && !more.isEmpty then
          s.indent column
        else s.put run
      | .breaks =>
        let s := if run.head? == some '\n' then s.newline else s
        let s := run.foldl (fun s c => if c == '\n' then s.newline else
          { s.newline with written := c :: s.written }) s
        s.indent column
      | .text => s.put (run.flatMap fun c => if c == '\'' then ['\'', '\''] else [c])
    putQuotedRuns column fold false more s

/-- Writes a text in single quotes. -/
def putSingleQuoted (column : Nat) (fold : Bool) (cs : List Char) (s : Sheet) : Sheet :=
  let s := s.indicator ['\''] true
  (putQuotedRuns column fold true (runs cs) s).indicator ['\''] false

/-- Escapes by one letter. -/
def letterEscape? : Nat → Option Char
  | 0x00 => some '0'
  | 0x07 => some 'a'
  | 0x08 => some 'b'
  | 0x09 => some 't'
  | 0x0a => some 'n'
  | 0x0b => some 'v'
  | 0x0c => some 'f'
  | 0x0d => some 'r'
  | 0x1b => some 'e'
  | 0x22 => some '"'
  | 0x5c => some '\\'
  | 0x85 => some 'N'
  | 0xa0 => some '_'
  | 0x2028 => some 'L'
  | 0x2029 => some 'P'
  | _ => none

/-- A code point in double quotes, escaped where it must be. -/
def doubleEscape? (p : Text.Point) : Option (List Char) :=
  let n := p.code
  if 0x20 ≤ n && n ≤ 0x7e && n != '"'.toNat && n != '\\'.toNat then none
  else
    let capital (cs : List Char) := cs.map Char.toUpper
    some (match letterEscape? n with
      | some l => ['\\', l]
      | none =>
        if n ≤ 0xff then '\\' :: 'x' :: capital (Text.hex 2 n)
        else if n ≤ 0xffff then '\\' :: 'u' :: capital (Text.hex 4 n)
        else '\\' :: 'U' :: capital (Text.hex 8 n))

/-- Breaks the line inside double quotes; a space at the start of the next line is escaped. -/
def breakDouble (column : Nat) (beforeSpace : Bool) (s : Sheet) : Sheet :=
  let s := ((s.put ['\\']).indent column).afterText
  if beforeSpace then s.put ['\\'] else s

/-- Writes the rest of a text in double quotes; `run` holds characters not written yet, last first,
and `first` is set at the start of the text. A line may break before a space, after an escape and
where a run starts. -/
def putDoubleFrom (column : Nat) (fold : Bool) :
    (first : Bool) → (run : List Char) → List Text.Point → Sheet → Sheet
  | _, run, [], s => s.put run.reverse
  | first, run, p :: ps, s =>
    let inside := fold && !first && !ps.isEmpty
    match doubleEscape? p with
    | some escape =>
      let s := (s.put run.reverse).put escape
      let s := if inside && Sheet.width + 1 < s.column then breakDouble column (ps.head? == some (.char ' ')) s
        else s
      putDoubleFrom column fold false [] ps s
    | none =>
      let c := p.toChar
      if inside && (c == ' ' || run.isEmpty) && Sheet.width < s.column + run.length then
        putDoubleFrom column fold false [c] ps (breakDouble column (c == ' ') (s.put run.reverse))
      else putDoubleFrom column fold false (c :: run) ps s

/-- Writes a text in double quotes. -/
def putDoubleQuoted (column : Nat) (fold : Bool) (cs : List Char) (s : Sheet) : Sheet :=
  let s := s.indicator ['"'] true
  (putDoubleFrom column fold true [] (Text.points cs) s).indicator ['"'] false

/-- A point before the exponent of a number that has none. -/
def pointed (cs : List Char) : List Char :=
  if cs.contains '.' then cs else cs.flatMap fun c => if c == 'e' then ['.', '0', 'e'] else [c]

/-- The text and the tag of a scalar. -/
def scalarForm : Value → Option (List Char × String)
  | .null => some ("null".toList, Tag.null)
  | .bool b => some ((if b then "true" else "false").toList, Tag.bool)
  | .int n => some ((intText n).toList, Tag.int)
  | .float .nan => some (".nan".toList, Tag.float)
  | .float (.infinite s) => some ((if s then "-.inf" else ".inf").toList, Tag.float)
  | .float x => some (pointed x.text.toList, Tag.float)
  | .str s => some (s.toList, Tag.str)
  | .date d => some (d.text.toList, Tag.timestamp)
  | .datetime t => some ((t.textWith " ").toList, Tag.timestamp)
  | .named _ content => scalarForm content
  | _ => none

/-- Writes a scalar; the text of a key is not folded. -/
def putScalar (column : Nat) (isKey : Bool) (cs : List Char) (tag : String) (s : Sheet) : Sheet :=
  let shape := Shape.of cs
  let readsBack := Tag.ofPlain (String.ofList cs) == tag
  if readsBack && shape.plain && !(isKey && (cs.isEmpty || shape.multiline)) then
    putPlain column (!isKey) cs s
  else if shape.singleQuoted && !(isKey && shape.multiline) then putSingleQuoted column (!isKey) cs s
  else putDoubleQuoted column (!isKey) cs s

/-- The name of a tag in short. -/
def shortTag (tag : String) : List Char :=
  '!' :: '!' :: tag.toList.drop (Tag.standard "").length

/-- A key that fits on the line of its value. -/
def isSimpleKey (cs : List Char) (tag : String) : Bool :=
  Text.width cs + (shortTag tag).length < 128 && !cs.isEmpty && !(Shape.of cs).multiline

/-- The entries of a mapping in order of their keys, if these are texts. -/
def sortedEntries (entries : Entries) : Entries :=
  let isText : Value × Value → Bool := fun e => match e.1 with
    | .str _ => true
    | _ => false
  if entries.all isText then entries.mergeSort fun a b => Text.le a.1.text b.1.text else entries

mutual

/-- Puts the entries of every mapping in a value in order, and drops labels. -/
def inOrder : Value → Value
  | .list items => .list (itemsInOrder items)
  | .map entries => .map (sortedEntries (entriesInOrder entries))
  | .named _ content => inOrder content
  | v => v
termination_by structural v => v

def itemsInOrder : List Value → List Value
  | [] => []
  | v :: vs => inOrder v :: itemsInOrder vs
termination_by structural vs => vs

def entryInOrder : Value × Value → Value × Value
  | (k, v) => (k, inOrder v)
termination_by structural e => e

def entriesInOrder : List (Value × Value) → List (Value × Value)
  | [] => []
  | e :: es => entryInOrder e :: entriesInOrder es
termination_by structural es => es

end

mutual

/-- Writes a value below a collection at a column; `inMapping` is set for the value of a key. -/
def putValue (column : Nat) (inMapping : Bool) : Value → Sheet → Sheet
  | .list items, s =>
    if items.isEmpty then (s.indicator ['['] true true).indicator [']'] false
    else putItems (if inMapping && !s.indenting then column else column + 2) items s
  | .map entries, s =>
    if entries.isEmpty then (s.indicator ['\x7b'] true true).indicator ['\x7d'] false
    else putEntries (column + 2) entries s
  | v, s =>
    match scalarForm v with
    | some (cs, tag) => putScalar (column + 2) false cs tag s
    | none => s
termination_by structural v => v

/-- Writes the items of a sequence at a column. -/
def putItems (column : Nat) : List Value → Sheet → Sheet
  | [], s => s
  | v :: vs, s =>
    putItems column vs (putValue column false v ((s.indent column).indicator ['-'] true false true))
termination_by structural vs => vs

/-- Writes an entry of a mapping at a column. -/
def putEntry (column : Nat) : Value × Value → Sheet → Sheet
  | (k, v), s =>
    let s := s.indent column
    match scalarForm k with
    | none => s
    | some (cs, tag) =>
      if isSimpleKey cs tag then
        putValue column true v ((putScalar (column + 2) true cs tag s).indicator [':'] false)
      else
        let s := putScalar (column + 2) false cs tag (s.indicator ['?'] true false true)
        putValue column true v ((s.indent column).indicator [':'] true false true)
termination_by structural e => e

/-- Writes the entries of a mapping at a column. -/
def putEntries (column : Nat) : List (Value × Value) → Sheet → Sheet
  | [], s => s
  | e :: es, s => putEntries column es (putEntry column e s)
termination_by structural es => es

end

/-- A mapping in block style. -/
def text (entries : Entries) : String :=
  let ordered := match inOrder (.map entries) with
    | .map es => es
    | _ => entries
  let s := if ordered.isEmpty then (Sheet.indicator {} ['\x7b'] true true).indicator ['\x7d'] false
    else putEntries 0 ordered {}
  String.ofList (s.indent 0).written.reverse

end ChangeImpact.Yaml
