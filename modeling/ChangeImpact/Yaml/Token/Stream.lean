import ChangeImpact.Yaml.Token
import ChangeImpact.Yaml.Token.Block
import ChangeImpact.Yaml.Token.Plain

/-!
# The tokens of a text, on demand

A stream yields tokens one at a time and reads no further than it must. A scalar that could turn out
to be a key is held back until the colon after it is found or ruled out: then the tokens that open
the mapping and the key are placed before it. Nesting of blocks follows the columns at which they
start; inside brackets and braces indentation has no meaning.
-/

namespace ChangeImpact.Yaml

/-- A token that may turn out to be a key. -/
structure PossibleKey where
  /-- Its number among all tokens. -/
  number : Nat
  /-- It stands where only a key may. -/
  required : Bool
  index : Nat
  mark : Mark

/-- The text left to read and the tokens read from it and not taken yet. -/
structure Stream where
  cursor : Cursor
  finished : Bool := false
  flowLevel : Int := 0
  /-- How many tokens have been taken. -/
  taken : Nat := 0
  queue : List Token := []
  /-- The column of the innermost block, `-1` outside of all. -/
  indent : Int := -1
  /-- The columns of the blocks around it. -/
  outer : List Int := []
  keyAllowed : Bool := true
  /-- Possible keys by level of brackets. -/
  keys : List (Int × PossibleKey) := []

namespace Stream

def inFlow (s : Stream) : Bool := s.flowLevel != 0

def push (s : Stream) (kind : TokenKind) (start stop : Mark) : Stream :=
  { s with queue := s.queue ++ [⟨kind, start, stop⟩] }

/-- A token without text. -/
def pushEmpty (s : Stream) (kind : TokenKind) : Stream := s.push kind s.cursor.mark s.cursor.mark

/-- A token of the next `width` characters. -/
def pushFixed (s : Stream) (kind : TokenKind) (width : Nat) : Stream :=
  let after := Cursor.advance width s.cursor
  { s.push kind s.cursor.mark after.mark with cursor := after }

/-- A possible key that was no key; where only a key may stand this is a problem. -/
def refuse {α : Type} (s : Stream) (k : PossibleKey) : Except Failure α :=
  s.cursor.fail .noColon .simpleKey k.mark

/-- A key and its colon stand on one line, at most 1024 characters apart. -/
def isStale (s : Stream) (k : PossibleKey) : Bool :=
  k.mark.line != s.cursor.line || 1024 < s.cursor.index - k.index

/-- Drops the possible keys that can be keys no more. -/
def dropStale (s : Stream) : Except Failure Stream :=
  match s.keys.find? fun k => s.isStale k.2 && k.2.required with
  | some k => s.refuse k.2
  | none => .ok { s with keys := s.keys.filter fun k => !s.isStale k.2 }

/-- Drops the possible key of the present level. -/
def dropKey (s : Stream) : Except Failure Stream :=
  match s.keys.find? fun k => k.1 == s.flowLevel && k.2.required with
  | some k => s.refuse k.2
  | none => .ok { s with keys := s.keys.filter fun k => k.1 != s.flowLevel }

/-- Notes that the next token may be a key. -/
def noteKey (s : Stream) : Except Failure Stream := do
  if !s.keyAllowed then return s
  let required := !s.inFlow && s.indent == s.cursor.column
  let s ← s.dropKey
  let k : PossibleKey :=
    { number := s.taken + s.queue.length, required, index := s.cursor.index, mark := s.cursor.mark }
  return { s with keys := s.keys ++ [(s.flowLevel, k)] }

/-- Ends the blocks that start to the right of a column. -/
def unwindFrom (column : Int) : (outer : List Int) → Stream → Stream
  | [], s => s
  | next :: outer, s =>
    if column < s.indent then
      unwindFrom column outer { s.pushEmpty .blockEnd with indent := next, outer }
    else s

def unwind (s : Stream) (column : Int) : Stream :=
  if s.inFlow then s else unwindFrom column s.outer s

/-- Starts a block at a column, if it is right of the innermost block. -/
def openBlock (s : Stream) (column : Int) : Option Stream :=
  if s.indent < column then some { s with outer := s.indent :: s.outer, indent := column } else none

/-- Moves over spaces, comments and line breaks. A key may start on a new line. -/
def skipBlanks : (fuel : Nat) → Stream → Stream
  | 0, s => s
  | fuel + 1, s =>
    let c := s.cursor.skipSpaces.skipComment
    match c.lineBreak with
    | ([], _) => { s with cursor := c }
    | (_, c) => skipBlanks fuel { s with cursor := c, keyAllowed := s.keyAllowed || !s.inFlow }

/-- Moves to the next token; a byte order mark may stand first. -/
def toNextToken (s : Stream) : Stream :=
  let c := s.cursor
  let c := if c.index == 0 && c.peek == byteOrderMark then c.next else c
  skipBlanks (c.left + 1) { s with cursor := c }

/-- The token at the start of a line at column zero ends all blocks. -/
def endBlocks (s : Stream) : Except Failure Stream := do
  let s ← (s.unwind (-1)).dropKey
  return { s with keyAllowed := false }

def fetchEnd (s : Stream) : Except Failure Stream := do
  let s ← s.endBlocks
  return { s.pushEmpty .streamEnd with keys := [], finished := true }

def fetchDirective (s : Stream) : Except Failure Stream := do
  let s ← s.endBlocks
  let (d, stop, after) ← Yaml.directive s.cursor
  return { s.push (.directive d) s.cursor.mark stop with cursor := after }

def fetchMarker (s : Stream) (kind : TokenKind) : Except Failure Stream := do
  let s ← s.endBlocks
  return s.pushFixed kind 3

def fetchFlowStart (s : Stream) (kind : TokenKind) : Except Failure Stream := do
  let s ← s.noteKey
  return { s.pushFixed kind 1 with flowLevel := s.flowLevel + 1, keyAllowed := true }

def fetchFlowEnd (s : Stream) (kind : TokenKind) : Except Failure Stream := do
  let s ← s.dropKey
  return { s.pushFixed kind 1 with flowLevel := s.flowLevel - 1, keyAllowed := false }

def fetchFlowEntry (s : Stream) : Except Failure Stream := do
  let s ← s.dropKey
  return { s.pushFixed .flowEntry 1 with keyAllowed := true }

/-- Starts a block at the cursor outside of brackets, where a key would be allowed. -/
def openHere (s : Stream) (kind : TokenKind) (refusal : Cause) : Except Failure Stream :=
  if s.inFlow then .ok s
  else if !s.keyAllowed then s.cursor.failBare refusal
  else
    match s.openBlock s.cursor.column with
    | some s => .ok (s.pushEmpty kind)
    | none => .ok s

def fetchBlockEntry (s : Stream) : Except Failure Stream := do
  let s ← s.openHere .blockSequenceStart .noSequenceHere
  let s ← { s with keyAllowed := true }.dropKey
  return s.pushFixed .blockEntry 1

def fetchKey (s : Stream) : Except Failure Stream := do
  let s ← s.openHere .blockMappingStart .noKeyHere
  let s ← { s with keyAllowed := !s.inFlow }.dropKey
  return s.pushFixed .key 1

/-- Places tokens before the one that turned out to be a key. -/
def insertKey (s : Stream) (k : PossibleKey) : Stream :=
  let (before, after) := s.queue.splitAt (k.number - s.taken)
  let opened := if s.inFlow then none else s.openBlock k.mark.column
  match opened with
  | some s =>
    { s with queue := before ++ [⟨.blockMappingStart, k.mark, k.mark⟩, ⟨.key, k.mark, k.mark⟩] ++ after }
  | none => { s with queue := before ++ [⟨.key, k.mark, k.mark⟩] ++ after }

def fetchValue (s : Stream) : Except Failure Stream := do
  match s.keys.find? fun k => k.1 == s.flowLevel with
  | some k =>
    let s := { s with keys := s.keys.filter fun k => k.1 != s.flowLevel }
    return { s.insertKey k.2 with keyAllowed := false }.pushFixed .value 1
  | none =>
    let s ← s.openHere .blockMappingStart .noValueHere
    let s ← { s with keyAllowed := !s.inFlow }.dropKey
    return s.pushFixed .value 1

/-- Notes a possible key and adds the token that is read at the cursor. -/
def fetchNoted (s : Stream) (read : Cursor → Except Failure (TokenKind × Cursor)) :
    Except Failure Stream := do
  let s ← s.noteKey
  let (kind, after) ← read s.cursor
  return { s.push kind s.cursor.mark after.mark with cursor := after, keyAllowed := false }

def fetchPlain (s : Stream) : Except Failure Stream := do
  let s ← s.noteKey
  let (p, after) := plainScalar s.indent s.inFlow s.cursor
  return { s.push (.scalar (String.ofList (textOf p.pieces)) true) s.cursor.mark p.stop with
    cursor := after, keyAllowed := p.endedLine }

def fetchBlockScalar (s : Stream) (folded : Bool) : Except Failure Stream := do
  let s ← { s with keyAllowed := true }.dropKey
  let (text, stop, after) ← blockScalar folded s.indent s.cursor
  return { s.push (.scalar (String.ofList text) false) s.cursor.mark stop with cursor := after }

/-- A character that may start a plain scalar. -/
def startsPlain (s : Stream) : Bool :=
  let c := s.cursor.peek
  !(isGap c || "-?:,[]\x7b\x7d#&*!|>'\"%@`".toList.contains c) ||
    (!isGap (s.cursor.peekAt 1) && (c == '-' || (!s.inFlow && (c == '?' || c == ':'))))

/-- Looks as far ahead as it takes to tell what starts at the cursor. -/
def lookAhead (s : Stream) : Cursor :=
  let c := s.cursor
  let ch := c.peek
  let c := if c.column == 0 && (ch == '-' || ch == '.') then c.lookForMarker else c
  let atIndicator := ch == '-' || ch == '@' || ch == '`' || ch == '\t' ||
    (ch == '%' && c.column != 0) ||
    (if s.inFlow then ch == '|' || ch == '>' else ch == '?' || ch == ':')
  if atIndicator then c.look 2 else c

/-- Reads the next token, with the tokens for blocks that end before it. -/
def fetch (s : Stream) : Except Failure Stream := do
  let s ← s.toNextToken.dropStale
  let s := { s.unwind s.cursor.column with cursor := s.lookAhead }
  let c := s.cursor
  let ch := c.peek
  let gapAfter := isGap (c.peekAt 1)
  if ch == eof then s.fetchEnd
  else if ch == '%' && c.column == 0 then s.fetchDirective
  else if c.column == 0 && c.atMarker '-' then s.fetchMarker .documentStart
  else if c.column == 0 && c.atMarker '.' then s.fetchMarker .documentEnd
  else if ch == '[' then s.fetchFlowStart .flowSequenceStart
  else if ch == '\x7b' then s.fetchFlowStart .flowMappingStart
  else if ch == ']' then s.fetchFlowEnd .flowSequenceEnd
  else if ch == '\x7d' then s.fetchFlowEnd .flowMappingEnd
  else if ch == ',' then s.fetchFlowEntry
  else if ch == '-' && gapAfter then s.fetchBlockEntry
  else if ch == '?' && (s.inFlow || gapAfter) then s.fetchKey
  else if ch == ':' && (s.inFlow || gapAfter) then s.fetchValue
  else if ch == '*' then s.fetchNoted fun c => do
    let (name, after) ← labelName .aliasName c
    return (.aliasName name, after)
  else if ch == '&' then s.fetchNoted fun c => do
    let (name, after) ← labelName .anchorName c
    return (.anchorName name, after)
  else if ch == '!' then s.fetchNoted fun c => do
    let (tag, after) ← tagText c
    return (.tag tag, after)
  else if ch == '|' && !s.inFlow then s.fetchBlockScalar false
  else if ch == '>' && !s.inFlow then s.fetchBlockScalar true
  else if ch == '\'' || ch == '"' then s.fetchNoted fun c => do
    let (text, after) ← quotedScalar (ch == '"') c
    return (.scalar (String.ofList text) false, after)
  else if s.startsPlain then s.fetchPlain
  else
    .error (.problem {
      cause := .cannotStart ch, mark := c.mark, activity := some (.nextToken, none)
      reached := c.seen })

/-- The first token is held back as long as it may be a key. -/
def mustFetch (s : Stream) : Bool :=
  !s.finished && (s.queue.isEmpty || s.keys.any fun k => k.2.number == s.taken)

/-- Fetches until the first token is known. -/
def prepareFrom : (fuel : Nat) → Stream → Except Failure Stream
  | 0, s => .ok s
  | fuel + 1, s => do
    if s.finished then return s
    let s ← if s.queue.isEmpty then pure s else s.dropStale
    if s.mustFetch then prepareFrom fuel (← s.fetch) else return s

def prepare (s : Stream) : Except Failure Stream := prepareFrom (s.cursor.left + 2) s

/-- The token after the last one of a text. -/
def lastToken (s : Stream) : Token := ⟨.streamEnd, s.cursor.mark, s.cursor.mark⟩

/-- The first token, which stays in the stream. -/
def peek (s : Stream) : Except Failure (Token × Stream) := do
  let s ← s.prepare
  return (s.queue.head?.getD s.lastToken, s)

/-- Takes the first token away. -/
def drop (s : Stream) : Stream := { s with queue := s.queue.tail, taken := s.taken + 1 }

/-- The stream of a text. -/
def ofText (text : List Char) : Stream := { cursor := { rest := text } }

end Stream

end ChangeImpact.Yaml
