import ChangeImpact.Yaml.Node

/-!
# Nodes from tokens

The grammar of documents: block and flow collections, properties of nodes, and the marks of
documents. `Node.ofText?` reads the only document of a text, if there is one. Every function reads
no token beyond those that decide its result, so the first problem of a text is the one reported.
-/

namespace ChangeImpact.Yaml

/-- The tokens left, the declared tag handles, the anchors seen, the number of the next node and the
number of collections around it. -/
structure Reading where
  stream : Stream
  handles : List (String × String) := []
  anchors : List (String × Node) := []
  next : Nat := 0
  level : Nat := 0

namespace Reading

def peek (r : Reading) : Except Failure (Token × Reading) := do
  let (t, s) ← r.stream.peek
  return (t, { r with stream := s })

def drop (r : Reading) : Reading := { r with stream := r.stream.drop }

/-- The number for a new node. -/
def fresh (r : Reading) : Nat × Reading := (r.next, { r with next := r.next + 1 })

/-- Collections nest at most this deep. -/
def deepestLevel : Nat := 488

/-- Enters a new collection, which gets a number. -/
def enter (r : Reading) : Except Failure (Nat × Reading) :=
  if r.level < deepestLevel then .ok (r.next, { r with next := r.next + 1, level := r.level + 1 })
  else .error (.fault .endless r.stream.cursor.seen)

/-- Leaves the innermost collection. -/
def leave (r : Reading) : Reading := { r with level := r.level - 1 }

/-- The node of an empty place. -/
def empty (r : Reading) (m : Mark) : Node × Reading :=
  let (number, r) := r.fresh
  (.scalar { number, tag := Tag.null, start := m, stop := m } "", r)

/-- Fails with a problem at a mark. -/
def fail {α : Type} (r : Reading) (cause : Cause) (mark : Mark)
    (activity : Option (Activity × Option Mark) := none) : Except Failure α :=
  .error (.problem { cause, mark, activity, reached := r.stream.cursor.seen })

def defaultHandles : List (String × String) := [("!", "!"), ("!!", Tag.standard "")]

end Reading

/-- What stands before the content of a node. -/
structure Properties where
  anchor : Option String := none
  tag : Option TagText := none
  tagMark : Mark := default
  /-- The marks of both ends, if there are any properties. -/
  marks : Option (Mark × Mark) := none

/-- Adds an anchor. -/
def Properties.addAnchor (p : Properties) (name : String) (t : Token) : Properties :=
  { p with anchor := some name, marks := some ((p.marks.map (·.1)).getD t.start, t.stop) }

/-- Adds a tag. -/
def Properties.addTag (p : Properties) (text : TagText) (t : Token) : Properties :=
  { p with
    tag := some text
    tagMark := t.start
    marks := some ((p.marks.map (·.1)).getD t.start, t.stop) }

/-- An anchor and a tag in either order, each at most once. -/
def properties (r : Reading) : Except Failure (Properties × Reading) := do
  let (t, r) ← r.peek
  match t.kind with
  | .anchorName name =>
    let p := Properties.addAnchor {} name t
    let (t, r) ← r.drop.peek
    match t.kind with
    | .tag text => return (p.addTag text t, r.drop)
    | _ => return (p, r)
  | .tag text =>
    let p := Properties.addTag {} text t
    let (t, r) ← r.drop.peek
    match t.kind with
    | .anchorName name => return (p.addAnchor name t, r.drop)
    | _ => return (p, r)
  | _ => return ({}, r)

/-- The tag that the properties give, with its handle replaced by the declared prefix. -/
def Properties.fullTag? (p : Properties) (r : Reading) : Except Failure (Option String) :=
  match p.tag with
  | none => .ok none
  | some ⟨none, suffix⟩ => .ok (some suffix)
  | some ⟨some handle, suffix⟩ =>
    match r.handles.find? fun h => h.1 == handle with
    | some h => .ok (some (h.2 ++ suffix))
    | none => r.fail (.unknownHandle handle) p.tagMark (some (.node, p.marks.map (·.1)))

/-- A tag of its own, or a default. -/
def tagOr (own : Option String) (default : String) : String :=
  match own with
  | some t => if t == "!" then default else t
  | none => default

/-- The tag of a scalar: its own, that of its form, or text when it is not plain. -/
def scalarTag (own : Option String) (text : String) (plain : Bool) : String :=
  match own with
  | none => if plain then Tag.ofPlain text else Tag.str
  | some t => if t == "!" then Tag.ofPlain text else t

/-- An anchor may be set once. -/
def checkAnchor (r : Reading) (p : Properties) (start : Mark) : Except Failure Unit :=
  match p.anchor with
  | none => .ok ()
  | some name =>
    match r.anchors.find? fun a => a.1 == name with
    | none => .ok ()
    | some a => r.fail .secondAnchor start (some (.firstAnchor name, some a.2.start))

/-- Sets the node of an anchor. -/
def Reading.setAnchor (r : Reading) (p : Properties) (n : Node) : Reading :=
  match p.anchor with
  | none => r
  | some name => { r with anchors := (name, n) :: r.anchors.filter fun a => a.1 != name }

/-- A problem with a token inside a collection that started at a mark. -/
def unexpected {α : Type} (activity : Activity) (opened : Mark) (cause : Cause) (t : Token)
    (r : Reading) : Except Failure α :=
  r.fail cause t.start (some (activity, some opened))

mutual

/-- A node. Collections in block style are allowed in a block, and a sequence that is not indented
more than its key where `loose` is set. -/
def node (block loose : Bool) : (fuel : Nat) → Reading → Except Failure (Node × Reading)
  | 0, r => r.stream.cursor.failBare .endOfStream
  | fuel + 1, r => do
    let (t, r) ← r.peek
    match t.kind with
    | .aliasName name =>
      match r.anchors.find? fun a => a.1 == name with
      | some a => return (a.2, r.drop)
      | none => r.fail (.unknownAlias name) t.start
    | _ =>
      let (p, r) ← properties r
      let own ← p.fullTag? r
      let (t, r) ← r.peek
      let start := (p.marks.map (·.1)).getD t.start
      match t.kind with
      | .scalar text plain =>
        checkAnchor r p start
        let (number, r) := r.fresh
        let n := Node.scalar { number, tag := scalarTag own text plain, start, stop := t.stop } text
        return (n, r.drop.setAnchor p n)
      | .flowSequenceStart =>
        checkAnchor r p start
        let (number, r) ← r.enter
        let r := r.setAnchor p (.around number start)
        let (items, stop, r) ← flowItems t.start true fuel [] r.drop
        let n := Node.sequence { number, tag := tagOr own Tag.seq, start, stop } items
        return (n, r.leave.setAnchor p n)
      | .flowMappingStart =>
        checkAnchor r p start
        let (number, r) ← r.enter
        let r := r.setAnchor p (.around number start)
        let (entries, stop, r) ← flowEntries t.start true fuel [] r.drop
        let n := Node.mapping { number, tag := tagOr own Tag.map, start, stop } entries
        return (n, r.leave.setAnchor p n)
      | .blockEntry =>
        if loose then
          checkAnchor r p start
          let (number, r) ← r.enter
          let r := r.setAnchor p (.around number start)
          let (items, stop, r) ← looseItems fuel [] r
          let n := Node.sequence { number, tag := tagOr own Tag.seq, start, stop } items
          return (n, r.leave.setAnchor p n)
        else noContent block p start t r
      | .blockSequenceStart =>
        if block then
          checkAnchor r p start
          let (number, r) ← r.enter
          let r := r.setAnchor p (.around number start)
          let (items, stop, r) ← blockItems t.start fuel [] r.drop
          let n := Node.sequence { number, tag := tagOr own Tag.seq, start, stop } items
          return (n, r.leave.setAnchor p n)
        else noContent block p start t r
      | .blockMappingStart =>
        if block then
          checkAnchor r p start
          let (number, r) ← r.enter
          let r := r.setAnchor p (.around number start)
          let (entries, stop, r) ← blockEntries t.start fuel [] r.drop
          let n := Node.mapping { number, tag := tagOr own Tag.map, start, stop } entries
          return (n, r.leave.setAnchor p n)
        else noContent block p start t r
      | _ => noContent block p start t r

/-- A place without content: an empty scalar if there are properties, else a problem. -/
def noContent (block : Bool) (p : Properties) (start : Mark) (t : Token) (r : Reading) :
    Except Failure (Node × Reading) :=
  match p.marks with
  | none => unexpected (if block then .blockNode else .flowNode) start (.noContent t.kind.name) t r
  | some (_, stop) => do
    let own ← p.fullTag? r
    checkAnchor r p start
    let (number, r) := r.fresh
    let n := Node.scalar { number, tag := scalarTag own "" true, start, stop } ""
    return (n, r.setAnchor p n)

/-- The items of a block sequence. -/
def blockItems (opened : Mark) :
    (fuel : Nat) → List Node → Reading → Except Failure (List Node × Mark × Reading)
  | 0, _, r => r.stream.cursor.failBare .endOfStream
  | fuel + 1, read, r => do
    let (t, r) ← r.peek
    match t.kind with
    | .blockEntry =>
      let (next, r) ← r.drop.peek
      match next.kind with
      | .blockEntry | .blockEnd =>
        let (n, r) := r.empty t.stop
        blockItems opened fuel (n :: read) r
      | _ =>
        let (n, r) ← node true false fuel r
        blockItems opened fuel (n :: read) r
    | .blockEnd => return (read.reverse, t.stop, r.drop)
    | kind => unexpected .blockSequence opened (.notBlockEnd kind.name) t r

/-- The items of a sequence that is not indented more than its key. -/
def looseItems :
    (fuel : Nat) → List Node → Reading → Except Failure (List Node × Mark × Reading)
  | 0, _, r => r.stream.cursor.failBare .endOfStream
  | fuel + 1, read, r => do
    let (t, r) ← r.peek
    match t.kind with
    | .blockEntry =>
      let (next, r) ← r.drop.peek
      match next.kind with
      | .blockEntry | .key | .value | .blockEnd =>
        let (n, r) := r.empty t.stop
        looseItems fuel (n :: read) r
      | _ =>
        let (n, r) ← node true false fuel r
        looseItems fuel (n :: read) r
    | _ => return (read.reverse, t.start, r)

/-- The entries of a block mapping. -/
def blockEntries (opened : Mark) : (fuel : Nat) → List (Node × Node) → Reading →
    Except Failure (List (Node × Node) × Mark × Reading)
  | 0, _, r => r.stream.cursor.failBare .endOfStream
  | fuel + 1, read, r => do
    let (t, r) ← r.peek
    match t.kind with
    | .key =>
      let (k, r) ← blockPart t.stop fuel r.drop
      let (t, r) ← r.peek
      match t.kind with
      | .value =>
        let (v, r) ← blockPart t.stop fuel r.drop
        blockEntries opened fuel ((k, v) :: read) r
      | _ =>
        let (v, r) := r.empty t.start
        blockEntries opened fuel ((k, v) :: read) r
    | .blockEnd => return (read.reverse, t.stop, r.drop)
    | kind => unexpected .blockMapping opened (.notBlockEnd kind.name) t r

/-- A key or a value of a block mapping, after its indicator, which ended at a mark. -/
def blockPart (after : Mark) : (fuel : Nat) → Reading → Except Failure (Node × Reading)
  | 0, r => r.stream.cursor.failBare .endOfStream
  | fuel + 1, r => do
    let (t, r) ← r.peek
    match t.kind with
    | .key | .value | .blockEnd => return r.empty after
    | _ => node true true fuel r

/-- The items of a sequence in brackets. -/
def flowItems (opened : Mark) (first : Bool) :
    (fuel : Nat) → List Node → Reading → Except Failure (List Node × Mark × Reading)
  | 0, _, r => r.stream.cursor.failBare .endOfStream
  | fuel + 1, read, r => do
    let (t, r) ← r.peek
    match t.kind with
    | .flowSequenceEnd => return (read.reverse, t.stop, r.drop)
    | kind =>
      if !first && kind != .flowEntry then
        unexpected .flowSequence opened (.notSequenceEnd kind.name) t r
      else
        let (t, r) ← if first then pure (t, r) else r.drop.peek
        match t.kind with
        | .flowSequenceEnd => return (read.reverse, t.stop, r.drop)
        | .key =>
          let (number, r) ← r.enter
          let (k, r) ← flowKey .flowSequenceEnd t.stop fuel r.drop
          let (v, r) ← flowValue .flowSequenceEnd fuel r
          let (next, r) ← r.peek
          let pair := Node.mapping { number, tag := Tag.map, start := t.start, stop := next.start } [(k, v)]
          flowItems opened false fuel (pair :: read) r.leave
        | _ =>
          let (n, r) ← node false false fuel r
          flowItems opened false fuel (n :: read) r

/-- A key inside a collection that `close` ends, after its indicator, which ended at a mark. -/
def flowKey (close : TokenKind) (after : Mark) : (fuel : Nat) → Reading → Except Failure (Node × Reading)
  | 0, r => r.stream.cursor.failBare .endOfStream
  | fuel + 1, r => do
    let (t, r) ← r.peek
    if t.kind == .value || t.kind == .flowEntry || t.kind == close then return r.empty after
    else node false false fuel r

/-- The value of an entry inside a collection that `close` ends. -/
def flowValue (close : TokenKind) : (fuel : Nat) → Reading → Except Failure (Node × Reading)
  | 0, r => r.stream.cursor.failBare .endOfStream
  | fuel + 1, r => do
    let (colon, r) ← r.peek
    if colon.kind == .value then
      let (t, r) ← r.drop.peek
      if t.kind == .flowEntry || t.kind == close then return r.empty colon.stop
      else node false false fuel r
    else return r.empty colon.start

/-- The entries of a mapping in braces. -/
def flowEntries (opened : Mark) (first : Bool) : (fuel : Nat) → List (Node × Node) → Reading →
    Except Failure (List (Node × Node) × Mark × Reading)
  | 0, _, r => r.stream.cursor.failBare .endOfStream
  | fuel + 1, read, r => do
    let (t, r) ← r.peek
    match t.kind with
    | .flowMappingEnd => return (read.reverse, t.stop, r.drop)
    | kind =>
      if !first && kind != .flowEntry then
        unexpected .flowMapping opened (.notMappingEnd kind.name) t r
      else
        let (t, r) ← if first then pure (t, r) else r.drop.peek
        match t.kind with
        | .flowMappingEnd => return (read.reverse, t.stop, r.drop)
        | .key =>
          let (k, r) ← flowKey .flowMappingEnd t.stop fuel r.drop
          let (v, r) ← flowValue .flowMappingEnd fuel r
          flowEntries opened false fuel ((k, v) :: read) r
        | _ =>
          let (k, r) ← node false false fuel r
          let (next, r) ← r.peek
          let (v, r) := r.empty next.start
          flowEntries opened false fuel ((k, v) :: read) r

end

/-- The handles that directives declare, and the tokens after them. -/
def directives : (fuel : Nat) → (version : Bool) → List (String × String) → Reading →
    Except Failure (List (String × String) × Reading)
  | 0, _, handles, r => .ok (handles, r)
  | fuel + 1, version, handles, r => do
    let (t, r) ← r.peek
    match t.kind with
    | .directive (.version major _) =>
      if version then r.fail .secondVersion t.start
      else if major != 1 then r.fail .badVersion t.start
      else directives fuel true handles r.drop
    | .directive (.handle handle tagPrefix) =>
      if handles.any fun h => h.1 == handle then r.fail (.secondHandle handle) t.start
      else directives fuel version (handles ++ [(handle, tagPrefix)]) r.drop
    | .directive .other => directives fuel version handles r.drop
    | _ => return (handles, r)

/-- Moves over marks of the ends of documents. -/
def skipDocumentEnds : (fuel : Nat) → Reading → Except Failure (Token × Reading)
  | 0, r => r.peek
  | fuel + 1, r => do
    let (t, r) ← r.peek
    match t.kind with
    | .documentEnd => skipDocumentEnds fuel r.drop
    | _ => return (t, r)

/-- The mark of an explicit document start, with its directives; none at the end of the text. -/
def documentStart (fuel : Nat) (r : Reading) : Except Failure (Option Mark × Reading) := do
  let (first, r) ← skipDocumentEnds fuel r
  match first.kind with
  | .streamEnd => return (none, r)
  | _ =>
    let (handles, r) ← directives fuel false [] r
    let (t, r) ← r.peek
    match t.kind with
    | .documentStart =>
      let defaults := Reading.defaultHandles.filter fun d => !handles.any fun h => h.1 == d.1
      return (some first.start, { r.drop with handles := handles ++ defaults })
    | kind => r.fail (.notDocument kind.name) t.start

/-- The root of the document that starts here, none at the end of the text. -/
def document (fuel : Nat) (r : Reading) : Except Failure (Option Node × Reading) := do
  let (t, r) ← r.peek
  let explicit := match t.kind with
    | .directive _ | .documentStart | .streamEnd => true
    | _ => false
  if explicit then
    match ← documentStart fuel r with
    | (none, r) => return (none, r)
    | (some _, r) =>
      let (t, r) ← r.peek
      match t.kind with
      | .directive _ | .documentStart | .documentEnd | .streamEnd =>
        let (n, r) := r.empty t.start
        return (some n, r)
      | _ =>
        let (n, r) ← node true false fuel r
        return (some n, r)
  else
    let r := { r with handles := Reading.defaultHandles }
    let (n, r) ← node true false fuel r
    return (some n, r)

/-- The root of the only document of a text, none if there is no document. Characters that no text
may hold are not looked for. -/
def Node.ofTokens? (text : List Char) : Except Failure (Option Node) := do
  let fuel := 8 * text.length + 32
  match ← document fuel { stream := Stream.ofText text } with
  | (none, _) => return none
  | (some root, r) =>
    let (t, r) ← r.peek
    let r := if t.kind == .documentEnd then r.drop else r
    match ← documentStart fuel r with
    | (none, _) => return some root
    | (some second, r) =>
      r.fail .secondDocument second (some (.singleDocument, some root.start))

/-- A code point that a text may hold. -/
def isAllowed (p : Text.Point) : Bool :=
  let n := p.code
  n == 0x09 || n == 0x0a || n == 0x0d || (0x20 ≤ n && n ≤ 0x7e) || n == 0x85 ||
    (0xa0 ≤ n && n ≤ 0xd7ff) || (0xe000 ≤ n && n ≤ 0xfffd) || 0x10000 ≤ n

/-- The first code point that no text may hold, and its place. -/
def forbidden? (text : List Char) : Option (Nat × Nat) :=
  match (Text.points text).span isAllowed with
  | (before, p :: _) => some (p.code, before.length)
  | (_, []) => none

/-- The root of the only document of a text, none if the text holds no document. -/
def Node.ofText? (text : List Char) : Except Failure (Option Node) :=
  match forbidden? text with
  | some (code, position) => .error (.character code position)
  | none => Node.ofTokens? text

/-- What makes the reading of a text fail before it looks at a place. -/
def failureBefore? (place : Nat) (text : List Char) : Option Failure :=
  match Node.ofTokens? text with
  | .error failure =>
    match failure with
    | .problem { reached, .. } | .fault _ reached => if reached ≤ place then some failure else none
    | .character .. => none
  | .ok _ => none

end ChangeImpact.Yaml
