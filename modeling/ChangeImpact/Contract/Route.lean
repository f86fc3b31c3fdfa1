import ChangeImpact.Text.Casing
import ChangeImpact.Text.Split
import ChangeImpact.Value.Convert

/-!
# Route paths

Two sides of an application write the path of one route in different ways: with a host, a query, a
common prefix, capital letters, or another style of parameters. `Route.normalize` brings a path to
the form by which routes are matched.
-/

namespace ChangeImpact

/-- The trimmed text of a value that should be a text; anything vacant is the empty text. -/
def Value.toTrimmed (v : Value) : Except Fault (List Char) :=
  if v.isVacant then .ok [] else
    match v with
    | .str s => .ok (Text.trim s.toList)
    | .bytes _ => .error (.type (.notMatchable v.typeName))
    | _ => .error (.noMember v.qualifiedTypeName "strip")

namespace Route

/-- A character of the name of a scheme. -/
def isSchemeChar (c : Char) : Bool :=
  c.isLower || c.isDigit || c == '+' || c == '.' || c == '-'

/-- What follows a scheme and its mark, if a text starts with them. -/
def afterScheme? (cs : List Char) : Option (List Char) :=
  match cs with
  | c :: _ =>
    if c.isLower then
      match cs.dropWhile isSchemeChar with
      | ':' :: '/' :: '/' :: rest => some rest
      | _ => none
    else none
  | [] => none

/-- Drops a scheme and a host that is not empty. -/
def dropHost (cs : List Char) : List Char :=
  match afterScheme? cs with
  | some ('/' :: _) | some [] | none => cs
  | some rest => rest.dropWhile (· != '/')

/-- Joins runs of slashes into one. -/
def joinSlashes : List Char → List Char
  | [] => []
  | c :: rest =>
    if c == '/' && rest.head? == some '/' then joinSlashes rest else c :: joinSlashes rest

/-- A text with one slash in front and none at its end. -/
def rooted (cs : List Char) : List Char := '/' :: Text.trimWhile (· == '/') cs

/-- A prefix that is not empty and ends where a segment of the path ends. -/
def leads (path p : List Char) : Bool :=
  let lead := rooted (Text.lower p)
  lead != ['/'] && (path == lead || (lead ++ ['/']).isPrefixOf path)

/-- Removes the first of some prefixes that leads a path. -/
def dropFirstPrefix (path : List Char) : List (List Char) → List Char
  | [] => path
  | p :: ps =>
    if leads path p then
      match path.drop (rooted (Text.lower p)).length with
      | [] => ['/']
      | rest => rest
    else dropFirstPrefix path ps

/-- A text without one line feed at its end. -/
def dropLineFeed (cs : List Char) : List Char :=
  match cs.reverse with
  | '\n' :: rest => rest.reverse
  | _ => cs

/-- Starts with `first`, ends with `last`, and `last` is not in between, where at least `least`
characters stand. -/
def isEnclosed (first last : Char) (least : Nat) : List Char → Bool
  | c :: cs =>
    c == first &&
      match cs.reverse with
      | d :: body => d == last && !body.contains last && least ≤ body.length
      | [] => false
  | [] => false

/-- A segment that stands for a parameter, in any of the styles in use. -/
def isParameter (segment : List Char) : Bool :=
  match segment with
  | ':' :: _ :: _ => true
  | _ =>
    let s := dropLineFeed segment
    isEnclosed '\x7b' '\x7d' 0 s || isEnclosed '<' '>' 1 s || isEnclosed '[' ']' 1 s ||
      match s with
      | '$' :: rest => isEnclosed '\x7b' '\x7d' 0 rest
      | _ => false

/-- The segments of a path that are not empty. -/
def segments (path : List Char) : List (List Char) :=
  (Text.splitAt '/' path).filter fun s => !s.isEmpty

/-- A parameter has no name in a normal path. -/
def anonymize (segment : List Char) : List Char :=
  if isParameter segment then ['\x7b', '\x7d'] else segment

/-- The path of an address: no query, fragment, scheme or host, small letters, single slashes. -/
def pathOf (address : List Char) : List Char :=
  let cut := Text.beforeFirst '#' (Text.beforeFirst '?' address)
  rooted (joinSlashes (dropHost (Text.lower cut)))

/-- The form of a path by which routes are matched. -/
def normalize (prefixes : List (List Char)) (address : List Char) : List Char :=
  let parts := segments (dropFirstPrefix (pathOf address) prefixes)
  '/' :: ['/'].intercalate (parts.map anonymize)

/-- The normal form of a path that comes as a value. -/
def ofValue (prefixes : List String) (v : Value) : Except Fault String := do
  let address ← v.toTrimmed
  return String.ofList (normalize (prefixes.map String.toList) address)

/-- The texts of some values, read up to the first that leads a path. -/
def readPrefixes (path : List Char) : List Value → Except Fault (List (List Char))
  | [] => .ok []
  | .str p :: vs =>
    if leads path p.toList then .ok [p.toList]
    else return p.toList :: (← readPrefixes path vs)
  | v :: _ => .error (.noMember v.qualifiedTypeName "lower")

/-- The normal form of a path when the prefixes come as a value too. -/
def ofValues (prefixes v : Value) : Except Fault String := do
  let address ← v.toTrimmed
  let members ← prefixes.toMembers
  return String.ofList (normalize (← readPrefixes (pathOf address) members) address)

end Route

end ChangeImpact
