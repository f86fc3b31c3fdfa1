import ChangeImpact.Number.Numeral
import ChangeImpact.Service.Host
import ChangeImpact.Text.Utf8

/-!
# Targets of requests

A target is a reference to a place of the service: maybe a scheme and an authority, then a path and
maybe a query. `Target.ofText` cuts a target into these parts before anything in it is decoded.

* Steps that stay in place or go back are taken out of the path.
* The path is decoded twice, once for the address and once for the service behind it.
* In a query a plus sign is a blank.
* Only a target with a scheme and a host leads elsewhere; `Target.reach` says whether a request can be
  sent there.
-/

namespace ChangeImpact.Service

/-- Where a target with a scheme and a host leads. -/
structure Origin where
  scheme : String
  host : List Char
  number : Option Int
deriving DecidableEq, Repr

/-- A path with the values of a query. -/
structure Target where
  path : String
  query : List (String × String) := []
  origin : Option Origin := none
deriving DecidableEq, Repr

namespace Target

/-- Why a request is not sent to a target. -/
inductive Refusal where
  | malformed
  /-- The target holds a half of a surrogate pair, which has no bytes. -/
  | unencodable
  | unknownScheme (scheme : String)
  /-- The scheme asks for a connection of another kind. -/
  | otherConnection
  /-- The text after the first colon of the place is no number. -/
  | badNumber (text : String)
deriving DecidableEq, Repr

/-- The longest text that is taken for a target. -/
def longest : Nat := 65536

/-- A character of the ASCII range that is not printed. -/
def isControl (c : Char) : Bool := c.toNat < 0x20 || c.toNat == 0x7f

/-- The bytes of characters among which a percent sign and two digits write one byte. -/
def percentBytes : List Char → List UInt8
  | '%' :: a :: b :: cs =>
    if Text.isHexDigit a && Text.isHexDigit b then
      UInt8.ofNat ((Numeral.digits? 16 [a, b]).getD 0) :: percentBytes cs
    else ('%'.toNat.toUInt8) :: percentBytes (a :: b :: cs)
  | c :: cs => (String.singleton c).toUTF8.toList ++ percentBytes cs
  | [] => []

/-- A text with its escapes decoded. -/
def decoded (cs : List Char) : List Char :=
  Text.Utf8.decodeLossy (percentBytes ((Text.points cs).map Text.Point.toChar))

/-- A letter of the ASCII range. -/
def isLetter (c : Char) : Bool := ('a' ≤ c && c ≤ 'z') || ('A' ≤ c && c ≤ 'Z')

/-- A character inside a scheme. -/
def isSchemeChar (c : Char) : Bool :=
  isLetter c || c.isDigit || c == '+' || c == '.' || c == '-'

/-- The scheme, which may be empty before its colon, and what follows it. -/
def splitScheme (cs : List Char) : List Char × List Char :=
  match cs.span isSchemeChar with
  | ([], ':' :: rest) => ([], rest)
  | (c :: scheme, ':' :: rest) => if isLetter c then (c :: scheme, rest) else ([], cs)
  | _ => ([], cs)

/-- The authority after two slashes, and what follows it. -/
def splitAuthority : List Char → List Char × List Char
  | '/' :: '/' :: rest => rest.span fun c => c != '/' && c != '?' && c != '#'
  | cs => ([], cs)

/-- The user of an authority, its host, and what stands after the colon of the host. -/
def splitPlace (authority : List Char) : List Char × List Char × List Char :=
  let named := (authority.reverse.takeWhile (· != '@')).reverse
  let user := authority.take (authority.length - named.length - 1)
  if named.head? == some '[' && named.contains ']' then
    let after := (named.reverse.takeWhile (· != ']')).reverse
    let number := if after.head? == some ':' then after.tail else after
    (user, named.take (named.length - after.length), number)
  else (user, Text.beforeFirst ':' named, Text.afterFirst ':' named)

/-- Takes out the steps of a path that stay in place or go back. -/
def withoutDots (cs : List Char) : List Char :=
  let parts := (Text.splitAt '/' cs).foldl (fun done part =>
    if part == ['.'] then done
    else if part == ['.', '.'] then (if done.length ≤ 1 && done.all List.isEmpty then done else done.tail)
    else part :: done) []
  List.intercalate ['/'] parts.reverse

/-- One pair of a query; a name without a value has the empty one. -/
def queryPair (cs : List Char) : String × String :=
  let plain (part : List Char) : String :=
    String.ofList (decoded (part.map fun c => if c == '+' then ' ' else c))
  (plain (Text.beforeFirst '=' cs), plain (Text.afterFirst '=' cs))

/-- The pairs of a query. -/
def queryPairs (cs : List Char) : List (String × String) :=
  ((Text.splitAt '&' cs).filter fun part => !part.isEmpty).map queryPair

/-- The characters of a path or a query that are sent as they are. -/
def isSentPlain (escaped : String) (c : Char) : Bool :=
  0x20 < c.toNat && c.toNat < 0x7f && !escaped.contains c

/-- The length of a text when the other characters are written by their bytes. -/
def sentLength (escaped : String) (cs : List Char) : Nat :=
  ((Text.points cs).map fun p =>
    let c := p.toChar
    if isSentPlain escaped c then 1 else 3 * c.utf8Size).foldl (· + ·) 0

/-- The length of a path as it is sent. -/
def pathLength (cs : List Char) : Nat := sentLength "\"#<>?`\x7b\x7d" cs

/-- The length of a query as it is sent. -/
def queryLength (cs : List Char) : Nat := sentLength "\"#<>" cs

/-- The length of pairs of names and values as they are sent; a blank becomes a plus sign. -/
def pairsLength (pairs : List (String × String)) : Nat :=
  let length (s : String) : Nat := ((Text.points s.toList).map fun p =>
    let c := p.toChar
    if c.isAlphanum || "_.-~ ".contains c then 1 else 3 * c.utf8Size).foldl (· + ·) 0
  (pairs.map fun p => length p.1 + length p.2 + 2).foldl (· + ·) 0 - 1

/-- The number after the colon of a host; none is written where the scheme implies it. -/
def numberOf? (scheme : String) (number : List Char) : Option (Option Int) :=
  if number.isEmpty then some none
  else if Numeral.mostDigits < Numeral.leadingDigits number then none
  else
    let implied : Option Int := match scheme with
      | "ftp" => some 21
      | "http" | "ws" => some 80
      | "https" | "wss" => some 443
      | _ => none
    (Numeral.int? 10 number).map fun n => if implied == some n then none else some n

/-- The target that a text writes. Without a scheme and a host it is a path of the service, whatever
slashes it starts with. -/
def ofText (text : List Char) : Except Refusal Target := do
  if longest < Text.width text || text.any isControl then .error .malformed
  let (scheme, rest) := splitScheme text
  let (authority, rest) := splitAuthority rest
  let (path, rest) := rest.span fun c => c != '?' && c != '#'
  let query := if rest.head? == some '?' then Text.beforeFirst '#' rest.tail else []
  let (user, host, number) := splitPlace authority
  if Text.hasHalf (String.ofList user) then .error .unencodable
  if !Host.isWellFormed host then .error .malformed
  match numberOf? (String.ofList scheme) number with
  | none => .error .malformed
  | some number =>
    let isLocal := scheme.isEmpty && user.isEmpty && host.isEmpty && number.isNone
    if isLocal && (path.take 2 == ['/', '/'] || path.head? == some ':') then .error .malformed
    if Text.hasHalf (String.ofList (path ++ rest)) then .error .unencodable
    let origin := if scheme.isEmpty || host.isEmpty then none
      else some { scheme := String.ofList (scheme.map Char.toLower), host, number : Origin }
    let whole := if origin.isSome then path
      else '/' :: (if isLocal then path else withoutDots path).dropWhile (· == '/')
    if origin.isNone && (longest < pathLength whole || longest < queryLength query) then
      .error .malformed
    let short := withoutDots whole
    return {
      path := String.ofList (decoded (decoded (if short.isEmpty then ['/'] else short)))
      query := queryPairs query, origin }

/-- The target with other pairs in its query. -/
def withQuery (t : Target) (pairs : List (String × String)) : Except Refusal Target :=
  if pairs.any fun p => Text.hasHalf p.1 || Text.hasHalf p.2 then .error .unencodable
  else if longest < pairsLength pairs then .error .malformed
  else .ok { t with query := pairs }

/-- The schemes that a place is reached by. -/
def schemes : List String := ["http", "https", "ws", "wss"]

/-- A request can be sent to the place of a target. What follows the first colon of the place must be
a number, which it never is after an address in square brackets. -/
def reach (t : Target) : Except Refusal Unit :=
  match t.origin with
  | none => .ok ()
  | some o =>
    if !schemes.contains o.scheme then .error (.unknownScheme o.scheme)
    else if (Host.bracketed? o.host).isSome then
      let number := match o.number with
        | some n => ':' :: (intText n).toList
        | none => []
      .error (.badNumber (String.ofList (Text.afterFirst ':' (o.host ++ number))))
    else if o.scheme == "ws" || o.scheme == "wss" then .error .otherConnection
    else .ok ()

end Target

end ChangeImpact.Service
