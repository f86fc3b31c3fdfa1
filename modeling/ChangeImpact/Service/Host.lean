import ChangeImpact.Text.Digit
import ChangeImpact.Text.Point
import ChangeImpact.Text.Split

/-!
# Hosts

A host is a name or an address. A host of four runs of digits is taken for an address of four numbers
with points between them, and one in square brackets for an address of up to eight groups with colons
between them; both must then be well-formed. Any other host is a name.
-/

namespace ChangeImpact.Service.Host

/-- The places in four runs of digits, with one character between each two, that come after a place:
the even ones stand before a run and the odd ones in it. -/
def nextPlaces (c : Char) (place : Nat) : List Nat :=
  if place % 2 == 0 then (if c.isDigit then [place + 1] else [])
  else (if c.isDigit then [place] else []) ++ (if place < 7 then [place + 1] else [])

/-- Four runs of digits with one character between each two. -/
def isNumeric (host : List Char) : Bool :=
  (host.foldl (fun places c => (places.flatMap (nextPlaces c)).eraseDups) [0]).contains 7

/-- A number up to 255 without needless zeros. -/
def isOctet (part : List Char) : Bool :=
  !part.isEmpty && part.length ≤ 3 && part.all Char.isDigit &&
    (part.length == 1 || part.head? != some '0') &&
    part.foldl (fun n c => 10 * n + (c.toNat - '0'.toNat)) 0 ≤ 255

/-- Four numbers with points between them. -/
def isPointed (host : List Char) : Bool :=
  let parts := Text.splitAt '.' host
  parts.length == 4 && parts.all isOctet

/-- A group of an address: up to four hexadecimal digits. -/
def isGroup (part : List Char) : Bool :=
  !part.isEmpty && part.length ≤ 4 && part.all Text.isHexDigit

/-- Eight groups, of which two colons in a row leave out one or more. -/
def areGroups (parts : List (List Char)) : Bool :=
  let inner := (parts.drop 1).dropLast
  let atStart := (parts.headD []).isEmpty
  let atEnd := (parts.getLastD []).isEmpty
  if parts.length < 3 || 9 < parts.length then false
  else
    match (inner.filter List.isEmpty).length with
    | 0 => parts.length == 8 && parts.all isGroup
    | 1 =>
      let before := (inner.takeWhile fun p => !p.isEmpty).length + 1
      let high := before - (if atStart then 1 else 0)
      let low := parts.length - before - 1 - (if atEnd then 1 else 0)
      !(atStart && 0 < high) && !(atEnd && 0 < low) && high + low < 8 &&
        (parts.take high).all isGroup && (parts.drop (parts.length - low)).all isGroup
    | _ => false

/-- Groups with colons between them; the last two may be written as four numbers, and the name of a
zone may follow after a percent sign. -/
def isColoned (address : List Char) : Bool :=
  let parts := Text.splitAt ':' (Text.beforeFirst '%' address)
  let zone := Text.afterFirst '%' address
  let last := parts.getLastD []
  (!address.contains '%' || (!zone.isEmpty && !zone.contains '%')) && 3 ≤ parts.length &&
    (if last.contains '.' then isPointed last && areGroups (parts.dropLast ++ [['0'], ['0']])
    else areGroups parts)

/-- The address between square brackets. -/
def bracketed? (host : List Char) : Option (List Char) :=
  match host with
  | '[' :: rest => if rest.getLast? == some ']' then some rest.dropLast else none
  | _ => none

/-- A host that is a name or a well-formed address. -/
def isWellFormed (host : List Char) : Bool :=
  if isNumeric host then isPointed host
  else
    match bracketed? host with
    | some address => isColoned address
    | none => !Text.hasHalf (String.ofList host)

end ChangeImpact.Service.Host
