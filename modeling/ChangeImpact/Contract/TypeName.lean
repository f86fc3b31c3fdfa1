import ChangeImpact.Config.Basic
import ChangeImpact.Contract.Route

/-!
# Type names

`TypeName.strip` removes what marks a type as optional, and two type names are compatible when
nothing else tells them apart or the configuration has them in one group.
-/

namespace ChangeImpact.TypeName

/-- What opens a type that is wrapped as optional. -/
def wrapper : List Char := "Optional[".toList

/-- What a wrapper holds, if it holds all of a text on one line. -/
def unwrap? (cs : List Char) : Option (List Char) :=
  if wrapper.isPrefixOf cs then
    match (cs.drop wrapper.length).reverse with
    | ']' :: body => if body.contains '\n' then none else some body.reverse
    | _ => none
  else none

/-- Names of the type without values. -/
def absentNames : List String := ["null", "undefined", "None", "NoneType"]

/-- The alternatives of a type that have values. -/
def present (cs : List Char) : List (List Char) :=
  ((Text.splitAt '|' cs).map Text.trim).filter fun m =>
    !absentNames.contains (String.ofList m) && !m.isEmpty

/-- Drops one question mark at the end. -/
def dropMark (cs : List Char) : List Char :=
  match cs.reverse with
  | '?' :: rest => Text.trim rest.reverse
  | _ => cs

/-- A trimmed type name without the marks of an optional type: a wrapper around it all, alternatives
without values, and one question mark at the end, in this order. -/
def strip (cs : List Char) : List Char :=
  let inner := match unwrap? cs with
    | some body => Text.trim body
    | none => cs
  dropMark (if inner.contains '|' then " | ".toList.intercalate (present inner) else inner)

/-- Removes the marks of an optional type from a value that should be a type name. -/
def ofValue (v : Value) : Except Fault String := return String.ofList (strip (← v.toTrimmed))

/-- A type name without the marks of an optional type. -/
def required (name : String) : String := String.ofList (strip (Text.trim name.toList))

/-- Two type names without marks are equal or in one group of the configuration. -/
def agree (config : Config) (left right : String) : Bool :=
  left == right ||
    match config.typeGroup? left, config.typeGroup? right with
    | some g, some h => g.same h && !g.isNan
    | _, _ => false

/-- Two type names are compatible. -/
def compatible (config : Config) (left right : String) : Bool :=
  agree config (required left) (required right)

end ChangeImpact.TypeName
