import ChangeImpact.Contract.Mismatch

/-!
# Contract families

A contract entity belongs to a family: a route to that of its method and normal path, a type to that
of a name. The name is the one that the entity or the configuration refers to, or what the naming
rules leave of the entity's own name. Entities of one family on the two sides are matched.
-/

namespace ChangeImpact

/-- The two sorts of contract families. -/
inductive FamilySort where
  | route
  | shape
deriving DecidableEq, Repr

def FamilySort.word : FamilySort → String
  | .route => "route"
  | .shape => "shape"

def FamilySort.title : FamilySort → String
  | .route => "Route"
  | .shape => "Shape"

/-- How the members of a pair were matched. -/
inductive MatchBasis where
  | route
  | routePath
  | mapping
  | convention
  | name
deriving DecidableEq, Repr

namespace MatchBasis

def word : MatchBasis → String
  | .route => "route"
  | .routePath => "route_path"
  | .mapping => "mapping"
  | .convention => "convention"
  | .name => "name"

/-- How sure a match on a basis is. -/
def confidence : MatchBasis → Binary64
  | .route | .mapping => .one
  | .convention => .ofRatio false 9 10
  | .name => .ofRatio false 3 4
  | .routePath => .ofRatio false 3 5

/-- The stronger basis of two types: a mapping, then a convention. -/
def stronger (a b : MatchBasis) : MatchBasis :=
  if a = .mapping ∨ b = .mapping then .mapping
  else if a = .convention ∨ b = .convention then .convention
  else .name

end MatchBasis

/-- What identifies a family. -/
structure FamilyKey where
  sort : FamilySort
  key : String
deriving DecidableEq, Repr

namespace FamilyKey

def rank (k : FamilyKey) : List String := [k.sort.word, k.key]

/-- The key of a route without its path. -/
def method (k : FamilyKey) : String := String.ofList (Text.beforeFirst ' ' k.key.toList)

/-- The key of a route without its method. -/
def path (k : FamilyKey) : String := String.ofList (Text.afterFirst ' ' k.key.toList)

end FamilyKey

/-- Where an entity belongs and why. -/
structure Placement where
  family : FamilyKey
  basis : MatchBasis
deriving DecidableEq, Repr

namespace Placement

/-- Strips the first of some texts that a longer name starts with. -/
def stripStart (name : List Char) : List (List Char) → List Char
  | [] => name
  | p :: ps =>
    if !p.isEmpty && p.isPrefixOf name && p.length < name.length then name.drop p.length
    else stripStart name ps

/-- Strips the first of some texts that a longer name ends with. -/
def stripEnd (name : List Char) : List (List Char) → List Char
  | [] => name
  | p :: ps =>
    if !p.isEmpty && Text.endsWith name p && p.length < name.length then
      name.take (name.length - p.length)
    else stripEnd name ps

/-- What the naming rules of a layer leave of a name. -/
def conventional (config : Config) (layer : Layer) (name : String) : String :=
  String.ofList (stripEnd
    (stripStart name.toList ((config.strippedPrefixes layer).map String.toList))
    ((config.strippedSuffixes layer).map String.toList))

/-- The key of a route: its method, `GET` when it has none, and its normal path. -/
def routeKey (config : Config) (e : Entity) : Except Fault String := do
  let method := e.detail "method"
  let word ← if method.isVacant then pure "GET"
    else do pure (String.ofList (Text.upper (← method.toText).toList))
  match Entries.lookup? e.metadata "path" with
  | none => .error (.key (quotedText "path"))
  | some path => return word ++ " " ++ (← Route.ofValue config.routePrefixes path)

/-- The key of a type and what it rests on: a contract name, the mapping of a frontend name to a
backend name, or the naming rules of the type's layer. -/
def shapeKey (config : Config) (e : Entity) : Except Fault (String × MatchBasis) :=
  let contractName := e.detail "contract_name"
  if !contractName.isVacant then do return (← contractName.toText, .mapping) else
    let mapped := if e.layer = some .frontend then config.mapping? e.name else none
    match mapped, e.layer with
    | some name, _ => .ok (conventional config .backend name, .mapping)
    | none, some layer =>
      let key := conventional config layer e.name
      .ok (key, if key = e.name then .name else .convention)
    | none, none => .error (.noMember "NoneType" "value")

/-- Where an entity belongs. -/
def of (config : Config) (e : Entity) : Except Fault Placement :=
  if e.kind = .apiRoute then return ⟨⟨.route, ← routeKey config e⟩, .route⟩
  else do
    let (key, basis) ← shapeKey config e
    return ⟨⟨.shape, key⟩, basis⟩

end Placement

end ChangeImpact
