import ChangeImpact.Contract.TypeName
import ChangeImpact.Table

/-!
# Mismatches

Where the two sides of a contract disagree. One side is declared to be the reference: a field that
only this side has is missing on the other, and a field that only the other side has is extra.
-/

namespace ChangeImpact

/-- What two sides of a contract disagree about. -/
inductive MismatchKind where
  | missingField
  | extraField
  | typeMismatch
  | validationMismatch
  | routeMismatch
  | statusCodeMismatch
deriving DecidableEq, Repr

def MismatchKind.word : MismatchKind → String
  | .missingField => "MissingField"
  | .extraField => "ExtraField"
  | .typeMismatch => "TypeMismatch"
  | .validationMismatch => "ValidationMismatch"
  | .routeMismatch => "RouteMismatch"
  | .statusCodeMismatch => "StatusCodeMismatch"

instance : Vocabulary MismatchKind where
  title := "MismatchKind"
  members := [.missingField, .extraField, .typeMismatch, .validationMismatch, .routeMismatch,
    .statusCodeMismatch]
  word := MismatchKind.word

/-- A disagreement between the two sides of a contract. -/
structure Mismatch where
  kind : MismatchKind
  field : Option String := none
  /-- What the frontend says. -/
  frontend : Option String := none
  /-- What the backend says. -/
  backend : Option String := none
deriving DecidableEq, Repr

namespace Mismatch

def toRecord (m : Mismatch) : Value :=
  .record [("kind", .str m.kind.word), ("field", .text? m.field),
    ("frontend_detail", .text? m.frontend), ("backend_detail", .text? m.backend)]

/-- How a field is shown. -/
def fieldText (f : ShapeField) : String :=
  f.name ++ ": " ++ f.type ++ " (" ++ (if f.required then "required" else "optional") ++ ")"

/-- A mismatch about a field of the declared side, of the other side, or of both. -/
def ofFields (declaredSide : Layer) (kind : MismatchKind) (name : String)
    (declared counterpart : Option ShapeField) : Mismatch :=
  let d := declared.map fieldText
  let c := counterpart.map fieldText
  if declaredSide = .backend then ⟨kind, some name, c, d⟩ else ⟨kind, some name, d, c⟩

/-- What a declared field and the counterpart's field of that name disagree about. -/
def ofField (config : Config) (declaredSide : Layer) (counterpart : Entity) (f : ShapeField) :
    List Mismatch :=
  match counterpart.field? f.name with
  | none => [ofFields declaredSide .missingField f.name (some f) none]
  | some g =>
    (if TypeName.compatible config f.type g.type then []
      else [ofFields declaredSide .typeMismatch f.name (some f) (some g)]) ++
    (if f.required = g.required then []
      else [ofFields declaredSide .validationMismatch f.name (some f) (some g)])

/-- The disagreements of two shapes: declared fields in order, then fields of the counterpart
only. -/
def ofShapes (config : Config) (declaredSide : Layer) (declared counterpart : Entity) :
    List Mismatch :=
  declared.fields.flatMap (ofField config declaredSide counterpart) ++
    (counterpart.fields.filter fun f => (declared.field? f.name).isNone).map fun f =>
      ofFields declaredSide .extraField f.name none (some f)

/-- The status codes of a route, different ones in order. -/
def statusCodes (e : Entity) : List String :=
  let codes := e.detail "status_codes"
  if codes.isVacant then [] else
    match codes.unfold with
    | .list items => distinctTexts (items.map Value.text)
    | .pair a b => distinctTexts [a.text, b.text]
    | v => [v.text]

/-- The status codes that the frontend handles and the backend does not declare; a side without
codes makes no statement. -/
def ofStatusCodes (frontend backend : Entity) : List Mismatch :=
  let declared := statusCodes backend
  if frontend.kind ≠ .apiRoute ∨ backend.kind ≠ .apiRoute ∨ declared.isEmpty then [] else
    ((statusCodes frontend).filter fun code => !declared.contains code).map fun code =>
      { kind := .statusCodeMismatch
        frontend := some ("handles " ++ code)
        backend := some ("declares " ++ ", ".intercalate declared) }

/-- All disagreements of a frontend and a backend entity. -/
def between (config : Config) (declaredSide : Layer) (frontend backend : Entity) : List Mismatch :=
  (if declaredSide = .backend then ofShapes config declaredSide backend frontend
    else ofShapes config declaredSide frontend backend) ++
    ofStatusCodes frontend backend

end Mismatch

end ChangeImpact
