import ChangeImpact.Kind
import ChangeImpact.Service.Reading

/-!
# Requests

What the service can be asked, and how the body of each request is read.
-/

namespace ChangeImpact.Service

/-- The body of a request. -/
inductive Body where
  | absent
  /-- A text that is not declared to be a document. -/
  | plain (s : String)
  | document (v : Value)

/-- A request to the service. -/
structure Request where
  method : String
  path : String
  query : List (String × String) := []
  body : Body := .absent

/-- The fields of a body, which must be there and be a mapping. -/
def Body.entries : Body → Read Entries
  | .absent => .problem .missing [.name "body"]
  | .plain s => .problem (if s.isEmpty then .missing else .notObject) [.name "body"]
  | .document .null => .problem .missing [.name "body"]
  | .document (.map entries) => .ok entries
  | .document _ => .problem .notObject [.name "body"]

def bodyPlace : Place := [.name "body"]

def changeKind : Reader String := member ["Added", "Removed", "Modified"]

/-- A list of names of dimensions. -/
def dimensionNames : Reader (List String) :=
  listOf (member ["Reference", "DataFlow", "Contract", "Config", "Consistency"])

/-- Files to scan. -/
structure ScanRequest where
  files : List (String × String)
  rebuild : Bool
  jobs : Option Int

def ScanRequest.ofBody (body : Body) : Read ScanRequest := do
  let entries ← body.entries
  (Read.both (required entries bodyPlace "files" (mappingOf text))
    (Read.both (field entries bodyPlace "rebuild" false flag)
      (field entries bodyPlace "jobs" none (optional (integerFrom 1))))).map
    fun (files, rebuild, jobs) => { files, rebuild, jobs }

/-- A change set whose impact is asked for. -/
structure ImpactQuery where
  changes : List (String × String)
  dimensions : Option (List String)
  maxDepth : Option Int
  direction : Option String
  includePlan : Bool

def ImpactQuery.ofBody (body : Body) : Read ImpactQuery := do
  let entries ← body.entries
  (Read.both (required entries bodyPlace "changes" (mappingOf changeKind))
    (Read.both (field entries bodyPlace "dimensions" none (optional dimensionNames))
      (Read.both (field entries bodyPlace "max_depth" none (optional (integerFrom 0)))
        (Read.both
          (field entries bodyPlace "direction" none (optional (member ["forward", "backward"])))
          (field entries bodyPlace "include_plan" true flag))))).map
    fun (changes, dimensions, maxDepth, direction, includePlan) =>
      { changes, dimensions, maxDepth, direction, includePlan }

/-- Change sets for a report. -/
structure ReportQuery where
  changeSets : List (List (String × String))
  dimensions : Option (List String)
  maxDepth : Option Int

def ReportQuery.ofBody (body : Body) : Read ReportQuery := do
  let entries ← body.entries
  (Read.both (field entries bodyPlace "change_sets" [] (listOf (mappingOf changeKind)))
    (Read.both (field entries bodyPlace "dimensions" none (optional dimensionNames))
      (field entries bodyPlace "max_depth" none (optional (integerFrom 0))))).map
    fun (changeSets, dimensions, maxDepth) => { changeSets, dimensions, maxDepth }

/-- The side that a query declares, which must be one of the two. -/
def declaredSideOf (query : List (String × String)) : Read (Option String) :=
  match query.reverse.find? fun q => q.1 == "declared_side" with
  | none => .ok none
  | some (_, side) =>
    if side = "frontend" ∨ side = "backend" then .ok (some side)
    else .problem .patternMismatch [.name "query", .name "declared_side"]

end ChangeImpact.Service
