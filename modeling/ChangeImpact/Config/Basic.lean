import ChangeImpact.Edge

/-!
# Configuration

The tables that steer the engine: groups of equivalent type names, least confidences by dimension,
limits for the choice of a plan, rules for matching contracts, and settings of a scan. A section
keeps every entry that it was given, also those the engine does not use.
-/

namespace ChangeImpact

/-- A validated configuration. -/
structure Config where
  typeEquivalence : Entries
  confidenceThresholds : Entries
  planThresholds : Entries
  contracts : Entries
  scan : Entries
  criticalThreshold : Int
deriving Repr, Inhabited

namespace Config

/-- The configuration that is used where none is given, section by section. -/
def defaults : Entries := [
  (.str "type_equivalence", .record [
    ("string", .texts ["string", "String", "str", "text", "CharSequence"]),
    ("number", .texts ["number", "Integer", "int", "Int", "Long", "long", "float", "Float",
      "double", "Double", "BigDecimal", "decimal", "Decimal"]),
    ("boolean", .texts ["boolean", "Boolean", "bool"]),
    ("date", .texts ["Date", "datetime", "LocalDateTime", "Instant", "ZonedDateTime"]),
    ("object", .texts ["object", "Object", "dict", "Dict", "Map", "Record", "any", "Any"])]),
  (.str "confidence_thresholds", .record [
    ("Reference", .float (.zero false)),
    ("DataFlow", .float (.ofRatio false 1 2)),
    ("Contract", .float (.zero false)),
    ("Config", .float (.zero false)),
    ("Consistency", .float (.ofRatio false 1 2))]),
  (.str "plan_thresholds", .record [
    ("full_sync_max_impacted", .int 10),
    ("refactor_min_impacted", .int 40),
    ("refactor_mismatch_ratio", .float (.ofRatio false 1 2))]),
  (.str "contracts", .record [
    ("mappings", .map []),
    ("naming_rules", .record [
      ("frontend", .record [("strip_prefixes", .list []), ("strip_suffixes", .list [])]),
      ("backend", .record [("strip_prefixes", .list []), ("strip_suffixes", .list [])])]),
    ("route_prefixes", .list []),
    ("declared_side", .str "frontend")]),
  (.str "scan", .record [
    ("jobs", .int 4),
    ("extractor_patterns", .record [
      ("manifest", .texts ["*.impact.yml", "*.impact.yaml", "*.impact.json"]),
      ("yaml_config", .texts ["config/*.yml", "config/*.yaml", "*.config.yml", "*.config.yaml"])])]),
  (.str "critical_dependents_threshold", .int 5)]

def toRecord (c : Config) : Value :=
  .record [("type_equivalence", .map c.typeEquivalence),
    ("confidence_thresholds", .map c.confidenceThresholds),
    ("plan_thresholds", .map c.planThresholds),
    ("contracts", .map c.contracts),
    ("scan", .map c.scan),
    ("critical_dependents_threshold", .int c.criticalThreshold)]

/-- Equality by value. -/
def same (a b : Config) : Bool := a.toRecord.same b.toRecord

/-- The texts of a list. -/
def textsOf (v : Value) : List String :=
  match v.unfold with
  | .list items => items.filterMap fun
    | .str s => some s
    | _ => none
  | _ => []

/-- The entries of a mapping. -/
def entriesOf (v : Value) : Entries :=
  match v.unfold with
  | .map entries => entries
  | _ => []

/-- A number as a floating-point number. -/
def numberOf : Value → Binary64
  | .int n => .ofInt n
  | .float x => x
  | _ => .zero false

/-- The least confidence at which an edge of a dimension is followed. -/
def thresholdFor (c : Config) (d : Dimension) : Binary64 :=
  numberOf (Entries.lookup c.confidenceThresholds d.word)

/-- The group of equivalent types that a type name belongs to; null names no group. -/
def typeGroup? (c : Config) (name : String) : Option Value :=
  match c.typeEquivalence.find? fun group => (textsOf group.2).contains name with
  | none | some (.null, _) => none
  | some (group, _) => some group

/-- The backend type name that a frontend type name is mapped to. -/
def mapping? (c : Config) (name : String) : Option String :=
  match Entries.lookup? (entriesOf (Entries.lookup c.contracts "mappings")) name with
  | some (.str s) => some s
  | _ => none

/-- The texts that a naming rule strips from names of a layer. -/
def strippedTexts (c : Config) (layer : Layer) (key : String) : List String :=
  let rules := entriesOf (Entries.lookup c.contracts "naming_rules")
  textsOf (Entries.lookup (entriesOf (Entries.lookup rules layer.word)) key)

def strippedPrefixes (c : Config) (layer : Layer) : List String :=
  c.strippedTexts layer "strip_prefixes"

def strippedSuffixes (c : Config) (layer : Layer) : List String :=
  c.strippedTexts layer "strip_suffixes"

def routePrefixes (c : Config) : List String :=
  textsOf (Entries.lookup c.contracts "route_prefixes")

/-- The side whose fields are the reference. -/
def declaredSide (c : Config) : Layer :=
  match Entries.lookup c.contracts "declared_side" with
  | .str "backend" => .backend
  | _ => .frontend

/-- File patterns by extractor. -/
def extractorPatterns (c : Config) : List (String × List String) :=
  (entriesOf (Entries.lookup c.scan "extractor_patterns")).filterMap fun e =>
    match e.1 with
    | .str name => some (name, textsOf e.2)
    | _ => none

end Config

end ChangeImpact
