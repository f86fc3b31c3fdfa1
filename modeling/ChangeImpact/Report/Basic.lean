import ChangeImpact.Plan.Basic
import ChangeImpact.Report.Schema
import ChangeImpact.Scan.Report

/-!
# Reports

The document for other tools: the graph, the contracts, the impact of change sets with their plans,
and what the scans left open. `Report.schema` is what such a document looks like.
-/

namespace ChangeImpact

/-- Diagnostics and gaps that a report mentions, and how the scan they come from ended. -/
structure Outstanding where
  status : Status
  diagnostics : List Diagnostic
  gaps : List Gap
deriving Repr

def ScanReport.outstanding (r : ScanReport) : Outstanding := ⟨r.status, r.diagnostics, r.gaps⟩

def ScanState.outstanding (s : ScanState) : Outstanding := ⟨s.status, s.diagnostics, s.gaps⟩

namespace Report

def reportVersion : String := "1"

def engineVersion : String := "0.1.0"

def dimensionWords : List String :=
  [Dimension.reference, .dataFlow, .contract, .config, .consistency].map Dimension.word

def edgeSchema : Schema :=
  .closedObject [("from", .text), ("to", .text), ("dimension", .word dimensionWords),
    ("direction", .word ["forward", "backward"]), ("confidence", .share)]
    ["from", "to", "dimension", "direction", "confidence"]

def locationSchema : Schema :=
  .object [("file", .text), ("start_line", .count 0), ("end_line", .count 0)]
    ["file", "start_line", "end_line"]

def fieldSchema : Schema :=
  .object [("name", .text), ("type", .text), ("required", [.type [.boolean]]), ("source", .text)]
    ["name", "type", "required"]

def entitySchema : Schema :=
  .object [("id", [.type [.string], .someText]),
    ("kind", .word ["Function", "Type", "ApiRoute", "ConfigKey", "Test", "DataSink"]),
    ("language", .text), ("name", .text), ("location", locationSchema),
    ("layer", [.type [.string, .null],
      .oneOf [.str "frontend", .str "backend", .str "shared", .null]]),
    ("shape", [.type [.array, .null], .items fieldSchema]),
    ("metadata", .mapping)]
    ["id", "kind", "language", "location"]

def mismatchSchema : Schema :=
  .object [("kind", .word ["MissingField", "ExtraField", "TypeMismatch", "ValidationMismatch",
      "RouteMismatch", "StatusCodeMismatch"]),
    ("field", .text?), ("frontend_detail", .text?), ("backend_detail", .text?)]
    ["kind"]

def pairSchema : Schema :=
  .object [("family", .word ["route", "shape"]), ("key", .text), ("frontend", .text),
    ("backend", .text),
    ("match_basis", .word ["route", "route_path", "mapping", "convention", "name"]),
    ("confidence", .share), ("mismatches", .listOf mismatchSchema)]
    ["family", "key", "frontend", "backend", "match_basis", "confidence", "mismatches"]

def findingSchema : Schema :=
  .object [("rule", .text), ("message", .text), ("severity", .word ["info", "warn", "error"]),
    ("entity_ids", .textList), ("meta", .mapping)]
    ["rule", "message", "severity", "entity_ids"]

def statusSchema : Schema := .word ["completed", "cancelled"]

def impactedSchema : Schema :=
  .object [("entity_id", .text), ("layer", .count 1), ("dimension", .word dimensionWords),
    ("root", .text), ("chain", Schema.listOf edgeSchema ++ [.someItems])]
    ["entity_id", "layer", "dimension", "root", "chain"]

def impactSchema : Schema :=
  .object [("changes", [.type [.object], .values (Schema.word ["Added", "Removed", "Modified"])]),
    ("status", statusSchema), ("impacted", .listOf impactedSchema),
    ("by_dimension", [.type [.object], .values Schema.textList]), ("unknown_ids", .textList)]
    ["changes", "status", "impacted", "by_dimension", "unknown_ids"]

def sectionSchema : Schema :=
  .object [("section", .word ["Contract", "DataFlow", "Reference", "Test"]),
    ("steps", .listOf .mapping)]
    ["section", "steps"]

def planSchema : Schema :=
  .object [("strategy", .word ["full-sync", "progressive-compatibility", "refactor-flagged"]),
    ("reasons", .textList), ("impacted_count", .count 0), ("sections", .listOf sectionSchema)]
    ["strategy", "reasons", "impacted_count", "sections"]

def diagnosticSchema : Schema :=
  .object [("file_path", .text), ("message", .text), ("severity", .word ["error", "warning"]),
    ("line", [.type [.integer, .null]]), ("extractor", .text?)]
    ["file_path", "message", "severity"]

def graphSchema : Schema :=
  .object [("version", .count 0), ("entities", .listOf entitySchema), ("edges", .listOf edgeSchema),
    ("stats", .mapping)]
    ["version", "entities", "edges", "stats"]

def contractsSchema : Schema :=
  .object [("pairs", .listOf pairSchema), ("findings", .listOf findingSchema)] ["pairs", "findings"]

def gapSchema : Schema :=
  .object [("file_path", .text), ("reason", .text)] ["file_path", "reason"]

def schema : Schema :=
  .closedObject [
    ("blastradius.report_version", [.type [.string], .equals (.str reportVersion)]),
    ("engine_version", .text), ("status", statusSchema), ("graph", graphSchema),
    ("contracts", contractsSchema), ("impact", .listOf impactSchema), ("plans", .listOf planSchema),
    ("diagnostics", .listOf diagnosticSchema), ("gaps", .listOf gapSchema)]
    ["blastradius.report_version", "engine_version", "status", "graph", "contracts", "impact",
      "plans", "diagnostics", "gaps"]

/-- What a document breaks of the schema. -/
def validate (v : Value) : List String := schema.check v

/-- The graph of a report. -/
def graphRecord (s : Snapshot) : Value :=
  .record [("version", .nat s.version), ("entities", .list (s.entities.map Entity.toRecord)),
    ("edges", .list (s.edges.map fun e => (e.map Value.str).toRecord)), ("stats", s.stats)]

/-- The contracts of a report. -/
def contractsRecord : Option ConsistencyReport → Value
  | some r => .record [("pairs", .list (r.pairs.map ContractPair.toRecord)),
    ("findings", .list (r.findings.map Finding.toRecord))]
  | none => .record [("pairs", .list []), ("findings", .list [])]

/-- Cancelled if the scan or an analysis was. -/
def statusFrom (impacts : List ImpactResult) (scan : Option Outstanding) : Status :=
  if scan.any (fun s => s.status == .cancelled) || impacts.any fun i => i.status == .cancelled then
    .cancelled
  else .completed

/-- The report on a snapshot. -/
def build (s : Snapshot) (consistency : Option ConsistencyReport) (impacts : List ImpactResult)
    (plans : List ChangePlan) (scan : Option Outstanding) (status : Status) : Value :=
  let diagnostics := (scan.map Outstanding.diagnostics).getD []
  let gaps := (scan.map Outstanding.gaps).getD []
  .record [("blastradius.report_version", .str reportVersion),
    ("engine_version", .str engineVersion), ("status", .str status.word),
    ("graph", graphRecord s), ("contracts", contractsRecord consistency),
    ("impact", .list (impacts.map ImpactResult.toRecord)),
    ("plans", .list (plans.map ChangePlan.toRecord)),
    ("diagnostics", .list (diagnostics.map Diagnostic.toRecord)),
    ("gaps", .list (gaps.map Gap.toRecord))]

/-- The status that a value names, or the one that follows from the results. -/
def statusOf (impacts : List ImpactResult) (scan : Option Outstanding) (v : Value) :
    Except Fault Status :=
  match v with
  | .null => .ok (statusFrom impacts scan)
  | _ => Vocabulary.decode Status v

end Report

end ChangeImpact
