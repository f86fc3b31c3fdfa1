import ChangeImpact.Extract.Manifest

/-!
# Keys of configuration files

Each leaf of a configuration file, a key whose value is not a mapping with entries, is an entity
named by the dotted path of keys that leads to it. Its lines run from the key to the end of the
value.
-/

namespace ChangeImpact.ConfigKeys

open Yaml (Node)

def extractorName : String := "yaml_config"

/-- A diagnostic of the configuration extractor. -/
def diagnostic (path message severity : String) (line : Option Int) : Diagnostic :=
  { file := path, message, severity, line, extractor := some extractorName }

/-- The part of a tag after its last colon. -/
def valueType (tag : String) : String :=
  String.ofList (tag.toList.reverse.takeWhile (· != ':')).reverse

/-- The line of a mark, counted from one. -/
def lineOf (m : Yaml.Mark) : Int := (m.line : Int) + 1

/-- The dotted path of keys. -/
def dotted (keys : List String) : String := ".".intercalate keys

/-- The entity of a leaf. -/
def leaf (file : String) (keys : List String) (key value : Node) : Entity :=
  let name := dotted keys
  let id := entityId file .configKey name
  { id
    kind := .configKey
    language := "yaml"
    location := { file, startLine := lineOf key.start, endLine := lineOf value.stop }
    name := if name.isEmpty then id else name
    layer := none
    shape := none
    metadata := [(.str "key", .str name), (.str "value_type", .str (valueType value.tag))] }

mutual

/-- The leaves below a value that the given keys lead to, the last of them `key`, and a warning for
each key below it that is not a scalar. Below a mapping that contains itself there is no end of
leaves. -/
def leaves (file : String) (keys : List String) (key : Node) :
    Node → Except Fault (List Entity × List Diagnostic)
  | .mapping info entries =>
    if entries.isEmpty then .ok ([leaf file keys key (.mapping info entries)], [])
    else entriesLeaves file keys entries
  | .around .. => .error .endless
  | value => .ok ([leaf file keys key value], [])
termination_by structural value => value

/-- The leaves below one entry. -/
def entryLeaves (file : String) (keys : List String) :
    Node × Node → Except Fault (List Entity × List Diagnostic)
  | (key, value) =>
    match key with
    | .scalar _ text => leaves file (keys ++ [text]) key value
    | _ =>
      .ok ([], [diagnostic file "Skipped non-scalar configuration key" Diagnostic.warningSeverity
        (some (lineOf key.start))])
termination_by structural e => e

/-- The leaves below the entries of a mapping. -/
def entriesLeaves (file : String) (keys : List String) :
    List (Node × Node) → Except Fault (List Entity × List Diagnostic)
  | [] => .ok ([], [])
  | e :: es => do
    let own ← entryLeaves file keys e
    let more ← entriesLeaves file keys es
    return (own.1 ++ more.1, own.2 ++ more.2)
termination_by structural es => es

end

/-- The result of a configuration text. -/
def extract (content path : String) : Except Fault ScanResult := do
  match Node.ofText? content.toList with
  | .error failure =>
    let (words, line) ← Manifest.problemOf failure
    return .ofDiagnostic (diagnostic path ("Invalid YAML: " ++ words) Diagnostic.errorSeverity line)
  | .ok none => return { file := path }
  | .ok (some (.mapping _ entries)) =>
    let (entities, diagnostics) ← entriesLeaves path [] entries
    return { file := path, entities, diagnostics }
  | .ok (some root) =>
    return .ofDiagnostic (diagnostic path "Configuration root must be a mapping"
      Diagnostic.errorSeverity (some (lineOf root.start)))

def extractor : Extractor where
  name := extractorName
  roles := [.config]
  patterns := ["config/*.yml", "config/*.yaml", "*.config.yml", "*.config.yaml"]
  extract content path := do return .result (← extract (← Extractor.textOf content) path)

end ChangeImpact.ConfigKeys

namespace ChangeImpact

/-- The registry of the bundled extractors, with other patterns for those named. -/
def Registry.bundled (patterns : List (String × List String) := []) : Registry :=
  [Manifest.extractor, ConfigKeys.extractor].foldl (fun r x =>
    r.register x ((patterns.find? fun p => p.1 == x.name).map (·.2))) {}

end ChangeImpact
