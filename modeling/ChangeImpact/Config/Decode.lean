import ChangeImpact.Config.Basic

/-!
# Decoding configuration

A partial mapping is merged over the defaults, mapping by mapping; only the groups of equivalent
types and the table of type names replace theirs as a whole. Then every section is judged in turn and
the first fault is reported.
-/

namespace ChangeImpact.Config

/-- The entries whose keys a base does not have. -/
def newEntries (base given : Entries) : Entries :=
  given.filter fun e => (Entries.get? base e.1).isNone

mutual

/-- A value over a base: mappings are merged, anything else replaces the base. -/
def mergeValue (given : Value) : Value → Value
  | .map base =>
    match given.unfold with
    | .map entries => .map (mergeInPlace entries base ++ newEntries base entries)
    | _ => given
  | _ => given
termination_by structural base => base

/-- An entry of the base with the value given for its key merged over it. -/
def mergeEntry (given : Entries) : Value × Value → Value × Value
  | (k, base) =>
    match Entries.get? given k with
    | some v => (k, mergeValue v base)
    | none => (k, base)
termination_by structural e => e

/-- The entries of the base, each with the value given for its key merged over it. -/
def mergeInPlace (given : Entries) : List (Value × Value) → Entries
  | [] => []
  | e :: es => mergeEntry given e :: mergeInPlace given es
termination_by structural es => es

end

/-- Entries over those of a base: the base keeps its order, and new keys follow. -/
def mergeEntries (base given : Entries) : Entries := mergeInPlace given base ++ newEntries base given

def fail {α : Type} (cause : ConfigFault) : Except Fault α := .error (.config cause)

def requireMapping (place : String) (v : Value) : Except Fault Entries :=
  match v.unfold with
  | .map entries => .ok entries
  | _ => fail (.notMapping place v.typeName)

def isText : Value → Bool
  | .str _ => true
  | _ => false

def requireTexts (place : String) (v : Value) : Except Fault (List String) :=
  match v.unfold with
  | .list items => if items.all isText then .ok (textsOf v) else fail (.notTexts place)
  | _ => fail (.notTexts place)

/-- A number between zero and one that is no truth value. -/
def isRatio : Value → Bool
  | .int n => 0 ≤ n && n ≤ 1
  | .float x => Edge.isConfidence x
  | _ => false

/-- Adds the names of a group; a name may belong to one group only. -/
def addNames (group : Value) : (groups : List (String × Value)) → List String →
    Except Fault (List (String × Value))
  | groups, [] => .ok groups
  | groups, name :: names =>
    match groups.find? fun g => g.1 == name with
    | some g =>
      if g.2.same group && !group.isNan then addNames group groups names
      else do fail (.ambiguousType name (← g.2.toText) (← group.toText))
    | none => addNames group (groups ++ [(name, group)]) names

/-- Judges the groups of equivalent types. -/
def checkGroups : (groups : List (String × Value)) → Entries → Except Fault Unit
  | _, [] => .ok ()
  | groups, (group, names) :: rest => do
    let names ← requireTexts ("type_equivalence." ++ (← group.toText)) names
    checkGroups (← addNames group groups names) rest

def checkTypeEquivalence (v : Value) : Except Fault Entries := do
  let entries ← requireMapping "type_equivalence" v
  checkGroups [] entries
  return entries

def checkThreshold (entry : Value × Value) : Except Fault Unit := do
  if (Vocabulary.ofValue? Dimension entry.1).isNone then
    fail (.unknownDimension (← entry.1.toText))
  if !isRatio entry.2 then
    fail (.badThreshold (← entry.1.toText) (← entry.2.toLiteral))

def checkThresholds (v : Value) : Except Fault Entries := do
  let entries ← requireMapping "confidence_thresholds" v
  entries.forM checkThreshold
  return entries

/-- An integer that is not less than a bound. -/
def isIntegerFrom (bound : Int) : Value → Bool
  | .int n => bound ≤ n
  | _ => false

/-- A count of entities. -/
def checkCount (entries : Entries) (key : String) : Except Fault Unit := do
  let v := Entries.lookup entries key
  if !isIntegerFrom 0 v then fail (.badCount key (← v.toLiteral))

def checkPlan (v : Value) : Except Fault Entries := do
  let entries ← requireMapping "plan_thresholds" v
  checkCount entries "full_sync_max_impacted"
  checkCount entries "refactor_min_impacted"
  let ratio := Entries.lookup entries "refactor_mismatch_ratio"
  if !isRatio ratio then fail (.badRatio (← ratio.toLiteral))
  return entries

def checkRule (entry : Value × Value) : Except Fault Unit := do
  let layer ← entry.1.toText
  match entry.1 with
  | .str "frontend" | .str "backend" =>
    let rule ← requireMapping ("contracts.naming_rules." ++ layer) entry.2
    for key in ["strip_prefixes", "strip_suffixes"] do
      let _ ← requireTexts ("contracts.naming_rules." ++ layer ++ "." ++ key)
        (Entries.lookupD rule key (.list []))
  | _ => fail (.unknownLayer layer)

def isSide : Value → Bool
  | .str "frontend" | .str "backend" => true
  | _ => false

def checkContracts (v : Value) : Except Fault Entries := do
  let entries ← requireMapping "contracts" v
  let mappings ← requireMapping "contracts.mappings" (Entries.lookupD entries "mappings" (.map []))
  if !mappings.all fun m => isText m.1 && isText m.2 then fail .badMapping
  let rules ← requireMapping "contracts.naming_rules" (Entries.lookupD entries "naming_rules" (.map []))
  rules.forM checkRule
  let _ ← requireTexts "contracts.route_prefixes" (Entries.lookupD entries "route_prefixes" (.list []))
  if !isSide (Entries.lookupD entries "declared_side" (.str "frontend")) then fail .badDeclaredSide
  return entries

def checkCritical (v : Value) : Except Fault Int :=
  match v with
  | .int n => if 1 ≤ n then .ok n else do fail (.badCriticalThreshold (← v.toLiteral))
  | _ => do fail (.badCriticalThreshold (← v.toLiteral))

def checkScan (v : Value) : Except Fault Entries := do
  let entries ← requireMapping "scan" v
  let jobs := Entries.lookupD entries "jobs" (.int 1)
  if !isIntegerFrom 1 jobs then fail (.badJobs (← jobs.toLiteral))
  let patterns ← requireMapping "scan.extractor_patterns"
    (Entries.lookupD entries "extractor_patterns" (.map []))
  for entry in patterns do
    let _ ← requireTexts ("scan.extractor_patterns." ++ (← entry.1.toText)) entry.2
  return entries

/-- A section, where null stands for its default. -/
def sectionOf (merged : Entries) (name : String) : Value :=
  match Entries.lookup merged name with
  | .null => Entries.lookup defaults name
  | v => v

/-- Judges all sections in turn. -/
def ofSections (merged : Entries) : Except Fault Config := do
  let typeEquivalence ← checkTypeEquivalence (sectionOf merged "type_equivalence")
  let confidenceThresholds ← checkThresholds (sectionOf merged "confidence_thresholds")
  let planThresholds ← checkPlan (sectionOf merged "plan_thresholds")
  let contracts ← checkContracts (sectionOf merged "contracts")
  let criticalThreshold ← checkCritical (Entries.lookup merged "critical_dependents_threshold")
  let scan ← checkScan (sectionOf merged "scan")
  return { typeEquivalence, confidenceThresholds, planThresholds, contracts, scan, criticalThreshold }

/-- The keys that no section has; a key that is no text cannot even be listed. -/
def checkKeys (data : Entries) : Except Fault Unit := do
  let unknown := data.filter fun e => (Entries.get? defaults e.1).isNone
  match unknown.find? fun e => !isText e.1 with
  | some e => .error (.type (.notText e.1.qualifiedTypeName))
  | none =>
    if !unknown.isEmpty then
      fail (.unknownKeys ((unknown.map fun e => e.1.text).mergeSort Text.le))

/-- The value of a key that replaces the default as a whole. -/
def replaceWhole (merged data : Entries) (key : String) : Entries :=
  match Entries.lookup? data key with
  | some v => Entries.putName merged key v
  | none => merged

/-- The sections of a partial mapping over the defaults. -/
def mergeOver (data : Entries) : Entries :=
  let merged := replaceWhole (mergeEntries defaults data) data "type_equivalence"
  match (Entries.lookup data "contracts").unfold, Entries.lookup merged "contracts" with
  | .map given, .map contracts =>
    Entries.putName merged "contracts" (.map (replaceWhole contracts given "mappings"))
  | _, _ => merged

/-- The configuration of a partial mapping. -/
def ofValue (v : Value) : Except Fault Config := do
  let data ← requireMapping "configuration" v
  checkKeys data
  ofSections (mergeOver data)

/-- The default configuration. -/
def default : Config :=
  match ofValue (.map []) with
  | .ok c => c
  | .error _ => ⟨[], [], [], [], [], 5⟩

end ChangeImpact.Config
