import ChangeImpact.Extract.ConfigKeys
import ChangeImpact.Graph.Cycles
import ChangeImpact.Report.Basic
import ChangeImpact.Scan.Run

/-!
# The engine

Configuration, extractors and the graph store in one place. Operations give back the engine they
leave behind; every query works on one snapshot.
-/

namespace ChangeImpact

/-- The engine. -/
structure Engine where
  config : Config
  registry : Registry
  store : Store
  /-- The report of the latest scan that was not aborted. -/
  lastScan : Option ScanReport := none
  /-- What all scans left open. -/
  scanState : ScanState := {}

namespace Engine

/-- The extractors that a configuration asks for. -/
def registryFor (config : Config) : Registry := Registry.bundled config.extractorPatterns

/-- The store on a database, or an empty one. -/
def openStore : Option Database → Except Fault Store
  | none => .ok {}
  | some db => Store.restore db

/-- A new engine on a database that was prepared, or on none. -/
def create (config : Config) (registry : Registry) (database : Option Database) :
    Except Fault Engine := do
  return { config, registry, store := ← openStore database }

/-- A new engine like this one on the same database. If it cannot be made, this one stays, with the
database prepared again. -/
def reopen (e : Engine) : Engine × Except Fault Unit :=
  let database := e.store.database.map Database.prepare
  match create e.config e.registry database with
  | .ok new => (new, .ok ())
  | .error f => ({ e with store := { e.store with database } }, .error f)

/-- The number of workers of a scan. -/
def jobs (e : Engine) : Int :=
  match Entries.lookup e.config.scan "jobs" with
  | .int n => n
  | _ => 1

/-- Scans files into the graph, or rebuilds the graph from them. -/
def runScan (e : Engine) (files : Table Value) (token : Token) (jobs : Option Int)
    (rebuild : Bool) : Engine × Except Fault ScanReport :=
  let oneByOne := jobs.getD e.jobs ≤ 1
  match Scan.run e.registry e.store token oneByOne rebuild files with
  | (store, .error f) => ({ e with store }, .error f)
  | (store, .ok report) =>
    let before := if rebuild then {} else e.scanState
    ({ e with
       store
       lastScan := some report
       scanState := before.record files.keys report }, .ok report)

/-- Scans files into the graph. -/
def scan (e : Engine) (files : Table Value) (token : Token := {}) (jobs : Option Int := none) :
    Engine × Except Fault ScanReport :=
  e.runScan files token jobs false

/-- Drops the graph and rebuilds it from files. -/
def rebuild (e : Engine) (files : Table Value) (token : Token := {}) (jobs : Option Int := none) :
    Engine × Except Fault ScanReport :=
  e.runScan files token jobs true

/-- Retracts a file and forgets what its scans left open. -/
def removeFile (e : Engine) (file : String) : Engine × Except Fault Bool :=
  let (store, result) := e.store.remove file
  ({ e with store, scanState := e.scanState.forget file }, result)

/-- The current graph. -/
def snapshot (e : Engine) : Engine × Except Fault Snapshot :=
  let (store, result) := e.store.snapshot
  ({ e with store }, result)

/-- The contracts of a snapshot. -/
def check (e : Engine) (s : Snapshot) (declaredSide : Value := .null) (strict : Bool := false) :
    Except Fault ConsistencyReport :=
  Contract.check e.config s declaredSide strict

/-- The impact of changes, also from one side of a contract to the other. -/
def analyze (e : Engine) (s : Snapshot) (r : Impact.Request) (token : Token := {}) :
    Except Fault (ImpactResult × Token) := do
  let consistency ← e.check s
  Impact.analyze e.config s consistency.pairs r token

/-- The plan for an impact. -/
def plan (e : Engine) (impact : ImpactResult) (consistency : ConsistencyReport) :
    Except Fault ChangePlan :=
  ChangePlan.generate e.config impact consistency.pairs consistency.declaredSide

/-- The impacts of several change sets and their plans, with one token for all. -/
def analyzeAll (e : Engine) (s : Snapshot) (consistency : ConsistencyReport)
    (template : Impact.Request) : Token → List Value → Except Fault (List (ImpactResult × ChangePlan))
  | _, [] => .ok []
  | token, changes :: rest => do
    let (impact, next) ←
      Impact.analyze e.config s consistency.pairs { template with changes } token
    let plan ← e.plan impact consistency
    return (impact, plan) :: (← analyzeAll e s consistency template next rest)

/-- The report on a snapshot and some change sets. -/
def report (e : Engine) (s : Snapshot) (changeSets : Value := .list []) (dimensions : Value := .null)
    (maxDepth : Value := .null) (token : Token := {}) : Except Fault Value := do
  let consistency ← e.check s
  let sets ← changeSets.toMembers
  let results ← e.analyzeAll s consistency { changes := .null, dimensions, maxDepth } token sets
  let impacts := results.map (·.1)
  let scan := some e.scanState.outstanding
  return Report.build s (some consistency) impacts (results.map (·.2)) scan
    (Report.statusFrom impacts scan)

/-- The entities on which many others depend. -/
def critical (e : Engine) (s : Snapshot) : Except Fault (List Snapshot.Critical) :=
  s.critical (.int e.config.criticalThreshold)

end Engine

end ChangeImpact
