import ChangeImpact.Config.File
import ChangeImpact.Engine
import ChangeImpact.Service.Plain
import ChangeImpact.Service.Request
import ChangeImpact.Service.Settings

/-!
# The service

The engine behind requests. The engine is made when a request first needs it; it is looked for before
the body of a request is judged, so a broken configuration shows first. `Service.handle` answers a
request and gives back the service it leaves behind.
-/

namespace ChangeImpact

/-- An answer of the service. -/
inductive Reply where
  | answer (status : Nat) (body : Value)
  /-- The request does not fit. -/
  | refused (problems : List Service.Problem)
  /-- A status alone. -/
  | bare (status : Nat)
  /-- Something failed that the service does not expect. -/
  | crashed

namespace Reply

def status : Reply → Nat
  | .answer status _ | .bare status => status
  | .refused _ => 422
  | .crashed => 500

/-- An answer with a reason, if the reason can be sent. -/
def detail (status : Nat) (text : String) : Reply :=
  if Text.hasHalf text then .crashed else .answer status (.record [("detail", .str text)])

/-- The answer with a result, if the result can be sent. -/
def ok (body : Value) : Reply :=
  match Service.sendable? body with
  | some v => .answer 200 v
  | none => .crashed

end Reply

/-- The database that a service uses, and what stands at its path before it is first opened. -/
structure Disk where
  path : String
  found : DatabaseFile
  content : Option Database := none

/-- The database as an opening finds it. -/
def Disk.opened (d : Disk) : Except Fault Database := do
  Config.checkPath d.path
  match d.found, d.content with
  | .transient, _ | _, none => Database.create d.path d.found
  | _, some db => .ok db.prepare

/-- A service. -/
structure Service where
  settings : Service.Settings
  /-- The path and content of the configuration file, if there is one. -/
  configFile : Option (String × Config.FileContent) := none
  disk : Option Disk := none
  engine : Option Engine := none

namespace Service

/-- The reply to a failure to make an engine. -/
def engineFailure : Fault → Reply
  | .config cause => .detail 500 ("Invalid engine configuration: " ++ cause.message)
  | .storage cause => .detail 500 ("Graph storage unavailable: " ++ cause.message)
  | _ => .crashed

/-- The configuration of the service. -/
def loadConfig (s : Service) : Except Fault Config :=
  match s.configFile with
  | some (path, content) => Config.load path content
  | none => .ok Config.default

/-- The disk with a database as its content. -/
def withDatabase (s : Service) (db : Database) : Service :=
  { s with disk := s.disk.map fun d => { d with content := some db } }

/-- The engine of the service, made if there is none. -/
def engineOf (s : Service) : Service × Except Reply Engine :=
  match s.engine, s.loadConfig with
  | some e, _ => (s, .ok e)
  | none, .error f => (s, .error (engineFailure f))
  | none, .ok config =>
    match s.disk.map Disk.opened with
    | some (.error f) => (s, .error (engineFailure f))
    | some (.ok db) =>
      let opened := s.withDatabase db
      match Engine.create config (Engine.registryFor config) (some db) with
      | .ok e => ({ opened with engine := some e }, .ok e)
      | .error f => (opened, .error (engineFailure f))
    | none =>
      match Engine.create config (Engine.registryFor config) none with
      | .ok e => ({ s with engine := some e }, .ok e)
      | .error f => (s, .error (engineFailure f))

/-- The service after its engine changed. -/
def keep (s : Service) (e : Engine) : Service :=
  let next := { s with engine := some e }
  match e.store.database with
  | some db => next.withDatabase db
  | none => next

/-- Drops the engine. -/
def restart (s : Service) : Service := { s with engine := none }

/-- Drops a table of the database behind the engine's back. -/
def dropTable (s : Service) (table : String) : Except Fault Service :=
  match s.disk.bind Disk.content with
  | none => .error (.statement ("no such table: " ++ table))
  | some db => do
    let next ← db.drop table
    return { s.withDatabase next with
      engine := s.engine.map fun e =>
        { e with store := { e.store with database := e.store.database.map fun _ => next } } }

/-- The reply to what was computed, with replies for the faults that are expected. -/
def replyOf (expected : Fault → Option Reply) : Except Fault Value → Reply
  | .ok v => .ok v
  | .error f => (expected f).getD .crashed

def storageReply : Fault → Option Reply
  | .storage cause => some (.detail 500 cause.message)
  | _ => none

def valueReply (f : Fault) : Option Reply :=
  if f.isValueFault then some (.detail 400 f.message) else none

def duplicateReply (f : Fault) : Option Reply :=
  match f with
  | .duplicateRoute .. => some (.detail 409 f.message)
  | _ => none

def health (s : Service) : Reply :=
  .ok (.record [("status", .str "ok"), ("engine", .str "blastradius"),
    ("version", .str Report.engineVersion), ("report_version", .str Report.reportVersion),
    ("persistence", .bool (s.disk.isSome || s.settings.dbPath.any fun p => !p.isEmpty))])

def scan (s : Service) (e : Engine) (r : ScanRequest) : Service × Reply :=
  let files := Table.ofList (r.files.map fun f => (f.1, Value.str f.2))
  let (next, result) := e.runScan files {} (r.jobs <|> s.settings.jobs) r.rebuild
  (s.keep next, replyOf storageReply (result.map ScanReport.toRecord))

/-- A query that works on the current snapshot. -/
def query (s : Service) (e : Engine) (f : Engine → Snapshot → Reply) : Service × Reply :=
  match e.snapshot with
  | (next, .ok view) => (s.keep next, f next view)
  | (next, .error _) => (s.keep next, .crashed)

def textsValue : Option (List String) → Value
  | some names => .texts names
  | none => .null

def intValue : Option Int → Value
  | some n => .int n
  | none => .null

def changesValue (changes : List (String × String)) : Value :=
  .record (changes.map fun c => (c.1, .str c.2))

/-- The impact of a change set and, if wanted, the plan for it. -/
def impact (q : ImpactQuery) (e : Engine) (view : Snapshot) : Reply :=
  let ids := q.changes.map (·.1)
  if !ids.isEmpty && !ids.any view.has then
    .detail 404 ("Unknown entities: " ++ ", ".intercalate (sortTexts ids))
  else
    match e.check view with
    | .error _ => .crashed
    | .ok consistency =>
      match Impact.analyze e.config view consistency.pairs {
          changes := changesValue q.changes, dimensions := textsValue q.dimensions
          maxDepth := intValue q.maxDepth, direction := .text? q.direction } {} with
      | .error f => (valueReply f).getD .crashed
      | .ok (result, _) =>
        let plan : Except Fault Value :=
          if q.includePlan then (e.plan result consistency).map ChangePlan.toRecord else .ok .null
        replyOf (fun _ => none) (plan.map fun p =>
          .record [("impact", result.toRecord), ("plan", p)])

/-- The contracts, with a side that is declared for this query. -/
def contracts (s : Service) (side : Option String) (e : Engine) (view : Snapshot) : Reply :=
  replyOf duplicateReply
    ((e.check view (.text? side) s.settings.strictContracts).map ConsistencyReport.toRecord)

/-- Statistics, critical entities and cycles of the graph. -/
def graphStats (e : Engine) (view : Snapshot) : Reply :=
  replyOf (fun _ => none) do
    let critical ← e.critical view
    return .map (Config.entriesOf view.stats ++
      [(.str "critical_entities", .list (critical.map Snapshot.Critical.toRecord)),
        (.str "cycles", .list (view.cycles.map .texts))])

/-- What the service can be asked. -/
inductive Endpoint where
  | health
  | scan
  | impact
  | contracts
  | report
  | reportFor
  | graphStats
  /-- A page on the service itself. -/
  | page
deriving DecidableEq, Repr

/-- The paths of the pages on the service itself. -/
def pages : List String := ["/openapi.json", "/docs", "/docs/oauth2-redirect", "/redoc"]

/-- Methods, paths and what they ask for. Only pages have a head. -/
def endpoints : List (String × String × Endpoint) :=
  [("GET", "/health", .health), ("POST", "/scan", .scan), ("POST", "/impact", .impact),
    ("GET", "/contracts", .contracts), ("GET", "/report", .report), ("POST", "/report", .reportFor),
    ("GET", "/graph/stats", .graphStats)] ++
  pages.flatMap fun path => [("GET", path, .page), ("HEAD", path, .page)]

/-- An endpoint's path serves a path, which may have a line feed at its end. -/
def serves (own path : String) : Bool := path == own || path == own.push '\n'

/-- The path that serves a path: itself, or the path without slashes at its end. -/
def servedPath (path : String) : String :=
  let known (p : String) : Bool := endpoints.any fun e => serves e.2.1 p
  let short := String.ofList (Text.dropWhileEnd (· == '/') path.toList)
  if !known path && known short then short else path

/-- What a request asks for, or why there is no such thing. -/
def endpointOf (r : Request) : Except Reply Endpoint :=
  let here := endpoints.filter fun e => serves e.2.1 (servedPath r.path)
  match here.find? fun e => e.1 == r.method with
  | some (_, _, endpoint) => .ok endpoint
  | none => .error (if here.isEmpty then .detail 404 "Not Found" else .detail 405 "Method Not Allowed")

/-- Goes on with what was read, or refuses the request. -/
def withRead {α : Type} (s : Service) (read : Read α) (go : α → Service × Reply) : Service × Reply :=
  match read with
  | .ok a => go a
  | .error problems => (s, .refused problems)

/-- Answers a request with an engine. -/
def respond (s : Service) (e : Engine) (r : Request) : Endpoint → Service × Reply
  | .health => (s, s.health)
  | .scan => s.withRead (ScanRequest.ofBody r.body) (s.scan e)
  | .impact => s.withRead (ImpactQuery.ofBody r.body) fun q => s.query e (impact q)
  | .contracts => s.withRead (declaredSideOf r.query) fun side => s.query e (s.contracts side)
  | .report => s.query e fun e view => replyOf (fun _ => none) (e.report view)
  | .reportFor => s.withRead (ReportQuery.ofBody r.body) fun q =>
    s.query e fun e view => replyOf valueReply
      (e.report view (.list (q.changeSets.map changesValue)) (textsValue q.dimensions)
        (intValue q.maxDepth))
  | .graphStats => s.query e graphStats
  | .page => (s, .bare 200)

/-- Answers a request; a request for the head of an answer gets no body. What a page says is left to
those who serve it. -/
def handle (s : Service) (r : Request) : Service × Reply :=
  match endpointOf r with
  | .error reply => (s, if r.method == "HEAD" then .bare reply.status else reply)
  | .ok .health => (s, s.health)
  | .ok .page => (s, .bare 200)
  | .ok endpoint =>
    match s.engineOf with
    | (next, .error reply) => (next, reply)
    | (next, .ok e) => next.respond e r endpoint

end Service

end ChangeImpact
