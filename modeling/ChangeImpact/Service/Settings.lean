import ChangeImpact.Fault
import ChangeImpact.Service.Reading

/-!
# Settings of the service

Where the service finds its configuration and its database, and how it answers. Names that are no
settings are ignored.
-/

namespace ChangeImpact.Service

/-- The settings of a service. -/
structure Settings where
  configPath : Option String := none
  /-- The database file; without one the graph is in memory only. -/
  dbPath : Option String := none
  /-- The number of workers of a scan; without one that of the configuration. -/
  jobs : Option Int := none
  /-- Duplicate contracts are an error. -/
  strictContracts : Bool := false
  /-- Allowed origins, separated by commas. -/
  originsText : String := ""
  logLevel : String := "INFO"
deriving DecidableEq, Repr

namespace Settings

def logLevels : List String := ["DEBUG", "INFO", "WARNING", "ERROR"]

/-- The allowed origins one by one. -/
def origins (s : Settings) : List String :=
  ((Text.splitAt ',' s.originsText.toList).map Text.trim).filterMap fun o =>
    if o.isEmpty then none else some (String.ofList o)

/-- Reads settings by name. -/
def read (values : Entries) : Read Settings :=
  (Read.both (field values [] "config_path" none (optional text))
    (Read.both (field values [] "db_path" none (optional text))
      (Read.both (field values [] "jobs" none (optional integer))
        (Read.both (field values [] "strict_contracts" false flag)
          (Read.both (field values [] "allowed_origins_raw" "" text)
            (field values [] "log_level" "INFO" (member logLevels))))))).map
    fun (configPath, dbPath, jobs, strictContracts, originsText, logLevel) =>
      { configPath, dbPath, jobs, strictContracts, originsText, logLevel }

/-- The settings that values stand for. -/
def ofEntries (values : Entries) : Except Fault Settings :=
  match read values with
  | .ok s => .ok s
  | .error _ => .error .invalidRequest

def toRecord (s : Settings) : Value :=
  .record [("config_path", .text? s.configPath), ("db_path", .text? s.dbPath),
    ("jobs", match s.jobs with | some n => .int n | none => .null),
    ("strict_contracts", .bool s.strictContracts), ("allowed_origins_raw", .str s.originsText),
    ("log_level", .str s.logLevel), ("allowed_origins", .texts s.origins)]

end Settings

end ChangeImpact.Service
