import ChangeImpact.Kind

/-!
# Faults

Why an operation fails, by cause. Every fault has a `name`, the class under which it is reported, and
a `message` in words. The faults that belong to the engine are those of entity and edge records,
rejected merges, contract registration, configuration and storage; the others say that a value
cannot be used as the code uses it.
-/

namespace ChangeImpact

/-- An entity record is malformed. -/
inductive EntityFault where
  | notMapping (typeName : String)
  | missingKeys (record : String)
  | shapeNotList (id : String)
  | metadataNotMapping (id : String)
  | badField (field : String)
  | badId (id : String)
  | badKind (word : String)
  | badLayer (word : String)
  | shapeForbidden (id : String) (kind : EntityKind)
  /-- An entry of a manifest is no mapping. -/
  | entryNotMapping (typeName : String)
  | entryUnnamed
  | entryLines (name : String)
  | entryShape (name : String)
deriving DecidableEq, Repr

def EntityFault.message : EntityFault → String
  | .notMapping t => "Entity record must be a mapping, got " ++ t
  | .missingKeys r => "Entity record needs 'id' and 'kind': " ++ r
  | .shapeNotList id => "Shape of '" ++ id ++ "' must be a list"
  | .metadataNotMapping id => "Metadata of '" ++ id ++ "' must be a mapping"
  | .badField f => "Shape field must be a mapping with a 'name': " ++ f
  | .badId id => "Entity id must be a non-empty string, got " ++ id
  | .badKind w =>
    "Invalid entity kind '" ++ w ++ "' (expected one of: " ++ Vocabulary.listing EntityKind ++ ")"
  | .badLayer w => "Invalid layer '" ++ w ++ "' (expected one of: " ++ Vocabulary.listing Layer ++ ")"
  | .shapeForbidden id kind =>
    "Entity '" ++ id ++ "' of kind " ++ kind.word ++ " cannot carry a shape"
  | .entryNotMapping t => "entity must be a mapping, got " ++ t
  | .entryUnnamed => "entity needs a 'name' or an 'id'"
  | .entryLines n => "'lines' of '" ++ n ++ "' must be [start, end]"
  | .entryShape n => "shape of '" ++ n ++ "' must be a list"

/-- An edge record is malformed. -/
inductive EdgeFault where
  | notMapping (typeName : String)
  | missingDimension (record : String)
  | emptyEnd (source target : String)
  | badDimension (word : String)
  | badDirection (word : String)
  | badConfidence (value : String)
  | confidenceRange (confidence source target : String)
  | referenceConfidence (confidence source target : String)
  /-- An entry of a manifest is no mapping. -/
  | entryNotMapping (typeName : String)
deriving DecidableEq, Repr

def EdgeFault.message : EdgeFault → String
  | .notMapping t => "Edge record must be a mapping, got " ++ t
  | .missingDimension r => "Edge record needs a 'dimension': " ++ r
  | .emptyEnd s t => "Edge endpoints must be non-empty (" ++ s ++ " -> " ++ t ++ ")"
  | .badDimension w =>
    "Invalid dimension '" ++ w ++ "' (expected one of: " ++ Vocabulary.listing Dimension ++ ")"
  | .badDirection w =>
    "Invalid direction '" ++ w ++ "' (expected one of: " ++ Vocabulary.listing Direction ++ ")"
  | .badConfidence v => "Edge confidence must be a number, got " ++ v
  | .confidenceRange c s t =>
    "Edge confidence " ++ c ++ " outside [0, 1] for " ++ s ++ " -> " ++ t
  | .referenceConfidence c s t =>
    "Reference edge " ++ s ++ " -> " ++ t ++ " must have confidence 1.0, got " ++ c
  | .entryNotMapping t => "edge must be a mapping, got " ++ t

/-- The pair by which two declarations of one id must agree. -/
structure Identity where
  kind : EntityKind
  language : String
deriving DecidableEq, Repr

def Identity.text (i : Identity) : String := i.kind.word ++ "/" ++ i.language

/-- A file's scan result is rejected. -/
inductive MergeFault where
  | stale (file : String) (version current : Int)
  | duplicateId (id : String) (existing incoming : Identity) (owner : String)
  | danglingEdge (source target missing : String)
deriving DecidableEq, Repr

def MergeFault.name : MergeFault → String
  | .stale .. => "StaleScanError"
  | .duplicateId .. => "DuplicateIdError"
  | .danglingEdge .. => "DanglingEdgeError"

def MergeFault.message : MergeFault → String
  | .stale file version current =>
    "Stale scan for " ++ file ++ ": version " ++ intText version ++ " is not newer than " ++
      intText current
  | .duplicateId id existing incoming owner =>
    "Entity id '" ++ id ++ "' is already registered as " ++ existing.text ++
      (if owner.isEmpty then "" else " (declared by " ++ owner ++ ")") ++
      ", cannot redeclare it as " ++ incoming.text
  | .danglingEdge source target missing =>
    "Edge " ++ source ++ " -> " ++ target ++ " references unknown entity '" ++ missing ++ "'"

/-- Configuration is malformed. -/
inductive ConfigFault where
  | notMapping (place typeName : String)
  | notTexts (place : String)
  | unknownKeys (keys : List String)
  | ambiguousType (name first second : String)
  | unknownDimension (name : String)
  | badThreshold (dimension value : String)
  | badCount (key value : String)
  | badRatio (value : String)
  | badMapping
  | unknownLayer (name : String)
  | badDeclaredSide
  | badCriticalThreshold (value : String)
  | badJobs (value : String)
  | unreadable (path reason : String)
  | invalidYaml (path problem : String)
deriving DecidableEq, Repr

def ConfigFault.message : ConfigFault → String
  | .notMapping place t => "'" ++ place ++ "' must be a mapping, got " ++ t
  | .notTexts place => "'" ++ place ++ "' must be a list of strings"
  | .unknownKeys keys => "Unknown configuration keys: " ++ ", ".intercalate keys
  | .ambiguousType name first second =>
    "Type '" ++ name ++ "' appears in equivalence groups '" ++ first ++ "' and '" ++ second ++ "'"
  | .unknownDimension name => "Unknown dimension '" ++ name ++ "' in confidence_thresholds"
  | .badThreshold dim v =>
    "confidence_thresholds." ++ dim ++ " must be a number in [0, 1], got " ++ v
  | .badCount key v => "plan_thresholds." ++ key ++ " must be a non-negative integer, got " ++ v
  | .badRatio v => "plan_thresholds.refactor_mismatch_ratio must be in [0, 1], got " ++ v
  | .badMapping => "contracts.mappings must map frontend type names to backend type names"
  | .unknownLayer name => "Unknown layer '" ++ name ++ "' in contracts.naming_rules"
  | .badDeclaredSide => "contracts.declared_side must be 'frontend' or 'backend'"
  | .badCriticalThreshold v =>
    "critical_dependents_threshold must be a positive integer, got " ++ v
  | .badJobs v => "scan.jobs must be a positive integer, got " ++ v
  | .unreadable path reason => "Cannot read config file " ++ path ++ ": " ++ reason
  | .invalidYaml path problem => "Invalid YAML in config file " ++ path ++ ": " ++ problem

/-- Graph storage failed; `reason` is what the database reports. -/
inductive StorageFault where
  | cannotOpen (path reason : String)
  | cannotInitialize (path reason : String)
  | persist (files : List String) (reason : String)
  | delete (file reason : String)
  | clear (reason : String)
  | loadVersions (reason : String)
  | load (reason : String)
  | corrupt (path reason : String)
deriving DecidableEq, Repr

def StorageFault.message : StorageFault → String
  | .cannotOpen path reason => "Cannot open graph database " ++ path ++ ": " ++ reason
  | .cannotInitialize path reason => "Cannot initialize graph database " ++ path ++ ": " ++ reason
  | .persist files reason => "Failed to persist " ++ ", ".intercalate files ++ ": " ++ reason
  | .delete file reason => "Failed to delete " ++ file ++ ": " ++ reason
  | .clear reason => "Failed to clear graph database: " ++ reason
  | .loadVersions reason => "Failed to load scan versions: " ++ reason
  | .load reason => "Failed to load graph database: " ++ reason
  | .corrupt path reason => "Corrupt record in graph database " ++ path ++ ": " ++ reason

/-- Why the system does not open a file. -/
inductive SystemFault where
  | notFound
  | isDirectory
  | nameTooLong
deriving DecidableEq, Repr

def SystemFault.name : SystemFault → String
  | .notFound => "FileNotFoundError"
  | .isDirectory => "IsADirectoryError"
  | .nameTooLong => "OSError"

/-- What the system reports on a path. -/
def SystemFault.message (path : String) : SystemFault → String
  | .notFound => "[Errno 2] No such file or directory: " ++ quotedText path
  | .isDirectory => "[Errno 21] Is a directory: " ++ quotedText path
  | .nameTooLong => "[Errno 36] File name too long: " ++ quotedText path

/-- A value of the right type that is not acceptable. -/
inductive ValueFault where
  | notInt (base : Nat) (literal : String)
  | tooManyDigits (count : Nat)
  /-- An integer with too many digits to be written. -/
  | unwritable
  /-- A collection that contains itself cannot be written as a document. -/
  | circular
  /-- A number that is not finite has no form in a strict document. -/
  | notFinite
  | notFloat (literal : String)
  | nanToInt
  | calendar (fault : CalendarFault)
  /-- A literal that is no member of the vocabulary of that title. -/
  | notMember (literal title : String)
  | entryLength (index length : Nat)
  | negativeDepth (depth : String)
  /-- A number beyond the last code point. -/
  | codePoint
  /-- A path with a null character in it. -/
  | nullCharacter
  | document (problem : String)
deriving DecidableEq, Repr

def ValueFault.message : ValueFault → String
  | .notInt base literal =>
    "invalid literal for int() with base " ++ natText base ++ ": " ++
      String.ofList (literal.toList.take 200)
  | .tooManyDigits count =>
    "Exceeds the limit (4300 digits) for integer string conversion: value has " ++ natText count ++
      " digits; use sys.set_int_max_str_digits() to increase the limit"
  | .unwritable =>
    "Exceeds the limit (4300 digits) for integer string conversion; " ++
      "use sys.set_int_max_str_digits() to increase the limit"
  | .circular => "Circular reference detected"
  | .notFinite => "Out of range float values are not JSON compliant"
  | .notFloat literal => "could not convert string to float: " ++ literal
  | .nanToInt => "cannot convert float NaN to integer"
  | .calendar fault => fault.message
  | .notMember literal title => literal ++ " is not a valid " ++ title
  | .entryLength index length =>
    "dictionary update sequence element #" ++ natText index ++ " has length " ++ natText length ++
      "; 2 is required"
  | .negativeDepth depth => "max_depth must be non-negative, got " ++ depth
  | .codePoint => "chr() arg not in range(0x110000)"
  | .nullCharacter => "embedded null byte"
  | .document problem => problem

/-- A value of a type that the operation does not take. -/
inductive TypeFault where
  | notInteger (typeName : String)
  | notFloating (typeName : String)
  | notKey (typeName : String)
  | notIterable (typeName : String)
  | entryNotSequence (index : Nat)
  | notOrdered (left right : String)
  | notText (typeName : String)
  | notMatchable (typeName : String)
  | notEncodable (typeName : String)
  | badDocumentKey (typeName : String)
deriving DecidableEq, Repr

def TypeFault.message : TypeFault → String
  | .notInteger t =>
    "int() argument must be a string, a bytes-like object or a real number, not '" ++ t ++ "'"
  | .notFloating t => "float() argument must be a string or a real number, not '" ++ t ++ "'"
  | .notKey t => "unhashable type: '" ++ t ++ "'"
  | .notIterable t => "'" ++ t ++ "' object is not iterable"
  | .entryNotSequence index =>
    "cannot convert dictionary update sequence element #" ++ natText index ++ " to a sequence"
  | .notOrdered left right =>
    "'<' not supported between instances of '" ++ left ++ "' and '" ++ right ++ "'"
  | .notText t => "sequence item 0: expected str instance, " ++ t ++ " found"
  | .notMatchable t => "expected string or bytes-like object, got '" ++ t ++ "'"
  | .notEncodable t => "Object of type " ++ t ++ " is not JSON serializable"
  | .badDocumentKey t => "keys must be str, int, float, bool or None, not " ++ t

/-- A number too large for where it has to fit. -/
inductive OverflowFault where
  | infinityToInt
  | intToFloat
  | quotientToFloat
  | codePoint
  | storedInt
deriving DecidableEq, Repr

def OverflowFault.message : OverflowFault → String
  | .infinityToInt => "cannot convert float infinity to integer"
  | .intToFloat => "int too large to convert to float"
  | .quotientToFloat => "integer division result too large for a float"
  | .codePoint => "Python int too large to convert to C int"
  | .storedInt => "integer too large for the database"

/-- Why an operation fails. -/
inductive Fault where
  | entity (cause : EntityFault)
  | edge (cause : EdgeFault)
  | merge (cause : MergeFault)
  /-- Several backend entities register one contract key. -/
  | duplicateRoute (key : String) (ids : List String)
  | config (cause : ConfigFault)
  | storage (cause : StorageFault)
  | system (cause : SystemFault) (path : String)
  | value (cause : ValueFault)
  | type (cause : TypeFault)
  | overflow (cause : OverflowFault)
  /-- A value of that type has no such member. -/
  | noMember (typeName member : String)
  /-- A mapping lacks a key, given as a literal. -/
  | key (literal : String)
  | index
  | undecodableText
  /-- A text with halves of surrogate pairs, which have no bytes. -/
  | unencodableText
  /-- A collection that contains itself is walked without end. -/
  | endless
  /-- The database does not run a statement. -/
  | statement (reason : String)
  | invalidRequest
  /-- The target of a request is no reference to a place. -/
  | badTarget
  /-- A failure of an extension, reported under a name of its own. -/
  | foreign (name message : String)
deriving DecidableEq, Repr

namespace Fault

/-- The class under which a fault is reported. -/
def name : Fault → String
  | .entity _ => "InvalidEntityError"
  | .edge _ => "InvalidEdgeError"
  | .merge c => c.name
  | .duplicateRoute .. => "DuplicateRouteError"
  | .config _ => "ConfigError"
  | .storage _ => "StorageError"
  | .system c _ => c.name
  | .value _ => "ValueError"
  | .type _ => "TypeError"
  | .overflow _ => "OverflowError"
  | .noMember .. => "AttributeError"
  | .key _ => "KeyError"
  | .index => "IndexError"
  | .undecodableText => "UnicodeDecodeError"
  | .unencodableText => "UnicodeEncodeError"
  | .endless => "RecursionError"
  | .statement _ => "OperationalError"
  | .invalidRequest => "ValidationError"
  | .badTarget => "InvalidURL"
  | .foreign name _ => name

/-- What went wrong, in words. -/
def message : Fault → String
  | .entity c => c.message
  | .edge c => c.message
  | .merge c => c.message
  | .duplicateRoute k ids =>
    "Contract key " ++ k ++ " is registered by " ++ natText ids.length ++ " backend entities: " ++
      ", ".intercalate ids
  | .config c => c.message
  | .storage c => c.message
  | .system c path => c.message path
  | .value c => c.message
  | .type c => c.message
  | .overflow c => c.message
  | .noMember t m => "'" ++ t ++ "' object has no attribute '" ++ m ++ "'"
  | .key literal => literal
  | .index => "string index out of range"
  | .undecodableText => "text is not valid UTF-8"
  | .unencodableText => "text has no bytes in UTF-8"
  | .endless => "maximum recursion depth exceeded"
  | .statement reason => reason
  | .invalidRequest => "request does not match its model"
  | .badTarget => "target of the request is malformed"
  | .foreign _ message => message

/-- A fault of a record's values, which costs a manifest only the entry it arises in. -/
def isRecordFault : Fault → Bool
  | .entity _ | .edge _ | .value _ | .type _ => true
  | _ => false

/-- A fault of a value, as opposed to its type. -/
def isValueFault : Fault → Bool
  | .entity _ | .edge _ | .value _ | .undecodableText | .unencodableText | .invalidRequest => true
  | _ => false

/-- Faults of the engine and of values are reported with their message. -/
def isExplained : Fault → Bool
  | .entity _ | .edge _ | .merge _ | .duplicateRoute .. | .config _ | .storage _ | .value _ => true
  | .foreign name _ => name == "ValueError"
  | _ => false

end Fault

namespace Value

/-- A value as a literal, if its integers can be written. -/
def toLiteral (v : Value) : Except Fault String :=
  if v.isWritable then .ok v.literal else .error (.value .unwritable)

/-- A value in running text, if its integers can be written. -/
def toText (v : Value) : Except Fault String :=
  if v.isWritable then .ok v.text else .error (.value .unwritable)

end Value

/-- The member of a vocabulary that a value names. -/
def Vocabulary.decode (α : Type) [Vocabulary α] (v : Value) : Except Fault α :=
  match Vocabulary.ofValue? α v with
  | some m => .ok m
  | none => do .error (.value (.notMember (← v.toLiteral) (Vocabulary.title α)))

end ChangeImpact
