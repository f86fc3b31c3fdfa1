import ChangeImpact.ScanResult
import ChangeImpact.Text.Glob

/-!
# Extractors

An extractor turns the content of a file into entities, edges and diagnostics. A registry chooses
the extractors for a file by patterns on its path, runs each behind a boundary that turns failures
into diagnostics, and combines their results.
-/

namespace ChangeImpact

/-- What an extractor contributes to the graph. -/
inductive ExtractorRole where
  | reference
  | dataFlow
  | contract
  | config
  | test
deriving DecidableEq, Repr

def ExtractorRole.word : ExtractorRole → String
  | .reference => "reference"
  | .dataFlow => "data_flow"
  | .contract => "contract"
  | .config => "config"
  | .test => "test"

def ExtractorRole.all : List ExtractorRole := [.reference, .dataFlow, .contract, .config, .test]

/-- What an extractor gives back. -/
inductive Extraction where
  | result (r : ScanResult)
  /-- A value of that type which is no scan result. -/
  | other (typeName : String)

/-- Turns the content of a file into a scan result. -/
structure Extractor where
  name : String
  roles : List ExtractorRole
  /-- Patterns of the paths it handles. -/
  patterns : List String
  /-- The extraction from a content and a path. The content should be a text, but a caller may give
  any value. -/
  extract : Value → String → Except Fault Extraction

namespace Extractor

/-- The text of a content that can be read. -/
def textOf : Value → Except Fault String
  | .str s => .ok s
  | v => .error (.noMember v.qualifiedTypeName "read")

/-- The part of a path after its last slash. -/
def baseName (path : String) : String :=
  String.ofList (path.toList.reverse.takeWhile (· != '/')).reverse

/-- A pattern matches the whole path or its last part. -/
def handles (x : Extractor) (path : String) : Bool :=
  x.patterns.any fun p =>
    Text.globMatches p path || Text.globMatches p (baseName path)

/-- The result that reports a failure of the extractor. -/
def failed (x : Extractor) (path message : String) : ScanResult :=
  .ofDiagnostic {
    file := path, message, severity := Diagnostic.errorSeverity, extractor := some x.name }

/-- Runs the extractor; a failure becomes an error diagnostic. -/
def run (x : Extractor) (content : Value) (path : String) : ScanResult :=
  match x.extract content path with
  | .error f => x.failed path (f.name ++ ": " ++ f.message)
  | .ok (.other t) => x.failed path ("Extractor returned " ++ t ++ " instead of ScanResult")
  | .ok (.result r) => { r with file := path }

end Extractor

/-- Extractors with different names, in order of registration. -/
structure Registry where
  extractors : List Extractor := []

namespace Registry

/-- Registers an extractor unless its name is taken, with other patterns if some are given. -/
def register (r : Registry) (x : Extractor) (patterns : Option (List String) := none) : Registry :=
  if r.extractors.any fun y => y.name == x.name then r
  else ⟨r.extractors ++ [{ x with patterns := patterns.getD x.patterns }]⟩

/-- The extractors in order of their names. -/
def sorted (r : Registry) : List Extractor :=
  r.extractors.mergeSort fun x y => Text.le x.name y.name

def names (r : Registry) : List String := r.sorted.map Extractor.name

/-- The extractors that handle a path, in order of their names. -/
def extractorsFor (r : Registry) (path : String) : List Extractor :=
  r.sorted.filter fun x => x.handles path

/-- Runs all extractors that handle a file; none if no extractor does. -/
def extract (r : Registry) (content : Value) (path : String) : Except Fault (Option ScanResult) :=
  match r.extractorsFor path with
  | [] => .ok none
  | [x] => .ok (some (x.run content path))
  | xs => return some (← ScanResult.combine path (xs.map fun x => x.run content path))

end Registry

end ChangeImpact
