import ChangeImpact.Config.Arrival
import ChangeImpact.Config.Decode
import ChangeImpact.Yaml.Printing

/-!
# Configuration files

Reading a configuration from the content of a file, writing it, and the search for a configuration
file from a directory upward.
-/

namespace ChangeImpact.Config

/-- What a path leads to. -/
inductive FileContent where
  | absent (cause : SystemFault)
  | bytes (data : List UInt8)

/-- A half that stands for a byte of a name that is no text. -/
def isRawByte (p : Text.Point) : Bool := 0xdc80 ≤ p.code && p.code ≤ 0xdcff

/-- A path must have bytes, and none of them may be null. -/
def checkPath (path : String) : Except Fault Unit :=
  let ps := Text.points path.toList
  if ps.any fun p => p.isHalf && !isRawByte p then .error .unencodableText
  else if ps.any fun p => p.code == 0 then .error (.value .nullCharacter)
  else .ok ()

/-- The most bytes of a name, and of a whole path. -/
def longestName : Nat := 255

def longestPath : Nat := 4095

def isLongName (name : String) : Bool := longestName < (Text.bytes name).length

/-- A part of a path that stays in place or goes back. -/
def isStep (part : String) : Bool := part == "" || part == "." || part == ".."

/-- What a path leads to, which goes on with some parts from a directory with nothing in it. -/
def FileContent.ofEmpty (path : String) (parts : List String) : FileContent :=
  .absent (if longestPath < (Text.bytes path).length then .nameTooLong else
    match parts.find? (!isStep ·) with
    | none => .isDirectory
    | some name => if isLongName name then .nameTooLong else .notFound)

/-- A file can be made at a path, which goes on with some parts from a directory with nothing in it;
directories on the way are made too. -/
def checkNew (path : String) (parts : List String) : Except Fault Unit := do
  checkPath path
  if longestPath < (Text.bytes path).length || parts.any isLongName then
    .error (.system .nameTooLong path)
  if (parts.getLast?.map isStep).getD true then .error (.system .isDirectory path)

/-- The configuration in a file; a vacant document stands for the defaults. -/
def load (path : String) (content : FileContent) : Except Fault Config := do
  checkPath path
  match content with
  | .absent cause => fail (.unreadable path (cause.message path))
  | .bytes data =>
    match valueOf data with
    | .ok v => ofValue (if v.isVacant then .map [] else v)
    | .error (.problem p) => fail (.invalidYaml path (p.report path))
    | .error (.character code position) =>
      fail (.invalidYaml path (Yaml.characterReport path code position))
    | .error (.fault f _) => .error f

/-- The text of a configuration file. -/
def save (c : Config) : String := Yaml.text (entriesOf c.toRecord)

/-- The names of configuration files, in order of preference. -/
def fileNames : List String :=
  [".blastradius.yml", ".blastradius.yaml", "blastradius.yml", "blastradius.yaml"]

/-- A path by its parts, without those that stay in place or go back. -/
def normalParts (parts : List String) : List String :=
  (parts.foldl (fun done part =>
    if part == ".." then done.tail
    else if isStep part then done
    else part :: done) []).reverse

/-- A path from its parts. -/
def pathOf (parts : List String) : String := "/".intercalate parts

/-- Searches a directory, given by its parts from the last one, and those above it. -/
def searchUp (isPresent : String → Bool) : List String → Option String
  | [] => none
  | part :: above =>
    let inside (name : String) : String := pathOf ((part :: above).reverse ++ [name])
    match (fileNames.map inside).find? isPresent with
    | some path => some path
    | none => searchUp isPresent above

/-- The configuration file nearest to a directory, which `path` names below `root`. -/
def findFile (isPresent : String → Bool) (root path : String) : Option String :=
  searchUp isPresent (root :: normalParts (path.splitOn "/")).reverse

end ChangeImpact.Config
