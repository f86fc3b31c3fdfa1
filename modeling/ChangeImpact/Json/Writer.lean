import ChangeImpact.Text.Quoted
import ChangeImpact.Value.Basic

/-!
# Writing JSON

`Json.text` writes a value on one line. Lists, pairs and sets are arrays, a mapping is an object
whose names are its text keys, and dates are their texts. What is written holds characters only: a
half of a surrogate pair is escaped.
-/

namespace ChangeImpact.Json

/-- One code point of a string. -/
def escaped : Text.Point → List Char
  | .half n => '\\' :: 'u' :: Text.hex 4 n
  | .char c =>
    if c == '"' || c == '\\' then ['\\', c]
    else if c == '\n' then ['\\', 'n']
    else if c.toNat < 0x20 || c.toNat == 0x7f then '\\' :: 'u' :: Text.hex 4 c.toNat
    else [c]

/-- A text as a string of the format. -/
def string (s : String) : String :=
  "\"" ++ String.ofList ((Text.points s.toList).flatMap escaped) ++ "\""

/-- The numbers of the format, and the names of those it has no digits for. -/
def number : Binary64 → String
  | .nan => "NaN"
  | .infinite s => if s then "-Infinity" else "Infinity"
  | x => x.text

mutual

/-- A value on one line. -/
def text : Value → String
  | .null => "null"
  | .bool b => if b then "true" else "false"
  | .int n => intText n
  | .float x => number x
  | .str s => string s
  | .list items => "[" ++ ", ".intercalate (texts items) ++ "]"
  | .pair a b => "[" ++ text a ++ ", " ++ text b ++ "]"
  | .map entries => "\x7b" ++ ", ".intercalate (memberTexts entries) ++ "\x7d"
  | .set items => "[" ++ ", ".intercalate (texts items) ++ "]"
  | .bytes data => string (String.ofList (data.map fun b => Char.ofNat b.toNat))
  | .date d => string d.text
  | .datetime t => string (t.textWith "T")
  | .named _ content => text content
  | .again _ => "null"
termination_by structural v => v

/-- Each of some values. -/
def texts : List Value → List String
  | [] => []
  | v :: vs => text v :: texts vs
termination_by structural vs => vs

/-- A member of an object; a key that is no text is written as a string of its own text. -/
def memberText : Value × Value → String
  | (.str k, v) => string k ++ ": " ++ text v
  | (k, v) => string (text k) ++ ": " ++ text v
termination_by structural e => e

/-- Each of some members. -/
def memberTexts : List (Value × Value) → List String
  | [] => []
  | e :: es => memberText e :: memberTexts es
termination_by structural es => es

end

end ChangeImpact.Json
