import ChangeImpact.Fault
import ChangeImpact.Text.Base64
import ChangeImpact.Text.Utf8

/-!
# What can be wrong with a YAML text

A problem is a cause at a mark, found in the course of an activity that may have a mark of its own.
`Problem.report` is the whole story with its marks; `Cause.words` is the cause alone.
-/

namespace ChangeImpact.Yaml

/-- A place in a text; lines and columns are counted from zero. -/
structure Mark where
  line : Nat
  column : Nat
deriving DecidableEq, Repr, Inhabited

/-- What was being read when a problem was found. -/
inductive Activity where
  | simpleKey
  | nextToken
  | directive
  | directiveUri
  | aliasName
  | anchorName
  | tag
  | tagUri
  | blockScalar
  | doubleQuoted
  | quoted
  | node
  | blockNode
  | flowNode
  | blockSequence
  | blockMapping
  | flowSequence
  | flowMapping
  | singleDocument
  | firstAnchor (name : String)
  | mapping
  | orderedMap
  | pairs
deriving DecidableEq, Repr

def Activity.words : Activity → String
  | .simpleKey => "while scanning a simple key"
  | .nextToken => "while scanning for the next token"
  | .directive => "while scanning a directive"
  | .directiveUri => "while parsing a directive"
  | .aliasName => "while scanning an alias"
  | .anchorName => "while scanning an anchor"
  | .tag => "while scanning a tag"
  | .tagUri => "while parsing a tag"
  | .blockScalar => "while scanning a block scalar"
  | .doubleQuoted => "while scanning a double-quoted scalar"
  | .quoted => "while scanning a quoted scalar"
  | .node => "while parsing a node"
  | .blockNode => "while parsing a block node"
  | .flowNode => "while parsing a flow node"
  | .blockSequence => "while parsing a block collection"
  | .blockMapping => "while parsing a block mapping"
  | .flowSequence => "while parsing a flow sequence"
  | .flowMapping => "while parsing a flow mapping"
  | .singleDocument => "expected a single document in the stream"
  | .firstAnchor name => "found duplicate anchor " ++ quotedText name ++ "; first occurrence"
  | .mapping => "while constructing a mapping"
  | .orderedMap => "while constructing an ordered map"
  | .pairs => "while constructing pairs"

/-- What is wrong. A character is the one found, the null character at the end of the text; a token
or a node is given by its name. -/
inductive Cause where
  | noColon
  | cannotStart (found : Char)
  | noSequenceHere
  | noKeyHere
  | noValueHere
  | notWord (found : Char)
  | notDigitOrPoint (found : Char)
  | notDigitOrSpace (found : Char)
  | notDigit (found : Char)
  | notSpace (found : Char)
  | notLineEnd (found : Char)
  | notClosed (found : Char)
  | zeroIndent
  | notIndicator (found : Char)
  | notHex (count : Nat) (found : Char)
  | unknownEscape (found : Char)
  | endOfStream
  | documentSeparator
  | notHandle (found : Char)
  | notUri (found : Char)
  | notUriHex (found : Char)
  | badUri (failure : Text.Utf8.Failure)
  | notDocument (token : String)
  | secondVersion
  | badVersion
  | secondHandle (handle : String)
  | unknownHandle (handle : String)
  | noContent (token : String)
  | notBlockEnd (token : String)
  | notSequenceEnd (token : String)
  | notMappingEnd (token : String)
  | secondDocument
  | unknownAlias (name : String)
  | secondAnchor
  | notScalar (node : String)
  | notSequence (node : String)
  | notMapping (node : String)
  | badKey
  | unknownTag (tag : String)
  | badMergeItem (node : String)
  | badMerge (node : String)
  | notList (node : String)
  | notSingleMapping (node : String)
  | notSingleItem (count : Nat)
  | badBase64 (failure : Text.Base64.Failure)
deriving DecidableEq, Repr

/-- A character in quotes. -/
def quotedChar (c : Char) : String := quotedText (String.singleton c)

def Cause.words : Cause → String
  | .noColon => "could not find expected ':'"
  | .cannotStart c => "found character " ++ quotedChar c ++ " that cannot start any token"
  | .noSequenceHere => "sequence entries are not allowed here"
  | .noKeyHere => "mapping keys are not allowed here"
  | .noValueHere => "mapping values are not allowed here"
  | .notWord c => "expected alphabetic or numeric character, but found " ++ quotedChar c
  | .notDigitOrPoint c => "expected a digit or '.', but found " ++ quotedChar c
  | .notDigitOrSpace c => "expected a digit or ' ', but found " ++ quotedChar c
  | .notDigit c => "expected a digit, but found " ++ quotedChar c
  | .notSpace c => "expected ' ', but found " ++ quotedChar c
  | .notLineEnd c => "expected a comment or a line break, but found " ++ quotedChar c
  | .notClosed c => "expected '>', but found " ++ quotedChar c
  | .zeroIndent => "expected indentation indicator in the range 1-9, but found 0"
  | .notIndicator c => "expected chomping or indentation indicators, but found " ++ quotedChar c
  | .notHex n c =>
    "expected escape sequence of " ++ natText n ++ " hexadecimal numbers, but found " ++ quotedChar c
  | .unknownEscape c => "found unknown escape character " ++ quotedChar c
  | .endOfStream => "found unexpected end of stream"
  | .documentSeparator => "found unexpected document separator"
  | .notHandle c => "expected '!', but found " ++ quotedChar c
  | .notUri c => "expected URI, but found " ++ quotedChar c
  | .notUriHex c => "expected URI escape sequence of 2 hexadecimal numbers, but found " ++ quotedChar c
  | .badUri f => f.message
  | .notDocument t => "expected '<document start>', but found " ++ quotedText t
  | .secondVersion => "found duplicate YAML directive"
  | .badVersion => "found incompatible YAML document (version 1.* is required)"
  | .secondHandle h => "duplicate tag handle " ++ quotedText h
  | .unknownHandle h => "found undefined tag handle " ++ quotedText h
  | .noContent t => "expected the node content, but found " ++ quotedText t
  | .notBlockEnd t => "expected <block end>, but found " ++ quotedText t
  | .notSequenceEnd t => "expected ',' or ']', but got " ++ quotedText t
  | .notMappingEnd t => "expected ',' or '\x7d', but got " ++ quotedText t
  | .secondDocument => "but found another document"
  | .unknownAlias a => "found undefined alias " ++ quotedText a
  | .secondAnchor => "second occurrence"
  | .notScalar n => "expected a scalar node, but found " ++ n
  | .notSequence n => "expected a sequence node, but found " ++ n
  | .notMapping n => "expected a mapping node, but found " ++ n
  | .badKey => "found unhashable key"
  | .unknownTag t => "could not determine a constructor for the tag " ++ quotedText t
  | .badMergeItem n => "expected a mapping for merging, but found " ++ n
  | .badMerge n => "expected a mapping or list of mappings for merging, but found " ++ n
  | .notList n => "expected a sequence, but found " ++ n
  | .notSingleMapping n => "expected a mapping of length 1, but found " ++ n
  | .notSingleItem n => "expected a single mapping item, but found " ++ natText n ++ " items"
  | .badBase64 f =>
    (match f with
      | .notAscii .. => "failed to convert base64 data into ascii: "
      | _ => "failed to decode base64 data: ") ++ f.message

/-- A cause at a mark, found in the course of an activity. -/
structure Problem where
  cause : Cause
  mark : Mark
  activity : Option (Activity × Option Mark) := none
  /-- How many characters had been looked at when the problem was found. -/
  reached : Nat := 0
deriving DecidableEq, Repr

/-- A mark in words. -/
def Mark.words (source : String) (m : Mark) : String :=
  "  in \"" ++ source ++ "\", line " ++ natText (m.line + 1) ++ ", column " ++ natText (m.column + 1)

/-- A problem with its marks; the mark of the activity is left out where it is that of the cause. -/
def Problem.report (source : String) (p : Problem) : String :=
  let activity := match p.activity with
    | none => []
    | some (a, none) => [a.words]
    | some (a, some m) => if m = p.mark then [a.words] else [a.words, m.words source]
  "\n".intercalate (activity ++ [p.cause.words, p.mark.words source])

/-- Why a text has no value. -/
inductive Failure where
  | problem (p : Problem)
  /-- A character that no text may hold, by code point and place. -/
  | character (code position : Nat)
  /-- A part of the text is not acceptable, after so many characters have been looked at. -/
  | fault (f : Fault) (reached : Nat := 0)
deriving DecidableEq, Repr

/-- A character that no text may hold. -/
def characterReport (source : String) (code position : Nat) : String :=
  let digits := Nat.toDigits 16 code
  let padded := List.replicate (4 - digits.length) '0' ++ digits
  "unacceptable character #x" ++ String.ofList padded ++ ": special characters are not allowed\n  in \""
    ++ source ++ "\", position " ++ natText position

end ChangeImpact.Yaml
