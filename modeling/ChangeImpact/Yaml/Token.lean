import ChangeImpact.Yaml.Token.Label

/-!
# Tokens

The units a YAML text is made of, with the marks of their ends. Where blocks start and end is shown
by tokens of their own, which have no text.
-/

namespace ChangeImpact.Yaml

/-- What a token is. -/
inductive TokenKind where
  | streamEnd
  | directive (d : Directive)
  | documentStart
  | documentEnd
  | blockSequenceStart
  | blockMappingStart
  | blockEnd
  | flowSequenceStart
  | flowSequenceEnd
  | flowMappingStart
  | flowMappingEnd
  | blockEntry
  | flowEntry
  | key
  | value
  | aliasName (name : String)
  | anchorName (name : String)
  | tag (text : TagText)
  | scalar (text : String) (plain : Bool)
deriving DecidableEq, Repr

/-- The name of a token in messages. -/
def TokenKind.name : TokenKind → String
  | .streamEnd => "<stream end>"
  | .directive _ => "<directive>"
  | .documentStart => "<document start>"
  | .documentEnd => "<document end>"
  | .blockSequenceStart => "<block sequence start>"
  | .blockMappingStart => "<block mapping start>"
  | .blockEnd => "<block end>"
  | .flowSequenceStart => "["
  | .flowSequenceEnd => "]"
  | .flowMappingStart => "\x7b"
  | .flowMappingEnd => "\x7d"
  | .blockEntry => "-"
  | .flowEntry => ","
  | .key => "?"
  | .value => ":"
  | .aliasName _ => "<alias>"
  | .anchorName _ => "<anchor>"
  | .tag _ => "<tag>"
  | .scalar .. => "<scalar>"

/-- A token with the marks of its ends. -/
structure Token where
  kind : TokenKind
  start : Mark
  stop : Mark
deriving DecidableEq, Repr

end ChangeImpact.Yaml
