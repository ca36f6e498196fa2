import SensorWire.Text.Basic

/-!
# Tokens

What a YAML document is made of, before it is known what contains what. Indentation is already turned into the tokens that begin and
end blocks.
-/

namespace SensorWire.Yaml

/-- What a token is. -/
inductive Lexeme where
  | documentStart
  | documentEnd
  | streamEnd
  | versionDirective (major minor : Nat)
  | tagDirective (handle expansion : Text)
  | blockSequenceStart
  | blockMappingStart
  | blockEnd
  | flowSequenceStart
  | flowSequenceEnd
  | flowMappingStart
  | flowMappingEnd
  | blockEntry
  | flowEntry
  | key
  | value
  | reference (name : Text)
  | anchor (name : Text)
  | tag (handle suffix : Text)
  | scalar (text : Text) (plain : Bool)
  deriving DecidableEq, Repr

/-- A token and the line it starts in, counted from zero. -/
structure Token where
  lexeme : Lexeme
  line : Nat
  deriving DecidableEq, Repr

end SensorWire.Yaml
