import SensorWire.Cbor.Conversion
import SensorWire.Codec.Error

/-!
# Failures of the program

What can go wrong outside the codec, and what a codec error becomes on its way out: each layer may put a context before the text of
what it passes on. `Failure.render` is the text, and `Failure.codec?` finds a codec error below its contexts.
-/

namespace SensorWire

/-- Why an operation of the program failed. -/
inductive Failure where
  /-- An error of the codec. -/
  | codec (e : Error)
  /-- Bytes that are not the CBOR item that was expected. -/
  | data (f : Cbor.DataFault)
  /-- A failure and what it happened in. -/
  | within (context : Text) (inner : Failure)
  /-- Two failures at once. -/
  | both (first second : Failure)
  /-- A definition that describes no schema. -/
  | invalidSchema (inner : Failure)
  | notIdentified
  | ambiguous (names : List Text)
  | emptyPath
  | invalidPath
  | unknownMessage (name : Option Text)
  | unknownKey (name : Option Text)
  /-- A buffer of a size that was asked for and does not suffice. -/
  | noRoom
  /-- A file that does not exist, and what was attempted. -/
  | missingFile (action : String) (path : Text)
  /-- A directory that does not exist. -/
  | missingDirectory (path : Text)
  /-- A document that is not YAML. -/
  | badDocument
  /-- A YAML document of the wrong shape: what is wrong with it. -/
  | misshapen (faults : List Text)
  /-- The clean end of a stream. -/
  | endOfStream
  /-- Lines that would have to start before the first column. -/
  | badIndent
  | note (text : Text)
  deriving Repr, Inhabited

namespace Failure

/-- The text of a failure. -/
def render : Failure → Text
  | codec e => e.render
  | data f => f.message
  | within context inner => Text.concat [context, ": ", inner.render]
  | both first second => Text.concat [first.render, "\n", second.render]
  | invalidSchema inner => "invalid schema: " ++ inner.render
  | notIdentified => "no registered message matches"
  | ambiguous names => "several registered messages match: " ++ Text.join ", " names
  | emptyPath => "empty path"
  | invalidPath => "invalid path format"
  | unknownMessage none => "unknown message"
  | unknownMessage (some name) => "unknown message: " ++ name
  | unknownKey none => "unknown key"
  | unknownKey (some name) => "unknown key: " ++ name
  | noRoom => "buffer too small"
  | missingFile action path => Text.concat [action, " ", path, ": no such file or directory"]
  | missingDirectory path => Text.concat ["open ", path, ": file does not exist"]
  | badDocument => "yaml: invalid document"
  | misshapen faults => "yaml: unmarshal errors:\n  " ++ Text.join "\n  " faults
  | endOfStream => "EOF"
  | badIndent => "negative indentation"
  | note text => text

/-- The codec error that a failure passes on. -/
def codec? : Failure → Option Error
  | codec e => some e
  | within _ inner => inner.codec?
  | both first second => first.codec?.or second.codec?
  | invalidSchema inner => inner.codec?
  | _ => none

/-- Whether a failure only lists skipped keys or values out of range of a message that was otherwise read to its end. -/
def isAggregate (f : Failure) : Bool :=
  match f.codec? with
  | some e => e.isAggregate
  | none => false

/-- The outcome that a failure is. -/
def outcome (f : Failure) : Outcome :=
  match f.codec? with
  | some e => e.outcome
  | none => .fatal

/-- Whether a failure comes from a document that is not YAML. -/
def isBadDocument : Failure → Bool
  | badDocument => true
  | within _ inner => inner.isBadDocument
  | both first second => first.isBadDocument || second.isBadDocument
  | invalidSchema inner => inner.isBadDocument
  | _ => false

end Failure

end SensorWire
