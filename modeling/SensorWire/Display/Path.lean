import SensorWire.Display.Names
import SensorWire.Failure
import SensorWire.Text.Words

/-!
# Paths

A path names a message, or a message and one of its keys, with a stroke or a point between them. Names are found without regard to
case, and the path holds them in their own spelling.
-/

namespace SensorWire

/-- A message, or a field of it. -/
structure Path where
  message : Text
  /-- The key, and empty for the whole message. -/
  key : Text := ""
  /-- The text that the path was read from, without the blanks around it. -/
  raw : Text := ""
  deriving DecidableEq, Repr

namespace Path

/-- Whether the path names a message without a key. -/
def isPartial (p : Path) : Bool := p.key.isEmpty

/-- The path in its own spelling. -/
def render (p : Path) : Text := if p.key.isEmpty then p.message else Text.concat [p.message, "/", p.key]

/-- Reads a path. -/
def parse (input : Text) : Except Failure Path :=
  let input := input.trim
  if input.isEmpty then .error .emptyPath
  else
    let separator := if !input.hasChar '/' && input.hasChar '.' then '.' else '/'
    let parts := input.splitOn separator
    if 2 < parts.length || parts.any Text.isEmpty then .error .invalidPath
    else match Names.message? (parts.headD "") with
      | none => .error (.unknownMessage none)
      | some message => match parts.drop 1 with
        | [] => .ok ⟨message, "", input⟩
        | given :: _ => match Names.key? message given with
          | none => .error (.unknownKey none)
          | some key => .ok ⟨message, key, input⟩

end Path

end SensorWire
