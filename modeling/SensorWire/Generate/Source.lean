import SensorWire.Generate.Comment
import SensorWire.Generate.Message

/-!
# Generated code

A source file declares a type for each message, with its fingerprint and its table. A draft is the plain text of the declarations; the
tidy text has the members of each type in columns, tidy comments, and no imports that nothing uses.
-/

namespace SensorWire

/-- A source file to be generated. -/
structure SourceFile where
  package : Text
  /-- What the file is generated from. -/
  source : Text
  messages : List GeneratedMessage

/-- How code is laid out. -/
inductive CodeStyle where
  | draft
  | tidy
  deriving DecidableEq, Repr

/-- One line of code. -/
def codeLine (pieces : List Text) : List Text := [Text.concat pieces]

namespace GeneratedMessage

/-- The members of the type: their names and types. -/
def members (m : GeneratedMessage) : List (Text × Text) :=
  (if m.header then [(Text.ofString "Header", Text.ofString "messages.SensorHeader")] else []) ++
    m.fields.map fun f => (f.name, Text.ofString f.memberType)

/-- The lines of the members. Tidy ones have their types in a column. -/
def memberLines (style : CodeStyle) (m : GeneratedMessage) : List Text :=
  let width := match style, m.members with
    | .draft, _ | .tidy, [_] => 0
    | .tidy, members => (members.map fun x => x.1.charCount).foldl max 0
  m.members.map fun (name, type) => Text.concat ["\t", name.padEnd name.charCount width, " ", type]

/-- The lines of a comment. -/
def commentLines (style : CodeStyle) (lines : List Text) : List Text :=
  (if style = .tidy then Comment.tidy lines else lines).map Comment.line

/-- The comment on the type. -/
def typeComment (m : GeneratedMessage) : List Text :=
  Text.concat [m.type, " is the ", m.name, " message."] ::
    (if m.description.isEmpty then [] else Text.empty :: Comment.descriptionLines m.description)

/-- The declaration of the type. -/
def typeLines (style : CodeStyle) (m : GeneratedMessage) : List Text :=
  commentLines style m.typeComment ++ codeLine ["type ", m.type, " struct \x7b"] ++ m.memberLines style ++ codeLine ["\x7d"]

/-- The declaration of the fingerprint. -/
def fingerprintLines (style : CodeStyle) (m : GeneratedMessage) : List Text :=
  commentLines style [Text.concat [m.type, "Fingerprint is the fingerprint of the ", m.name, " definition."]] ++
    codeLine ["const ", m.type, "Fingerprint = ", m.fingerprint.quoted]

/-- The declaration of the constructor, if there is a header. -/
def constructorLines (style : CodeStyle) (m : GeneratedMessage) : List Text :=
  if m.header then
    codeLine [] ++ commentLines style [Text.concat ["New", m.type, " returns a ", m.type, " with its header version set."]] ++
      codeLine ["func New", m.type, "() *", m.type, " \x7b"] ++
      codeLine ["\treturn &", m.type, "\x7bHeader: messages.SensorHeader\x7bVersion: ", .ofNat m.version.toNat, "\x7d\x7d"] ++
      codeLine ["\x7d"]
  else []

/-- The longest function that a tidy file has on one line. -/
def longestLine : Nat := 100

/-- The declaration of the function that gives the name. -/
def nameLines (style : CodeStyle) (m : GeneratedMessage) : List Text :=
  let head := Text.concat ["func (*", m.type, ") Name() string"]
  let body := "return " ++ m.name.quoted
  if style = .tidy ∧ longestLine < head.length + body.length then
    codeLine [head, " \x7b"] ++ codeLine ["\t", body] ++ codeLine ["\x7d"]
  else codeLine [head, " \x7b ", body, " \x7d"]

/-- The line that makes a field of the table. -/
def fieldLine (f : GeneratedField) : Text :=
  Text.concat ["\t\t", f.constructor, "(", f.key.quoted, ", &m.", f.name, ")", if f.checked then ".Checked()" else "", ","]

/-- The list of the fields of the table. -/
def fieldLines (style : CodeStyle) (m : GeneratedMessage) : List Text :=
  if style = .tidy ∧ m.fields = [] then codeLine ["\tfields := []wire.Field\x7b\x7d"]
  else codeLine ["\tfields := []wire.Field\x7b"] ++ m.fields.map fieldLine ++ codeLine ["\t\x7d"]

/-- The declaration of the function that gives the table. -/
def tableLines (style : CodeStyle) (m : GeneratedMessage) : List Text :=
  codeLine ["func (m *", m.type, ") Table() wire.Table \x7b"] ++ m.fieldLines style ++
    codeLine ["\treturn wire.Table\x7bStrictOrder: ", if m.strict then "true" else "false", ", Fields: ",
      if m.header then "append(m.Header.Fields(), fields...)" else "fields", "\x7d"] ++ codeLine ["\x7d"]

/-- The declarations for a message, with a blank line before each. -/
def lines (style : CodeStyle) (m : GeneratedMessage) : List Text :=
  codeLine [] ++ m.typeLines style ++ codeLine [] ++ m.fingerprintLines style ++ m.constructorLines style ++
    codeLine [] ++ m.nameLines style ++ codeLine [] ++ m.tableLines style

end GeneratedMessage

namespace SourceFile

/-- The packages that generated code uses. -/
def imports : List Text :=
  ["import (", "\t\"github.com/bristlemouth/bm-messages-go/pkg/messages\"", "\t\"github.com/bristlemouth/bm-messages-go/pkg/wire\"",
   ")", ""]

/-- The lines of a source file. -/
def lines (style : CodeStyle) (f : SourceFile) : List Text :=
  let start := codeLine ["// Code generated by bmmsg-gen from ", f.source, ". DO NOT EDIT."] ++ codeLine [] ++
    codeLine ["package ", f.package] ++ codeLine []
  if style = .tidy ∧ f.messages.isEmpty then start ++ codeLine ["var ()"]
  else start ++ imports ++ codeLine ["var ("] ++
    f.messages.flatMap (fun m => codeLine ["\t_ messages.Message = (*", m.type, ")(nil)"]) ++ codeLine [")"] ++
    f.messages.flatMap (GeneratedMessage.lines style)

/-- The text of a source file. -/
def render (style : CodeStyle) (f : SourceFile) : Text := Text.concat ((f.lines style).map fun l => l ++ "\n")

/-- The source file for schemas. -/
def ofSchemas (package source : Text) (schemas : List Schema) : Except Failure SourceFile :=
  (GeneratedMessage.ofAll schemas).map fun messages => ⟨package, source, messages⟩

end SourceFile

end SensorWire
