import SensorWire.Cbor.Diagnostic
import SensorWire.Display.Report
import SensorWire.Message.Apply
import SensorWire.Tool.Assignment
import SensorWire.Tool.Environment

/-!
# Commands on messages

Messages are encoded from values and assignments, decoded and shown, and listed with their keys.
-/

namespace SensorWire

/-- What to encode. -/
structure EncodeRequest where
  message : Text
  /-- A file of values. -/
  valuesFile : Text := ""
  assignments : List Text := []
  /-- The capacity of the buffer; zero fits it to the message. -/
  capacity : Nat := 0
  /-- The file for the bytes; without one they are printed. -/
  output : Text := ""
  /-- Whether bytes are printed as hex alone. -/
  hex : Bool := false

/-- What to decode. -/
structure DecodeRequest where
  /-- The name of the message; without one it is identified from its bytes. -/
  message : Text := ""
  lenient : Bool := false
  /-- The only field to show. -/
  field : Text := ""

namespace Command

/-! ## Encoding -/

/-- Reads the values in a file. -/
def readValues (path : Text) : Command (List (Text × Value)) := do
  let data ← ofExcept ((← get).files.read path)
  match Yaml.decodeText .entries ⟨data⟩ with
  | .error f => throw (.within path f)
  | .ok (some (.map values)) => return values
  | .ok _ => return []

/-- Encodes a message to fit, and logs it. -/
def marshal (m : Message) : Command (List UInt8) := do
  let (r, trace) := m.marshal (← get).options.labels
  log trace
  ofExcept r

/-- Encodes a message into a buffer of a capacity, and logs it. The report of a buffer that is too small is printed. -/
def encodeInto (capacity : Nat) (m : Message) : Command (List UInt8) := do
  let (r, e) := m.encode (← get).options.labels capacity
  log e.trace
  match r with
  | .ok _ => return e.out
  | .error f => match f.codec? with
    | some err =>
      if err.code = .bufferTooSmall then do
        let extra := err.extraBytes
        print (Text.concat [m.name, s!" needs {capacity + extra} bytes; the {capacity}-byte buffer is {extra} short\n"])
        throw .noRoom
      else throw f
    | none => throw f

/-- Writes encoded bytes to a file or prints them. -/
def deliver (r : EncodeRequest) (data : List UInt8) : Command Unit := do
  if !r.output.isEmpty then
    let files ← ofExcept ((← get).files.write r.output data)
    modify fun env => { env with files }
    print (Text.concat [s!"wrote {data.length} bytes to ", r.output, "\n"])
  else if r.hex then print (Hex.spaced data ++ "\n")
  else print (Hex.dump data)

/-- Encodes a message from its values. -/
def encode (r : EncodeRequest) : Command Unit := do
  let m ← newMessage r.message
  let values ← if r.valuesFile.isEmpty then pure [] else readValues r.valuesFile
  let values ← ofExcept (Assignment.parseAll values r.assignments)
  match m.apply values with
  | (some f, _) => throw f
  | (none, m) => do
    let data ← if r.capacity = 0 then marshal m else encodeInto r.capacity m
    deliver r data

/-! ## Decoding -/

/-- Decodes and shows a message of a schema. -/
def decodeLoaded (s : Schema) (r : DecodeRequest) (data : List UInt8) : Command Unit := do
  let env ← get
  let f := env.formatter
  let (failure, m, trace) := if r.lenient then s.new.decode true env.options data else s.new.decodeAsDefined env.options data
  log trace
  match failure.filter fun x => !x.isAggregate with
  | some x => throw x
  | none =>
    if !r.field.isEmpty then
      match m.table.lookup? r.field with
      | some field => print ((f.row m.name field).value ++ "\n")
      | none => throw (.unknownKey (some r.field))
    else do
      checkIndent
      print (Text.concat [m.name, s!" ({data.length} bytes, fingerprint ", s.shortFingerprint, "):\n",
        f.lines (f.rows m.name m.table)])
      match failure with
      | some w => print (f.indent 1 ("warning: " ++ w.render) ++ "\n")
      | none => return ()

/-- The key of the field to show of a message: the request may give a path, which must lead into the message. -/
def fieldKey (field name : Text) : Except Failure Text :=
  match Path.parse field with
  | .ok p =>
    if p.isPartial then .ok field
    else if p.message ≠ name then .error (.note (Text.concat ["field ", field, " is not in ", name]))
    else .ok p.key
  | .error _ => .ok field

/-- Decodes and shows a built-in message. -/
def decodeBuiltIn (r : DecodeRequest) (data : List UInt8) : Command Unit := do
  let env ← get
  let (report, trace) := Report.make env.formatter env.options r.message data r.lenient
  log trace
  let report ← ofExcept report
  if !r.field.isEmpty then
    let key ← ofExcept (fieldKey r.field report.decoded.name)
    match report.row? key with
    | some row => print (row.value ++ "\n")
    | none => throw (.unknownKey (some r.field))
  else do
    checkIndent
    print (report.render env.formatter)

/-- Decodes and shows a message. -/
def decode (r : DecodeRequest) (data : List UInt8) : Command Unit := do
  match (← get).find? r.message with
  | some (.loaded s) => decodeLoaded s r data
  | _ => decodeBuiltIn r data

/-- Shows bytes in diagnostic notation and as a hex dump. -/
def diagnose (data : List UInt8) : Command Unit := do
  let t ← ofExcept ((Cbor.Diagnostic.first data).mapError fun f => .data (.item f))
  print (Text.concat [t, "\n\n", Hex.dump data])

/-! ## Schemas -/

/-- Prints a message name with a note, and the keys if they are wanted. -/
def printMessage (keys : Bool) (name note : Text) (t : Table) : Command Unit := do
  print (Text.concat [name, note, "\n"])
  if keys then
    checkIndent
    let f := (← get).formatter
    print (Text.concat (t.fields.map fun x =>
      Text.concat [f.indent 1 (Text.concat [x.key, " (", x.type.name, if x.checked then ", checked)" else ")"]), "\n"]))

/-- Lists the built-in messages. -/
def printBuiltIn (keys : Bool) : List Message → Command Unit
  | [] => return ()
  | m :: rest => do
    printMessage keys m.name "" m.table
    printBuiltIn keys rest

/-- Lists schemas. -/
def printLoaded (keys : Bool) : List Schema → Command Unit
  | [] => return ()
  | s :: rest => do
    printMessage keys s.name (Text.concat [" (dynamic, ", s.shortFingerprint, ")"]) s.table
    printLoaded keys rest

/-- Lists all messages, with their keys if they are wanted. -/
def listMessages (keys : Bool) : Command Unit := do
  printBuiltIn keys Catalog.all
  printLoaded keys (← get).sortedSchemas

/-- Prints the fingerprints of the schemas of a file. -/
def listFingerprints (path : Text) : Command Unit := do
  let schemas ← ofExcept (Schema.load (← get).files path)
  print (Text.concat (schemas.map fun s => Text.concat [s.fingerprintText, "  ", s.name, "\n"]))

end Command

end SensorWire
