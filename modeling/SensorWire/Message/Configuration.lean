import SensorWire.Failure
import SensorWire.Message.Basic

/-!
# Configuration inside a message

The reply to a request for the configuration of a node carries a map of its own, as bytes.
-/

namespace SensorWire.Message

/-- The configuration that a reply carries, with the values by their names. -/
def configValues (m : Message) : Except Failure (List (Text × Value)) :=
  let partition := m.number "partition_id"
  (Cbor.readEntries (m.payload "cbor_data")).mapError fun f => .within s!"config partition {partition}" (.data f)

end SensorWire.Message
