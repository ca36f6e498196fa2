import SensorWire.Message.Catalog

/-!
# Names of values, messages and keys

Some fields are shown by the name of their value, and messages and keys may be given in any case.
-/

namespace SensorWire.Names

/-- The name of a value of a field, for the fields whose values have names. -/
def ofValue? (message key : Text) (n : Nat) : Option Text :=
  let status := (PowerStatus.mk (UInt64.ofNat n)).render
  if key = "status" ∧ (message = "PowerReading" ∨ message = "PowerReadingAverages") then some status
  else if key = "flags" ∧ message = "BorealisRecordingStatus" then some (if n % 2 = 1 then "RECORDING" else "IDLE")
  else if key = "sensor_type" then some (SensorType.ofNumber (UInt8.ofNat n)).name
  else if key = "power_reading_type" then some (powerReadingTypeName (UInt8.ofNat n))
  else none

/-- The name of a built-in message that a text spells. -/
def message? (name : Text) : Option Text := (Catalog.resolve? name).map Message.name

/-- The key of a built-in message, whose name is given exactly, that a text spells. -/
def key? (message key : Text) : Option Text :=
  (Catalog.find? message).bind fun m => m.keys.find? fun k => key.spells k

end SensorWire.Names
