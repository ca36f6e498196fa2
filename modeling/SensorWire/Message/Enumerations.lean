import SensorWire.Text.Quoted

/-!
# Enumerations and flags of messages

The numbers that some fields hold have names: which readings an instrument provides, where power was measured, and which faults a
power status reports.
-/

namespace SensorWire

/-- Which readings an instrument provides. -/
inductive SensorType where
  | unknown
  | temperature
  | pressure
  | pressureAndTemperature
  | other (number : UInt8)
  deriving DecidableEq, Repr

namespace SensorType

/-- The sensor type with a number. -/
def ofNumber (n : UInt8) : SensorType :=
  match n with
  | 0 => unknown
  | 1 => temperature
  | 2 => pressure
  | 3 => pressureAndTemperature
  | n => other n

/-- The name of a sensor type. -/
def name : SensorType → String
  | unknown => "UNKNOWN"
  | temperature => "TEMPERATURE"
  | pressure => "PRESSURE"
  | pressureAndTemperature => "PRESSURE_AND_TEMPERATURE"
  | other n => s!"SensorType({n})"

/-- Whether instruments of this type measure temperature. -/
def hasTemperature : SensorType → Bool
  | temperature | pressureAndTemperature => true
  | _ => false

/-- Whether instruments of this type measure pressure. -/
def hasPressure : SensorType → Bool
  | pressure | pressureAndTemperature => true
  | _ => false

end SensorType

/-- The name of the place where power was measured. -/
def powerReadingTypeName (n : UInt8) : String :=
  match n with
  | 0 => "SOURCE"
  | 1 => "LOAD"
  | 2 => "MONITOR"
  | n => s!"PowerReadingType({n})"

/-- A set of power faults, one a bit; those above the fourth have no name. -/
structure PowerStatus where
  bits : UInt64
  deriving DecidableEq, Repr

namespace PowerStatus

/-- The faults that have a name. -/
def flags : List (UInt64 × String) :=
  [(1, "UNDERVOLTAGE"), (2, "OVERVOLTAGE"), (4, "UNDERCURRENT"), (8, "OVERCURRENT")]

/-- The bits of the faults that have no name. -/
def unnamed (s : PowerStatus) : UInt64 := s.bits &&& 0xfffffffffffffff0

/-- The hexadecimal digits of a number, without zeros in front. -/
def hexNumber (n : Nat) : Text := .ofChars (Nat.toDigits 16 n)

/-- The names of the faults with bars between them, and what has no name as a number. -/
def render (s : PowerStatus) : Text :=
  if s.bits = 0 then "OKAY"
  else
    let named := (flags.filter fun f => s.bits &&& f.1 != 0).map fun f => Text.ofString f.2
    let rest := if s.unnamed = 0 then [] else ["0x" ++ hexNumber s.unnamed.toNat]
    Text.join "|" (named ++ rest)

end PowerStatus

end SensorWire
