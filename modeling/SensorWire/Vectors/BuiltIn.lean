import SensorWire.Number.Reading
import SensorWire.Vectors.Basic

/-!
# The test vectors of the built-in messages
-/

namespace SensorWire.TestVector

/-- A whole number. -/
def number (n : Int) : Value := .integer .int n

/-- A fraction. -/
def real (t : String) : Value := .float64 ((NumberText.double? (Text.ofString t).bytes).getD 0)

/-- The value of a field. -/
def entry (key : String) (v : Value) : Text × Value := (Text.ofString key, v)

/-- The values of the header that the vectors of sensor messages share. -/
def header : List (Text × Value) :=
  [entry "version" (number 1), entry "reading_time_utc_ms" (number 123456789),
   entry "reading_uptime_millis" (number 987654321), entry "sensor_reading_time_ms" (number 3735929054)]

/-- The vectors of sensor messages. -/
def sensors : List TestVector :=
  [{ name := "soft-data", message := "SoftData", size := 117,
     hex := Text.join " " [
       "a5 67 76 65 72 73 69 6f 6e 01 73 72 65 61 64 69 6e 67 5f 74 69 6d 65 5f 75 74 63 5f 6d 73 1a 07",
       "5b cd 15 75 72 65 61 64 69 6e 67 5f 75 70 74 69 6d 65 5f 6d 69 6c 6c 69 73 1a 3a de 68 b1 76 73",
       "65 6e 73 6f 72 5f 72 65 61 64 69 6e 67 5f 74 69 6d 65 5f 6d 73 1a de ad c0 de 71 74 65 6d 70 65",
       "72 61 74 75 72 65 5f 64 65 67 5f 63 fb 40 32 ee 14 7a e1 47 ae"],
     values := header ++ [entry "temperature_deg_c" (real "18.93")] },
   { name := "barometric-pressure", message := "BarometricPressure", size := 125,
     hex := Text.join " " [
       "a5 67 76 65 72 73 69 6f 6e 01 73 72 65 61 64 69 6e 67 5f 74 69 6d 65 5f 75 74 63 5f 6d 73 1a 07",
       "5b cd 15 75 72 65 61 64 69 6e 67 5f 75 70 74 69 6d 65 5f 6d 69 6c 6c 69 73 1a 3a de 68 b1 76 73",
       "65 6e 73 6f 72 5f 72 65 61 64 69 6e 67 5f 74 69 6d 65 5f 6d 73 1a de ad c0 de 78 18 62 61 72 6f",
       "6d 65 74 72 69 63 5f 70 72 65 73 73 75 72 65 5f 6d 62 61 72 fb 40 8f aa 00 00 00 00 00"],
     values := header ++ [entry "barometric_pressure_mbar" (real "1013.25")] },
   { name := "rbr-temperature-only", message := "RbrData", size := 157,
     values := header ++ [entry "sensor_type" (number 1), entry "temperature_deg_c" (real "12.5"),
       entry "pressure_deci_bar" (real "101.3")] },
   { name := "rbr-pressure-difference", message := "RbrPressureDifferenceSignal", size := 281,
     hex := Text.join " " [
       "aa 67 76 65 72 73 69 6f 6e 01 73 72 65 61 64 69 6e 67 5f 74 69 6d 65 5f 75 74 63 5f 6d 73 1a 07",
       "5b cd 15 75 72 65 61 64 69 6e 67 5f 75 70 74 69 6d 65 5f 6d 69 6c 6c 69 73 1a 3a de 68 b1 76 73",
       "65 6e 73 6f 72 5f 72 65 61 64 69 6e 67 5f 74 69 6d 65 5f 6d 73 1a de ad c0 de 6c 73 65 71 75 65",
       "6e 63 65 5f 6e 75 6d 07 6d 74 6f 74 61 6c 5f 73 61 6d 70 6c 65 73 14 6b 6e 75 6d 5f 73 61 6d 70",
       "6c 65 73 0a 6a 72 65 73 69 64 75 61 6c 5f 30 fb 3f e0 00 00 00 00 00 00 6a 72 65 73 69 64 75 61",
       "6c 5f 31 fb bf d0 00 00 00 00 00 00 71 64 69 66 66 65 72 65 6e 63 65 5f 73 69 67 6e 61 6c 8a fb",
       "00 00 00 00 00 00 00 00 fb 3f b9 99 99 99 99 99 9a fb 3f c9 99 99 99 99 99 9a fb 3f d3 33 33 33",
       "33 33 33 fb 3f d9 99 99 99 99 99 9a fb 3f e0 00 00 00 00 00 00 fb 3f e3 33 33 33 33 33 33 fb 3f",
       "e6 66 66 66 66 66 66 fb 3f e9 99 99 99 99 99 9a fb 3f ec cc cc cc cc cc cd"],
     values := header ++ [entry "sequence_num" (number 7), entry "total_samples" (number 20), entry "num_samples" (number 10),
       entry "residual_0" (real "0.5"), entry "residual_1" (real "-0.25"),
       entry "difference_signal" (.list (["0.0", "0.1", "0.2", "0.3", "0.4", "0.5", "0.6", "0.7", "0.8", "0.9"].map real))] },
   { name := "borealis-recording-status", message := "BorealisRecordingStatus", size := 158,
     hex := Text.join " " [
       "a8 67 76 65 72 73 69 6f 6e 01 73 72 65 61 64 69 6e 67 5f 74 69 6d 65 5f 75 74 63 5f 6d 73 1a 07",
       "5b cd 15 75 72 65 61 64 69 6e 67 5f 75 70 74 69 6d 65 5f 6d 69 6c 6c 69 73 1a 3a de 68 b1 76 73",
       "65 6e 73 6f 72 5f 72 65 61 64 69 6e 67 5f 74 69 6d 65 5f 6d 73 1a de ad c0 de 65 66 6c 61 67 73",
       "e1 68 66 69 6c 65 6e 61 6d 65 6c 72 65 63 5f 30 30 30 31 2e 77 61 76 6f 73 65 63 6f 6e 64 73 5f",
       "77 72 69 74 74 65 6e fa 42 70 00 00 6c 73 65 63 6f 6e 64 73 5f 66 72 65 65 fa 47 a8 c0 00"],
     values := header ++ [entry "flags" (number 1), entry "filename" (.text "rec_0001.wav"), entry "seconds_written" (number 60),
       entry "seconds_free" (number 86400)] }]

/-- The vectors of services. -/
def services : List TestVector :=
  [{ name := "device-test-reply", message := "DeviceTestReply", size := 30,
     hex := Text.join " " [
       "a3 67 73 75 63 63 65 73 73 01 68 64 61 74 61 5f 6c 65 6e 04 64 64 61 74 61 44 01 02 03 04"],
     values := [entry "success" (.bool true), entry "data" (.list ([1, 2, 3, 4].map number))] },
   { name := "device-test-reply-empty", message := "DeviceTestReply", size := 26,
     hex := Text.join " " [
       "a3 67 73 75 63 63 65 73 73 01 68 64 61 74 61 5f 6c 65 6e 00 64 64 61 74 61 40"],
     values := [entry "success" (.bool true)] },
   { name := "device-test-request", message := "DeviceTestRequest", size := 21,
     hex := Text.join " " [
       "a2 68 64 61 74 61 5f 6c 65 6e 04 64 64 61 74 61 44 01 02 03 04"],
     values := [entry "data" (.list ([1, 2, 3, 4].map number))] },
   { name := "device-test-request-empty", message := "DeviceTestRequest", size := 17,
     hex := Text.join " " [
       "a2 68 64 61 74 61 5f 6c 65 6e 00 64 64 61 74 61 40"],
     values := [] },
   { name := "power-info-reply", message := "PowerInfoReply", size := 49,
     hex := Text.join " " [
       "a3 6a 74 6f 74 61 6c 5f 6f 6e 5f 73 19 0e 10 6e 72 65 6d 61 69 6e 69 6e 67 5f 6f 6e 5f 73 19 07",
       "08 6e 75 70 63 6f 6d 69 6e 67 5f 6f 66 66 5f 73 00"],
     values := [entry "total_on_s" (number 3600), entry "remaining_on_s" (number 1800),
       entry "upcoming_off_s" (number 0)] },
   { name := "config-cbor-map-request", message := "ConfigCborMapRequest", size := 15,
     hex := Text.join " " [
       "a1 6c 70 61 72 74 69 74 69 6f 6e 5f 69 64 02"],
     values := [entry "partition_id" (number 2)] }]

/-- All vectors by name. -/
def builtIn : List TestVector := sorted (sensors ++ services)

/-- The vector with a name. -/
def find? (name : Text) : Option TestVector := builtIn.find? fun v => v.name == name

end SensorWire.TestVector
