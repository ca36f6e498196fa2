import SensorWire.Message.Basic
import SensorWire.Text.Case

/-!
# The catalogue of messages

The messages that are built in, with the keys, types and order of their fields. Sensor messages begin with a common header.
-/

namespace SensorWire.Catalog

/-- Fields that share a type, told by an empty slot of it. -/
def each (slot : Slot) (keys : List String) : List Field := keys.map fun (key : String) => .holding key slot

/-- Fields with double-precision numbers. -/
def doubles : List String → List Field := each (.float64 0)

/-- Fields with single-precision numbers. -/
def singles : List String → List Field := each (.float32 0)

/-- Fields with 32-bit numbers. -/
def words : List String → List Field := each (.uint32 0)

/-- A message whose map has just its own fields. -/
def service (name : String) (fields : List Field) (rule : Rule := .plain) : Message :=
  { name := name, table := ⟨fields, true⟩, rule := rule }

/-- A message that begins with the sensor header. -/
def sensor (name : String) (fields : List Field) (rule : Rule := .plain) : Message :=
  service name (Message.headerFields 0 ++ fields) rule

/-- The fields of a report of band levels. -/
def levelFields : List Field :=
  singles ["dt", "dt_report"] ++ [.holding "first_band_index" (.simple 0), .holding "levels" (.string "")]

/-- All messages, in the order of their names. -/
def all : List Message :=
  [sensor "AanderaaConductivity"
     (doubles ["conductivity_ms_cm", "temperature_deg_c", "salinity_psu", "water_density_kg_m3", "sound_speed_m_s"]),
   sensor "AanderaaCurrentMeter"
     (doubles ["abs_speed_cm_s", "direction_deg_m", "north_cm_s", "east_cm_s", "heading_deg_m", "tilt_x_deg", "tilt_y_deg",
       "single_ping_std_cm_s", "transducer_strength_db", "ping_count", "abs_tilt_deg", "max_tilt_deg", "std_tilt_deg",
       "temperature_deg_c"]),
   service "AanderaaData"
     (doubles ["abs_speed_mean_cm_s", "abs_speed_stddev_cm_s", "direction_circ_mean_rad", "direction_circ_stddev_rad",
       "temperature_mean_degC"]),
   sensor "BarometricPressure" (doubles ["barometric_pressure_mbar"]),
   sensor "BorealisLevelStatistics" (levelFields ++ singles ["max_iqr"]),
   sensor "BorealisLevels" levelFields,
   sensor "BorealisRecordingStatus"
     ([.holding "flags" (.simple 0), .holding "filename" (.string "")] ++ singles ["seconds_written", "seconds_free"]),
   sensor "BorealisSpectrum"
     (singles ["dt", "df"] ++ [.holding "bands_per_octave" (.simple 0), .holding "spectrum" (.string "")]),
   service "ConfigCborMapReply"
     [.holding "node_id" (.uint64 0), .holding "partition_id" (.uint32 0), .holding "success" (.bool false),
      .holding "cbor_encoded_map_len" (.uint32 0), .holding "cbor_data" (.bytes [])]
     (.payload "cbor_encoded_map_len" "cbor_data"),
   service "ConfigCborMapRequest" (words ["partition_id"]),
   service "DeviceTestReply"
     [.holding "success" (.bool false), .holding "data_len" (.uint32 0), .holding "data" (.bytes [])]
     (.payload "data_len" "data"),
   service "DeviceTestRequest" [.holding "data_len" (.uint32 0), .holding "data" (.bytes [])] (.payload "data_len" "data"),
   sensor "PmeDissolvedOxygen"
     (doubles ["temperature_deg_c", "do_mg_per_l", "quality", "do_saturation_pct"] ++ singles ["salinity_ppt"]),
   sensor "PmeWipe" (doubles ["wipe_time_sec", "start1_mA", "avg_mA", "start2_mA", "final_mA", "rsource"]),
   service "PowerInfoReply" (words ["total_on_s", "remaining_on_s", "upcoming_off_s"]),
   sensor "PowerReading"
     ([.holding "power_reading_type" (.uint8 0)] ++ doubles ["voltage_v", "current_ma"] ++ [.holding "status" (.uint64 0)]),
   sensor "PowerReadingAverages"
     ([.holding "power_reading_type" (.uint8 0), .holding "status" (.uint8 0), (Field.holding "num_samples" (.uint32 0)).strictly] ++
      doubles ["averaging_window_length_s", "voltage_v_avg", "voltage_v_min", "voltage_v_max", "voltage_v_stdev",
        "current_a_avg", "current_a_min", "current_a_max", "current_a_stdev"]),
   sensor "RbrData" ([.holding "sensor_type" (.uint8 0)] ++ doubles ["temperature_deg_c", "pressure_deci_bar"]) .readings,
   sensor "RbrPressureDifferenceSignal"
     (words ["sequence_num", "total_samples", "num_samples"] ++ doubles ["residual_0", "residual_1"]) .samples,
   sensor "SeapointTurbidity" (doubles ["s_signal", "r_signal"]),
   sensor "SoftData" (doubles ["temperature_deg_c"]),
   service "SysInfoReply"
     ([.holding "node_id" (.uint64 0)] ++ words ["git_sha", "sys_config_crc", "app_name_strlen"] ++
      [.holding "app_name" (.string "")])]

/-- The empty message with a name. -/
def find? (name : Text) : Option Message := all.find? fun m => m.name == name

/-- The names of all messages. -/
def names : List Text := all.map Message.name

/-- The empty message whose name a text spells, first exactly and then without regard to case. -/
def resolve? (name : Text) : Option Message := (find? name).orElse fun _ => all.find? fun m => name.spells m.name

end SensorWire.Catalog
