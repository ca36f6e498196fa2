import SensorWire.Text.Basic

/-!
# Units of fields

The unit of a field is read off its key: some keys have a unit of their own, and others end in a word for one. A word for a statistic
at the end of a key does not change the unit of what it is a statistic of.
-/

namespace SensorWire.Unit

/-- Keys whose unit is not read off their ending. -/
def exact : List (Text × Text) :=
  [("dt", "s"), ("dt_report", "s"), ("df", "Hz"), ("seconds_written", "s"), ("seconds_free", "s"), ("rsource", "Ω")]

/-- Endings and their units, longer ones first where one ends another. -/
def endings : List (Text × Text) :=
  [("_ms_cm", "mS/cm"), ("_cm_s", "cm/s"), ("_m_s", "m/s"), ("_kg_m3", "kg/m³"), ("_mg_per_l", "mg/L"), ("_deg_c", "°C"),
   ("_degC", "°C"), ("_deg_m", "°M"), ("_deg", "°"), ("_rad", "rad"), ("_deci_bar", "dbar"), ("_mbar", "mbar"),
   ("_millis", "ms"), ("_ms", "ms"), ("_sec", "s"), ("_s", "s"), ("_ma", "mA"), ("_mA", "mA"), ("_v", "V"), ("_a", "A"),
   ("_psu", "PSU"), ("_ppt", "ppt"), ("_pct", "%"), ("_db", "dB")]

/-- Endings that name a statistic of what stands before them. -/
def statistics : List Text := ["_avg", "_min", "_max", "_stdev", "_mean", "_stddev"]

/-- The unit of a key by its own ending. -/
def ofEnding? (key : Text) : Option Text := (endings.find? fun e => key.endsWith e.1).map Prod.snd

theorem length_pos_of_mem_statistics : ∀ s ∈ statistics, 0 < s.length := by decide

theorem length_lt_of_dropEnd? {s key base : Text} (hs : s ∈ statistics) (h : key.dropEnd? s = some base) : base.length < key.length := by
  have hpos : 0 < s.bytes.length := length_pos_of_mem_statistics s hs
  rw [Text.dropEnd?_eq_some_iff.1 h, Text.length, Text.length, Text.bytes_append, List.length_append]
  omega

/-- The unit of a key: its own if it has one, else that of the key which it names a statistic of, else that of its ending. -/
def ofKey? (key : Text) : Option Text :=
  (exact.lookup key).orElse fun _ =>
    (statistics.attach.findSome? fun s => (key.dropEnd? s.1).attach.bind fun base => ofKey? base.1).orElse fun _ => ofEnding? key
termination_by key.length
decreasing_by exact length_lt_of_dropEnd? s.2 base.2

/-- The unit of a key, and nothing if the key names none. -/
def ofKey (key : Text) : Text := (ofKey? key).getD ""

end SensorWire.Unit
