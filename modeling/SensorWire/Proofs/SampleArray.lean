import Mathlib
import SensorWire.Proofs.Sampling
import SensorWire.Proofs.Sending

/-!
# The array that a failed decode leaves

A message that has no room for samples gets an array from the decode. A decode that fails inside the map, at a pair or because there are
more or fewer samples than the message says, drops the array. The bytes after the map are looked at last, when the array is in the message,
and a decode that fails there does not drop it.

Main statement: `failed_decode_samples`.
-/

namespace SensorWire.Message

open Decoder

variable {m : Message} {s : Sampling}

/-! ## Reading into a message without room -/

/-- A decode into a message without room: the message has no samples until an array is allocated, and it has a full array. -/
structure Allocating (s : Sampling) : Prop where
  none : s.allocated = false → s.message.samples = {}
  full : s.message.samples.capacity = s.message.samples.values.length

theorem length_takeSamples {n : Nat} {d d' : Decoder} {values : List UInt64} (h : takeSamples n d = (values, none, d')) :
    values.length = n := by
  induction n generalizing d values with
  | zero =>
    cases h
    rfl
  | succ n ih =>
    rw [takeSamples] at h
    rcases htake : (takeFloat64 "NextFloat64" "").run.run d with ⟨err | bits, d₁⟩
    · rw [htake] at h
      cases h
    · rcases hmore : takeSamples n d₁ with ⟨values', err?, d₂⟩
      rw [htake] at h
      simp only [hmore] at h
      cases h
      rw [List.length_cons, ih hmore]

theorem Allocating.takeSignal (h : Allocating s) (n : Nat) (d : Decoder) : Allocating (takeSignal 0 n s d).2.1 := by
  have hread := signalRead 0 n s d
  generalize Message.takeSignal 0 n s d = r at hread ⊢
  cases hread with
  | crowded | unpaid => exact h
  | stopped _ kept flag_eq =>
    rw [kept rfl, flag_eq]
    exact ⟨fun hfalse => Bool.noConfusion hfalse, h.full⟩
  | whole take capacity_eq flag_eq =>
    rw [capacity_eq, flag_eq]
    exact ⟨fun hfalse => Bool.noConfusion hfalse, (length_takeSamples take).symm⟩

theorem allocating_walkPairs (hempty : m.samples = {}) (lenient : Bool) (d : Decoder) : Allocating (m.walkPairs lenient d).2.2.1 := by
  refine kept_walkPairs (fun n s d hs => ?_) (fun _ _ hs => ⟨hs.none, hs.full⟩) (fun _ _ _ hs => ⟨hs.none, hs.full⟩)
    ⟨fun _ => hempty, ?_⟩ lenient d
  · rw [hempty]
    exact hs.takeSignal n d
  · rw [hempty]
    rfl

/-- A walk that fails leaves no array. -/
theorem Allocating.closed (h : Allocating s) : s.closed.samples = {} := by
  rw [Sampling.closed]
  split_ifs with hallocated
  · rfl
  · exact h.none (Bool.eq_false_of_not_eq_true hallocated)

/-! ## The whole decode -/

/-- A decode into a message without room that fails: if bytes follow the map, the message has the whole array that it says it has, and
after any other failure it has none. -/
theorem failed_decode_samples {blank : Message} (hblank : blank ∈ Catalog.all) (hm : m.OfKind blank) (hsamples : m.hasSamples = true)
    (hempty : m.samples = {}) (lenient : Bool) (options : Options) (data : List UInt8) {failure : Failure} {err : Error}
    (hfailure : (m.decode lenient options data).1 = some failure) (herr : failure.codec? = some err) (hfatal : err.isAggregate = false) :
    let m' := (m.decode lenient options data).2.1
    if err.code = .trailingData then m'.samples.values.length = m'.sampleCount ∧ m'.samples.capacity = m'.sampleCount
    else m'.samples = {} := by
  obtain ⟨r, hdecoded, hdecode⟩ := hm.samplesDecoded (.catalogue hblank) hsamples lenient options data
  have hr : r.1 = some err := by
    rw [hdecode] at hfailure
    obtain ⟨e, he, rfl⟩ := Option.map_eq_some_iff.1 hfailure
    rw [he, ← herr]
    rfl
  have hkept := allocating_walkPairs hempty lenient
  rw [hdecode]
  dsimp only
  cases hdecoded with
  | barred inside =>
    cases hr
    rw [if_neg inside.code]
    exact hempty
  | failed d walk code =>
    cases hr
    rw [if_neg code, ← walk]
    exact (hkept d).closed
  | followed d walk count _ code =>
    cases hr
    have hfull := (hkept d).full
    rw [walk] at hfull
    rw [if_pos code]
    exact ⟨count, hfull.trans count⟩
  | @whole _ unknown =>
    have hlisting := listing_filter unknown
    rw [show listing unknown = some err from hr, Option.filter_some_pos (by simp [hfatal])] at hlisting
    cases hlisting

/-- One byte after the map, and the array stays. -/
theorem signal_before_a_byte_stays :
    let blank := Catalog.sensor "RbrPressureDifferenceSignal"
      (Catalog.words ["sequence_num", "total_samples", "num_samples"] ++ Catalog.doubles ["residual_0", "residual_1"]) .samples
    let sent : Message := { blank with
      table := blank.table.store sampleCountKey (.uint32 2), samples := ⟨[0x3ff0000000000000, 0x4000000000000000], 2⟩ }
    let decoded := blank.decode false {} (sent.item.encode ++ [0])
    blank.samples = {} ∧ (∃ failure err, decoded.1 = some failure ∧ failure.codec? = some err ∧ err.code = .trailingData) ∧
      decoded.2.1.sampleCount = 2 ∧ decoded.2.1.samples.capacity = 2 := by
  intro blank sent decoded
  have hblank : blank ∈ Catalog.all := List.mem_of_find?_eq_some (show Catalog.find? blank.name = some blank by decide +kernel)
  have hcode : (decoded.1.bind Failure.codec?).map (fun err => (err.code, err.isAggregate)) = some (.trailingData, false) := by
    decide +kernel
  have hcount : decoded.2.1.sampleCount = 2 := by decide +kernel
  obtain ⟨err, hbind, herr⟩ := Option.map_eq_some_iff.1 hcode
  obtain ⟨failure, hfailure, hcodec⟩ := Option.bind_eq_some_iff.1 hbind
  obtain ⟨hcode, hfatal⟩ := Prod.mk.inj herr
  have hkept := failed_decode_samples hblank (Blank.catalogue hblank).ofKind_self (by decide +kernel) rfl false {} (sent.item.encode ++ [0])
    hfailure hcodec hfatal
  rw [if_pos hcode] at hkept
  dsimp only [decoded] at hfailure hcount ⊢
  exact ⟨rfl, ⟨failure, err, hfailure, hcodec, hcode⟩, hcount, hkept.2.trans hcount⟩

end SensorWire.Message
