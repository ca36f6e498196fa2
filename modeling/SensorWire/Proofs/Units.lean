import Mathlib
import SensorWire.Display.Unit

/-!
# Units of keys

A key is taken apart from its end: while it names a statistic, the statistic is dropped (`Strips`), and what is left in the end is its base.
No statistic ends a key with a unit of its own or a word for a unit, so dropping one keeps the unit (`Strips.ofKey?_eq`), and the unit of a
key is that of its base. Of the words for units no earlier one ends a later one, so the first that fits is the longest (`longest_of_find?`).

Main statement: `unit_of_base`.
-/

namespace SensorWire

theorem Text.endsWith_iff {t ending : Text} : t.endsWith ending = true ↔ ending.bytes <:+ t.bytes := by
  rw [endsWith, Option.isSome_iff_exists]
  constructor
  · intro h
    obtain ⟨rest, hrest⟩ := h
    rw [dropEnd?_eq_some_iff.1 hrest]
    exact List.suffix_append _ _
  · intro h
    obtain ⟨l, hl⟩ := h
    exact ⟨⟨l⟩, dropEnd?_eq_some_iff.2 (congrArg Text.mk hl.symm)⟩

namespace Unit

variable {key base s : Text}

/-! ## The tables -/

theorem not_endsWith_of_mem_exact : ∀ e ∈ exact, ∀ s ∈ statistics, e.1.endsWith s = false := by decide +kernel

theorem apart_from_endings : ∀ s ∈ statistics, ∀ e ∈ endings, s.endsWith e.1 = false ∧ e.1.endsWith s = false := by decide +kernel

theorem statistics_apart : ∀ s ∈ statistics, ∀ s' ∈ statistics, s.endsWith s' = true → s = s' := by decide +kernel

theorem endings_ordered : endings.Pairwise fun e e' => e'.1.endsWith e.1 = false := by decide +kernel

/-- Of two endings of a key one ends the other. -/
theorem endsWith_or {a b : Text} (ha : a.bytes <:+ key.bytes) (hb : b.bytes <:+ key.bytes) :
    a.endsWith b = true ∨ b.endsWith a = true := by
  rw [Text.endsWith_iff, Text.endsWith_iff]
  exact (List.suffix_or_suffix_of_suffix ha hb).symm

/-! ## Dropping a statistic -/

/-- One statistic less at the end of a key. -/
def Strips (key base : Text) : Prop := ∃ s ∈ statistics, key = base ++ s

/-- What is left of a key when every statistic at its end is dropped. -/
structure IsBase (key base : Text) : Prop where
  strips : Relation.ReflTransGen Strips key base
  bare : ∀ other, ¬Strips base other

theorem strips_wf : WellFounded fun base key => Strips key base := by
  refine Subrelation.wf (fun {base key} h => ?_) (measure Text.length).wf
  obtain ⟨s, hs, rfl⟩ := h
  exact length_lt_of_dropEnd? hs (Text.dropEnd?_eq_some_iff.2 rfl)

/-- A key names at most one statistic. -/
theorem strips_rightUnique : Relator.RightUnique Strips := by
  intro key base base' h h'
  obtain ⟨s, hs, rfl⟩ := h
  obtain ⟨s', hs', heq⟩ := h'
  have hends : s'.bytes <:+ (base ++ s).bytes := heq ▸ List.suffix_append _ _
  have hsame : s = s' := by
    rcases endsWith_or (List.suffix_append base.bytes s.bytes) hends with h | h
    · exact statistics_apart s hs s' hs' h
    · exact (statistics_apart s' hs' s hs h).symm
  subst hsame
  exact congrArg Text.mk (List.append_cancel_right (congrArg Text.bytes heq))

theorem exists_isBase (key : Text) : ∃ base, IsBase key base := by
  induction key using strips_wf.induction with
  | _ key ih =>
    by_cases h : ∃ base, Strips key base
    · obtain ⟨next, hnext⟩ := h
      obtain ⟨base, hbase⟩ := ih next hnext
      exact ⟨base, .head hnext hbase.strips, hbase.bare⟩
    · exact ⟨key, .refl, fun other hother => h ⟨other, hother⟩⟩

/-- From a key that names no statistic only the key itself is reached. -/
theorem eq_of_strips_of_bare {other : Text} (hbare : ∀ other, ¬Strips base other) (h : Relation.ReflTransGen Strips base other) :
    base = other := by
  rcases h.cases_head with heq | hstrips
  · exact heq
  · obtain ⟨next, hnext, -⟩ := hstrips
    exact absurd hnext (hbare next)

theorem IsBase.unique {base' : Text} (h : IsBase key base) (h' : IsBase key base') : base = base' := by
  rcases Relation.ReflTransGen.total_of_right_unique strips_rightUnique h.strips h'.strips with hreach | hreach
  · exact eq_of_strips_of_bare h.bare hreach
  · exact (eq_of_strips_of_bare h'.bare hreach).symm

/-! ## The unit of a key -/

theorem ofKey?_eq (key : Text) : ofKey? key =
    (exact.lookup key).or ((statistics.findSome? fun s => (key.dropEnd? s).bind ofKey?).or (ofEnding? key)) := by
  rw [ofKey?]
  simp

/-- A key that names a statistic has no unit of its own. -/
theorem Strips.lookup_eq_none (h : Strips key base) : exact.lookup key = none := by
  obtain ⟨s, hs, rfl⟩ := h
  rw [List.lookup_eq_none_iff]
  intro e he
  rw [bne_iff_ne]
  intro heq
  have hends : e.1.endsWith s = true := by
    rw [← heq, Text.endsWith_iff]
    exact List.suffix_append _ _
  simp [not_endsWith_of_mem_exact e he s hs] at hends

/-- A key that names a statistic does not end in a word for a unit. -/
theorem Strips.ofEnding?_eq_none (h : Strips key base) : ofEnding? key = none := by
  obtain ⟨s, hs, rfl⟩ := h
  rw [ofEnding?, Option.map_eq_none_iff, List.find?_eq_none]
  intro e he hends
  obtain ⟨hshort, hlong⟩ := apart_from_endings s hs e he
  rcases endsWith_or (List.suffix_append base.bytes s.bytes) (Text.endsWith_iff.1 hends) with h | h
  · simp [hshort] at h
  · simp [hlong] at h

/-- The search of a list for the first answer, where there is one answer at most. -/
theorem findSome?_eq {α β : Type} {f : α → Option β} {l : List α} {x : Option β} (hmem : ∃ a ∈ l, f a = x)
    (h : ∀ a ∈ l, f a = none ∨ f a = x) : l.findSome? f = x := by
  obtain ⟨a, ha, hx⟩ := hmem
  cases hfound : l.findSome? f with
  | none => rw [← hx, List.findSome?_eq_none_iff.1 hfound a ha]
  | some b =>
    obtain ⟨a', ha', hb⟩ := List.exists_of_findSome?_eq_some hfound
    rcases h a' ha' with hnone | hsame
    · simp [hb] at hnone
    · rw [← hsame, hb]

/-- One statistic less leaves the unit as it is. -/
theorem Strips.ofKey?_eq (h : Strips key base) : ofKey? key = ofKey? base := by
  have hcalls : (statistics.findSome? fun s => (key.dropEnd? s).bind ofKey?) = ofKey? base := by
    apply findSome?_eq
    · obtain ⟨s, hs, hkey⟩ := h
      refine ⟨s, hs, ?_⟩
      rw [Text.dropEnd?_eq_some_iff.2 hkey]
      rfl
    · intro s hs
      cases hother : key.dropEnd? s with
      | none => exact .inl rfl
      | some other =>
        rw [strips_rightUnique h ⟨s, hs, Text.dropEnd?_eq_some_iff.1 hother⟩]
        exact .inr rfl
  rw [Unit.ofKey?_eq, h.lookup_eq_none, h.ofEnding?_eq_none, hcalls]
  simp

/-- All the statistics less leave the unit as it is. -/
theorem ofKey?_eq_of_strips (h : Relation.ReflTransGen Strips key base) : ofKey? key = ofKey? base := by
  induction h with
  | refl => rfl
  | tail _ hlast ih => rw [ih, hlast.ofKey?_eq]

theorem strips_append {stats : List Text} (h : ∀ s ∈ stats, s ∈ statistics) (key : Text) :
    Relation.ReflTransGen Strips (key ++ .concat stats) key := by
  induction stats generalizing key with
  | nil =>
    have hempty : key ++ Text.concat [] = key := congrArg Text.mk (List.append_nil _)
    rw [hempty]
  | cons s stats ih =>
    have hcons : key ++ Text.concat (s :: stats) = key ++ s ++ Text.concat stats :=
      congrArg Text.mk (List.append_assoc key.bytes s.bytes _).symm
    rw [hcons]
    exact (ih (fun s' hs' => h s' (List.mem_cons_of_mem _ hs')) (key ++ s)).tail ⟨s, h s List.mem_cons_self, rfl⟩

/-- A key that names no statistic has the unit of its own or of its ending. -/
theorem ofKey?_of_bare (h : ∀ other, ¬Strips key other) : ofKey? key = (exact.lookup key).or (ofEnding? key) := by
  have hcalls : (statistics.findSome? fun s => (key.dropEnd? s).bind ofKey?) = none := by
    rw [List.findSome?_eq_none_iff]
    intro s hs
    rw [Option.bind_eq_none_iff]
    intro other hother
    exact absurd ⟨s, hs, Text.dropEnd?_eq_some_iff.1 hother⟩ (h other)
  rw [ofKey?_eq, hcalls]
  simp

/-! ## The longest ending -/

/-- The first ending that fits is longer than every other that fits. -/
theorem longest_of_find? {e : Text × Text} (h : endings.find? (fun e => key.endsWith e.1) = some e) :
    ∀ e' ∈ endings, e'.1.bytes <:+ key.bytes → e' ≠ e → e'.1.length < e.1.length := by
  obtain ⟨hends, before, after, hsplit, hbefore⟩ := List.find?_eq_some_iff_append.1 h
  intro e' he' hends' hne
  have hordered := endings_ordered
  rw [hsplit] at he' hordered
  rcases List.mem_append.1 he' with hmem | hmem
  · have := hbefore e' hmem
    simp [Text.endsWith_iff.2 hends'] at this
  · have hafter : e' ∈ after := by
      rcases List.mem_cons.1 hmem with heq | hmem
      · exact absurd heq hne
      · exact hmem
    have hnot : e'.1.endsWith e.1 = false := (List.pairwise_cons.1 (List.pairwise_append.1 hordered).2.1).1 e' hafter
    by_contra hlength
    have hshort := List.suffix_of_suffix_length_le (Text.endsWith_iff.1 hends) hends' (not_lt.1 hlength)
    simp [Text.endsWith_iff.2 hshort] at hnot

/-- The unit of a key that names no statistic: its own, or that of the longest word for a unit at its end, or none. -/
inductive UnitOf : (base unit : Text) → Prop where
  | own {base unit : Text} (mem : (base, unit) ∈ exact) : UnitOf base unit
  | ending {base : Text} {e : Text × Text} (other : ∀ unit, (base, unit) ∉ exact) (mem : e ∈ endings)
      (ends : e.1.bytes <:+ base.bytes)
      (longest : ∀ e' ∈ endings, e'.1.bytes <:+ base.bytes → e' ≠ e → e'.1.length < e.1.length) : UnitOf base e.2
  | none {base : Text} (other : ∀ unit, (base, unit) ∉ exact) (bare : ∀ e ∈ endings, ¬e.1.bytes <:+ base.bytes) : UnitOf base ""

theorem unitOf_getD (base : Text) : UnitOf base (((exact.lookup base).or (ofEnding? base)).getD "") := by
  cases hown : exact.lookup base with
  | some unit =>
    obtain ⟨before, after, hsplit, -⟩ := List.lookup_eq_some_iff.1 hown
    exact .own (by simp [hsplit])
  | none =>
    have hother : ∀ unit, (base, unit) ∉ exact := by
      intro unit hmem
      have := List.lookup_eq_none_iff.1 hown _ hmem
      simp at this
    cases hending : endings.find? fun e => base.endsWith e.1 with
    | none =>
      have hbare : ∀ e ∈ endings, ¬e.1.bytes <:+ base.bytes := by
        intro e he hends
        exact List.find?_eq_none.1 hending e he (Text.endsWith_iff.2 hends)
      simpa [ofEnding?, hending] using UnitOf.none hother hbare
    | some e =>
      have hends : base.endsWith e.1 = true := List.find?_some (p := fun e : Text × Text => base.endsWith e.1) hending
      simpa [ofEnding?, hending] using
        UnitOf.ending hother (List.mem_of_find?_eq_some hending) (Text.endsWith_iff.1 hends) (longest_of_find? hending)

/-- The unit of a key is that of its base, which each key has one of: the unit of its own, or else that of the longest word for a unit at
its end, or else none. Statistics at the end of a key do not change its unit, and there is an end to dropping them. -/
theorem unit_of_base :
    (∀ key, ∃! base, IsBase key base) ∧ (∀ key base, IsBase key base → UnitOf base (ofKey key)) ∧
      (∀ (key : Text) (stats : List Text), (∀ s ∈ stats, s ∈ statistics) → ofKey (key ++ .concat stats) = ofKey key) ∧
      WellFounded fun base key => Strips key base := by
  refine ⟨?_, ?_, ?_, strips_wf⟩
  · intro key
    obtain ⟨base, hbase⟩ := exists_isBase key
    exact ⟨base, hbase, fun base' hbase' => hbase'.unique hbase⟩
  · intro key base h
    rw [ofKey, ofKey?_eq_of_strips h.strips, ofKey?_of_bare h.bare]
    exact unitOf_getD base
  · intro key stats hstats
    rw [ofKey, ofKey?_eq_of_strips (strips_append hstats key)]
    rfl

/-- A mean of deviations: both statistics are dropped, and of the words for units that end what is left the longer one counts. -/
theorem unit_of_mean_deviation :
    IsBase ("speed_cm_s" ++ .concat ["_stdev", "_mean"]) "speed_cm_s" ∧
      UnitOf "speed_cm_s" (ofKey ("speed_cm_s" ++ .concat ["_stdev", "_mean"])) ∧
      ofKey ("speed_cm_s" ++ .concat ["_stdev", "_mean"]) = "cm/s" := by
  have hstats : ∀ s ∈ ([Text.ofString "_stdev", Text.ofString "_mean"] : List Text), s ∈ statistics := by decide +kernel
  have hbare : ∀ other, ¬Strips "speed_cm_s" other := by
    intro other h
    obtain ⟨s, hs, heq⟩ := h
    have hnot : ∀ s ∈ statistics, Text.endsWith "speed_cm_s" s = false := by decide +kernel
    have hends : Text.endsWith "speed_cm_s" s = true := by
      rw [heq, Text.endsWith_iff]
      exact List.suffix_append _ _
    simp [hnot s hs] at hends
  obtain ⟨-, hunit, hsame, -⟩ := unit_of_base
  have hbase : IsBase ("speed_cm_s" ++ .concat ["_stdev", "_mean"]) "speed_cm_s" := ⟨strips_append hstats _, hbare⟩
  exact ⟨hbase, hunit _ _ hbase, (hsame _ _ hstats).trans (by decide +kernel)⟩

end Unit

end SensorWire
