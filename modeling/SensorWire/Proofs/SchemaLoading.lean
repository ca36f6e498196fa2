import Mathlib
import SensorWire.Proofs.Commands

/-!
# Loaded schemas and the catalogue

A file of schemas is refused when one of them has the name of a message of the catalogue, letter for letter. But a message of the
catalogue is found by its name in any case, and before any schema. So a schema whose name differs from one of the catalogue in case alone
is loaded and listed, and cannot be found. All others are found by their names, whatever files were loaded in whatever order.

Main statement: a loaded schema is found by its name exactly when the name spells none of the catalogue.
-/

namespace SensorWire

open Cbor

/-! ## Names in any case -/

/-- A text as it is compared when case is ignored. -/
def Text.folded (t : Text) : List Rune :=
  t.runes.map fun
    | .char c => .char (Char.folded c)
    | r => r

theorem Text.spells_iff {t name : Text} : t.spells name = true ↔ t.folded = name.folded := beq_iff_eq

namespace Catalog

/-- No two names of the catalogue are alike when case is ignored. -/
theorem nodup_folded : (Catalog.all.map fun m => m.name.folded).Nodup := by decide +kernel

variable {m m' : Message} {name : Text}

theorem eq_of_spells (hm : m ∈ Catalog.all) (hm' : m' ∈ Catalog.all) (h : name.spells m.name = true) (h' : name.spells m'.name = true) :
    m = m' :=
  List.inj_on_of_nodup_map nodup_folded hm hm' ((Text.spells_iff.1 h).symm.trans (Text.spells_iff.1 h'))

/-- A message of the catalogue is found by every spelling of its name. -/
theorem resolve?_eq_some_iff : resolve? name = some m ↔ m ∈ Catalog.all ∧ name.spells m.name = true := by
  unfold resolve?
  cases hexact : find? name with
  | some m' =>
    have hname : m'.name = name := by simpa using List.find?_some hexact
    have hm' : m' ∈ Catalog.all := List.mem_of_find?_eq_some hexact
    have hself : name.spells m'.name = true := Text.spells_iff.2 (congrArg Text.folded hname.symm)
    constructor
    · rintro ⟨⟩
      exact ⟨hm', hself⟩
    · rintro ⟨hm, hspells⟩
      exact congrArg some (eq_of_spells hm' hm hself hspells)
  | none =>
    constructor
    · intro (h : Catalog.all.find? (fun m => name.spells m.name) = some m)
      exact ⟨List.mem_of_find?_eq_some h, List.find?_some (p := fun m : Message => name.spells m.name) h⟩
    · rintro ⟨hm, hspells⟩
      obtain ⟨m', hm'⟩ := Option.isSome_iff_exists.1 (List.find?_isSome (p := fun m => name.spells m.name).2 ⟨m, hm, hspells⟩)
      have hspells' := List.find?_some (p := fun m : Message => name.spells m.name) hm'
      exact hm'.trans (congrArg some (eq_of_spells (List.mem_of_find?_eq_some hm') hm hspells' hspells))

theorem resolve?_eq_none_iff : resolve? name = none ↔ ∀ m ∈ Catalog.all, name.spells m.name = false := by
  simp only [Option.eq_none_iff_forall_ne_some, ne_eq, resolve?_eq_some_iff, not_and, Bool.not_eq_true]

end Catalog

/-! ## Loading -/

/-- Loading a file adds its schemas if they can be read. -/
theorem Command.run_loadSchemas (path : Text) (env : Environment) :
    (loadSchemas path).run.run env = match Schema.load env.files path with
      | .ok schemas => (addSchemas path schemas).run.run env
      | .error failure => (.error failure, env) := by
  rw [loadSchemas, run_get_bind, run_ofExcept_bind]
  cases Schema.load env.files path <;> rfl

theorem Schema.load_of_parse {files : Files} {path : Text} {data : List UInt8} {schemas : List Schema} (hread : files.read path = .ok data)
    (hparse : parse ⟨data⟩ = .ok schemas) : load files path = .ok schemas := by
  rw [load, hread]
  change (parse ⟨data⟩).mapError _ = _
  rw [hparse]
  rfl

theorem Schema.compiled_of_parseFrom {fuel : Nat} {seen : List Text} {stream : Yaml.Stream} {schemas : List Schema}
    (h : parseFrom fuel seen stream = .ok schemas) : ∀ s ∈ schemas, ∃ definition, compile definition = .ok s := by
  induction fuel generalizing seen stream schemas with
  | zero =>
    cases h
    exact nofun
  | succ fuel ih =>
    rw [parseFrom] at h
    split at h
    · cases h
    · cases h
      exact nofun
    · obtain ⟨definition, -, h⟩ := bind_eq_ok_iff.1 h
      obtain ⟨s, hs, h⟩ := bind_eq_ok_iff.1 h
      split at h
      · cases h
      · obtain ⟨rest, hrest, h⟩ := bind_eq_ok_iff.1 h
        cases h
        exact List.forall_mem_cons.2 ⟨⟨definition, hs⟩, ih hrest⟩

theorem Schema.compiled_of_load {files : Files} {path : Text} {schemas : List Schema} (h : load files path = .ok schemas) :
    ∀ s ∈ schemas, ∃ definition, compile definition = .ok s := by
  obtain ⟨data, -, h⟩ := bind_eq_ok_iff.1 h
  rw [parse] at h
  split at h
  · cases h
  · rename_i stream _
    cases hparse : parseFrom (stream.tokens.length + 1) [] stream with
    | error failure =>
      rw [hparse] at h
      cases h
    | ok schemas' =>
      rw [hparse] at h
      cases h
      exact compiled_of_parseFrom hparse

namespace Environment

/-- The schemas of an environment were made of definitions. -/
def Compiled (env : Environment) : Prop := ∀ s ∈ env.schemas, ∃ definition, Schema.compile definition = .ok s

/-- What loading keeps: the schemas were made of definitions, their names differ, and none is exactly a name of the catalogue. -/
structure Orderly (env : Environment) : Prop where
  compiled : env.Compiled
  namesDiffer : (env.schemas.map Schema.name).Nodup
  apart : ∀ s ∈ env.schemas, Catalog.find? s.name = none

variable {env env' : Environment} {s : Schema}

theorem Orderly.of_schemas (h : env.Orderly) (hsame : env'.schemas = env.schemas) : env'.Orderly := by
  obtain ⟨hcompiled, hdiffer, hapart⟩ := h
  rw [Compiled, ← hsame] at hcompiled
  rw [← hsame] at hdiffer hapart
  exact ⟨hcompiled, hdiffer, hapart⟩

theorem Orderly.addSchema (h : env.Orderly) (hs : ∃ definition, Schema.compile definition = .ok s)
    (hname : Catalog.find? s.name = none) : (env.addSchema s).Orderly := by
  have hmem : ∀ {s'}, s' ∈ (env.addSchema s).schemas → s' ∈ env.schemas ∨ s' = s := by
    intro s' hs'
    rcases List.mem_append.1 hs' with hold | hnew
    · exact Or.inl (List.mem_filter.1 hold).1
    · exact Or.inr (List.mem_singleton.1 hnew)
  refine ⟨fun s' hs' => ?_, ?_, fun s' hs' => ?_⟩
  · rcases hmem hs' with hold | rfl
    · exact h.compiled s' hold
    · exact hs
  · rw [Environment.addSchema, List.map_append, List.map_singleton, List.nodup_append]
    refine ⟨h.namesDiffer.sublist (List.filter_sublist.map _), List.nodup_singleton _, ?_⟩
    rintro _ ha _ hb rfl
    obtain ⟨s', hs', hsame⟩ := List.mem_map.1 ha
    rw [List.mem_singleton.1 hb] at hsame
    simpa [hsame] using (List.mem_filter.1 hs').2
  · rcases hmem hs' with hold | rfl
    · exact h.apart s' hold
    · exact hname

/-- Schemas of a file are added up to the first that has the name of a message of the catalogue. -/
theorem Orderly.addSchemas (path : Text) {schemas : List Schema} (hcompiled : ∀ s ∈ schemas, ∃ definition, Schema.compile definition = .ok s)
    (h : env.Orderly) : ((Command.addSchemas path schemas).run.run env).2.Orderly := by
  induction schemas generalizing env with
  | nil => exact h
  | cons s schemas ih =>
    rw [List.forall_mem_cons] at hcompiled
    rw [Command.addSchemas]
    cases hname : Catalog.find? s.name with
    | some m => exact h
    | none => exact ih hcompiled.2 (h.addSchema hcompiled.1 hname)

theorem Orderly.loadSchemas (h : env.Orderly) (path : Text) : ((Command.loadSchemas path).run.run env).2.Orderly := by
  rw [Command.run_loadSchemas]
  cases hload : Schema.load env.files path with
  | error failure => exact h
  | ok schemas => exact h.addSchemas path (Schema.compiled_of_load hload)

/-- An environment in which files of schemas were loaded, each of them taken or refused, and in which other things were done between. -/
inductive Loaded : Environment → Prop
  | empty {env : Environment} (h : env.schemas = []) : Loaded env
  | load {env : Environment} (h : Loaded env) (path : Text) : Loaded ((Command.loadSchemas path).run.run env).2
  | other {env env' : Environment} (h : Loaded env) (hsame : env'.schemas = env.schemas) : Loaded env'

theorem Loaded.orderly (h : env.Loaded) : env.Orderly := by
  induction h with
  | empty h =>
    refine ⟨fun s hs => ?_, ?_, fun s hs => ?_⟩
    · rw [h] at hs
      cases hs
    · rw [h]
      exact List.nodup_nil
    · rw [h] at hs
      cases hs
  | load _ path ih => exact ih.loadSchemas path
  | other _ hsame ih => exact ih.of_schemas hsame

/-! ## Finding what a name stands for -/

theorem find?_of_spells {m : Message} {name : Text} (hm : m ∈ Catalog.all) (h : name.spells m.name = true) (env : Environment) :
    env.find? name = some (.builtIn m) := by
  rw [find?, Catalog.resolve?_eq_some_iff.2 ⟨hm, h⟩]

theorem Orderly.find?_name (h : env.Orderly) (hs : s ∈ env.schemas) (hname : ∀ m ∈ Catalog.all, s.name.spells m.name = false) :
    env.find? s.name = some (.loaded s) := by
  rw [find?, Catalog.resolve?_eq_none_iff.2 hname, find?_key_of_mem h.namesDiffer hs]
  rfl

/-- No schema that was loaded has exactly a name of the catalogue. Those are found by their names, and new messages made of them, whose names
spell none of the catalogue; every spelling of a name of the catalogue stands for the message of the catalogue. -/
theorem loaded_schema_is_found_iff (h : env.Loaded) :
    (∀ s ∈ env.sortedSchemas, Catalog.find? s.name = none ∧
      (env.find? s.name = some (.loaded s) ↔ ∀ m ∈ Catalog.all, s.name.spells m.name = false) ∧
        ((∀ m ∈ Catalog.all, s.name.spells m.name = false) → (Command.newMessage s.name).run.run env = (.ok s.new, env))) ∧
      ∀ m ∈ Catalog.all, ∀ name, name.spells m.name = true →
        env.find? name = some (.builtIn m) ∧ (Command.newMessage name).run.run env = (.ok m, env) := by
  constructor
  · intro s hs
    have hmem : s ∈ env.schemas := List.mem_mergeSort.1 hs
    refine ⟨h.orderly.apart s hmem, ⟨fun hfind m hm => ?_, h.orderly.find?_name hmem⟩, fun hname => ?_⟩
    · rw [← Bool.not_eq_true]
      intro hspells
      cases (find?_of_spells hm hspells env).symm.trans hfind
    · rw [Command.run_newMessage, h.orderly.find?_name hmem hname]
      rfl
  · intro m hm name hspells
    have hfind := find?_of_spells hm hspells env
    refine ⟨hfind, ?_⟩
    rw [Command.run_newMessage, hfind]
    rfl

/-- A file of one schema, whose name is that of a message of the catalogue in small letters. -/
def probeFile : Text := "\x7bname: rbrdata, header: on\x7d"

/-- The schema in the file. -/
def probe : Schema := ⟨{ name := "rbrdata", header := true }, []⟩

theorem parse_probeFile : Schema.parse probeFile = .ok [probe] := by cbv

/-- The schema of the file is loaded and listed, and a new message of its name is one of the catalogue. -/
theorem probe_is_not_found :
    let env : Environment := { files := { entries := [("probe.yaml", probeFile.bytes)] } }
    let loaded := (Command.loadSchemas "probe.yaml").run.run env
    loaded.1 = .ok () ∧ loaded.2.Loaded ∧ probe ∈ loaded.2.sortedSchemas ∧ loaded.2.find? probe.name ≠ some (.loaded probe) ∧
      ∃ m ∈ Catalog.all, (Command.newMessage probe.name).run.run loaded.2 = (.ok m, loaded.2) ∧ m ≠ probe.new := by
  intro env loaded
  have hload : Schema.load env.files "probe.yaml" = .ok [probe] := Schema.load_of_parse rfl parse_probeFile
  have hrun : loaded = (.ok (), env.addSchema probe) := by
    rw [show loaded = _ from Command.run_loadSchemas _ _, hload]
    rfl
  have hmem : probe ∈ loaded.2.sortedSchemas := by
    rw [hrun]
    exact List.mem_mergeSort.2 (List.mem_singleton_self probe)
  have hloaded : loaded.2.Loaded := .load (.empty rfl) _
  have hfound := loaded_schema_is_found_iff hloaded
  obtain ⟨m, hm, hspells, hother⟩ : ∃ m ∈ Catalog.all, probe.name.spells m.name = true ∧ m ≠ probe.new := by decide
  refine ⟨congrArg Prod.fst hrun, hloaded, hmem, fun hfind => ?_, m, hm, (hfound.2 m hm probe.name hspells).2, hother⟩
  exact absurd hspells (Bool.eq_false_iff.1 ((hfound.1 probe hmem).2.1.1 hfind m hm))

end Environment

end SensorWire
