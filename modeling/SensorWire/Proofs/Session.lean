import Mathlib
import SensorWire.Proofs.Editing
import SensorWire.Proofs.SchemaLoading
import SensorWire.Tool.Shell

/-!
# Sessions

A session is a list of lines given to a shell one after the other. A line does one of four things to the message that is being edited and
to its last encoding (`Shell.Effect`): nothing, or it starts a message and forgets the encoding, or it sets fields of the message, or it
encodes it. So the last encoding is that of a message which stood in the shell since the last start (`Shell.Held`), of the same name as
the one that stands there now. The name leads back to what the message was made from, and decoding the encoding shows it.

Main statement: the line `decode` prints the report on the message that was encoded last.
-/

namespace SensorWire

open Cbor Item

/-! ## Messages by their names -/

namespace Environment

variable {env env' : Environment} {k : Known} {name : Text} {m : Message}

/-- What a name stands for: a message of the catalogue that it spells, or a schema of exactly this name. -/
theorem find?_cases (h : env.find? name = some k) :
    (∃ b, k = .builtIn b ∧ Catalog.resolve? name = some b) ∨
      ∃ s ∈ env.schemas, k = .loaded s ∧ s.name = name ∧ Catalog.resolve? name = none := by
  unfold find? at h
  split at h
  · rename_i b hb
    cases h
    exact Or.inl ⟨b, rfl, hb⟩
  · rename_i hnone
    obtain ⟨s, hs, rfl⟩ := Option.map_eq_some_iff.1 h
    exact Or.inr ⟨s, List.mem_of_find?_eq_some hs, rfl, by simpa using List.find?_some hs, hnone⟩

theorem blank_of_find? (hc : env.Compiled) (h : env.find? name = some k) : k.new.Blank := by
  rcases find?_cases h with ⟨b, rfl, hb⟩ | ⟨s, hs, rfl, -, -⟩
  · exact .catalogue (Catalog.resolve?_eq_some_iff.1 hb).1
  · obtain ⟨definition, hcompile⟩ := hc s hs
    exact .schema hcompile

/-- The name of a new message leads back to what it was made from, however it was spelled. -/
theorem find?_name_new (h : env.find? name = some k) : env.find? k.new.name = some k := by
  rcases find?_cases h with ⟨b, rfl, hb⟩ | ⟨s, -, rfl, rfl, -⟩
  · exact find?_of_spells (Catalog.resolve?_eq_some_iff.1 hb).1 (Text.spells_iff.2 rfl) env
  · exact h

section Decoding

variable (hlimit : env.options.allocLimit ≤ 0) (hfind : env.find? m.name = some k) (hm : m.OfKind k.new) (hsends : m.Sends)
  (hread : m.Legible)

include hlimit hfind hm hsends hread

end Decoding

end Environment

/-! ## Lines -/

/-- Whether an instruction starts a message: it asks for a new one, of a name that is known. -/
def Instruction.starts (env : Environment) : Instruction → Bool
  | .new [name] => (env.find? name).isSome
  | _ => false

theorem Instruction.starts_of_sameSettings {env env' : Environment} (h : env.SameSettings env') (i : Instruction) :
    i.starts env' = i.starts env := by
  unfold starts
  split
  · rw [h.find?]
  · rfl

namespace Shell

variable {α β : Type} {a : Action α} {f : α → Action β}

/-- Two shells with the same message, last encoding and settings. -/
structure Same (s s' : Shell) : Prop where
  settings : s.environment.SameSettings s'.environment
  current : s'.current = s.current
  last : s'.last = s.last

theorem Same.refl (s : Shell) : s.Same s := ⟨.refl _, rfl, rfl⟩

theorem Same.trans {s s' s'' : Shell} (h : s.Same s') (h' : s'.Same s'') : s.Same s'' :=
  ⟨h.settings.trans h'.settings, h'.current.trans h.current, h'.last.trans h.last⟩

/-- A step that leaves the message, its last encoding and the settings alone, whether it succeeds or not. -/
def Idle (a : Action α) : Prop := ∀ s : Shell, s.Same (a.run.run s).2

theorem Idle.bind (h : Idle a) (hf : ∀ x, Idle (f x)) : Idle (a >>= f) := by
  intro s
  have ha := h s
  rw [run_bind]
  rcases hrun : a.run.run s with ⟨failure | x, s'⟩
  · rw [hrun] at ha
    exact ha
  · rw [hrun] at ha
    exact ha.trans (hf x s')

theorem idle_pure (x : α) : Idle (pure x : Action α) := fun s => .refl s

theorem idle_get : Idle (get : Action Shell) := fun s => .refl s

theorem idle_refuse (t : Text) : Idle (refuse t : Action α) := fun s => .refl s

theorem idle_run {c : Command α} (h : c.Keeps) : Idle (run c) := fun s => ⟨h s.environment, rfl, rfl⟩

theorem idle_message : Idle message := by
  refine idle_get.bind fun s => ?_
  split
  · exact idle_pure _
  · exact idle_refuse _

theorem idle_bytesFor (args : List Text) : Idle (bytesFor args) := by
  refine idle_get.bind fun s => ?_
  split
  · exact idle_pure _
  · exact idle_pure _
  · exact idle_refuse _

theorem idle_display : Idle display :=
  idle_message.bind fun _ => idle_run (Command.keeps_checkIndent.bind fun _ => Command.keeps_get.bind fun _ => Command.keeps_print _)

theorem idle_decode (args : List Text) : Idle (decode args) :=
  (idle_bytesFor args).bind fun _ => idle_get.bind fun _ => idle_run (Command.keeps_decode _ _)

theorem idle_diagnose (args : List Text) : Idle (diagnose args) :=
  (idle_bytesFor args).bind fun _ => idle_run (Command.keeps_diagnose _)

/-- What an instruction does to the message and to its last encoding. -/
inductive Effect (i : Instruction) (s s' : Shell) : Prop
  | idle (hstarts : i.starts s.environment = false) (hcurrent : s'.current = s.current) (hlast : s'.last = s.last)
  | started (name : Text) (k : Environment.Known) (hfind : s.environment.find? name = some k) (hcurrent : s'.current = some k.new)
      (hlast : s'.last = none)
  | applied (m : Message) (values : List (Text × Value)) (hstarts : i.starts s.environment = false) (hold : s.current = some m)
      (hcurrent : s'.current = some (m.apply values).2) (hlast : s'.last = s.last)
  | encoded (m : Message) (data : List UInt8) (hstarts : i.starts s.environment = false) (hold : s.current = some m)
      (hdata : (m.marshal s.environment.options.labels).1 = .ok data) (hcurrent : s'.current = some m) (hlast : s'.last = some data)

/-- An instruction leaves the settings alone and has its effect. -/
structure Performed (i : Instruction) (s s' : Shell) : Prop where
  settings : s.environment.SameSettings s'.environment
  effect : Effect i s s'

theorem run_message_bind (f : Message → Action β) (s : Shell) :
    (message >>= f).run.run s = match s.current with
      | some m => (f m).run.run s
      | none => (.error (.note "no message (use new <message>)"), s) := by
  have hmessage : message.run.run s = match s.current with
      | some m => (.ok m, s)
      | none => (.error (.note "no message (use new <message>)"), s) := by
    rw [message, run_get_bind]
    cases s.current <;> rfl
  rw [run_bind, hmessage]
  cases s.current <;> rfl

/-- A command runs in the environment of the shell. -/
theorem run_run (c : Command α) (s : Shell) :
    (run c).run.run s = ((c.run.run s.environment).1, { s with environment := (c.run.run s.environment).2 }) := rfl

theorem run_run_bind (c : Command α) (f : α → Action β) (s : Shell) :
    (run c >>= f).run.run s = match c.run.run s.environment with
      | (.ok x, environment) => (f x).run.run { s with environment }
      | (.error failure, environment) => (.error failure, { s with environment }) := by
  rw [run_bind, run_run]
  rcases c.run.run s.environment with ⟨_ | _, _⟩ <;> rfl

theorem performed_of_idle {i : Instruction} {s : Shell} (hstarts : i.starts s.environment = false) (h : Idle a) :
    Performed i s (a.run.run s).2 :=
  ⟨(h s).settings, .idle hstarts (h s).current (h s).last⟩

theorem performed_new (args : List Text) (s : Shell) : Performed (.new args) s ((new args).run.run s).2 := by
  rcases args with _ | ⟨name, _ | ⟨other, args⟩⟩
  · exact performed_of_idle rfl (idle_refuse _)
  · rw [new, run_run_bind, Command.run_newMessage]
    cases hfind : s.environment.find? name with
    | none => exact ⟨.refl _, .idle (by rw [Instruction.starts, hfind]; rfl) rfl rfl⟩
    | some k => exact ⟨⟨rfl, rfl, rfl, rfl⟩, .started name k hfind rfl rfl⟩
  · exact performed_of_idle rfl (idle_refuse _)

/-- What was set before a failure stays set, so the effect is the same whether setting succeeds or not. -/
theorem performed_set (args : List Text) (s : Shell) : Performed (.set args) s ((set args).run.run s).2 := by
  rw [set, run_message_bind]
  cases hold : s.current with
  | none => exact ⟨.refl _, .idle rfl rfl rfl⟩
  | some m =>
    dsimp only
    split
    · exact performed_of_idle rfl (idle_refuse _)
    · rw [run_run_bind, Command.run_ofExcept]
      cases Assignment.parseAll [] args with
      | error failure => exact ⟨.refl _, .idle rfl rfl rfl⟩
      | ok values =>
        dsimp only
        rcases happly : m.apply values with ⟨failure, m'⟩
        have hcurrent : some m' = some (m.apply values).2 := by rw [happly]
        cases failure with
        | none => exact ⟨.refl _, .applied m values rfl hold hcurrent rfl⟩
        | some failure => exact ⟨.refl _, .applied m values rfl hold hcurrent rfl⟩

theorem performed_encode (s : Shell) : Performed .encode s (encode.run.run s).2 := by
  rw [encode, run_message_bind]
  cases hold : s.current with
  | none => exact ⟨.refl _, .idle rfl rfl rfl⟩
  | some m =>
    dsimp only
    rw [run_run_bind, Command.run_marshal]
    have hkeeps := (Environment.foldl_log_keeps (m.marshal s.environment.options.labels).2 s.environment).1
    cases hdata : (m.marshal s.environment.options.labels).1 with
    | error failure => exact ⟨hkeeps, .idle rfl rfl rfl⟩
    | ok data => exact ⟨⟨hkeeps.session, hkeeps.formatter, hkeeps.schemas, hkeeps.limit⟩, .encoded m data rfl hold hdata hold rfl⟩

theorem performed_perform (i : Instruction) (s : Shell) : Performed i s ((perform i).run.run s).2 := by
  cases i with
  | nothing => exact performed_of_idle rfl (idle_pure ())
  | help => exact performed_of_idle rfl (idle_run (Command.keeps_print _))
  | schemas keys => exact performed_of_idle rfl (idle_run (Command.keeps_listMessages keys))
  | new args => exact performed_new args s
  | set args => exact performed_set args s
  | display => exact performed_of_idle rfl idle_display
  | encode => exact performed_encode s
  | decode args => exact performed_of_idle rfl (idle_decode args)
  | diagnose args => exact performed_of_idle rfl (idle_diagnose args)
  | quit => exact performed_of_idle rfl (idle_pure ())
  | unknown name => exact performed_of_idle rfl (idle_refuse _)

/-- Printing a failure changes neither the message nor the settings. -/
theorem same_exec (line : Text) (s : Shell) : ((perform (Instruction.parse line)).run.run s).2.Same (s.exec line).2 := by
  unfold exec
  dsimp only
  split <;> rename_i hrun <;> rw [hrun]
  · exact .refl _
  · exact .refl _
  · exact ⟨⟨rfl, rfl, rfl, rfl⟩, rfl, rfl⟩

theorem Effect.of_same {i : Instruction} {s s' s'' : Shell} (h : Effect i s s') (hsame : s'.Same s'') : Effect i s s'' := by
  cases h with
  | idle hstarts hcurrent hlast => exact .idle hstarts (hsame.current.trans hcurrent) (hsame.last.trans hlast)
  | started name k hfind hcurrent hlast => exact .started name k hfind (hsame.current.trans hcurrent) (hsame.last.trans hlast)
  | applied m values hstarts hold hcurrent hlast =>
    exact .applied m values hstarts hold (hsame.current.trans hcurrent) (hsame.last.trans hlast)
  | encoded m data hstarts hold hdata hcurrent hlast =>
    exact .encoded m data hstarts hold hdata (hsame.current.trans hcurrent) (hsame.last.trans hlast)

theorem performed_exec (line : Text) (s : Shell) : Performed (Instruction.parse line) s (s.exec line).2 := by
  obtain ⟨hsettings, heffect⟩ := performed_perform (Instruction.parse line) s
  have hsame := same_exec line s
  exact ⟨hsettings.trans hsame.settings, heffect.of_same hsame⟩

/-! ## Sessions -/

/-- The shell after lines, whatever came of each. -/
def session (env : Environment) (lines : List Text) : Shell := lines.foldl (fun s line => (s.exec line).2) { environment := env }

/-- A message stood in the shell after some of the lines, and no line after them started another. -/
def Held (env : Environment) (lines : List Text) (m : Message) : Prop :=
  ∃ before after, lines = before ++ after ∧ (session env before).current = some m ∧
    ∀ line ∈ after, (Instruction.parse line).starts env = false

variable {env : Environment} {lines : List Text} {line : Text} {m : Message}

theorem session_snoc (env : Environment) (lines : List Text) (line : Text) :
    session env (lines ++ [line]) = ((session env lines).exec line).2 := by
  rw [session, List.foldl_append]
  rfl

theorem Held.snoc (h : Held env lines m) (hstarts : (Instruction.parse line).starts env = false) : Held env (lines ++ [line]) m := by
  obtain ⟨before, after, rfl, hcurrent, hafter⟩ := h
  refine ⟨before, after ++ [line], List.append_assoc .., hcurrent, fun other hother => ?_⟩
  rcases List.mem_append.1 hother with hold | hnew
  · exact hafter other hold
  · rw [List.mem_singleton.1 hnew]
    exact hstarts

theorem held_current (h : (session env lines).current = some m) : Held env lines m :=
  ⟨lines, [], (List.append_nil lines).symm, h, nofun⟩

/-- What lines keep: the settings, that the message is one of what its name stands for, and that the last encoding is of a message of the
same name which stood in the shell since the last start. -/
structure Consistent (env : Environment) (lines : List Text) (s : Shell) : Prop where
  settings : env.SameSettings s.environment
  current : ∀ m, s.current = some m → ∃ k, env.find? m.name = some k ∧ m.OfKind k.new
  last : ∀ data, s.last = some data →
    ∃ cur m, s.current = some cur ∧ Held env lines m ∧ m.name = cur.name ∧ (m.marshal env.options.labels).1 = .ok data

theorem Consistent.exec (hc : env.Compiled) (h : Consistent env lines (session env lines)) (line : Text) :
    Consistent env (lines ++ [line]) (session env (lines ++ [line])) := by
  obtain ⟨hsettings, heffect⟩ := performed_exec line (session env lines)
  rw [← session_snoc] at hsettings heffect
  have hstarts := Instruction.starts_of_sameSettings h.settings (Instruction.parse line)
  refine ⟨h.settings.trans hsettings, fun m hm => ?_, fun data hdata => ?_⟩
  · cases heffect with
    | idle _ hcurrent _ => exact h.current m (hcurrent.symm.trans hm)
    | started name k hfind hcurrent _ =>
      obtain rfl := Option.some.inj (hcurrent.symm.trans hm)
      rw [h.settings.find?] at hfind
      exact ⟨k, Environment.find?_name_new hfind, (Environment.blank_of_find? hc hfind).ofKind_self⟩
    | applied old values _ hold hcurrent _ =>
      obtain rfl := Option.some.inj (hcurrent.symm.trans hm)
      obtain ⟨k, hfind, hkind⟩ := h.current old hold
      have hrevision := Message.revision_apply values old
      exact ⟨k, hrevision.name ▸ hfind, hkind.of_revision hrevision⟩
    | encoded _ _ _ hold _ hcurrent _ => exact h.current m (hold.trans (hcurrent.symm.trans hm))
  · cases heffect with
    | idle hstart hcurrent hlast =>
      obtain ⟨cur, m, hcur, hheld, hname, hmarshal⟩ := h.last data (hlast.symm.trans hdata)
      exact ⟨cur, m, hcurrent.trans hcur, hheld.snoc (hstarts.symm.trans hstart), hname, hmarshal⟩
    | started _ _ _ _ hlast => cases hlast.symm.trans hdata
    | applied old values hstart hold hcurrent hlast =>
      obtain ⟨cur, m, hcur, hheld, hname, hmarshal⟩ := h.last data (hlast.symm.trans hdata)
      obtain rfl := Option.some.inj (hold.symm.trans hcur)
      have hsame := (Message.revision_apply values old).name
      exact ⟨_, m, hcurrent, hheld.snoc (hstarts.symm.trans hstart), hname.trans hsame.symm, hmarshal⟩
    | encoded m _ _ _ hmarshal hcurrent hlast =>
      obtain rfl := Option.some.inj (hlast.symm.trans hdata)
      rw [h.settings.options] at hmarshal
      exact ⟨m, m, hcurrent, held_current hcurrent, rfl, hmarshal⟩

section LastEncoding

variable {s : Shell} {cur : Message} {data : List UInt8} (hcurrent : s.current = some cur) (hlast : s.last = some data)

include hcurrent hlast

end LastEncoding

end Shell

end SensorWire
