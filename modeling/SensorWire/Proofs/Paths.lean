import Mathlib
import SensorWire.Proofs.Applying
import SensorWire.Proofs.Sampling
import SensorWire.Proofs.Spelling

/-!
# Paths

A path names a message, or a message and one of its keys, in any case, with white space around it and with one of two separators. `Spelled`
says what such a text is when case is ignored, and a text is read as a path exactly if it spells it (`leadsTo_iff`). So what makes no
difference to the spelling makes none to where a path leads. Decoding keeps the keys of a message (`keys_decode`), and a report has a row
for each of them, so a path that leads to a key leads to a row.

Main statement: `parse_is_canonical`.
-/

namespace SensorWire

/-! ## Names of the catalogue -/

/-- A name that can stand in a path: it is not empty, and no mark is in it. -/
def Text.IsName (t : Text) : Prop := t.folded ≠ [] ∧ ∀ r ∈ t.folded, r.isMark = false

instance (t : Text) : Decidable t.IsName := inferInstanceAs (Decidable (_ ∧ _))

namespace Catalog

theorem isName_of_mem : ∀ m ∈ all, m.name.IsName := by decide +kernel

theorem isName_of_mem_keys : ∀ m ∈ all, ∀ key ∈ m.keys, key.IsName := by decide +kernel

theorem nodup_folded_keys : ∀ m ∈ all, (m.keys.map Text.folded).Nodup := by decide +kernel

/-- A message of the catalogue is found by its name. -/
theorem find?_name : ∀ m ∈ all, find? m.name = some m := by decide +kernel

end Catalog

/-- A key is found by every spelling of it. -/
theorem Names.key?_eq_some_iff {m : Message} {key given : Text} (hm : m ∈ Catalog.all) :
    Names.key? m.name given = some key ↔ key ∈ m.keys ∧ given.spells key = true := by
  have hfind : Names.key? m.name given = m.keys.find? fun k => given.spells k := by
    rw [Names.key?, Catalog.find?_name m hm]
    rfl
  rw [hfind]
  constructor
  · intro h
    exact ⟨List.mem_of_find?_eq_some h, List.find?_some (p := fun k : Text => given.spells k) h⟩
  · rintro ⟨hkey, hspells⟩
    obtain ⟨key', hkey'⟩ := Option.isSome_iff_exists.1 (List.find?_isSome (p := fun k : Text => given.spells k).2 ⟨key, hkey, hspells⟩)
    have hspells' := List.find?_some (p := fun k : Text => given.spells k) hkey'
    have hsame : key'.folded = key.folded := (Text.spells_iff.1 hspells').symm.trans (Text.spells_iff.1 hspells)
    rw [hkey', List.inj_on_of_nodup_map (Catalog.nodup_folded_keys m hm) (List.mem_of_find?_eq_some hkey') hkey hsame]

namespace Path

variable {s message key : Text} {p : Path}

/-! ## Reading -/

/-- The characters that stand between a message and a key. -/
def IsSeparator (sep : Char) : Prop := sep = '/' ∨ sep = '.'

/-- The separator that a text is divided at. -/
def separator (t : Text) : Char := if !t.hasChar '/' && t.hasChar '.' then '.' else '/'

/-- The parts of a path. -/
def parts (s : Text) : List Text := s.trim.splitOn (separator s.trim)

theorem isSeparator_separator (t : Text) : IsSeparator (separator t) := by
  rw [separator]
  split_ifs
  · exact .inr rfl
  · exact .inl rfl

namespace IsSeparator

variable {sep : Char} (h : IsSeparator sep)

include h

theorem ascii : sep.toNat < 0x80 := by
  rcases h with rfl | rfl
  all_goals decide

theorem isMark : (Rune.char sep).isMark = true := by
  rcases h with rfl | rfl
  all_goals rfl

theorem not_blank : (Rune.char sep).isBlank = false := by
  rcases h with rfl | rfl
  all_goals rfl

theorem bytes : (Text.ofChars [sep]).bytes = [sep.toNat.toUInt8] := by
  rcases h with rfl | rfl
  all_goals rfl

theorem folded_append (a b : Text) : (a ++ Text.ofChars [sep] ++ b).folded = a.folded ++ .char sep :: b.folded := by
  have hbytes : (a ++ Text.ofChars [sep] ++ b).bytes = a.bytes ++ sep.toNat.toUInt8 :: b.bytes := by
    rw [Text.bytes_append, Text.bytes_append, h.bytes, List.append_assoc, List.singleton_append]
  rw [Text.folded_eq, Text.runes, hbytes]
  rcases h with rfl | rfl
  all_goals
    rw [Utf8.runes_append_ascii (by decide), List.map_append]
    rfl

/-- Only a separator is one when case is ignored. -/
theorem eq_of_folded {c : Char} (hc : (Rune.char c).folded = .char sep) : c = sep := by
  have hmark : (Rune.char c).isMark = true := by rw [← Rune.isMark_folded, hc, h.isMark]
  exact Rune.char.inj ((Rune.folded_of_isMark hmark).symm.trans hc)

theorem not_mem_name {t : Text} (ht : t.IsName) : .char sep ∉ t.folded :=
  fun hmem => Bool.false_ne_true ((ht.2 _ hmem).symm.trans h.isMark)

theorem not_mem_blanks {ws : List Rune} (hws : ∀ r ∈ ws, r.isBlank = true) : .char sep ∉ ws :=
  fun hmem => Bool.false_ne_true (h.not_blank.symm.trans (hws _ hmem))

end IsSeparator

theorem parts_ne_nil (s : Text) : parts s ≠ [] := by
  rw [parts, Text.splitOn, Text.splitBytes_eq_splitOn, Ne, List.map_eq_nil_iff]
  exact List.splitOn_ne_nil _ _

theorem trim_of_parts_one {a : Text} (h : parts s = [a]) : s.trim = a := by
  have hjoin := s.trim.intercalate_splitOn (separator s.trim)
  rw [show s.trim.splitOn (separator s.trim) = [a] from h] at hjoin
  have hbytes : s.trim.bytes = a.bytes := by simpa using hjoin.symm
  exact congrArg Text.mk hbytes

theorem trim_of_parts_two {a b : Text} (h : parts s = [a, b]) : s.trim = a ++ Text.ofChars [separator s.trim] ++ b := by
  have hjoin := s.trim.intercalate_splitOn (separator s.trim)
  rw [show s.trim.splitOn (separator s.trim) = [a, b] from h] at hjoin
  refine congrArg Text.mk (hjoin.symm.trans ?_)
  rw [Text.bytes_append, (isSeparator_separator s.trim).bytes]
  simp

/-- What is read as a path has one part or two, none of them empty. -/
theorem parse_eq_ok_iff : parse s = .ok p ↔
    (∃ a m, parts s = [a] ∧ a.isEmpty = false ∧ Catalog.resolve? a = some m ∧ p = ⟨m.name, "", s.trim⟩) ∨
      ∃ a b m key, parts s = [a, b] ∧ a.isEmpty = false ∧ b.isEmpty = false ∧ Catalog.resolve? a = some m ∧
        Names.key? m.name b = some key ∧ p = ⟨m.name, key, s.trim⟩ := by
  have hne := parts_ne_nil s
  have hparts : s.trim.splitOn (if !s.trim.hasChar '/' && s.trim.hasChar '.' then '.' else '/') = parts s := rfl
  rw [parse]
  dsimp only
  rw [hparts]
  by_cases hempty : s.trim.isEmpty = true
  · have htrim : s.trim = ⟨[]⟩ := congrArg Text.mk (List.isEmpty_iff.1 hempty)
    have hone : parts s = [⟨[]⟩] := by
      rw [parts, htrim]
      rfl
    rw [hone, if_pos hempty]
    simp [Text.isEmpty]
  · rw [if_neg hempty]
    generalize parts s = ps at hne
    rcases ps with _ | ⟨a, _ | ⟨b, _ | ⟨c, rest⟩⟩⟩
    · exact absurd rfl hne
    · cases ha : a.isEmpty with
      | true => simp [ha]
      | false =>
        cases hm : Catalog.resolve? a with
        | none => simp [ha, hm, Names.message?]
        | some m => simpa [ha, hm, Names.message?] using eq_comm
    · cases ha : a.isEmpty with
      | true => simp [ha]
      | false =>
        cases hb : b.isEmpty with
        | true => simp [hb]
        | false =>
          cases hm : Catalog.resolve? a with
          | none => simp [ha, hb, hm, Names.message?]
          | some m =>
            cases hkey : Names.key? m.name b with
            | none => simp [ha, hb, hm, hkey, Names.message?]
            | some key => simpa [ha, hb, hm, hkey, Names.message?] using eq_comm
    · simp

/-! ## Spellings of paths -/

/-- A text that is read as a path to a key of a message, or to the whole message if the key is empty. -/
def LeadsTo (s message key : Text) : Prop := ∃ raw, parse s = .ok ⟨message, key, raw⟩

/-- What a path is when case is ignored: the name of a message, or the name and a key with a separator between them. -/
inductive Spelling : List Rune → (message key : Text) → Prop where
  | message {m : Message} (mem : m ∈ Catalog.all) : Spelling m.name.folded m.name ""
  | field {m : Message} {key : Text} {sep : Char} (mem : m ∈ Catalog.all) (key_mem : key ∈ m.keys) (separates : IsSeparator sep) :
    Spelling (m.name.folded ++ .char sep :: key.folded) m.name key

/-- A text that spells a path, with white space around it. -/
def Spelled (s message key : Text) : Prop :=
  ∃ ws core ws', (∀ r ∈ ws ++ ws', Rune.isBlank r = true) ∧ Spelling core message key ∧ s.folded = ws ++ core ++ ws'

variable {core : List Rune}

theorem Spelling.ne_nil (h : Spelling core message key) : core ≠ [] := by
  cases h with
  | message mem => exact (Catalog.isName_of_mem _ mem).1
  | field => simp

theorem Spelling.not_blank (h : Spelling core message key) : ∀ r ∈ core, r.isBlank = false ∧ ∀ b, r ≠ .stray b := by
  have hname {t : Text} (ht : t.IsName) : ∀ r ∈ t.folded, r.isBlank = false ∧ ∀ b, r ≠ .stray b := by
    intro r hr
    refine ⟨Rune.isBlank_of_isMark (ht.2 r hr), ?_⟩
    rintro b rfl
    cases ht.2 _ hr
  cases h with
  | message mem => exact hname (Catalog.isName_of_mem _ mem)
  | field mem key_mem separates =>
    refine List.forall_mem_append.2 ⟨hname (Catalog.isName_of_mem _ mem),
      List.forall_mem_cons.2 ⟨⟨separates.not_blank, fun b h => ?_⟩, hname (Catalog.isName_of_mem_keys _ mem _ key_mem)⟩⟩
    cases h

theorem Spelled.exists_ofChars (h : Spelled s message key) : ∃ cs, s = Text.ofChars cs := by
  obtain ⟨ws, core, ws', hblank, hspelling, hs⟩ := h
  refine Text.exists_ofChars fun b hb => ?_
  rw [hs, List.mem_append, List.mem_append] at hb
  rcases hb with (hb | hb) | hb
  · exact Bool.false_ne_true (hblank _ (List.mem_append_left _ hb))
  · exact (hspelling.not_blank _ hb).2 b rfl
  · exact Bool.false_ne_true (hblank _ (List.mem_append_right _ hb))

/-- More white space around a text that spells a path. -/
theorem Spelled.pad {ws ws' : List Char} (h : Spelled s message key) (hblank : ∀ c ∈ ws ++ ws', Char.isBlank c = true) :
    Spelled (Text.ofChars ws ++ s ++ Text.ofChars ws') message key := by
  obtain ⟨cs, rfl⟩ := h.exists_ofChars
  obtain ⟨vs, core, vs', hvs, hspelling, hcs⟩ := h
  obtain ⟨hws, hws'⟩ := List.forall_mem_append.1 hblank
  obtain ⟨hvs, hvs'⟩ := List.forall_mem_append.1 hvs
  refine ⟨ws.map .char ++ vs, core, vs' ++ ws'.map .char, ?_, hspelling, ?_⟩
  · exact List.forall_mem_append.2 ⟨List.forall_mem_append.2 ⟨List.forall_mem_map.2 hws, hvs⟩,
      List.forall_mem_append.2 ⟨hvs', List.forall_mem_map.2 hws'⟩⟩
  · rw [← Text.ofChars_append, ← Text.ofChars_append, Text.folded_ofChars, List.map_append, List.map_append, ← Text.folded_ofChars,
      ← Text.folded_ofChars, ← Text.folded_ofChars, Text.folded_blanks hws, Text.folded_blanks hws', hcs]
    simp only [List.append_assoc]

/-- A text that is read as a path spells it. -/
theorem spelled_of_parse (h : parse s = .ok p) : Spelled s p.message p.key := by
  have hspelling : Spelling s.trim.folded p.message p.key := by
    rcases parse_eq_ok_iff.1 h with ⟨a, m, hparts, -, hm, rfl⟩ | ⟨a, b, m, key, hparts, -, -, hm, hkey, rfl⟩
    · obtain ⟨mem, hspells⟩ := Catalog.resolve?_eq_some_iff.1 hm
      rw [trim_of_parts_one hparts, Text.spells_iff.1 hspells]
      exact .message mem
    · obtain ⟨mem, hspells⟩ := Catalog.resolve?_eq_some_iff.1 hm
      obtain ⟨key_mem, hgiven⟩ := (Names.key?_eq_some_iff mem).1 hkey
      have hsep := isSeparator_separator s.trim
      rw [trim_of_parts_two hparts, hsep.folded_append, Text.spells_iff.1 hspells, Text.spells_iff.1 hgiven]
      exact .field mem key_mem hsep
  obtain ⟨ws, ws', hblank, htrim⟩ := s.exists_trim
  have htrimmed : Spelled s.trim p.message p.key := ⟨[], _, [], List.forall_mem_nil _, hspelling, by simp⟩
  have hpadded := htrimmed.pad hblank
  rwa [← htrim] at hpadded

/-! ### Reading what is spelled -/

section

variable {as bs cs : List Char} {sep : Char}

/-- Characters that may all stand in a name. -/
def Unmarked (cs : List Char) : Prop := ∀ c ∈ cs, Rune.isMark (.char c) = false

theorem unmarked_of_folded {t : Text} (ht : t.IsName) (h : (Text.ofChars cs).folded = t.folded) : Unmarked cs := by
  intro c hc
  rw [← Rune.isMark_folded]
  refine ht.2 _ (h ▸ ?_)
  rw [Text.folded_ofChars]
  exact List.mem_map.2 ⟨c, hc, rfl⟩

theorem Unmarked.hasChar (h : Unmarked cs) (hsep : IsSeparator sep) : (Text.ofChars cs).hasChar sep = false := by
  rw [Bool.eq_false_iff, Ne, Text.hasChar_ofChars hsep.ascii]
  exact fun hmem => Bool.false_ne_true ((h _ hmem).symm.trans hsep.isMark)

theorem parts_of_unmarked (h : Unmarked cs) (htrim : s.trim = Text.ofChars cs) : parts s = [Text.ofChars cs] := by
  have hsep : separator s.trim = '/' := by
    rw [separator, htrim, h.hasChar (.inr rfl), Bool.and_false]
    rfl
  rw [parts, hsep, htrim]
  refine Text.splitOn_eq (List.cons_ne_nil _ _) (List.forall_mem_singleton.2 (h.hasChar (.inl rfl))) ?_
  simp

theorem parts_of_separator (has : Unmarked as) (hbs : Unmarked bs) (hsep : IsSeparator sep)
    (htrim : s.trim = Text.ofChars (as ++ sep :: bs)) : parts s = [Text.ofChars as, Text.ofChars bs] := by
  have hmem (c : Char) (hc : c.toNat < 0x80) : s.trim.hasChar c = true ↔ c ∈ as ∨ c = sep ∨ c ∈ bs := by
    rw [htrim, Text.hasChar_ofChars hc, List.mem_append, List.mem_cons]
  have hchosen : separator s.trim = sep := by
    rcases hsep with rfl | rfl
    · rw [separator, (hmem '/' (by decide)).2 (.inr (.inl rfl))]
      rfl
    · have hstroke : s.trim.hasChar '/' = false := by
        rw [Bool.eq_false_iff, Ne, hmem '/' (by decide)]
        rintro (h | h | h)
        · cases has _ h
        · cases h
        · cases hbs _ h
      rw [separator, hstroke, (hmem '.' (by decide)).2 (.inr (.inl rfl))]
      rfl
  rw [parts, hchosen, htrim]
  refine Text.splitOn_eq (List.cons_ne_nil _ _) ?_ ?_
  · exact List.forall_mem_cons.2 ⟨has.hasChar hsep, List.forall_mem_singleton.2 (hbs.hasChar hsep)⟩
  · rw [Text.ofChars_append, ← List.singleton_append, Text.ofChars_append, Text.bytes_append, Text.bytes_append, hsep.bytes]
    simp

end

/-- A text that spells a path is read as that path. -/
theorem Spelled.leadsTo (h : Spelled s message key) : LeadsTo s message key := by
  obtain ⟨cs, rfl⟩ := h.exists_ofChars
  obtain ⟨ws, core, ws', hblank, hspelling, hfolded⟩ := h
  rw [Text.folded_ofChars] at hfolded
  obtain ⟨cs, vs', rfl, hstart, rfl⟩ := List.map_eq_append_iff.1 hfolded
  obtain ⟨vs, cs, rfl, rfl, hcs⟩ := List.map_eq_append_iff.1 hstart
  have htrim : (Text.ofChars (vs ++ cs ++ vs')).trim = Text.ofChars cs := by
    have hblanks : ∀ c ∈ vs ++ vs', Char.isBlank c = true := by
      intro c hc
      rw [← List.map_append] at hblank
      exact (Rune.isBlank_folded (.char c)).symm.trans (hblank _ (List.mem_map_of_mem hc))
    obtain ⟨hvs, hvs'⟩ := List.forall_mem_append.1 hblanks
    refine Text.trim_ofChars hvs (fun c hc => ?_) (fun hnil => ?_) hvs'
    · exact (Rune.isBlank_folded (.char c)).symm.trans (hspelling.not_blank _ (hcs ▸ List.mem_map_of_mem hc)).1
    · exact hspelling.ne_nil (by rw [← hcs, hnil]; rfl)
  cases hspelling with
  | @message m mem =>
    rw [← Text.folded_ofChars] at hcs
    have hname := Catalog.isName_of_mem m mem
    have hparts := parts_of_unmarked (unmarked_of_folded hname hcs) htrim
    exact ⟨_, parse_eq_ok_iff.2 (.inl ⟨_, m, hparts, Text.isEmpty_of_folded (hcs ▸ hname.1),
      Catalog.resolve?_eq_some_iff.2 ⟨mem, Text.spells_iff.2 hcs⟩, rfl⟩)⟩
  | @field m key sep mem key_mem separates =>
    obtain ⟨as, rest, rfl, has, hrest⟩ := List.map_eq_append_iff.1 hcs
    obtain ⟨c, bs, rfl, hsep, hbs⟩ := List.map_eq_cons_iff.1 hrest
    obtain rfl := separates.eq_of_folded hsep
    rw [← Text.folded_ofChars] at has hbs
    have hname := Catalog.isName_of_mem m mem
    have hkey := Catalog.isName_of_mem_keys m mem key key_mem
    have hparts := parts_of_separator (unmarked_of_folded hname has) (unmarked_of_folded hkey hbs) separates htrim
    exact ⟨_, parse_eq_ok_iff.2 (.inr ⟨_, _, m, key, hparts, Text.isEmpty_of_folded (has ▸ hname.1), Text.isEmpty_of_folded (hbs ▸ hkey.1),
      Catalog.resolve?_eq_some_iff.2 ⟨mem, Text.spells_iff.2 has⟩,
      (Names.key?_eq_some_iff mem).2 ⟨key_mem, Text.spells_iff.2 hbs⟩, rfl⟩)⟩

/-- A text is read as a path exactly if it spells it. -/
theorem leadsTo_iff : LeadsTo s message key ↔ Spelled s message key := by
  refine ⟨fun h => ?_, Spelled.leadsTo⟩
  obtain ⟨raw, h⟩ := h
  exact spelled_of_parse h

/-! ## What does not change a path -/

theorem Spelled.of_lowered {s' : Text} (h : Spelled s message key) (hsame : s'.bytes.map lowered = s.bytes.map lowered) :
    Spelled s' message key := by
  obtain ⟨cs, rfl⟩ := h.exists_ofChars
  obtain ⟨ws, core, ws', hblank, hspelling, hcs⟩ := h
  exact ⟨ws, core, ws', hblank, hspelling, (Text.folded_of_lowered hsame).trans hcs⟩

/-- A path with the other separator. -/
theorem Spelled.exchange {a b : Text} {sep sep' : Char} (hsep : IsSeparator sep) (hsep' : IsSeparator sep')
    (h : Spelled (a ++ Text.ofChars [sep] ++ b) message key) : Spelled (a ++ Text.ofChars [sep'] ++ b) message key := by
  obtain ⟨ws, core, ws', hblank, hspelling, hfolded⟩ := h
  obtain ⟨hws, hws'⟩ := List.forall_mem_append.1 hblank
  rw [hsep.folded_append] at hfolded
  cases hspelling with
  | @message m mem =>
    have hmem : .char sep ∈ ws ++ m.name.folded ++ ws' := by
      rw [← hfolded]
      exact List.mem_append_right _ List.mem_cons_self
    rw [List.mem_append, List.mem_append] at hmem
    rcases hmem with (hmem | hmem) | hmem
    · exact absurd hmem (hsep.not_mem_blanks hws)
    · exact absurd hmem (hsep.not_mem_name (Catalog.isName_of_mem m mem))
    · exact absurd hmem (hsep.not_mem_blanks hws')
  | @field m key sep₀ mem key_mem separates =>
    have hbefore : .char sep ∉ ws ++ m.name.folded :=
      List.not_mem_append (hsep.not_mem_blanks hws) (hsep.not_mem_name (Catalog.isName_of_mem m mem))
    have hafter : .char sep ∉ key.folded ++ ws' :=
      List.not_mem_append (hsep.not_mem_name (Catalog.isName_of_mem_keys m mem key key_mem)) (hsep.not_mem_blanks hws')
    have hfolded : (ws ++ m.name.folded) ++ .char sep₀ :: (key.folded ++ ws') = a.folded ++ .char sep :: b.folded := by
      rw [hfolded]
      simp
    -- the separator occurs once, so both sides are divided at the same place
    obtain ⟨ha, -, hb⟩ := (List.append_cons_inj_of_notMem hbefore hafter).1 hfolded
    refine ⟨ws, _, ws', hblank, .field mem key_mem hsep', ?_⟩
    rw [hsep'.folded_append, ← ha, ← hb]
    simp

theorem Spelled.exists_message (h : Spelled s message key) : ∃ m ∈ Catalog.all, m.name = message ∧ (key = "" ∨ key ∈ m.keys) := by
  obtain ⟨-, core, -, -, hspelling, -⟩ := h
  cases hspelling with
  | message mem => exact ⟨_, mem, rfl, .inl rfl⟩
  | field mem key_mem _ => exact ⟨_, mem, rfl, .inr key_mem⟩

/-- A path in its own spelling. -/
theorem Spelled.render (h : Spelled s p.message p.key) : Spelled p.render p.message p.key := by
  obtain ⟨-, core, -, -, hspelling, -⟩ := h
  obtain ⟨message, key, raw⟩ := p
  cases hspelling with
  | @message m mem => exact ⟨[], _, [], List.forall_mem_nil _, .message mem, by simp [Path.render, Text.isEmpty]⟩
  | @field m key sep mem key_mem separates =>
    have hkey := Text.isEmpty_of_folded (Catalog.isName_of_mem_keys m mem key key_mem).1
    have hrender : Path.render ⟨m.name, key, raw⟩ = m.name ++ Text.ofChars ['/'] ++ key := by
      have hbytes : m.name.bytes ++ (Text.ofChars ['/']).bytes ++ key.bytes =
          m.name.bytes ++ ((Text.ofChars ['/']).bytes ++ (key.bytes ++ [])) := by simp
      rw [Path.render, if_neg (by simp [hkey])]
      exact congrArg Text.mk hbytes.symm
    refine ⟨[], _, [], List.forall_mem_nil _, .field mem key_mem (.inl rfl), ?_⟩
    rw [hrender, IsSeparator.folded_append (.inl rfl)]
    simp

end Path

/-! ## Reports -/

theorem Table.keys_decodeFields (t : Table) (d : Decoder) : (t.decodeFields d).2.1.fields.map Field.key = t.fields.map Field.key := by
  obtain ⟨d₁, -, ⟨-, hwalk⟩ | ⟨-, -, err, d', -, -, hwalk⟩⟩ := walk_follows_journal t d
  · rw [decodeFields, hwalk]
    dsimp only
    cases (t.record (t.journal d)).error with
    | none => exact (revision_record t d false).keys
    | some err => exact (revision_record t d true).keys
  · rw [decodeFields, hwalk]
    exact (revision_record t d true).keys

theorem Table.keys_store (t : Table) (key : Text) (slot : Slot) : (t.store key slot).fields.map Field.key = t.fields.map Field.key := by
  rw [store, update]
  exact map_updateFirst fun _ _ => rfl

namespace Message

variable {m blank : Message} {lenient : Bool} {labels : Labels} {r : Option Error × Message × List Event}

theorem keys_walkPairs (lenient : Bool) (m : Message) (d : Decoder) :
    (m.walkPairs lenient d).2.2.1.message.table.fields.map Field.key = m.table.fields.map Field.key := by
  refine kept_walkPairs (P := fun s => s.message.table.fields.map Field.key = m.table.fields.map Field.key) (fun n s d hs => ?_)
    (fun s d hs => (s.message.table.keys_decodeFields d).trans hs)
    (fun s key slot hs => (s.message.table.keys_store key slot).trans hs) rfl lenient d
  obtain ⟨samples, hmessage⟩ := takeSignal_message m.samples.capacity n s d
  rw [hmessage]
  exact hs

theorem table_closed (s : Sampling) : s.closed.table = s.message.table := by
  rw [Sampling.closed]
  split_ifs
  all_goals rfl

theorem SamplesDecoded.keys (h : SamplesDecoded lenient labels m r) : r.2.1.keys = m.keys := by
  have hfields : r.2.1.table.fields.map Field.key = m.table.fields.map Field.key := by
    cases h with
    | barred => rfl
    | failed d walk => exact walk ▸ (congrArg (fun t => t.fields.map Field.key) (table_closed _)).trans (keys_walkPairs lenient m d)
    | followed d walk | whole d walk => exact walk ▸ keys_walkPairs lenient m d
  rw [Message.keys, Message.keys, hfields, hasSamples, hasSamples, h.rule]

/-- Decoding into a message keeps its keys, however it ends. -/
theorem OfKind.keys_decode (hblank : blank.Blank) (hm : m.OfKind blank) (lenient : Bool) (options : Options) (data : List UInt8) :
    (m.decode lenient options data).2.1.keys = m.keys := by
  cases hsamples : m.hasSamples with
  | false => exact keys_of_revision (hm.revision_decode hblank hsamples lenient options data)
  | true =>
    obtain ⟨r, hdecoded, hr⟩ := hm.samplesDecoded hblank hsamples lenient options data
    rw [hr]
    exact hdecoded.keys

end Message

namespace Report

variable {f : Formatter} {options : Options} {data : List UInt8} {lenient : Bool} {m : Message} {r : Report}

/-- A report on a message of the catalogue has a row for each of its keys. -/
theorem keys_of_make (hm : m ∈ Catalog.all) (h : (make f options m.name data lenient).1 = .ok r) : r.rows.map Row.key = m.keys := by
  have hfor : nameFor m.name data = .ok m.name := by
    rw [nameFor, Text.isEmpty_of_folded (Catalog.isName_of_mem m hm).1]
    rfl
  have hresolve : Catalog.resolve? m.name = some m := Catalog.resolve?_eq_some_iff.2 ⟨hm, Text.spells_iff.2 rfl⟩
  have hkeys := (Message.Blank.catalogue hm).ofKind_self.keys_decode (.catalogue hm) lenient options data
  simp only [make, hfor, hresolve] at h
  generalize m.decode lenient options data = decoded at h hkeys
  obtain ⟨failure, m', trace⟩ := decoded
  dsimp only at h hkeys
  split at h
  · cases h
  · cases h
    rw [← hkeys, Message.keys, List.map_append, Formatter.rows, List.map_map]
    cases m'.hasSamples with
    | true => rfl
    | false => rfl

/-- A key of the message has a row, and a path to the key leads to that row. -/
theorem field_of_make {p : Path} (hm : m ∈ Catalog.all) (hname : m.name = p.message) (hkey : p.key ∈ m.keys)
    (h : (make f options p.message data lenient).1 = .ok r) :
    ∃ row, r.row? p.key = some row ∧ row.key = p.key ∧ field f options p data lenient = .ok row := by
  have hkeys := keys_of_make hm (hname ▸ h)
  obtain ⟨row, hrow, heq⟩ := List.mem_map.1 (hkeys ▸ hkey)
  obtain ⟨found, hfound⟩ := Option.isSome_iff_exists.1
    (List.find?_isSome (p := fun row : Row => row.key == p.key).2 ⟨row, hrow, beq_iff_eq.2 heq⟩)
  have hrow? : r.row? p.key = some found := hfound
  refine ⟨found, hrow?, by simpa using List.find?_some hfound, ?_⟩
  rw [field, h]
  simp only [bind, Except.bind, hrow?]
  rfl

end Report

namespace Path

variable {s : Text} {p : Path}

/-- A text that is read as a path leads to a message of the catalogue, and to the whole of it or to one of its keys. The path in its own
spelling leads there too, and so does the text with ASCII letters in another case, with white space around it, or with the one separator
in place of the other. Where the bytes of the message make a report, it has a row for the key, and that is the row for the path. -/
theorem parse_is_canonical (h : parse s = .ok p) :
    (∃ m ∈ Catalog.all, m.name = p.message ∧ (p.key = "" ∨ p.key ∈ m.keys)) ∧
    LeadsTo p.render p.message p.key ∧
    (∀ s' : Text, s'.bytes.map lowered = s.bytes.map lowered → LeadsTo s' p.message p.key) ∧
    (∀ ws ws' : List Char, (∀ c ∈ ws ++ ws', Char.isBlank c = true) →
      LeadsTo (Text.ofChars ws ++ s ++ Text.ofChars ws') p.message p.key) ∧
    (∀ a b : Text, s = a ++ Text.ofChars ['/'] ++ b → LeadsTo (a ++ Text.ofChars ['.'] ++ b) p.message p.key) ∧
    (∀ a b : Text, s = a ++ Text.ofChars ['.'] ++ b → LeadsTo (a ++ Text.ofChars ['/'] ++ b) p.message p.key) ∧
    (p.key ≠ "" → ∀ (f : Formatter) (options : Options) (data : List UInt8) (lenient : Bool) (r : Report),
      (Report.make f options p.message data lenient).1 = .ok r →
        ∃ row, r.row? p.key = some row ∧ row.key = p.key ∧ Report.field f options p data lenient = .ok row) := by
  have hspelled := spelled_of_parse h
  obtain ⟨m, mem, hname, hkey⟩ := hspelled.exists_message
  refine ⟨⟨m, mem, hname, hkey⟩, leadsTo_iff.2 hspelled.render, fun s' hsame => leadsTo_iff.2 (hspelled.of_lowered hsame),
    fun ws ws' hblank => leadsTo_iff.2 (hspelled.pad hblank), ?_, ?_, fun hne f options data lenient r hr => ?_⟩
  · rintro a b rfl
    exact leadsTo_iff.2 (hspelled.exchange (.inl rfl) (.inr rfl))
  · rintro a b rfl
    exact leadsTo_iff.2 (hspelled.exchange (.inr rfl) (.inl rfl))
  · exact Report.field_of_make mem hname (hkey.resolve_left hne) hr

/-- A path to the samples of a message, in another case and with a point. With a stroke it leads to the same row, here of a report on bytes
that have one pair which the message does not know. -/
theorem samples_path_is_canonical :
    let s : Text := Text.ofChars [' '] ++ "RBRPressureDifferenceSignal" ++ Text.ofChars ['.'] ++ "Difference_Signal"
    let p : Path := ⟨"RbrPressureDifferenceSignal", "difference_signal", "RBRPressureDifferenceSignal.Difference_Signal"⟩
    let stroke : Text := Text.ofChars [' '] ++ "RBRPressureDifferenceSignal" ++ Text.ofChars ['/'] ++ "Difference_Signal"
    parse s = .ok p ∧ LeadsTo stroke p.message p.key ∧
      ∃ row, Report.field {} {} p [0xa1, 0x61, 0x78, 0x01] true = .ok row ∧ row.key = "difference_signal" := by
  intro s p stroke
  have hread : (parse s).toOption = some p := by decide +kernel
  have hreport : (Report.make {} {} p.message [0xa1, 0x61, 0x78, 0x01] true).1.toOption.isSome = true := by decide +kernel
  have h : parse s = .ok p := by
    cases hs : parse s with
    | error failure =>
      rw [hs] at hread
      cases hread
    | ok p' =>
      rw [hs] at hread
      exact congrArg Except.ok (Option.some.inj hread)
  obtain ⟨-, -, -, -, -, hstroke, hrow⟩ := parse_is_canonical h
  cases hr : (Report.make {} {} p.message [0xa1, 0x61, 0x78, 0x01] true).1 with
  | error failure =>
    rw [hr] at hreport
    cases hreport
  | ok r =>
    obtain ⟨row, -, hkey, hfield⟩ := hrow (by decide +kernel) {} {} _ true r hr
    exact ⟨h, hstroke _ _ rfl, row, hfield, hkey⟩

end Path

end SensorWire
