import Mathlib
import SensorWire.Proofs.GeneratedCode
import SensorWire.Proofs.Identifiers

/-!
# The names that generated code declares

Outside of its types and functions, generated code declares a type for each message, its fingerprint and, with a header, a function that
makes it (`SourceFile.declaredNames_lines`). Only the names of the types are kept apart. A type that is named as the fingerprint or the
function of another declares that name again, and so does a fingerprint that is named as a function (`GeneratedMessage.Clashes`). There
is no other way for two names to be the same.

Main statement: `declared_names_nodup_iff`.
-/

namespace SensorWire

open Cbor

/-! ## Reading declarations -/

/-- The words that a declaration begins with. -/
def declaringWords : List String := ["type ", "const ", "func "]

/-- Whether a byte ends a name: a blank or an opening bracket. -/
def endsName (b : UInt8) : Bool := b == 0x20 || b == 0x28

/-- The name at the start of a text. -/
def leadingName? (t : Text) : Option Text :=
  let name := t.bytes.takeWhile fun b => !endsName b
  if name.isEmpty then none else some ⟨name⟩

/-- The name that a line of code declares, if it does not stand inside a declaration and is not that of a method. -/
def declaredName? (line : Text) : Option Text :=
  (declaringWords.findSome? fun (w : String) => line.dropStart? w).bind leadingName?

variable {name line : Text} {w : String} {b : UInt8} {rest : List UInt8}

theorem leadingName?_append (hne : name.isEmpty = false) (hname : ∀ b ∈ name.bytes, 0x30 ≤ b) (hb : endsName b = true) :
    leadingName? ⟨name.bytes ++ b :: rest⟩ = some name := by
  have hin : ∀ b ∈ name.bytes, (!endsName b) = true := by
    intro b hb
    have hle := hname b hb
    grind [endsName]
  have htake : (name.bytes ++ b :: rest).takeWhile (fun b => !endsName b) = name.bytes := by
    rw [List.takeWhile_append_of_pos hin, List.takeWhile_cons_of_neg (by simp [hb]), List.append_nil]
  rw [leadingName?, htake]
  exact if_neg (by rw [show name.bytes.isEmpty = false from hne]; exact Bool.false_ne_true)

theorem declaredName?_eq (hw : w ∈ declaringWords) (hline : line = ⟨(Text.ofString w).bytes ++ (name.bytes ++ b :: rest)⟩)
    (hne : name.isEmpty = false) (hname : ∀ b ∈ name.bytes, 0x30 ≤ b) (hb : endsName b = true) : declaredName? line = some name := by
  have hrest : declaredName? line = leadingName? ⟨name.bytes ++ b :: rest⟩ := by
    rw [hline]
    simp only [declaringWords, List.mem_cons, List.not_mem_nil, or_false] at hw
    rcases hw with rfl | rfl | rfl
    all_goals rfl
  rw [hrest, leadingName?_append hne hname hb]

/-- A comment declares nothing, however it ends. -/
theorem declaredName?_comment (t : Text) : declaredName? (Comment.line t) = none := by
  have hline : Comment.line t = ⟨(0x2f :: 0x2f :: 0x20 :: t.bytes).rdropWhile (· == 0x20)⟩ := rfl
  have hne : (0x2f :: 0x2f :: 0x20 :: t.bytes).rdropWhile (· == 0x20) ≠ [] := by
    rw [Ne, List.rdropWhile_eq_nil_iff]
    exact fun hall => absurd (hall 0x2f List.mem_cons_self) (by decide)
  obtain ⟨b, rest, hcons⟩ := List.exists_cons_of_ne_nil hne
  obtain ⟨rfl, -⟩ := List.cons_prefix_cons.1 (hcons ▸ List.rdropWhile_prefix (· == 0x20) (0x2f :: 0x2f :: 0x20 :: t.bytes))
  rw [hline, hcons]
  rfl

theorem Text.append_right_cancel {a b c : Text} (h : a ++ c = b ++ c) : a = b :=
  congrArg Text.mk (List.append_cancel_right (congrArg Text.bytes h))

theorem Text.append_left_cancel {a b c : Text} (h : c ++ a = c ++ b) : a = b :=
  congrArg Text.mk (List.append_cancel_left (congrArg Text.bytes h))

namespace GeneratedMessage

/-! ## The declarations for a message -/

section

variable {style : CodeStyle} {m : GeneratedMessage}

theorem declaredNames_commentLines (lines : List Text) : (commentLines style lines).filterMap declaredName? = [] := by
  rw [commentLines, List.filterMap_eq_nil_iff, List.forall_mem_map]
  exact fun t _ => declaredName?_comment t

theorem declaredNames_memberLines : (m.memberLines style).filterMap declaredName? = [] :=
  List.filterMap_eq_nil_iff.2 (List.forall_mem_map.2 fun _ _ => rfl)

theorem declaredNames_fieldLines : (m.fieldLines style).filterMap declaredName? = [] := by
  have hfields : (m.fields.map fieldLine).filterMap declaredName? = [] :=
    List.filterMap_eq_nil_iff.2 (List.forall_mem_map.2 fun _ _ => rfl)
  rw [fieldLines]
  split_ifs
  · rfl
  · rw [List.filterMap_append, List.filterMap_append, hfields]
    rfl

theorem declaredNames_nameLines : (m.nameLines style).filterMap declaredName? = [] := by
  rw [nameLines]
  split_ifs
  all_goals rfl

theorem declaredNames_tableLines : (m.tableLines style).filterMap declaredName? = [] := by
  rw [tableLines, List.filterMap_append, List.filterMap_append, List.filterMap_append, declaredNames_fieldLines]
  rfl

variable (hname : ∀ b ∈ m.type.bytes, 0x30 ≤ b)

include hname

theorem declaredNames_typeLines (hne : m.type.isEmpty = false) : (m.typeLines style).filterMap declaredName? = [m.type] := by
  have hline : declaredName? (Text.concat ["type ", m.type, " struct \x7b"]) = some m.type :=
    declaredName?_eq (w := "type ") (b := 0x20) (by decide) rfl hne hname rfl
  rw [typeLines, List.filterMap_append, List.filterMap_append, List.filterMap_append, declaredNames_commentLines,
    declaredNames_memberLines, codeLine, List.filterMap_cons_some hline]
  rfl

theorem declaredNames_fingerprintLines : (m.fingerprintLines style).filterMap declaredName? = [m.type ++ Text.ofString "Fingerprint"] := by
  have hline : declaredName? (Text.concat ["const ", m.type, "Fingerprint = ", m.fingerprint.quoted]) =
      some (m.type ++ Text.ofString "Fingerprint") := by
    have hbytes : Text.concat ["const ", m.type, "Fingerprint = ", m.fingerprint.quoted] =
        ⟨(Text.ofString "const ").bytes ++ ((m.type ++ Text.ofString "Fingerprint").bytes ++
          0x20 :: (Text.concat ["= ", m.fingerprint.quoted]).bytes)⟩ := by
      rw [Text.bytes_append, List.append_assoc]
      rfl
    have hlonger : (m.type ++ Text.ofString "Fingerprint").isEmpty = false :=
      List.isEmpty_eq_false_iff.2 (List.append_ne_nil_of_right_ne_nil _ (by decide))
    exact declaredName?_eq (by decide) hbytes hlonger (List.forall_mem_append.2 ⟨hname, by decide +kernel⟩) rfl
  rw [fingerprintLines, List.filterMap_append, declaredNames_commentLines, codeLine, List.filterMap_cons_some hline]
  rfl

theorem declaredNames_constructorLines :
    (m.constructorLines style).filterMap declaredName? = if m.header then [Text.ofString "New" ++ m.type] else [] := by
  have hline : declaredName? (Text.concat ["func New", m.type, "() *", m.type, " \x7b"]) = some (Text.ofString "New" ++ m.type) :=
    declaredName?_eq (w := "func ") (b := 0x28) (by decide) rfl rfl (List.forall_mem_append.2 ⟨by decide +kernel, hname⟩) rfl
  rw [constructorLines]
  split_ifs
  · simp only [List.filterMap_append, declaredNames_commentLines, codeLine, List.filterMap_cons_some hline]
    rfl
  · rfl

/-- The lines for a message declare its type, its fingerprint and, with a header, its constructor. -/
theorem declaredNames_lines (hne : m.type.isEmpty = false) : (m.lines style).filterMap declaredName? = m.declaredNames := by
  simp only [lines, List.filterMap_append, declaredNames_typeLines hname hne, declaredNames_fingerprintLines hname,
    declaredNames_constructorLines hname, declaredNames_nameLines, declaredNames_tableLines]
  rw [declaredNames]
  split_ifs
  all_goals rfl

end

/-! ## The types for schemas -/

section

variable {before ms : List GeneratedMessage} {schemas : List Schema}

/-- The first schema has a type if it has one by itself and no type before has the name. -/
theorem ofAllFrom_cons_eq_ok_iff {s : Schema} :
    ofAllFrom before (s :: schemas) = .ok ms ↔
      ∃ m ms', ofSchema s = .ok m ∧ (∀ g ∈ before, g.type ≠ m.type) ∧ ofAllFrom (before ++ [m]) schemas = .ok ms' ∧ ms = m :: ms' := by
  rw [ofAllFrom, bind_eq_ok_iff]
  refine exists_congr fun m => ?_
  cases hfind : before.find? fun g => g.type == m.type with
  | some g =>
    have hname : g.type = m.type := by simpa using List.find?_some hfind
    constructor
    · rintro ⟨-, h⟩
      cases h
    · rintro ⟨ms', -, hbefore, -⟩
      exact absurd hname (hbefore g (List.mem_of_find?_eq_some hfind))
  | none =>
    have hnew : ∀ g ∈ before, g.type ≠ m.type := by simpa using List.find?_eq_none.1 hfind
    dsimp only
    rw [bind_eq_ok_iff]
    constructor
    · rintro ⟨hm, ms', hms', hms⟩
      exact ⟨ms', hm, hnew, hms', (Except.ok.inj hms).symm⟩
    · rintro ⟨ms', hm, -, hms', rfl⟩
      exact ⟨hm, ms', hms', rfl⟩

/-- Schemas have types exactly if each has one by itself and no two types have the same name. -/
theorem ofAllFrom_eq_ok_iff :
    ofAllFrom before schemas = .ok ms ↔
      List.Forall₂ (fun s m => ofSchema s = .ok m) schemas ms ∧ (ms.map GeneratedMessage.type).Nodup ∧
        ∀ m ∈ ms, ∀ g ∈ before, g.type ≠ m.type := by
  -- the types before a schema are those given beforehand and those of the schemas before it
  induction schemas generalizing before ms with
  | nil =>
    rw [List.forall₂_nil_left_iff]
    constructor
    · intro h
      cases h
      exact ⟨rfl, List.nodup_nil, List.forall_mem_nil _⟩
    · rintro ⟨rfl, -⟩
      rfl
  | cons s schemas ih =>
    rw [ofAllFrom_cons_eq_ok_iff]
    constructor
    · rintro ⟨m, ms', hm, hnew, hms', rfl⟩
      obtain ⟨hall, hnodup, hbefore⟩ := ih.1 hms'
      refine ⟨.cons hm hall, List.nodup_cons.2 ⟨?_, hnodup⟩,
        List.forall_mem_cons.2 ⟨hnew, fun m' hm' g hg => hbefore m' hm' g (List.mem_append_left _ hg)⟩⟩
      intro hmem
      obtain ⟨m', hm', hname⟩ := List.mem_map.1 hmem
      exact hbefore m' hm' m (List.mem_append_right _ (List.mem_singleton.2 rfl)) hname.symm
    · rintro ⟨hall, hnodup, hbefore⟩
      obtain ⟨m, ms', hm, hrest, rfl⟩ := List.forall₂_cons_left_iff.1 hall
      obtain ⟨hfirst, hnodup⟩ := List.nodup_cons.1 hnodup
      obtain ⟨hnew, hbefore⟩ := List.forall_mem_cons.1 hbefore
      refine ⟨m, ms', hm, hnew, ih.2 ⟨hrest, hnodup, fun m' hm' g hg => ?_⟩, rfl⟩
      rcases List.mem_append.1 hg with hg | hg
      · exact hbefore m' hm' g hg
      · obtain rfl := List.mem_singleton.1 hg
        exact fun hname => hfirst (List.mem_map.2 ⟨m', hm', hname.symm⟩)

theorem ofAll_eq_ok_iff :
    ofAll schemas = .ok ms ↔
      List.Forall₂ (fun s m => ofSchema s = .ok m) schemas ms ∧ (ms.map GeneratedMessage.type).Nodup := by
  rw [ofAll, ofAllFrom_eq_ok_iff]
  simp

end

/-! ## Clashes -/

/-- A message declares a name that is not its type, and another message declares the same name for its type or fingerprint. -/
def Clashes (g g' : GeneratedMessage) : Prop :=
  g'.type = g.type ++ Text.ofString "Fingerprint" ∨
    g.header = true ∧ (g'.type = Text.ofString "New" ++ g.type ∨
      g'.type ++ Text.ofString "Fingerprint" = Text.ofString "New" ++ g.type)

section

variable {g g' : GeneratedMessage} {ms : List GeneratedMessage}

theorem mem_declaredNames_iff {name : Text} :
    name ∈ g.declaredNames ↔
      name = g.type ∨ name = g.type ++ Text.ofString "Fingerprint" ∨ g.header = true ∧ name = Text.ofString "New" ++ g.type := by
  rw [declaredNames]
  split_ifs with hheader
  all_goals simp [hheader]

theorem length_fingerprint : (g.type ++ Text.ofString "Fingerprint").length = g.type.length + 11 := List.length_append

theorem length_new : (Text.ofString "New" ++ g.type).length = 3 + g.type.length := List.length_append

/-- The names of one message have different lengths. -/
theorem nodup_declaredNames (g : GeneratedMessage) : g.declaredNames.Nodup := by
  have hnodup : (g.declaredNames.map Text.length).Nodup := by
    rw [declaredNames]
    split_ifs
    · simp [length_fingerprint, length_new]
      omega
    · simp [length_fingerprint]
  exact hnodup.of_map _

theorem Clashes.ne (h : g.Clashes g') : g ≠ g' := by
  rintro rfl
  rcases h with h | ⟨-, h | h⟩
  all_goals
    have hlength := congrArg Text.length h
    simp only [length_fingerprint, length_new] at hlength
    omega

theorem Clashes.exists_mem (h : g.Clashes g') : ∃ name ∈ g.declaredNames, name ∈ g'.declaredNames := by
  simp only [mem_declaredNames_iff]
  rcases h with h | ⟨hheader, h | h⟩
  · exact ⟨_, .inr (.inl rfl), .inl h.symm⟩
  · exact ⟨_, .inr (.inr ⟨hheader, rfl⟩), .inl h.symm⟩
  · exact ⟨_, .inr (.inr ⟨hheader, rfl⟩), .inr (.inl h.symm)⟩

/-- Messages of different types that declare the same name clash, one way or the other. -/
theorem clashes_of_mem {name : Text} (hne : g.type ≠ g'.type) (h : name ∈ g.declaredNames) (h' : name ∈ g'.declaredNames) :
    g.Clashes g' ∨ g'.Clashes g := by
  rw [mem_declaredNames_iff] at h h'
  rcases h with rfl | rfl | ⟨hheader, rfl⟩
  · rcases h' with heq | heq | ⟨hheader', heq⟩
    · exact absurd heq hne
    · exact .inr (.inl heq)
    · exact .inr (.inr ⟨hheader', .inl heq⟩)
  · rcases h' with heq | heq | ⟨hheader', heq⟩
    · exact .inl (.inl heq.symm)
    · exact absurd (Text.append_right_cancel heq) hne
    · exact .inr (.inr ⟨hheader', .inr heq⟩)
  · rcases h' with heq | heq | ⟨-, heq⟩
    · exact .inl (.inr ⟨hheader, .inl heq.symm⟩)
    · exact .inl (.inr ⟨hheader, .inr heq.symm⟩)
    · exact absurd (Text.append_left_cancel heq) hne

/-- The names that messages of different types declare are different exactly if no message clashes with another. -/
theorem nodup_flatMap_declaredNames_iff (h : (ms.map GeneratedMessage.type).Nodup) :
    (ms.flatMap declaredNames).Nodup ↔ ∀ g ∈ ms, ∀ g' ∈ ms, ¬g.Clashes g' := by
  have hsymm : Std.Symm (Function.onFun List.Disjoint declaredNames) := ⟨fun _ _ h => List.Disjoint.symm h⟩
  rw [List.nodup_flatMap]
  constructor
  · rintro ⟨-, hpairwise⟩ g hg g' hg' hclash
    obtain ⟨name, hname, hname'⟩ := hclash.exists_mem
    exact hpairwise.forall hg hg' hclash.ne hname hname'
  · intro hnone
    refine ⟨fun g _ => nodup_declaredNames g, (h.of_map _).pairwise_of_forall_ne fun g hg g' hg' hne name hname hname' => ?_⟩
    have htype : g.type ≠ g'.type := fun heq => hne (List.inj_on_of_nodup_map h hg hg' heq)
    exact (clashes_of_mem htype hname hname').elim (hnone g hg g' hg') (hnone g' hg' g hg)

end

end GeneratedMessage

namespace SourceFile

open GeneratedMessage

variable {package source : Text} {schemas : List Schema} {file : SourceFile}

theorem ofSchemas_eq_ok_iff :
    ofSchemas package source schemas = .ok file ↔
      file.package = package ∧ file.source = source ∧ ofAll schemas = .ok file.messages := by
  obtain ⟨p, s, ms⟩ := file
  rw [ofSchemas]
  cases ofAll schemas with
  | error e => simp [Except.map]
  | ok ms' => simp [Except.map, eq_comm]

/-- The lines of a file declare the names of its messages and no others. -/
theorem declaredNames_lines (hne : ∀ m ∈ file.messages, m.type.isEmpty = false)
    (hname : ∀ m ∈ file.messages, ∀ b ∈ m.type.bytes, 0x30 ≤ b) (style : CodeStyle) :
    (file.lines style).filterMap declaredName? = file.messages.flatMap declaredNames := by
  have hmessages : (file.messages.flatMap (GeneratedMessage.lines style)).filterMap declaredName? =
      file.messages.flatMap declaredNames := by
    rw [List.filterMap_flatMap]
    exact List.flatMap_congr fun m hm => GeneratedMessage.declaredNames_lines (hname m hm) (hne m hm)
  have huses : (file.messages.flatMap fun m => codeLine ["\t_ messages.Message = (*", m.type, ")(nil)"]).filterMap declaredName? = [] := by
    rw [List.filterMap_flatMap, List.flatMap_eq_nil_iff]
    exact fun _ _ => rfl
  rw [lines]
  split_ifs with hempty
  · rw [List.isEmpty_iff.1 hempty.2]
    rfl
  · simp only [List.filterMap_append, hmessages, huses]
    rfl

/-- For each message a file declares a type with the identifier of its name, a fingerprint and, with a header, a function that makes it;
it declares no other names, and the types have different ones. All the names are different exactly if no two messages clash: no type is
named as the fingerprint of a message or as the function of one, and no fingerprint as the function of a message. -/
theorem declared_names_nodup_iff (h : ofSchemas package source schemas = .ok file) (style : CodeStyle) :
    file.messages.map (fun m => (m.type, m.header)) =
      schemas.map (fun s => (Identifier.ofName s.definition.name, s.definition.header)) ∧
    (file.lines style).filterMap declaredName? = file.messages.flatMap declaredNames ∧
    (file.messages.map GeneratedMessage.type).Nodup ∧
    (((file.lines style).filterMap declaredName?).Nodup ↔ ∀ g ∈ file.messages, ∀ g' ∈ file.messages, ¬g.Clashes g') := by
  obtain ⟨-, -, hmessages⟩ := ofSchemas_eq_ok_iff.1 h
  obtain ⟨hall, hnodup⟩ := ofAll_eq_ok_iff.1 hmessages
  have hmap : file.messages.map (fun m => (m.type, m.header)) =
      schemas.map (fun s => (Identifier.ofName s.definition.name, s.definition.header)) := by
    rw [eq_comm, ← List.forall₂_eq_eq_eq, List.forall₂_map_left_iff, List.forall₂_map_right_iff]
    refine hall.imp fun s m hm => ?_
    rw [(ofSchema_eq_ok_iff.1 hm).1]
  have htype : ∀ m ∈ file.messages, ∃ name, Identifier.ofName name = m.type := by
    intro m hm
    obtain ⟨s, -, heq⟩ := List.mem_map.1 (hmap ▸ List.mem_map_of_mem hm)
    exact ⟨s.definition.name, congrArg Prod.fst heq⟩
  have hlines : (file.lines style).filterMap declaredName? = file.messages.flatMap declaredNames := by
    refine file.declaredNames_lines (fun m hm => ?_) (fun m hm => ?_) style
    · obtain ⟨name, hname⟩ := htype m hm
      exact hname ▸ Identifier.isEmpty_ofName name
    · obtain ⟨name, hname⟩ := htype m hm
      exact hname ▸ Identifier.le_of_mem_ofName
  exact ⟨hmap, hlines, hnodup, hlines ▸ nodup_flatMap_declaredNames_iff hnodup⟩

/-- The type of one message is named as the function for another. -/
theorem type_named_as_function :
    let probe : Definition := { name := "Probe", header := true }
    let newProbe : Definition := { name := "NewProbe", header := true }
    Schema.compile probe = .ok ⟨probe, []⟩ ∧ Schema.compile newProbe = .ok ⟨newProbe, []⟩ ∧
      ∃ file, ofSchemas "messages" "probes.yaml" [⟨probe, []⟩, ⟨newProbe, []⟩] = .ok file ∧
        (file.lines .draft).filterMap declaredName? =
          ["Probe", "ProbeFingerprint", "NewProbe", "NewProbe", "NewProbeFingerprint", "NewNewProbe"] ∧
        ¬((file.lines .draft).filterMap declaredName?).Nodup := by
  intro probe newProbe
  obtain ⟨g, hg⟩ : ∃ g, ofSchema ⟨probe, []⟩ = .ok g := ⟨_, rfl⟩
  obtain ⟨g', hg'⟩ : ∃ g, ofSchema ⟨newProbe, []⟩ = .ok g := ⟨_, rfl⟩
  have htype : g.type = "Probe" := (congrArg GeneratedMessage.type (ofSchema_eq_ok_iff.1 hg).1).trans (by decide +kernel)
  have htype' : g'.type = "NewProbe" := (congrArg GeneratedMessage.type (ofSchema_eq_ok_iff.1 hg').1).trans (by decide +kernel)
  have hheader : g.header = true := congrArg GeneratedMessage.header (ofSchema_eq_ok_iff.1 hg).1
  have hheader' : g'.header = true := congrArg GeneratedMessage.header (ofSchema_eq_ok_iff.1 hg').1
  have hfile : ofSchemas "messages" "probes.yaml" [⟨probe, []⟩, ⟨newProbe, []⟩] = .ok ⟨"messages", "probes.yaml", [g, g']⟩ := by
    refine ofSchemas_eq_ok_iff.2 ⟨rfl, rfl, ofAll_eq_ok_iff.2 ⟨.cons hg (.cons hg' .nil), ?_⟩⟩
    simp only [List.map_cons, List.map_nil, htype, htype']
    decide
  obtain ⟨-, hlines, -, hnodup⟩ := declared_names_nodup_iff hfile .draft
  refine ⟨rfl, rfl, _, hfile, ?_, fun h => ?_⟩
  · simp only [hlines, declaredNames, hheader, hheader', List.flatMap_cons, List.flatMap_nil, htype, htype']
    decide +kernel
  · exact hnodup.1 h g List.mem_cons_self g' (by simp) (.inr ⟨hheader, .inl (by rw [htype, htype']; decide)⟩)

end SourceFile

end SensorWire
