import Mathlib
import SensorWire.Proofs.Decoder

/-!
# The cursor of a decoder

Inside a map that was entered, what is unread is always a row of whole items (`WholeItems`), whatever calls were made and however they
ended. A step is `Sound` when it reads on in the same map (`Advances`) and every error that it ends with has a cause that a well-formed
map can have (`Founded`). Soundness is kept by doing one step after another (`Sound.bind`), so it is proved reader by reader, from
`next` up to `step`, and then for runs.

Main statement: `cursor_invariant`.
-/

namespace SensorWire

open Cbor Item

/-! ## Whole items -/

theorem Cbor.Item.encode_ne_nil (i : Item) : encode i ≠ [] := by
  rw [encode_eq]
  exact fun h => i.head.encode_ne_nil (List.append_eq_nil_iff.1 h).1

/-- The bytes are items one after the other, each of which a reader takes off. -/
def WholeItems (bytes : List UInt8) : Prop := ∃ items : List Item, (∀ i ∈ items, i.Within {} 0 false) ∧ bytes = items.flatMap encode

namespace WholeItems

variable {bytes : List UInt8}

theorem nil : WholeItems [] := ⟨[], by simp, rfl⟩

theorem append {more : List UInt8} (h : WholeItems bytes) (h' : WholeItems more) : WholeItems (bytes ++ more) := by
  obtain ⟨items, hin, rfl⟩ := h
  obtain ⟨items', hin', rfl⟩ := h'
  refine ⟨items ++ items', fun i hi => ?_, List.flatMap_append.symm⟩
  rcases List.mem_append.1 hi with hi | hi
  · exact hin i hi
  · exact hin' i hi

/-- Either nothing is left, or a well-formed item stands in front of whole items. -/
theorem eq_nil_or_cons (h : WholeItems bytes) :
    bytes = [] ∨ ∃ i rest, bytes = encode i ++ rest ∧ i.Within {} 0 false ∧ WholeItems rest := by
  obtain ⟨items, hin, rfl⟩ := h
  cases items with
  | nil => exact Or.inl rfl
  | cons i items =>
    rw [List.forall_mem_cons] at hin
    exact Or.inr ⟨i, items.flatMap encode, List.flatMap_cons, hin.1, items, hin.2, rfl⟩

/-- What follows the first item is whole items. -/
theorem rest {i : Item} {rest : List UInt8} (h : WholeItems (encode i ++ rest)) (hi : i.Within {} 0 false) : WholeItems rest := by
  rcases h.eq_nil_or_cons with hnil | ⟨j, rest', heq, hj, hrest⟩
  · exact absurd (List.append_eq_nil_iff.1 hnil).1 (encode_ne_nil i)
  · rw [(hi.encode_append_inj hj heq).2]
    exact hrest

/-- The pairs of a map are whole items. -/
theorem pairs {pairs : List (Item × Item)} (h : PairsWithin {} 0 pairs) : WholeItems (encodePairs pairs) := by
  refine ⟨pairs.flatMap fun p => [p.1, p.2], fun i hi => ?_, ?_⟩
  · obtain ⟨p, hp, hip⟩ := List.mem_flatMap.1 hi
    have hboth := pairsWithin_iff.1 h p hp
    simp only [List.mem_cons, List.not_mem_nil, or_false] at hip
    rcases hip with rfl | rfl
    · exact hboth.1
    · exact hboth.2
  · rw [encodePairs_eq_flatMap, List.flatMap_assoc]
    simp

end WholeItems

/-! ## Sound steps -/

/-- The errors about bytes that are no whole items: a simple value that is cut off or too wide, a string or an array that is longer than
the input, or no head where one should be. -/
def Error.Torn (err : Error) : Prop :=
  err.detail = .truncatedSimple ∨ (∃ n, err.detail = .wideSimple n) ∨ (∃ n, err.detail = .stringExceeds n) ∨
    (∃ n, err.detail = .arrayExceeds n) ∨ ∃ f, err.cause = some (.head f)

/-- An error has a cause that whole items can have, given what is unread when it arises. Malformed input is the end of the map, text that
is not UTF-8, or an array of open length. -/
structure Founded (err : Error) (unread : List UInt8) : Prop where
  notTorn : ¬err.Torn
  malformed : err.code = .malformedInput →
    (unread = [] ∧ (err.detail = .endOfMap ∨ err.cause = some (.item .empty))) ∨
    (∃ i rest, unread = encode i ++ rest ∧ i.Within {} 0 false ∧ i.major = .text ∧ (∀ t, ¬i.Spells t) ∧
      err.cause = some (.item .invalidText)) ∨
    ∃ items rest, unread = encode (openArray items) ++ rest ∧ (openArray items).Within {} 0 false ∧ err.detail = .openArray

namespace Decoder

/-- A decoder that has read on in the same map, past whole items and so many keys at most. -/
structure Advances (keys : Nat) (d d' : Decoder) : Prop where
  whole : WholeItems d'.unread
  unread : d'.unread <:+ d.unread
  read_le : d.read ≤ d'.read
  read_le_add : d'.read ≤ d.read + keys
  bounded : d.read ≤ d.count → d'.read ≤ d.count
  count : d'.count = d.count
  size : d'.size = d.size

section Sound

variable {α β : Type} {m : Decode α} {f : α → Decode β} {d d' d'' : Decoder} {a : α} {k l : Nat}

theorem Advances.refl (h : WholeItems d.unread) : Advances 0 d d :=
  ⟨h, List.suffix_refl _, Nat.le_refl _, Nat.le_refl _, id, rfl, rfl⟩

theorem Advances.trans (h : Advances k d d') (h' : Advances l d' d'') : Advances (k + l) d d'' := by
  refine ⟨h'.whole, h'.unread.trans h.unread, h.read_le.trans h'.read_le, ?_, fun hb => ?_, h'.count.trans h.count,
    h'.size.trans h.size⟩
  · have := h.read_le_add
    have := h'.read_le_add
    omega
  · rw [← h.count]
    apply h'.bounded
    rw [h.count]
    exact h.bounded hb

/-- A step that advances, and whose errors are founded. -/
structure Sound (keys : Nat) (m : Decode α) (d : Decoder) : Prop where
  advances : Advances keys d (m.run.run d).2
  founded : ∀ err, (m.run.run d).1 = .error err → Founded err (m.run.run d).2.unread

theorem Sound.of_gives (h : Gives m d a d') (hd : Advances k d d') : Sound k m d := by
  rw [Gives] at h
  refine ⟨by rw [h]; exact hd, fun err herr => ?_⟩
  rw [h] at herr
  cases herr

theorem Sound.gives (h : Sound k m d) (hm : Gives m d a d') : Advances k d d' := by
  have := h.advances
  rw [hm] at this
  exact this

theorem sound_pure (h : WholeItems d.unread) (a : α) : Sound 0 (pure a : Decode α) d := .of_gives (gives_pure a d) (.refl h)

/-- One sound step after another. -/
theorem Sound.bind (h : Sound k m d) (hf : ∀ a d', Gives m d a d' → WholeItems d'.unread → Sound l (f a) d') :
    Sound (k + l) (m >>= f) d := by
  have hrun := run_bind m f d
  rcases hm : m.run.run d with ⟨err | a, d'⟩
  · rw [hm] at hrun
    have had := h.advances
    have hfo := h.founded
    rw [hm] at had hfo
    have hstay : Advances l d' d' :=
      ⟨had.whole, List.suffix_refl _, Nat.le_refl _, Nat.le_add_right _ _, id, rfl, rfl⟩
    refine ⟨?_, ?_⟩
    · rw [hrun]
      exact had.trans hstay
    · rw [hrun]
      intro err' herr
      cases herr
      exact hfo err rfl
  · rw [hm] at hrun
    have had := h.gives (a := a) hm
    have hnext := hf a d' hm had.whole
    refine ⟨?_, ?_⟩
    · rw [hrun]
      exact had.trans hnext.advances
    · rw [hrun]
      exact hnext.founded

/-- A step after one that reads no key. -/
theorem Sound.seq (h : Sound 0 m d) (hf : ∀ a d', Gives m d a d' → WholeItems d'.unread → Sound k (f a) d') : Sound k (m >>= f) d := by
  have := h.bind hf
  rwa [Nat.zero_add] at this

theorem sound_get {f : Decoder → Decode β} (h : Sound k (f d) d) : Sound k (get >>= f) d := ⟨h.advances, h.founded⟩

theorem sound_modify {g : Decoder → Decoder} (h : Advances k d (g d)) : Sound k (modify g : Decode Unit) d :=
  .of_gives (gives_modify g d) h

theorem sound_throw (h : WholeItems d.unread) {err : Error} (hf : Founded err d.unread) : Sound 0 (throw err : Decode α) d := by
  refine ⟨.refl h, fun err' herr => ?_⟩
  cases herr
  exact hf

theorem sound_fail (h : WholeItems d.unread) {err : Error} (hf : Founded err d.unread) : Sound 0 (fail err : Decode α) d := by
  refine ⟨⟨h, List.suffix_refl _, Nat.le_refl _, Nat.le_refl _, id, rfl, rfl⟩, fun err' herr => ?_⟩
  cases herr
  exact hf

/-- A step after one that gives a value and changes nothing. -/
theorem Sound.after (h : Gives m d a d) (hf : Sound k (f a) d) : Sound k (m >>= f) d := by
  have hrun := h.run_bind f
  refine ⟨?_, ?_⟩
  · rw [hrun]
    exact hf.advances
  · rw [hrun]
    exact hf.founded

/-- What is made of the value of a step. -/
theorem Sound.map (h : Sound k m d) (g : α → β) : Sound k (m >>= fun a => pure (g a)) d :=
  h.bind fun a _ _ h' => sound_pure h' (g a)

theorem Sound.mono (h : Sound 0 m d) : Sound k m d :=
  ⟨⟨h.advances.whole, h.advances.unread, h.advances.read_le, Nat.le_trans h.advances.read_le_add (Nat.le_add_right _ _),
    h.advances.bounded, h.advances.count, h.advances.size⟩, h.founded⟩

end Sound

/-! ## The next item -/

variable {d : Decoder} {k : Nat}

/-- Errors that are not about malformed input are founded, unless they say so themselves. -/
theorem founded_of_code {err : Error} {unread : List UInt8} (hcode : err.code ≠ .malformedInput) (htorn : ¬err.Torn) :
    Founded err unread :=
  ⟨htorn, fun h => absurd h hcode⟩

theorem advances_rest {i : Item} {rest : List UInt8} (hd : WholeItems d.unread) (h : Faces d i rest) :
    Advances 0 d { d with unread := rest } := by
  have hwhole : WholeItems (encode i ++ rest) := h.unread ▸ hd
  exact ⟨hwhole.rest h.within, ⟨encode i, h.unread.symm⟩, Nat.le_refl _, Nat.le_refl _, id, rfl, rfl⟩

/-- Inside whole items, what is unread is nothing or begins with an item. -/
theorem eq_nil_or_faces (h : WholeItems d.unread) : d.unread = [] ∨ ∃ i rest, Faces d i rest := by
  rcases h.eq_nil_or_cons with hnil | ⟨i, rest, heq, hin, -⟩
  · exact Or.inl hnil
  · exact Or.inr ⟨i, rest, heq, hin⟩

theorem faces_of_cons (h : WholeItems d.unread) {b : UInt8} {tail : List UInt8} (hb : d.unread = b :: tail) :
    ∃ i rest, Faces d i rest ∧ i.major = Major.ofByte b := by
  rcases eq_nil_or_faces h with hnil | ⟨i, rest, hi⟩
  · rw [hnil] at hb
    cases hb
  · obtain ⟨b', tail', hb', hm⟩ := hi.within.first
    have heq := hi.unread.symm.trans hb
    rw [hb', List.cons_append, List.cons.injEq] at heq
    obtain ⟨rfl, -⟩ := heq
    exact ⟨i, rest, hi, hm.symm⟩

theorem sound_unexpected {α : Type} (h : WholeItems d.unread) (op key : Text) (want : String) (b : UInt8) :
    Sound 0 (unexpected op key want b : Decode α) d :=
  sound_fail h (founded_of_code (by simp) (by simp [Error.Torn]))

theorem sound_peek (h : WholeItems d.unread) (op key : Text) : Sound 0 (peek op key) d := by
  refine sound_get ?_
  split
  · rename_i hnil
    exact sound_fail h ⟨by simp [Error.Torn], fun _ => Or.inl ⟨hnil, Or.inl rfl⟩⟩
  · exact sound_pure h _

theorem sound_expect (h : WholeItems d.unread) (op key : Text) (major : Major) (want : String) :
    Sound 0 (expect op key major want) d := by
  refine (sound_peek h op key).seq fun (b, tail) d' _ h' => ?_
  dsimp only
  split
  · exact sound_unexpected h' op key want b
  · exact sound_pure h' ()

/-- Taking an item off is sound when what is made of it is refused only for text that is not UTF-8. -/
theorem sound_next {α : Type} {view : Item → Except Fault α} (h : WholeItems d.unread)
    (hview : ∀ i rest f, Faces d i rest → view i = .error f → f = .invalidText ∧ i.major = .text ∧ ∀ t, ¬i.Spells t)
    (op key : Text) : Sound 0 (next op key view) d := by
  refine sound_get ?_
  rcases eq_nil_or_faces h with hnil | ⟨i, rest, hi⟩
  · rw [show Item.read {} d.unread = .error .empty by rw [hnil]; rfl]
    exact sound_fail h ⟨by simp [Error.Torn], fun _ => Or.inl ⟨hnil, Or.inr rfl⟩⟩
  · rw [hi.unread, hi.within.read_encode rest]
    cases hv : view i with
    | error f =>
      obtain ⟨rfl, hm, ht⟩ := hview i rest f hi hv
      simp only [hv]
      refine sound_fail h ⟨by simp [Error.Torn], fun _ => Or.inr (Or.inl ?_)⟩
      exact ⟨i, rest, hi.unread, hi.within, hm, ht, rfl⟩
    | ok a =>
      simp only [hv]
      refine (sound_modify (advances_rest h hi)).seq fun _ d' _ h' => ?_
      exact sound_pure h' a

/-- Going past an item, or making something of every item. -/
theorem sound_next_ok {α : Type} {view : Item → Except Fault α} (h : WholeItems d.unread) (hview : ∀ i, ∃ a, view i = .ok a)
    (op key : Text) : Sound 0 (next op key view) d := by
  refine sound_next h (fun i rest f _ hf => ?_) op key
  obtain ⟨a, ha⟩ := hview i
  rw [ha] at hf
  cases hf

theorem sound_skip (h : WholeItems d.unread) (op key : Text) : Sound 0 (skip op key) d :=
  sound_next_ok h (fun _ => ⟨(), rfl⟩) op key

/-- Reading an item as text, when its first byte says that it is text. -/
theorem sound_next_text (h : WholeItems d.unread) {b : UInt8} {tail : List UInt8} (hb : d.unread = b :: tail)
    (hm : Major.ofByte b = .text) (op key : Text) : Sound 0 (next op key Item.text) d := by
  refine sound_next h (fun i rest f hi hf => ?_) op key
  obtain ⟨j, rest', hj, hmajor⟩ := faces_of_cons h hb
  obtain ⟨rfl, -⟩ := hi.within.encode_append_inj hj.within (hi.unread.symm.trans hj.unread)
  refine ⟨?_, hmajor.trans hm, fun t ht => ?_⟩
  · unfold Item.text at hf
    dsimp only at hf
    split at hf
    all_goals
      split at hf
      · cases hf
      · exact (Except.error.inj hf).symm
  · rw [(spells_iff.1 ht).2] at hf
    cases hf

/-! ## Keys -/

theorem sound_emit (h : WholeItems d.unread) (ev : Event) : Sound 0 (emit ev) d :=
  sound_modify ⟨h, List.suffix_refl _, Nat.le_refl _, Nat.le_refl _, id, rfl, rfl⟩

theorem sound_noPairs {α : Type} (h : WholeItems d.unread) (op key : Text) : Sound 0 (noPairs op key : Decode α) d :=
  sound_get (sound_fail h (founded_of_code (by simp) (by simp [Error.Torn])))

/-- Counting a key, when pairs remain. -/
theorem sound_countKey (h : WholeItems d.unread) (hmore : d.read < d.count) :
    Sound 1 (modify fun d => { d with read := d.read + 1 } : Decode Unit) d :=
  sound_modify ⟨h, List.suffix_refl _, Nat.le_succ _, Nat.le_refl _, fun _ => hmore, rfl, rfl⟩

theorem sound_takeKey (h : WholeItems d.unread) (op expected : Text) : Sound 1 (takeKey op expected) d := by
  refine sound_get ?_
  by_cases hmore : d.read < d.count
  · simp only [more, hmore, decide_true, Bool.not_true, Bool.false_eq_true, if_false]
    refine (sound_expect h op expected .text _).seq fun _ d₁ hexpect _ => ?_
    obtain ⟨⟨b, tail, hb, hm⟩, rfl⟩ := hexpect.of_expect
    refine (sound_next_text h hb hm op expected).seq fun t d₂ hnext h₂ => ?_
    obtain ⟨i, rest, -, -, rfl⟩ := hnext.of_next
    exact (sound_countKey h₂ hmore).bind fun _ d₃ _ h₃ => sound_pure h₃ t
  · simp only [more, hmore, decide_false, Bool.not_false, if_true]
    exact (sound_noPairs h op expected).mono

theorem sound_skipUnknown (h : WholeItems d.unread) (op key : Text) : Sound 0 (skipUnknown op key) d :=
  (sound_emit h _).seq fun _ _ _ h' => sound_skip h' op key

theorem sound_takeTolerantKey (h : WholeItems d.unread) (op : Text) : Sound 1 (takeTolerantKey op) d := by
  refine sound_get ?_
  by_cases hmore : d.read < d.count
  · simp only [more, hmore, decide_true, Bool.not_true, Bool.false_eq_true, if_false]
    refine (sound_expect h op "" .text _).seq fun _ d₁ hexpect _ => ?_
    obtain ⟨⟨b, tail, hb, -⟩, rfl⟩ := hexpect.of_expect
    obtain ⟨i, rest, hi, -⟩ := faces_of_cons h hb
    refine .after (hi.peekHead op "") ?_
    dsimp only
    split
    · exact (sound_takeKey h op "").bind fun k d₂ _ h₂ => sound_pure h₂ _
    · refine (sound_skip h op "").seq fun _ d₂ hskip h₂ => ?_
      obtain ⟨j, rest', -, -, rfl⟩ := hskip.of_next
      refine (sound_countKey h₂ hmore).bind (l := 0) fun _ d₃ _ h₃ => ?_
      exact (sound_skipUnknown h₃ op _).seq fun _ d₄ _ h₄ => sound_pure h₄ _
  · simp only [more, hmore, decide_false, Bool.not_false, if_true]
    exact (sound_noPairs h op "").mono

/-! ## Values -/

theorem sound_takeUnsigned (h : WholeItems d.unread) (op key : Text) : Sound 0 (takeUnsigned op key) d := by
  refine (sound_expect h op key .unsigned _).seq fun _ d₁ _ h₁ => ?_
  exact sound_next_ok h₁ (fun i => by cases i <;> exact ⟨_, rfl⟩) op key

/-- A simple value in two bytes is whole and not below 32, since it stands in whole items. -/
theorem sound_takeSimple (h : WholeItems d.unread) (op key : Text) : Sound 0 (takeSimple op key) d := by
  by_cases hsimple : ∃ v rest, Faces d (.simple v) rest
  · obtain ⟨v, rest, hv⟩ := hsimple
    exact .of_gives (hv.takeSimple op key) (advances_rest h hv)
  · refine (sound_expect h op key .primitive _).seq fun _ d₁ hexpect _ => ?_
    obtain ⟨⟨b, tail, hb, hm⟩, rfl⟩ := hexpect.of_expect
    obtain ⟨i, rest, hi, hmajor⟩ := faces_of_cons h hb
    obtain ⟨b, tail, hb, -, hpeek⟩ := hi.peek op key
    have hinfo : 24 < b.toNat % 32 := by
      rcases first_of_primitive hi.within hb (hmajor.trans hm) with ⟨v, rfl, -⟩ | ⟨_, -, hinfo⟩ | ⟨_, -, hinfo⟩ | ⟨_, -, hinfo⟩
      · exact absurd ⟨v, rest, hi⟩ hsimple
      all_goals omega
    refine .after hpeek ?_
    simp only [show ¬b.toNat % 32 < 24 by omega, show ¬b.toNat % 32 = 24 by omega, if_false]
    exact sound_unexpected h op key _ b

theorem sound_takeFloat32 (h : WholeItems d.unread) (op key : Text) : Sound 0 (takeFloat32 op key) d := by
  refine (sound_peek h op key).seq fun (b, tail) d₁ _ h₁ => ?_
  dsimp only
  split
  · exact sound_unexpected h₁ op key _ b
  · exact sound_next_ok h₁ (fun i => by cases i <;> exact ⟨_, rfl⟩) op key

theorem sound_takeFloat64 (h : WholeItems d.unread) (op key : Text) : Sound 0 (takeFloat64 op key) d := by
  refine (sound_peek h op key).seq fun (b, tail) d₁ _ h₁ => ?_
  dsimp only
  split
  · exact sound_unexpected h₁ op key _ b
  · exact sound_next_ok h₁ (fun i => by cases i <;> exact ⟨_, rfl⟩) op key

theorem sound_charge (h : WholeItems d.unread) (op key : Text) (n : Int64) : Sound 0 (charge op key n) d := by
  refine sound_get ?_
  dsimp only
  split
  · exact sound_fail h (founded_of_code (by simp) (by simp [Error.Torn]))
  · have hadvances : Advances 0 d { d with allocated := d.allocated + n } :=
      ⟨h, List.suffix_refl _, Nat.le_refl _, Nat.le_refl _, id, rfl, rfl⟩
    exact .of_gives (a := ()) rfl hadvances

theorem Gives.of_charge {op key : Text} {n : Int64} {u : Unit} {d' : Decoder} (h : Gives (charge op key n) d u d') :
    d' = { d with allocated := d.allocated + n } := by
  obtain ⟨s, d₁, hget, hset⟩ := h.of_bind
  obtain ⟨rfl, rfl⟩ := hget.of_get
  dsimp only at hset
  split at hset
  · exact absurd hset (not_gives_fail _)
  · cases hset
    rfl

/-- No string is longer than the input, since it stands in whole items. -/
theorem sound_chargeString (h : WholeItems d.unread) (op key : Text) (kind : StringKind) (want : String) (extra : Nat) :
    Sound 0 (chargeString op key kind want extra) d := by
  refine (sound_expect h op key kind.major want).seq fun _ d₁ hexpect _ => ?_
  obtain ⟨⟨b, tail, hb, hm⟩, rfl⟩ := hexpect.of_expect
  obtain ⟨i, rest, hi, hmajor⟩ := faces_of_cons h hb
  refine .after (hi.peekHead op key) ?_
  rcases eq_string_or_chunks (hmajor.trans hm) with ⟨w, content, rfl⟩ | ⟨pieces, rfl⟩
  · have hlen : ¬d₁.unread.length < content.length := by
      rw [hi.unread, encode_eq, body]
      simp only [List.length_append]
      omega
    by_cases hpos : 0 < content.length
    · simp only [head, reduceCtorEq, if_false, hpos, if_true]
      refine sound_get ?_
      simp only [hlen, if_false]
      exact (sound_charge h op key _).seq fun _ d₂ _ h₂ => sound_pure h₂ false
    · simp only [head, reduceCtorEq, if_false, hpos]
      exact sound_pure h false
  · simp only [head, if_true]
    exact sound_pure h true

/-- Charging a string finds its type right and leaves it unread. -/
theorem Gives.of_chargeString {op key : Text} {kind : StringKind} {want : String} {extra : Nat} {isOpen : Bool} {d' : Decoder}
    (h : Gives (chargeString op key kind want extra) d isOpen d') :
    ∃ b tail, d'.unread = b :: tail ∧ Major.ofByte b = kind.major := by
  obtain ⟨u, d₁, hexpect, hhead⟩ := h.of_bind
  obtain ⟨⟨b, tail, hb, hm⟩, rfl⟩ := hexpect.of_expect
  obtain ⟨⟨head, body⟩, d₂, hpeek, hcharge⟩ := hhead.of_bind
  obtain rfl := hpeek.of_peekHead
  refine ⟨b, tail, ?_, hm⟩
  rw [← hb]
  dsimp only at hcharge
  split at hcharge
  · rw [hcharge.of_pure.2]
  · split at hcharge
    · obtain ⟨s, d₃, hget, hcheck⟩ := hcharge.of_bind
      obtain ⟨rfl, rfl⟩ := hget.of_get
      split at hcheck
      · obtain ⟨u, d₄, hfail, -⟩ := hcheck.of_bind
        exact absurd hfail (not_gives_fail _)
      · obtain ⟨u, d₄, hset, hpure⟩ := hcheck.of_bind
        rw [hpure.of_pure.2, hset.of_charge]
    · rw [hcharge.of_pure.2]

/-- The step that charges a string of open length once it is read. -/
theorem sound_chargeOpen {α : Type} (h : WholeItems d.unread) (c : Prop) [Decidable c] (op key : Text) (n : Int64) (a : α) :
    Sound 0 (if c then do charge op key n; pure a else pure a) d := by
  split
  · exact (sound_charge h op key n).seq fun _ d₁ _ h₁ => sound_pure h₁ a
  · exact sound_pure h a

theorem sound_takeText (h : WholeItems d.unread) (op key : Text) : Sound 0 (takeText op key) d := by
  refine (sound_chargeString h op key .text _ 1).seq fun isOpen d₁ hcharge h₁ => ?_
  obtain ⟨b, tail, hb, hm⟩ := hcharge.of_chargeString
  exact (sound_next_text h₁ hb hm op key).seq fun t d₂ _ h₂ => sound_chargeOpen h₂ _ op key _ t

theorem sound_takeBytes (h : WholeItems d.unread) (op key : Text) : Sound 0 (takeBytes op key) d := by
  refine (sound_chargeString h op key .bytes _ 0).seq fun isOpen d₁ _ h₁ => ?_
  exact (sound_next_ok h₁ (fun i => ⟨_, rfl⟩) op key).seq fun t d₂ _ h₂ => sound_chargeOpen h₂ _ op key _ t

theorem eq_array_or_openArray {i : Item} (h : i.major = .array) : (∃ w items, i = .array w items) ∨ ∃ items, i = .openArray items := by
  cases i with
  | array w items => exact Or.inl ⟨w, items, rfl⟩
  | openArray items => exact Or.inr ⟨items, rfl⟩
  | string kind w content => cases kind <;> cases h
  | chunks kind pieces => cases kind <;> cases h
  | _ => cases h

/-- Going into an array leaves its items in front of what follows it. -/
theorem advances_array {w : Width} {items : List Item} {rest : List UInt8} (h : WholeItems d.unread)
    (hi : Faces d (.array w items) rest) : Advances 0 d { d with unread := items.flatMap encode ++ rest } := by
  have hitems : WholeItems (items.flatMap encode) := by
    have hin : AllWithin {} 1 items := hi.within.2.2.2.2
    exact ⟨items, fun i hmem => allWithin_iff.1 (hin.shallower (Nat.zero_le 1)) i hmem, rfl⟩
  have hunread : d.unread = (Item.array w items).head.encode ++ (items.flatMap encode ++ rest) := by
    rw [hi.unread, encode_eq, List.append_assoc]
    rfl
  exact ⟨hitems.append (advances_rest h hi).whole, ⟨_, hunread.symm⟩, Nat.le_refl _, Nat.le_refl _, id, rfl, rfl⟩

/-- The head of an array is taken off: no array is longer than the input, since its items stand there. -/
theorem Faces.takeArrayHead {w : Width} {items : List Item} {rest : List UInt8} (h : Faces d (.array w items) rest) (op key : Text) :
    Gives (takeArrayHead op key) d items.length { d with unread := items.flatMap encode ++ rest } := by
  have hlen : ¬d.unread.length < items.length := by
    have hle := length_le_flatMap fun i (_ : i ∈ items) => encode_ne_nil i
    rw [h.unread, encode_eq, body]
    simp only [List.length_append]
    omega
  refine (h.expect op key "array").bind ((h.peekHead op key).bind ?_)
  simp only [head, reduceCtorEq, if_false]
  refine (gives_get d).bind ?_
  simp only [hlen, if_false]
  exact (gives_modify _ d).bind (gives_pure _ _)

theorem sound_takeArrayHead (h : WholeItems d.unread) (op key : Text) : Sound 0 (takeArrayHead op key) d := by
  by_cases harray : ∃ w items rest, Faces d (.array w items) rest
  · obtain ⟨w, items, rest, hi⟩ := harray
    exact .of_gives (hi.takeArrayHead op key) (advances_array h hi)
  · refine (sound_expect h op key .array _).seq fun _ d₁ hexpect _ => ?_
    obtain ⟨⟨b, tail, hb, hm⟩, rfl⟩ := hexpect.of_expect
    obtain ⟨i, rest, hi, hmajor⟩ := faces_of_cons h hb
    rcases eq_array_or_openArray (hmajor.trans hm) with ⟨w, items, rfl⟩ | ⟨items, rfl⟩
    · exact absurd ⟨w, items, rest, hi⟩ harray
    · refine .after (hi.peekHead op key) ?_
      simp only [head, if_true]
      exact sound_fail h ⟨by simp [Error.Torn], fun _ => Or.inr (Or.inr ⟨items, rest, hi.unread, hi.within, rfl⟩)⟩

theorem sound_skipMany (op key : Text) (n : Nat) {d : Decoder} (h : WholeItems d.unread) : Sound 0 (skipMany op key n) d := by
  induction n generalizing d with
  | zero => exact sound_pure h ()
  | succ n ih => exact (sound_skip h op key).seq fun _ d₁ _ h₁ => ih h₁

/-- A number out of range is refused for its value, not for its bytes. -/
theorem sound_takeNumber (h : WholeItems d.unread) (op : Text) (f : Field) (s : Slot) (limit : Nat) (refused : Nat → Detail)
    (hrefused : ∀ n, ¬Error.Torn { code := .outOfRange, op, key := f.key, detail := refused n }) :
    Sound 0 (takeNumber op f s limit refused) d := by
  refine (sound_takeUnsigned h op f.key).seq fun n d₁ _ h₁ => ?_
  split
  · exact sound_throw h₁ (founded_of_code (by simp) (hrefused n))
  · exact sound_pure h₁ _

theorem sound_takeValue (h : WholeItems d.unread) (op : Text) (f : Field) : Sound 0 (takeValue op f) d := by
  obtain ⟨key, binding, checked⟩ := f
  cases binding with
  | unbound t => exact sound_fail h (founded_of_code (by simp) (by simp [Error.Torn]))
  | bound s => cases s with
    | uint8 _ | uint16 _ | uint32 _ | uint64 _ | bool _ => exact sound_takeNumber h op _ _ _ _ fun n => by simp [Error.Torn]
    | simple _ => exact (sound_takeSimple h op key).map _
    | float32 _ => exact (sound_takeFloat32 h op key).map _
    | float64 _ => exact (sound_takeFloat64 h op key).map _
    | string _ => exact (sound_takeText h op key).map _
    | bytes _ => exact (sound_takeBytes h op key).map _

/-! ## Calls -/

theorem sound_paired {α : Type} {take : Text → Text → Decode α}
    (htake : ∀ {d : Decoder}, WholeItems d.unread → ∀ op key, Sound 0 (take op key) d) (h : WholeItems d.unread) (op key : Text) :
    Sound 1 (paired op key take) d :=
  (sound_takeKey h op key).bind fun _ _ _ h₁ => htake h₁ op key

theorem sound_leave (h : WholeItems d.unread) : Sound 0 leave d := by
  refine sound_get ?_
  split
  · exact sound_fail h (founded_of_code (by simp) (by simp [Error.Torn]))
  · split
    · exact sound_fail h (founded_of_code (by simp) (by simp [Error.Torn]))
    · exact sound_emit h _

/-- Every call is sound, and reads one key at most. -/
theorem sound_step (h : WholeItems d.unread) (call : Call) : Sound 1 (step call) d := by
  cases call with
  | key => exact (sound_takeKey h _ _).map _
  | tolerantKey => exact (sound_takeTolerantKey h _).map _
  | skip key => exact ((sound_skip h _ key).map _).mono
  | skipUnknown key => exact ((sound_skipUnknown h _ key).map _).mono
  | skipElements n => exact ((sound_skipMany _ _ n h).map _).mono
  | charge key n => exact ((sound_charge h _ key n).map _).mono
  | uint8 key | uint16 key | uint32 key | uint64 key | bool key => exact (sound_paired sound_takeUnsigned h _ key).map _
  | simple key => exact (sound_paired sound_takeSimple h _ key).map _
  | float32 key => exact (sound_paired sound_takeFloat32 h _ key).map _
  | float64 key => exact (sound_paired sound_takeFloat64 h _ key).map _
  | text key => exact (sound_paired sound_takeText h _ key).map _
  | bytes key => exact (sound_paired sound_takeBytes h _ key).map _
  | arrayHead key => exact (sound_paired sound_takeArrayHead h _ key).map _
  | arrayValue key => exact ((sound_takeArrayHead h _ key).map _).mono
  | nextFloat64 => exact ((sound_takeFloat64 h _ _).map _).mono
  | nextFloat32 => exact ((sound_takeFloat32 h _ _).map _).mono
  | nextUInt64 => exact ((sound_takeUnsigned h _ _).map _).mono
  | value f => exact ((sound_takeValue h _ f).map _).mono
  | leave => exact ((sound_leave h).map _).mono

/-- A run of calls advances, whatever errors it meets. -/
theorem advances_run (calls : List Call) {d : Decoder} (h : WholeItems d.unread) : Advances calls.length d (d.run calls) := by
  induction calls generalizing d with
  | nil => exact .refl h
  | cons call calls ih =>
    have hstep := (sound_step h call).advances
    have hrest := hstep.trans (ih hstep.whole)
    rw [Nat.add_comm] at hrest
    exact hrest

/-- How far into the map item a decoder has come. -/
def offset (d : Decoder) : Nat := d.size - d.unread.length

/-- Input that is entered begins with a map, and the decoder stands inside it. -/
theorem eq_inside_of_enter {options : Options} {expected : Option Int} {data : List UInt8}
    (h : enter options expected data = (.ok (), d)) :
    ∃ w pairs rest, data = (Item.map w pairs).encode ++ rest ∧ (Item.map w pairs).Within {} 0 false ∧
      d = inside options w pairs rest.length := by
  rcases enter_cases options expected data with ⟨w, pairs, rest, rfl, hin, hexpected⟩ | ⟨err, d', herr, -⟩
  · rw [enter_map hin options hexpected rest] at h
    exact ⟨w, pairs, rest, rfl, hin, (Prod.mk.inj h).2.symm⟩
  · rw [herr] at h
    cases h

end Decoder

end SensorWire
