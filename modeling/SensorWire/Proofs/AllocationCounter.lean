import Mathlib
import SensorWire.Proofs.Allocation

/-!
# The counter of the allocation budget

The bytes charged to the budget are counted in a 64-bit word, and a charge is added to the word before the sum is compared with the limit.
A call asks for one amount at most (`Call.request?`), which is told by the call and by the item in front of the decoder. What the call does to
the counter depends on nothing else (`Settles`): without a request the counter stays, a request beyond the limit fails and leaves it, and
any other request is added, in the word. So the counter stays within the limit, and is the sum of what was granted, until a request takes
the sum past the largest word: then the word wraps around to below zero, and the request is granted.

Main statement: `counter_within_limit_iff`.
-/

namespace SensorWire

open Cbor Item

namespace Decoder

/-! ## Requests -/

/-- The bytes that reading a string asks for, told by the item in front: none if it is no string of the kind or is empty. Text in chunks is
read before it is charged, so nothing is asked for if it is not UTF-8. -/
def stringRequest? (kind : StringKind) (extra : Nat) (d : Decoder) : Option Int :=
  match Item.read {} d.unread with
  | .error _ => none
  | .ok (i, _) =>
    if i.major = kind.major ∧ i.content ≠ [] ∧ (i.head.width = none → kind = .text → i.text.isOk = true) then
      some ((i.content.length + extra : Nat) : Int)
    else none

/-- The bytes that a call asks of the budget. -/
def Call.request? (d : Decoder) : Call → Option Int
  | .charge _ n => some n.toInt
  | .text k => match (takeKey "Text" k).run.run d with
    | (.ok _, d) => d.stringRequest? .text 1
    | (.error _, _) => none
  | .bytes k => match (takeKey "Bytes" k).run.run d with
    | (.ok _, d) => d.stringRequest? .bytes 0
    | (.error _, _) => none
  | .value f => match f.binding with
    | .bound (.string _) => d.stringRequest? .text 1
    | .bound (.bytes _) => d.stringRequest? .bytes 0
    | _ => none
  | _ => none

/-- A request that the sum of the counter and the request, as a word, refuses. -/
def Exceeds (d : Decoder) (n : Int) : Prop := 0 < d.options.allocLimit ∧ d.options.allocLimit < d.allocated + Int64.ofInt n

/-- What a step does to the budget, given what it asks for. -/
inductive Settles {α : Type} (d : Decoder) (r : Except Error α × Decoder) : Option Int → Prop
  | free (options : r.2.options = d.options) (allocated : r.2.allocated = d.allocated)
      (code : ∀ err, r.1 = .error err → err.code ≠ .allocationFailure) : Settles d r none
  | granted {n : Int} (options : r.2.options = d.options) (room : ¬d.Exceeds n) (allocated : r.2.allocated = d.allocated + Int64.ofInt n)
      (code : ∀ err, r.1 = .error err → err.code ≠ .allocationFailure) : Settles d r (some n)
  | refused {n : Int} {err : Error} (options : r.2.options = d.options) (exceeds : d.Exceeds n) (allocated : r.2.allocated = d.allocated)
      (result : r.1 = .error err) (code : err.code = .allocationFailure) : Settles d r (some n)

/-- A step that asks for nothing. -/
def Free {α : Type} (m : Decode α) : Prop := ∀ d, Settles d (m.run.run d) none

section Steps

variable {α β : Type} {m : Decode α} {f : α → Decode β} {d d' : Decoder} {request? : Option Int}

theorem Free.options (h : Free m) (d : Decoder) : (m.run.run d).2.options = d.options := by
  cases h d with
  | free options => exact options

theorem Free.allocated (h : Free m) (d : Decoder) : (m.run.run d).2.allocated = d.allocated := by
  cases h d with
  | free _ allocated => exact allocated

theorem Free.code (h : Free m) {err : Error} (hrun : m.run.run d = (.error err, d')) : err.code ≠ .allocationFailure := by
  cases h d with
  | free _ _ code => exact code err (by rw [hrun])

/-- Before a step, the same budget may be reached by another that asks for nothing. -/
theorem Settles.before {r : Except Error α × Decoder} (h : Settles d' r request?) (hoptions : d'.options = d.options)
    (hallocated : d'.allocated = d.allocated) : Settles d r request? := by
  have hexceeds : ∀ n, d'.Exceeds n ↔ d.Exceeds n := by
    intro n
    unfold Exceeds
    rw [hoptions, hallocated]
  cases h with
  | free options allocated code => exact .free (options.trans hoptions) (allocated.trans hallocated) code
  | @granted n options room allocated code =>
    refine .granted (options.trans hoptions) (fun h => room ((hexceeds n).2 h)) ?_ code
    rw [allocated, hallocated]
  | @refused n err options exceeds allocated result code =>
    exact .refused (options.trans hoptions) ((hexceeds n).1 exceeds) (allocated.trans hallocated) result code

/-- A step that asks for nothing, and then one that may ask. -/
theorem Free.then (h : Free m) (hok : ∀ a d', Gives m d a d' → Settles d' ((f a).run.run d') request?)
    (herr : ∀ err d', m.run.run d = (.error err, d') → request? = none) : Settles d ((m >>= f).run.run d) request? := by
  have hoptions := h.options d
  have hallocated := h.allocated d
  rw [run_bind]
  rcases hm : m.run.run d with ⟨err | a, d'⟩
  · rw [hm] at hoptions hallocated
    rw [herr err d' hm]
    refine .free hoptions hallocated fun err' herr' => ?_
    cases herr'
    exact h.code hm
  · rw [hm] at hoptions hallocated
    exact (hok a d' hm).before hoptions hallocated

/-- A step that may ask, and then one that asks for nothing. -/
theorem Settles.then (h : Settles d (m.run.run d) request?) (hf : ∀ a, Free (f a)) : Settles d ((m >>= f).run.run d) request? := by
  rw [run_bind]
  rcases hm : m.run.run d with ⟨err | a, d'⟩
  · rw [hm] at h
    cases h with
    | free options allocated code => exact .free options allocated fun err' herr' => code err' (by cases herr'; rfl)
    | granted options room allocated code => exact .granted options room allocated fun err' herr' => code err' (by cases herr'; rfl)
    | refused options exceeds allocated result code =>
      refine .refused options exceeds allocated ?_ code
      cases result
      rfl
  · rw [hm] at h
    have hoptions := (hf a).options d'
    have hallocated := (hf a).allocated d'
    have hcode : ∀ err, ((f a).run.run d').1 = .error err → err.code ≠ .allocationFailure :=
      fun err herr => (hf a).code (Prod.ext herr rfl)
    cases h with
    | free options allocated => exact .free (hoptions.trans options) (hallocated.trans allocated) hcode
    | granted options room allocated => exact .granted (hoptions.trans options) room (hallocated.trans allocated) hcode
    | refused _ _ _ result => cases result

theorem Free.bind (h : Free m) (hf : ∀ a, Free (f a)) : Free (m >>= f) := fun d => (h d).then hf

theorem free_pure (a : α) : Free (pure a : Decode α) := fun _ => .free rfl rfl fun err herr => by cases herr

theorem free_get : Free (get : Decode Decoder) := fun _ => .free rfl rfl fun err herr => by cases herr

theorem free_modify {g : Decoder → Decoder} (hoptions : ∀ d, (g d).options = d.options) (hallocated : ∀ d, (g d).allocated = d.allocated) :
    Free (modify g : Decode Unit) := fun d => .free (hoptions d) (hallocated d) fun err herr => by cases herr

theorem free_throw {err : Error} (h : err.code ≠ .allocationFailure) : Free (throw err : Decode α) := by
  refine fun d => .free rfl rfl fun err' herr => ?_
  cases herr
  exact h

theorem free_emit (ev : Event) : Free (emit ev) := free_modify (fun _ => rfl) fun _ => rfl

theorem free_fail {err : Error} (h : err.code ≠ .allocationFailure) : Free (fail err : Decode α) :=
  (free_emit _).bind fun _ => free_throw h

theorem Free.ite {c : Prop} [Decidable c] {l : Decode α} (h : Free m) (h' : Free l) : Free (if c then m else l) := by
  split
  · exact h
  · exact h'

end Steps

/-! ## Readers that ask for nothing -/

section Readers

variable {α : Type} (op key : Text)

theorem free_unread (rest : List UInt8) : Free (modify fun d => { d with unread := rest } : Decode Unit) :=
  free_modify (fun _ => rfl) fun _ => rfl

theorem free_countKey : Free (modify fun d => { d with read := d.read + 1 } : Decode Unit) := free_modify (fun _ => rfl) fun _ => rfl

theorem free_peek : Free (peek op key) := by
  refine free_get.bind fun d => ?_
  cases d.unread with
  | nil => exact free_fail (by simp)
  | cons b tail => exact free_pure _

theorem free_unexpected (want : String) (b : UInt8) : Free (unexpected op key want b : Decode α) := free_fail (by simp)

theorem free_expect (major : Major) (want : String) : Free (expect op key major want) :=
  (free_peek op key).bind fun (b, _) => (free_unexpected op key want b).ite (free_pure ())

theorem free_peekHead : Free (peekHead op key) := by
  refine free_get.bind fun d => ?_
  cases Head.read d.unread with
  | error f => exact free_fail (by simp)
  | ok r => exact free_pure _

theorem free_next (view : Item → Except Fault α) : Free (next op key view) := by
  refine free_get.bind fun d => ?_
  cases Item.read {} d.unread with
  | error f => exact free_fail (by simp)
  | ok r =>
    dsimp only
    cases view r.1 with
    | error f => exact free_fail (by simp)
    | ok a => exact (free_unread r.2).bind fun _ => free_pure a

theorem free_noPairs : Free (noPairs op key : Decode α) := free_get.bind fun _ => free_fail (by simp)

theorem free_takeKey : Free (takeKey op key) := by
  refine free_get.bind fun d => (free_noPairs op key).ite ?_
  refine (free_expect op key .text _).bind fun _ => (free_next op key _).bind fun k => ?_
  exact free_countKey.bind fun _ => free_pure k

theorem free_skipUnknown : Free (skipUnknown op key) := (free_emit _).bind fun _ => free_next op key _

theorem free_takeTolerantKey : Free (takeTolerantKey op) := by
  refine free_get.bind fun d => (free_noPairs op "").ite ?_
  refine (free_expect op "" .text _).bind fun _ => (free_peekHead op "").bind fun (h, _) => Free.ite ?_ ?_
  · exact (free_takeKey op "").bind fun k => free_pure _
  · refine (free_next op "" _).bind fun _ => free_countKey.bind fun _ => ?_
    exact (free_skipUnknown op _).bind fun _ => free_pure _

theorem free_takeUnsigned : Free (takeUnsigned op key) := (free_expect op key .unsigned _).bind fun _ => free_next op key _

theorem free_takeSimple : Free (takeSimple op key) := by
  refine (free_expect op key .primitive _).bind fun _ => (free_peek op key).bind fun (b, tail) => ?_
  refine Free.ite ((free_unread tail).bind fun _ => free_pure _) (Free.ite ?_ (free_unexpected op key _ b))
  cases tail with
  | nil => exact free_fail (by simp)
  | cons v tail => exact Free.ite (free_fail (by simp)) ((free_unread tail).bind fun _ => free_pure v)

/-- A number of one size is told by its first byte. -/
theorem free_takeFloat (first : UInt8) (want : String) (view : Item → Except Fault α) :
    Free (do
      let (b, _) ← peek op key
      if b ≠ first then unexpected op key want b else next op key view) :=
  (free_peek op key).bind fun (b, _) => (free_unexpected op key want b).ite (free_next op key view)

theorem free_takeArrayHead : Free (takeArrayHead op key) := by
  refine (free_expect op key .array _).bind fun _ => (free_peekHead op key).bind fun (h, rest) => ?_
  refine Free.ite (free_fail (by simp)) (free_get.bind fun _ => Free.ite (free_fail (by simp)) ?_)
  exact (free_unread rest).bind fun _ => free_pure _

theorem free_skipMany (n : Nat) : Free (skipMany op key n) := by
  induction n with
  | zero => exact free_pure ()
  | succ n ih => exact (free_next op key _).bind fun _ => ih

theorem free_takeNumber (f : Field) (s : Slot) (limit : Nat) (refused : Nat → Detail) : Free (takeNumber op f s limit refused) :=
  (free_takeUnsigned op f.key).bind fun _ => Free.ite (free_throw (by simp)) (free_pure _)

theorem free_paired {take : Text → Text → Decode α} (h : ∀ op key, Free (take op key)) : Free (paired op key take) :=
  (free_takeKey op key).bind fun _ => h op key

theorem free_leave : Free leave :=
  free_get.bind fun _ => Free.ite (free_fail (by simp)) (Free.ite (free_fail (by simp)) (free_emit _))

end Readers

/-! ## Readers that ask -/

section Strings

variable {d : Decoder} {i : Item} {rest : List UInt8} {op key : Text}

theorem settles_charge (d : Decoder) (op key : Text) (n : Int64) : Settles d ((charge op key n).run.run d) (some n.toInt) := by
  have hword : Int64.ofInt n.toInt = n := Int64.ofInt_toInt n
  rw [charge, (gives_get d).run_bind]
  dsimp only
  split_ifs with hexceeds
  · have hexceeds' : d.Exceeds n.toInt := by
      unfold Exceeds
      rwa [hword]
    exact .refused rfl hexceeds' rfl rfl rfl
  · refine .granted rfl ?_ ?_ fun err herr => by cases herr
    · unfold Exceeds
      rwa [hword]
    · rw [hword]
      rfl

/-- The charge of a string, whose length is below 2^63 only where the request is. -/
theorem settles_chargeNat (d : Decoder) (op key : Text) (n : Nat) :
    Settles d ((charge op key (Int64.ofNat n)).run.run d) (some (n : Int)) := by
  have h := settles_charge d op key (Int64.ofNat n)
  have hword : Int64.ofInt (Int64.ofNat n).toInt = Int64.ofInt (n : Int) := Int64.ofInt_toInt _
  have hexceeds : ∀ k : Int, Int64.ofInt k = Int64.ofInt (n : Int) → (d.Exceeds k ↔ d.Exceeds n) := by
    intro k hk
    unfold Exceeds
    rw [hk]
  generalize (Int64.ofNat n).toInt = k at h hword
  generalize hrequest : some k = request? at h
  cases h with
  | free => cases hrequest
  | granted options room allocated code =>
    cases hrequest
    exact .granted options (fun h => room ((hexceeds k hword).2 h)) (hword ▸ allocated) code
  | refused options exceeds allocated result code =>
    cases hrequest
    exact .refused options ((hexceeds k hword).1 exceeds) allocated result code

theorem Faces.stringRequest?_eq (h : Faces d i rest) (kind : StringKind) (extra : Nat) :
    d.stringRequest? kind extra =
      if i.major = kind.major ∧ i.content ≠ [] ∧ (i.head.width = none → kind = .text → i.text.isOk = true) then
        some ((i.content.length + extra : Nat) : Int)
      else none := by
  rw [stringRequest?, h.unread, h.within.read_encode rest]

/-- The view of an item that a reader of strings has is refused only for text that is not UTF-8. -/
structure StringView {α : Type} (kind : StringKind) (view : Item → Except Fault α) (bytes : α → List UInt8) : Prop where
  ok : ∀ i : Item, i.major = kind.major → (kind = .text → i.text.isOk = true) → ∃ a, view i = .ok a ∧ bytes a = i.content
  error : ∀ i : Item, kind = .text → i.text.isOk = false → ∃ f, view i = .error f

variable {α : Type} {kind : StringKind} {view : Item → Except Fault α} {bytes : α → List UInt8} {extra : Nat} {want : String}

/-- What is no string of the kind is not charged. -/
theorem Faces.settles_other (h : Faces d i rest) (hmajor : i.major ≠ kind.major) :
    Settles d ((takeString op key kind want extra view bytes).run.run d) none := by
  obtain ⟨err, d', hrun, -⟩ := h.expect_fails hmajor op key want
  rw [takeString, Decoder.chargeString, bind_assoc]
  refine (free_expect op key kind.major want).then (fun _ d'' hgives => ?_) fun _ _ _ => rfl
  cases hrun.symm.trans hgives

/-- A string of definite length is charged before it is read. -/
theorem Faces.settles_string {w : Width} {content : List UInt8} (h : Faces d (.string kind w content) rest) :
    Settles d ((takeString op key kind want extra view bytes).run.run d)
      (if content ≠ [] then some ((content.length + extra : Nat) : Int) else none) := by
  have hread : Free (Decoder.next op key view >>= fun a => if false = true ∧ (!(bytes a).isEmpty) = true then do
      charge op key (Int64.ofNat ((bytes a).length + extra)); pure a else pure a) := by
    refine (free_next op key view).bind fun a => ?_
    simp only [Bool.false_eq_true, false_and, if_false]
    exact free_pure a
  unfold takeString
  split_ifs with hempty
  · have hcharge := settles_chargeNat d op key (content.length + extra)
    have heq : (Decoder.chargeString op key kind want extra).run.run d = _ :=
      h.chargeString_eq_charge (List.length_pos_iff.2 hempty) op key want
    rw [run_bind, heq, ← run_bind, bind_assoc]
    refine hcharge.then fun _ => ?_
    rw [pure_bind]
    exact hread
  · obtain rfl := not_not.1 hempty
    have hexpect : Gives (Decoder.expect op key kind.major want) d () d := h.expect op key want
    have hcharge : Gives (Decoder.chargeString op key kind want extra) d false d :=
      hexpect.bind ((h.peekHead op key).bind (gives_pure false d))
    rw [hcharge.run_bind]
    exact hread d

/-- A string in chunks is charged after it is read. -/
theorem Faces.settles_chunks {pieces : List (Width × List UInt8)} (h : Faces d (.chunks kind pieces) rest)
    (hview : StringView kind view bytes) :
    Settles d ((takeString op key kind want extra view bytes).run.run d)
      (if (Item.chunks kind pieces).content ≠ [] ∧ (kind = .text → (Item.chunks kind pieces).text.isOk = true) then
        some (((Item.chunks kind pieces).content.length + extra : Nat) : Int)
      else none) := by
  unfold takeString
  rw [(h.chargeString_chunks op key want).run_bind]
  by_cases htext : kind = .text → (Item.chunks kind pieces).text.isOk = true
  · obtain ⟨a, ha, hbytes⟩ := hview.ok _ rfl htext
    rw [if_congr (and_iff_left htext) rfl rfl, (h.next ha op key).run_bind, hbytes]
    cases (Item.chunks kind pieces).content with
    | nil => exact (free_pure a { d with unread := rest }).before rfl rfl
    | cons b tail =>
      have hcharge := settles_chargeNat { d with unread := rest } op key ((b :: tail).length + extra)
      simp only [List.isEmpty_cons, Bool.not_false, and_self, if_true, ne_eq, reduceCtorEq, not_false_eq_true]
      exact (hcharge.then fun _ => free_pure a).before rfl rfl
  · rw [if_neg fun hall => htext hall.2]
    push Not at htext
    obtain ⟨rfl, hnot⟩ := htext
    obtain ⟨f, hf⟩ := hview.error _ rfl (Bool.eq_false_of_not_eq_true hnot)
    obtain ⟨err, d', hrun, -⟩ := h.next_fails hf op key
    refine (free_next op key view).then (fun _ d'' hgives => ?_) fun _ _ _ => rfl
    cases hrun.symm.trans hgives

theorem Faces.settles_takeString (h : Faces d i rest) (hview : StringView kind view bytes) :
    Settles d ((takeString op key kind want extra view bytes).run.run d) (d.stringRequest? kind extra) := by
  rw [h.stringRequest?_eq]
  by_cases hmajor : i.major = kind.major
  · rcases eq_string_or_chunks hmajor with ⟨w, content, rfl⟩ | ⟨pieces, rfl⟩
    · simpa [hmajor, head, Item.content] using h.settles_string
    · simpa [hmajor, head] using h.settles_chunks hview
  · rw [if_neg fun hall => hmajor hall.1]
    exact h.settles_other hmajor

/-- Where nothing is left to read, no string asks for anything. -/
theorem settles_takeString (hd : WholeItems d.unread) (hview : StringView kind view bytes) :
    Settles d ((takeString op key kind want extra view bytes).run.run d) (d.stringRequest? kind extra) := by
  rcases eq_nil_or_faces hd with hnil | ⟨i, rest, h⟩
  · have hpeek : (expect op key kind.major want).run.run d =
        (fail { code := .malformedInput, op, key, detail := .endOfMap } : Decode Unit).run.run d := by
      rw [expect, peek, bind_assoc, (gives_get d).run_bind, hnil]
      rfl
    have hrequest : d.stringRequest? kind extra = none := by
      rw [stringRequest?, hnil]
      rfl
    rw [hrequest, takeString, chargeString, bind_assoc]
    refine (free_expect op key kind.major want).then (fun a d'' hgives => ?_) fun _ _ _ => rfl
    exact absurd (hpeek.symm.trans hgives) (not_gives_fail _)
  · exact h.settles_takeString hview

theorem stringView_text : StringView .text Item.text Text.bytes := by
  refine ⟨fun i hmajor htext => ?_, fun i _ htext => ?_⟩
  · cases ht : i.text with
    | error f =>
      have hok := htext rfl
      rw [ht] at hok
      cases hok
    | ok t => exact ⟨t, rfl, congrArg Text.bytes (Spells.content_eq (spells_iff.2 ⟨hmajor, ht⟩)).symm⟩
  · cases ht : i.text with
    | error f => exact ⟨f, rfl⟩
    | ok t =>
      rw [ht] at htext
      cases htext

theorem stringView_bytes : StringView .bytes (fun i : Item => .ok i.content) id :=
  ⟨fun i _ _ => ⟨i.content, rfl, rfl⟩, fun i hkind => by cases hkind⟩

end Strings

/-! ## Calls -/

variable {d : Decoder}

theorem settles_takeValue (hd : WholeItems d.unread) (op : Text) (f : Field) :
    Settles d ((takeValue op f).run.run d) ((Call.value f).request? d) := by
  obtain ⟨key, binding, checked⟩ := f
  cases binding with
  | unbound t => exact free_fail (by simp) d
  | bound s =>
    cases s with
    | simple v => exact (free_takeSimple op key).bind (fun _ => free_pure _) d
    | float32 bits => exact (free_takeFloat op key 0xfa "float32" _).bind (fun _ => free_pure _) d
    | float64 bits => exact (free_takeFloat op key 0xfb "float64" _).bind (fun _ => free_pure _) d
    | string v => exact (settles_takeString hd stringView_text).then fun _ => free_pure _
    | bytes v => exact (settles_takeString hd stringView_bytes).then fun _ => free_pure _
    | _ => exact free_takeNumber op _ _ _ _ d

/-- A string after its key. -/
theorem settles_paired {α : Type} {take : Text → Text → Decode α} {kind : StringKind} {extra : Nat} (hd : WholeItems d.unread)
    (htake : ∀ {d : Decoder} op key, WholeItems d.unread → Settles d ((take op key).run.run d) (d.stringRequest? kind extra))
    (op key : Text) {request? : Option Int}
    (hrequest : request? = match (takeKey op key).run.run d with
      | (.ok _, d) => d.stringRequest? kind extra
      | (.error _, _) => none) : Settles d ((paired op key take).run.run d) request? := by
  refine (free_takeKey op key).then (fun k d' hgives => ?_) fun err d' hrun => ?_
  · rw [hrequest, hgives]
    exact htake op key ((sound_takeKey hd op key).gives hgives).whole
  · rw [hrequest, hrun]

/-- Every call does to the counter what its request says. -/
theorem settles_step (hd : WholeItems d.unread) (call : Call) : Settles d ((step call).run.run d) (call.request? d) := by
  cases call with
  | key => exact (free_takeKey _ _).bind (fun _ => free_pure _) d
  | tolerantKey => exact (free_takeTolerantKey _).bind (fun _ => free_pure _) d
  | skip key => exact (free_next _ key _).bind (fun _ => free_pure _) d
  | skipUnknown key => exact (free_skipUnknown _ key).bind (fun _ => free_pure _) d
  | skipElements n => exact (free_skipMany _ _ n).bind (fun _ => free_pure _) d
  | charge key n => exact (settles_charge d _ key n).then fun _ => free_pure _
  | uint8 key | uint16 key | uint32 key | uint64 key | bool key =>
    exact (free_paired _ key free_takeUnsigned).bind (fun _ => free_pure _) d
  | simple key => exact (free_paired _ key free_takeSimple).bind (fun _ => free_pure _) d
  | float32 key => exact (free_paired _ key fun op key => free_takeFloat op key 0xfa "float32" _).bind (fun _ => free_pure _) d
  | float64 key => exact (free_paired _ key fun op key => free_takeFloat op key 0xfb "float64" _).bind (fun _ => free_pure _) d
  | text key => exact (settles_paired hd (fun _ _ h => settles_takeString h stringView_text) _ key rfl).then fun _ => free_pure _
  | bytes key => exact (settles_paired hd (fun _ _ h => settles_takeString h stringView_bytes) _ key rfl).then fun _ => free_pure _
  | arrayHead key => exact (free_paired _ key free_takeArrayHead).bind (fun _ => free_pure _) d
  | arrayValue key => exact (free_takeArrayHead _ key).bind (fun _ => free_pure _) d
  | nextFloat64 => exact (free_takeFloat _ _ 0xfb "float64" _).bind (fun _ => free_pure _) d
  | nextFloat32 => exact (free_takeFloat _ _ 0xfa "float32" _).bind (fun _ => free_pure _) d
  | nextUInt64 => exact (free_takeUnsigned _ _).bind (fun _ => free_pure _) d
  | value f => exact (settles_takeValue hd _ f).then fun _ => free_pure _
  | leave => exact free_leave.bind (fun _ => free_pure _) d

/-! ## How much is asked for -/

/-- A string asks for no more than it has bytes on the wire. -/
theorem stringRequest?_le {kind : StringKind} {extra : Nat} {n : Int} (hextra : extra ≤ 1) (h : d.stringRequest? kind extra = some n) :
    0 ≤ n ∧ n ≤ d.unread.length := by
  unfold stringRequest? at h
  split at h
  · cases h
  · rename_i i rest hread
    split_ifs at h
    obtain ⟨hunread, -⟩ := read_eq_ok_iff.1 hread
    have hcontent := i.length_content_lt
    have hlength : d.unread.length = i.encode.length + rest.length := by rw [hunread, List.length_append]
    obtain rfl := Option.some.inj h
    omega

/-- After its key a string asks for no more than is unread. -/
theorem pairedRequest?_le {op key : Text} {kind : StringKind} {extra : Nat} {n : Int} (hextra : extra ≤ 1)
    (h : (match (takeKey op key).run.run d with
      | (.ok _, d) => d.stringRequest? kind extra
      | (.error _, _) => none) = some n) : 0 ≤ n ∧ n ≤ d.unread.length := by
  rcases hkey : (takeKey op key).run.run d with ⟨err | k, d'⟩
  · rw [hkey] at h
    cases h
  · rw [hkey] at h
    obtain ⟨hnonneg, hle⟩ := stringRequest?_le hextra h
    obtain ⟨i, rest, hi, -, -, rfl⟩ := Gives.of_takeKey hkey
    have hlength : d.unread.length = i.encode.length + rest.length := by rw [hi.unread, List.length_append]
    refine ⟨hnonneg, hle.trans ?_⟩
    simp only
    omega

/-- What is asked for is what the call says, or the length of a string that is unread. -/
theorem request?_cases {call : Call} {n : Int} (h : call.request? d = some n) :
    (∃ key m, call = .charge key m ∧ n = m.toInt) ∨ 0 ≤ n ∧ n ≤ d.unread.length := by
  cases call with
  | charge key m => exact Or.inl ⟨key, m, rfl, (Option.some.inj h).symm⟩
  | text key => exact Or.inr (pairedRequest?_le (Nat.le_refl 1) h)
  | bytes key => exact Or.inr (pairedRequest?_le (Nat.zero_le 1) h)
  | value f =>
    simp only [Call.request?] at h
    split at h
    · exact Or.inr (stringRequest?_le (Nat.le_refl 1) h)
    · exact Or.inr (stringRequest?_le (Nat.zero_le 1) h)
    · cases h
  | _ => cases h

/-! ## Runs -/

/-- The decoder after a call, however the call ended. -/
def after (d : Decoder) (call : Call) : Decoder := ((step call).run.run d).2

/-- Whether a call fails for the budget. -/
def isRefused (d : Decoder) (call : Call) : Bool :=
  match ((step call).run.run d).1 with
  | .error err => err.code == .allocationFailure
  | .ok _ => false

/-- The amount that a call was granted. -/
def grant? (d : Decoder) (call : Call) : Option Int := if d.isRefused call then none else call.request? d

/-- The amounts that were granted along a run, the first one first. -/
def grants (d : Decoder) : List Call → List Int
  | [] => []
  | call :: calls => (d.grant? call).toList ++ (d.after call).grants calls

/-- The counter is between zero and the limit, and it is the sum of what was granted. -/
structure InBudget (limit : Int64) (granted : List Int) (d : Decoder) : Prop where
  nonneg : 0 ≤ d.allocated.toInt
  within : d.allocated.toInt ≤ limit.toInt
  exact : d.allocated.toInt = granted.sum

theorem run_concat (d : Decoder) (prior : List Call) (call : Call) : d.run (prior ++ [call]) = (d.run prior).after call := by
  simp [run, after]

theorem grants_concat (d : Decoder) (prior : List Call) (call : Call) :
    d.grants (prior ++ [call]) = d.grants prior ++ ((d.run prior).grant? call).toList := by
  induction prior generalizing d with
  | nil => simp [grants, run]
  | cons first prior ih =>
    have hrun : d.run (first :: prior) = (d.after first).run prior := rfl
    rw [List.cons_append, grants, ih, grants, hrun, List.append_assoc]

/-- Sums below 2^63 are those of whole numbers. -/
theorem toInt_add_ofInt {a : Int64} {n : Int} (ha : 0 ≤ a.toInt) (hn : 0 ≤ n) (hsum : a.toInt + n < 2 ^ 63) :
    (a + Int64.ofInt n).toInt = a.toInt + n := by
  rw [Int64.toInt_add, Int64.toInt_ofInt_of_le (by omega) (by omega)]
  exact Int.bmod_eq_of_le (by omega) (by omega)

/-- From 2^63 on the sum of two words that are not negative is negative. -/
theorem toInt_add_ofInt_neg {a : Int64} {n : Int} (hn : n < 2 ^ 63) (hsum : 2 ^ 63 ≤ a.toInt + n) : (a + Int64.ofInt n).toInt < 0 := by
  have ha := a.toInt_lt
  rw [Int64.toInt_add, Int64.toInt_ofInt_of_le (by omega) (by omega), Int.bmod_def]
  omega

section Runs

variable {limit : Int64} {granted : List Int} {call : Call}

/-- One call that keeps the sum below 2^63. -/
theorem InBudget.after (h : InBudget limit granted d) (hd : WholeItems d.unread) (hlimit : d.options.allocLimit = limit) (hpos : 0 < limit)
    (hrequest : ∀ n, call.request? d = some n → 0 ≤ n ∧ d.allocated.toInt + n < 2 ^ 63) :
    InBudget limit (granted ++ (d.grant? call).toList) (d.after call) := by
  have hsettles := settles_step hd call
  unfold grant? isRefused Decoder.after
  generalize (step call).run.run d = r at hsettles ⊢
  generalize call.request? d = request? at hsettles hrequest ⊢
  cases hsettles with
  | free _ allocated =>
    simp only [ite_self, Option.toList_none, List.append_nil]
    exact ⟨allocated ▸ h.nonneg, allocated ▸ h.within, allocated ▸ h.exact⟩
  | @granted n _ room allocated code =>
    obtain ⟨hnonneg, hsum⟩ := hrequest n rfl
    have htotal : r.2.allocated.toInt = d.allocated.toInt + n := allocated ▸ toInt_add_ofInt h.nonneg hnonneg hsum
    have hwithin : d.allocated.toInt + n ≤ limit.toInt := by
      rw [Exceeds, hlimit, and_iff_right hpos, Int64.lt_iff_toInt_lt, toInt_add_ofInt h.nonneg hnonneg hsum] at room
      exact not_lt.1 room
    have hanswer : (match r.1 with
        | .error err => err.code == .allocationFailure
        | .ok _ => false) = false := by
      cases hr : r.1 with
      | error err => simpa using code err hr
      | ok a => rfl
    rw [hanswer, if_neg Bool.false_ne_true, Option.toList_some]
    have hnonneg' := h.nonneg
    refine ⟨by omega, htotal ▸ hwithin, ?_⟩
    rw [htotal, h.exact, List.sum_append, List.sum_singleton]
  | refused _ exceeds allocated result code =>
    rw [result]
    simp only [code, beq_self_eq_true, if_true, Option.toList_none, List.append_nil]
    exact ⟨allocated ▸ h.nonneg, allocated ▸ h.within, allocated ▸ h.exact⟩

/-- A call that takes the sum to 2^63 is granted, and the counter is negative after it. -/
theorem InBudget.wraps (h : InBudget limit granted d) (hd : WholeItems d.unread) (hlimit : d.options.allocLimit = limit) {n : Int}
    (hrequest : call.request? d = some n) (hn : n < 2 ^ 63) (hsum : 2 ^ 63 ≤ d.allocated.toInt + n) :
    (d.after call).allocated.toInt < 0 := by
  have hneg := toInt_add_ofInt_neg hn hsum
  have hsettles := settles_step hd call
  rw [hrequest] at hsettles
  unfold Decoder.after
  generalize (step call).run.run d = r at hsettles ⊢
  generalize hsome : some n = request? at hsettles
  cases hsettles with
  | free => cases hsome
  | granted _ _ allocated =>
    cases hsome
    rw [allocated]
    exact hneg
  | refused _ exceeds =>
    -- a negative sum is below the limit, which the counter itself is not above
    cases hsome
    have hlt := Int64.lt_iff_toInt_lt.1 exceeds.2
    have hle := h.nonneg.trans h.within
    rw [hlimit] at hlt
    omega

end Runs

theorem options_after (hd : WholeItems d.unread) (call : Call) : (d.after call).options = d.options := by
  have hsettles := settles_step hd call
  unfold after
  generalize call.request? d = request? at hsettles
  cases hsettles with
  | free options => exact options
  | granted options => exact options
  | refused options => exact options

theorem options_run (hd : WholeItems d.unread) (calls : List Call) : (d.run calls).options = d.options := by
  induction calls using List.reverseRecOn with
  | nil => rfl
  | append_singleton calls call ih => rw [run_concat, options_after (advances_run calls hd).whole, ih]

variable {options : Options} {expected : Option Int} {data : List UInt8} {calls : List Call}

/-- If every call that is made in the budget keeps the sum below 2^63, the run stays in the budget. -/
theorem inBudget_run (h : enter options expected data = (.ok (), d)) (hpos : 0 < options.allocLimit)
    (hcalls : ∀ prior call n, prior ++ [call] <+: calls → InBudget options.allocLimit (d.grants prior) (d.run prior) →
      call.request? (d.run prior) = some n → 0 ≤ n ∧ (d.run prior).allocated.toInt + n < 2 ^ 63) :
    InBudget options.allocLimit (d.grants calls) (d.run calls) := by
  have hwhole := wholeItems_of_enter h
  obtain ⟨w, pairs, rest, -, -, rfl⟩ := eq_inside_of_enter h
  induction calls using List.reverseRecOn with
  | nil => exact ⟨le_refl _, (Int64.lt_iff_toInt_lt.1 hpos).le, rfl⟩
  | append_singleton calls call ih =>
    have hbefore := ih fun prior call' n hprior => hcalls prior call' n (hprior.trans (List.prefix_append _ _))
    have hlimit := congrArg Options.allocLimit (options_run hwhole calls)
    rw [grants_concat, run_concat]
    exact hbefore.after (advances_run calls hwhole).whole hlimit hpos fun n => hcalls calls call n (List.prefix_refl _) hbefore

/-- Requests along a run of charges that are not negative: each is one of the charges, or fits in the input. -/
theorem request?_run_cases (h : enter options expected data = (.ok (), d)) (hcharges : ∀ key n, Call.charge key n ∈ calls → 0 ≤ n)
    {prior : List Call} {call : Call} {n : Int} (hprior : prior ++ [call] <+: calls) (hn : call.request? (d.run prior) = some n) :
    0 ≤ n ∧ ((∃ key m, Call.charge key m ∈ calls ∧ n = m.toInt) ∨ n ≤ data.length) := by
  rcases request?_cases hn with ⟨key, m, rfl, rfl⟩ | ⟨hnonneg, hle⟩
  · have hmem : Call.charge key m ∈ calls := hprior.subset (List.mem_append_right _ (List.mem_singleton_self _))
    exact ⟨Int64.le_iff_toInt_le.1 (hcharges key m hmem), Or.inl ⟨key, m, hmem, rfl⟩⟩
  · have hunread : (d.run prior).unread.length ≤ data.length := by
      have hsuffix := (advances_run prior (wholeItems_of_enter h)).unread.length_le
      obtain ⟨w, pairs, rest, rfl, -, rfl⟩ := eq_inside_of_enter h
      refine hsuffix.trans ?_
      simp only [inside, Item.encode, List.length_append]
      omega
    exact ⟨hnonneg, Or.inr (by omega)⟩

/-- The counter of a run that starts with a whole map stays between zero and the limit, equal to the sum of what was granted, exactly if no
call asks for so much that the sum reaches 2^63. That is so for every run if the limit leaves room in the word for the input and for
every charge. -/
theorem counter_within_limit_iff (h : enter options expected data = (.ok (), d)) (hpos : 0 < options.allocLimit)
    (hlen : data.length < 2 ^ 63) (hcharges : ∀ key n, Call.charge key n ∈ calls → 0 ≤ n) :
    ((∀ prior, prior <+: calls → InBudget options.allocLimit (d.grants prior) (d.run prior)) ↔
      ∀ prior call n, prior ++ [call] <+: calls → call.request? (d.run prior) = some n → (d.run prior).allocated.toInt + n < 2 ^ 63) ∧
    (options.allocLimit.toInt + data.length < 2 ^ 63 →
      (∀ key n, Call.charge key n ∈ calls → options.allocLimit.toInt + n.toInt < 2 ^ 63) →
      ∀ prior, prior <+: calls → InBudget options.allocLimit (d.grants prior) (d.run prior)) := by
  have hwhole := wholeItems_of_enter h
  have hlimit : d.options.allocLimit = options.allocLimit := by
    obtain ⟨w, pairs, rest, -, -, rfl⟩ := eq_inside_of_enter h
    rfl
  refine ⟨⟨fun hin prior call n hprior hn => ?_, fun hsums prior hprior => ?_⟩, fun hroom hrooms prior hprior => ?_⟩
  · -- a request past the word would have left the counter negative
    by_contra hsum
    have hword : n < 2 ^ 63 := by
      rcases (request?_run_cases h hcharges hprior hn).2 with ⟨key, m, -, rfl⟩ | hle
      · exact m.toInt_lt
      · omega
    have hbefore := hin prior ((List.prefix_append _ _).trans hprior)
    have hneg := hbefore.wraps (advances_run prior hwhole).whole ((congrArg _ (options_run hwhole prior)).trans hlimit) hn hword
      (not_lt.1 hsum)
    have hafter := (hin _ hprior).nonneg
    rw [run_concat] at hafter
    omega
  · refine inBudget_run h hpos fun prior' call n hprior' _ hn => ?_
    have hrun := hprior'.trans hprior
    exact ⟨(request?_run_cases h hcharges hrun hn).1, hsums prior' call n hrun hn⟩
  · refine inBudget_run h hpos fun prior' call n hprior' hin hn => ?_
    obtain ⟨hnonneg, ⟨key, m, hmem, rfl⟩ | hle⟩ := request?_run_cases h hcharges (hprior'.trans hprior) hn
    · have hcharge := hrooms key m hmem
      have hwithin := hin.within
      exact ⟨hnonneg, by omega⟩
    · have hwithin := hin.within
      exact ⟨hnonneg, by omega⟩

/-- The limit is 100, and ten bytes are granted. A request for the largest amount is granted too, and the counter is negative; a
request for 91 bytes would have failed and left ten. -/
theorem counter_wraps_within_limit :
    ∃ d, enter { allocLimit := 100 } none [0xa0] = (.ok (), d) ∧
      (d.run [.charge "k" 10, .charge "k" Int64.maxValue]).allocated = -9223372036854775799 ∧
      d.grants [.charge "k" 10, .charge "k" Int64.maxValue] = [10, 9223372036854775807] ∧
      (¬∀ prior, prior <+: [.charge "k" 10, .charge "k" Int64.maxValue] → InBudget 100 (d.grants prior) (d.run prior)) ∧
      ∀ prior, prior <+: [.charge "k" 10, .charge "k" 91] → InBudget 100 (d.grants prior) (d.run prior) := by
  have henter : enter { allocLimit := 100 } none [0xa0] = (.ok (), inside { allocLimit := 100 } .inline [] 0) := rfl
  have hlast : Int64.maxValue.toInt = 9223372036854775807 := by decide +kernel
  refine ⟨_, henter, by decide +kernel, by decide +kernel, fun hin => ?_, ?_⟩
  · have hcharges : ∀ key n, Call.charge key n ∈ [Call.charge "k" 10, Call.charge "k" Int64.maxValue] → 0 ≤ n := by
      intro key n hn
      simp only [List.mem_cons, Call.charge.injEq, List.not_mem_nil, or_false] at hn
      rcases hn with ⟨-, rfl⟩ | ⟨-, rfl⟩ <;> decide
    have hsum := (counter_within_limit_iff henter (by decide) (by decide) hcharges).1.1 hin [.charge "k" 10] (.charge "k" Int64.maxValue)
      9223372036854775807 (List.prefix_refl _) (by decide +kernel)
    have hten : ((inside { allocLimit := 100 } .inline [] 0).run [.charge "k" 10]).allocated.toInt = 10 := by decide +kernel
    rw [hten] at hsum
    omega
  · have hcharges : ∀ key n, Call.charge key n ∈ [Call.charge "k" 10, Call.charge "k" 91] → 0 ≤ n ∧ (100 : Int64).toInt + n.toInt < 2 ^ 63 := by
      intro key n hn
      simp only [List.mem_cons, Call.charge.injEq, List.not_mem_nil, or_false] at hn
      rcases hn with ⟨-, rfl⟩ | ⟨-, rfl⟩ <;> decide
    exact (counter_within_limit_iff henter (by decide) (by decide) fun key n hn => (hcharges key n hn).1).2 (by decide)
      fun key n hn => (hcharges key n hn).2

end Decoder

end SensorWire
