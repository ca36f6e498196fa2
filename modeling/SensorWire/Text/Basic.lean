/-!
# Text

Text in a message is a sequence of bytes. It is meant to be UTF-8, and usually is, but a message may hold any bytes in a text
field, so the codec and everything it prints carry bytes and leave the check to the places that make one. Literals are written as
strings and coerce.
-/

namespace SensorWire

/-- A piece of text: its bytes, in UTF-8 when they are well formed. -/
structure Text where
  bytes : List UInt8
  deriving DecidableEq, Inhabited, Repr

namespace Text

/-! ## Building -/

/-- The UTF-8 bytes of a string. -/
def ofString (s : String) : Text := ⟨s.toByteArray.data.toList⟩

instance : Coe String Text := ⟨ofString⟩

/-- The UTF-8 bytes of a list of characters. -/
def ofChars (cs : List Char) : Text := ⟨cs.flatMap String.utf8EncodeChar⟩

/-- The text without bytes. -/
def empty : Text := ⟨[]⟩

instance : EmptyCollection Text := ⟨empty⟩

instance : Append Text := ⟨fun a b => ⟨a.bytes ++ b.bytes⟩⟩

@[simp] theorem bytes_append (a b : Text) : (a ++ b).bytes = a.bytes ++ b.bytes := rfl

/-- The pieces one after the other. -/
def concat (pieces : List Text) : Text := ⟨pieces.flatMap bytes⟩

/-- The pieces with a separator between each two. -/
def join (sep : Text) : List Text → Text
  | [] => empty
  | [t] => t
  | t :: rest => t ++ sep ++ join sep rest

/-- A piece repeated. -/
def repeated (n : Nat) (t : Text) : Text := concat (List.replicate n t)

/-- The decimal digits of a natural number. -/
def ofNat (n : Nat) : Text := ofString (toString n)

/-- The decimal digits of an integer, with a minus sign when it is negative. -/
def ofInt (n : Int) : Text := ofString (toString n)

/-! ## Measuring and comparing -/

/-- The number of bytes. -/
def length (t : Text) : Nat := t.bytes.length

/-- Whether there are no bytes. -/
def isEmpty (t : Text) : Bool := t.bytes.isEmpty

/-- Byte order of two lists of bytes, a proper start of a list coming before it. -/
def bytesLe : List UInt8 → List UInt8 → Bool
  | [], _ => true
  | _ :: _, [] => false
  | a :: as, b :: bs => a < b || (a == b && bytesLe as bs)

/-- The order in which keys and names are listed: by bytes. -/
def le (a b : Text) : Bool := bytesLe a.bytes b.bytes

/-- A list of texts in byte order; equal ones keep their places. -/
def sort (ts : List Text) : List Text := ts.mergeSort le

/-! ## Taking apart -/

/-- What follows `p` at the start of `l`. -/
def afterStart? : (p l : List UInt8) → Option (List UInt8)
  | [], l => some l
  | _ :: _, [] => none
  | a :: p, b :: l => if a = b then afterStart? p l else none

/-- What follows `p` in `l` is what `p` is completed by. -/
theorem afterStart?_eq_some_iff {p l rest : List UInt8} : afterStart? p l = some rest ↔ l = p ++ rest := by
  induction p generalizing l with
  | nil => simp [afterStart?]
  | cons a p ih =>
    cases l with
    | nil => simp [afterStart?]
    | cons b l => by_cases h : a = b <;> simp [afterStart?, h, ih, eq_comm (a := b)]

/-- The text after a given start, if it has that start. -/
def dropStart? (t start : Text) : Option Text := (afterStart? start.bytes t.bytes).map Text.mk

/-- The text before a given ending, if it has that ending. -/
def dropEnd? (t ending : Text) : Option Text :=
  (afterStart? ending.bytes.reverse t.bytes.reverse).map fun l => ⟨l.reverse⟩

theorem dropEnd?_eq_some_iff {t ending rest : Text} : t.dropEnd? ending = some rest ↔ t = rest ++ ending := by
  obtain ⟨l⟩ := t
  obtain ⟨l'⟩ := rest
  have hreverse (x : List UInt8) : l.reverse = ending.bytes.reverse ++ x ↔ l = x.reverse ++ ending.bytes := by
    rw [← List.reverse_inj, List.reverse_append, List.reverse_reverse, List.reverse_reverse]
  simp only [dropEnd?, Option.map_eq_some_iff, afterStart?_eq_some_iff, hreverse, mk.injEq]
  constructor
  · rintro ⟨x, h, rfl⟩
    exact congrArg mk h
  · intro h
    exact ⟨l'.reverse, by rw [List.reverse_reverse]; exact congrArg bytes h, List.reverse_reverse l'⟩

/-- Whether the text begins with another. -/
def startsWith (t start : Text) : Bool := (t.dropStart? start).isSome

/-- Whether the text ends with another. -/
def endsWith (t ending : Text) : Bool := (t.dropEnd? ending).isSome

/-- The pieces between the occurrences of a byte; never the empty list. -/
def splitBytes (sep : UInt8) : List UInt8 → List (List UInt8)
  | [] => [[]]
  | b :: rest =>
    if b = sep then [] :: splitBytes sep rest
    else match splitBytes sep rest with
      | [] => [[b]]
      | piece :: pieces => (b :: piece) :: pieces

/-- The pieces between the occurrences of an ASCII character. -/
def splitOn (t : Text) (sep : Char) : List Text := (splitBytes sep.toNat.toUInt8 t.bytes).map Text.mk

/-- The text before and after the first occurrence of an ASCII character. -/
def cut? (t : Text) (sep : Char) : Option (Text × Text) :=
  let s := sep.toNat.toUInt8
  match t.bytes.dropWhile (· != s) with
  | [] => none
  | _ :: rest => some (⟨t.bytes.takeWhile (· != s)⟩, ⟨rest⟩)

/-- Whether an ASCII character occurs. -/
def hasChar (t : Text) (c : Char) : Bool := t.bytes.contains c.toNat.toUInt8

/-- Every occurrence of one ASCII character replaced by another. -/
def replaceChar (t : Text) (old new : Char) : Text :=
  ⟨t.bytes.map fun b => if b = old.toNat.toUInt8 then new.toNat.toUInt8 else b⟩

/-- The first bytes, at most `n`. -/
def take (t : Text) (n : Nat) : Text := ⟨t.bytes.take n⟩

/-- Blanks appended up to a width in characters, counted as the caller counts them. -/
def padEnd (t : Text) (length width : Nat) : Text := t ++ repeated (width - length) " "

end Text

end SensorWire
