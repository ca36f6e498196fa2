import SensorWire.Bytes

/-!
# Zstandard frames

A compressed log is a sequence of frames, each with a header and blocks of at most 128 KiB. Blocks are written as they are, which the
format allows; blocks that repeat one byte are read too. A frame that is not finished gives its content and then a fault, so that
a log survives the loss of its end.
-/

namespace SensorWire.Zstd

/-- What is wrong with bytes that should be frames. -/
inductive Fault where
  | truncated
  | notAFrame
  | oversized
  | reserved
  | unsupported
  deriving DecidableEq, Repr

namespace Fault

/-- The text of a fault. -/
def message : Fault → String
  | truncated => "unexpected EOF"
  | notAFrame => "invalid input: magic number mismatch"
  | oversized => "window size exceeded"
  | reserved => "invalid input: reserved block type encountered"
  | unsupported => "unsupported block type"

end Fault

/-- The bytes that a frame starts with. -/
def magic : List UInt8 := [0x28, 0xb5, 0x2f, 0xfd]

/-- The header of a frame with a window of 8 MiB and no checksum. -/
def header : List UInt8 := magic ++ [0x00, 0x68]

/-- The greatest number of bytes of a block. -/
def blockLimit : Nat := 131072

/-- The header of a block of bytes as they are. -/
def blockHeader (last : Bool) (size : Nat) : List UInt8 :=
  littleEndian 3 (8 * size + (if last then 1 else 0))

/-- Bytes as blocks that are not the last ones, with as much fuel as there are bytes. -/
def blocksWithin : (fuel : Nat) → List UInt8 → List UInt8
  | 0, _ => []
  | fuel + 1, data =>
    if data.isEmpty then []
    else
      let content := data.take blockLimit
      blockHeader false content.length ++ content ++ blocksWithin fuel (data.drop blockLimit)

/-- Bytes as blocks that are not the last ones. -/
def blocks (data : List UInt8) : List UInt8 := blocksWithin data.length data

/-- The empty block that ends a frame. -/
def ending : List UInt8 := blockHeader true 0

/-! ## Reading -/

/-- The content of one block, and the bytes after it. -/
def blockContent (kind size : Nat) (data : List UInt8) : Except Fault (List UInt8 × List UInt8) :=
  match kind with
  | 0 => if blockLimit < size then .error .oversized else match splitExact size data with
    | some split => .ok split
    | none => .error .truncated
  | 1 => if blockLimit < size then .error .oversized else match data with
    | b :: rest => .ok (List.replicate size b, rest)
    | [] => .error .truncated
  | 2 => .error .unsupported
  | _ => .error .reserved

/-- The content of the blocks of a frame, and the bytes after them; each block takes fuel. -/
def readBlocks : (fuel : Nat) → List UInt8 → List UInt8 × Except Fault (List UInt8)
  | fuel + 1, a :: b :: c :: data =>
    let n := ofLittleEndian [a, b, c]
    match blockContent (n / 2 % 4) (n / 8) data with
    | .error f => ([], .error f)
    | .ok (content, rest) =>
      if n % 2 = 1 then (content, .ok rest)
      else
        let (more, result) := readBlocks fuel rest
        (content ++ more, result)
  | _, _ => ([], .error .truncated)

/-- The sizes of the parts of a header after its first byte, which describes them. -/
def headerSize (descriptor : Nat) : Nat :=
  let single := descriptor / 32 % 2 = 1
  let window := if single then 0 else 1
  let dictionary := match descriptor % 4 with
    | 3 => 4
    | n => n
  let content := match descriptor / 64 % 4 with
    | 0 => if single then 1 else 0
    | 1 => 2
    | 2 => 4
    | _ => 8
  window + dictionary + content

/-- Whether four bytes begin a frame that holds no content, and says so. -/
def isSkippable (a b c d : UInt8) : Bool := a / 16 == 5 && b == 0x2a && c == 0x4d && d == 0x18

/-- The content of frames, and what is wrong with the bytes after it; each frame takes fuel. -/
def readWithin : (fuel : Nat) → List UInt8 → List UInt8 × Option Fault
  | 0, _ => ([], some .truncated)
  -- a single byte at the end is passed over
  | _, [] | _, [_] => ([], none)
  | fuel + 1, a :: b :: c :: d :: data =>
    if isSkippable a b c d then
      match data with
      | p :: q :: r :: s :: data =>
        match splitExact (ofLittleEndian [p, q, r, s]) data with
        | some (_, rest) => readWithin fuel rest
        | none => ([], some .truncated)
      | _ => ([], some .truncated)
    else if [a, b, c, d] ≠ magic then ([], some .notAFrame)
    else match data with
      | [] => ([], some .truncated)
      | descriptor :: data =>
        let flags := descriptor.toNat
        match splitExact (headerSize flags) data with
        | none => ([], some .truncated)
        | some (_, data) => match readBlocks data.length data with
          | (content, .error f) => (content, some f)
          | (content, .ok rest) =>
            match splitExact (if flags / 4 % 2 = 1 then 4 else 0) rest with
            | none => (content, some .truncated)
            | some (_, rest) =>
              let (more, fault) := readWithin fuel rest
              (content ++ more, fault)
  | _, _ => ([], some .truncated)

/-- The content of the frames that bytes are, and what is wrong with the bytes after it. -/
def read (data : List UInt8) : List UInt8 × Option Fault := readWithin (data.length + 1) data

end SensorWire.Zstd
