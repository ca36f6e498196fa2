import SensorWire.Bytes

/-!
# Keyed BLAKE3

The hash of bytes under a key of 32 bytes. The input is cut into chunks of 1024 bytes, which are the leaves of a binary tree whose left
subtrees are full; each chunk is compressed block by block, and each inner node from the chaining values of its two subtrees.
-/

namespace SensorWire.Blake3

/-- The words that every compression starts from. -/
def initial : List UInt32 :=
  [0x6a09e667, 0xbb67ae85, 0x3c6ef372, 0xa54ff53a, 0x510e527f, 0x9b05688c, 0x1f83d9ab, 0x5be0cd19]

/-- The order in which the next round takes the words of a block. -/
def permutation : List Nat := [2, 6, 3, 10, 7, 0, 4, 13, 1, 11, 12, 5, 9, 14, 15, 8]

/-- The number of bytes of a block. -/
def blockSize : Nat := 64

/-- The number of bytes of a chunk. -/
def chunkSize : Nat := 1024

/-! ## Compression -/

/-- A word turned to the right. -/
def rotate (w : UInt32) (n : UInt32) : UInt32 := (w >>> n) ||| (w <<< (32 - n))

/-- Mixes two words of a block into four words of the state. -/
def quarter (s : Array UInt32) (a b c d : Nat) (x y : UInt32) : Array UInt32 :=
  let a1 := s[a]! + s[b]! + x
  let d1 := rotate (s[d]! ^^^ a1) 16
  let c1 := s[c]! + d1
  let b1 := rotate (s[b]! ^^^ c1) 12
  let a2 := a1 + b1 + y
  let d2 := rotate (d1 ^^^ a2) 8
  let c2 := c1 + d2
  let b2 := rotate (b1 ^^^ c2) 7
  (((s.set! a a2).set! b b2).set! c c2).set! d d2

/-- Mixes a block into the state: first the columns and then the diagonals. -/
def round (s m : Array UInt32) : Array UInt32 :=
  let s := quarter s 0 4 8 12 m[0]! m[1]!
  let s := quarter s 1 5 9 13 m[2]! m[3]!
  let s := quarter s 2 6 10 14 m[4]! m[5]!
  let s := quarter s 3 7 11 15 m[6]! m[7]!
  let s := quarter s 0 5 10 15 m[8]! m[9]!
  let s := quarter s 1 6 11 12 m[10]! m[11]!
  let s := quarter s 2 7 8 13 m[12]! m[13]!
  quarter s 3 4 9 14 m[14]! m[15]!

/-- So many rounds. -/
def rounds : Nat → (s m : Array UInt32) → Array UInt32
  | 0, s, _ => s
  | n + 1, s, m => rounds n (round s m) (permutation.map fun i => m[i]!).toArray

/-- What a compression takes, and with which marks. -/
structure Input where
  chain : List UInt32
  block : List UInt32
  counter : Nat := 0
  length : Nat
  flags : Nat

/-- The chaining value that a compression yields. -/
def compress (i : Input) : List UInt32 :=
  let s := (i.chain ++ initial.take 4 ++
    [UInt32.ofNat i.counter, UInt32.ofNat (i.counter / 0x100000000), UInt32.ofNat i.length, UInt32.ofNat i.flags]).toArray
  let s := rounds 7 s i.block.toArray
  (List.range 8).map fun n => s[n]! ^^^ s[n + 8]!

/-! ## Chunks and trees -/

/-- The mark of the first block of a chunk. -/
def chunkStart : Nat := 1

/-- The mark of the last block of a chunk. -/
def chunkEnd : Nat := 2

/-- The mark of an inner node. -/
def parent : Nat := 4

/-- The mark of the last compression. -/
def root : Nat := 8

/-- The mark of a hash with a key. -/
def keyed : Nat := 16

/-- Bytes as words, with the last one filled up. -/
def toWords : (count : Nat) → List UInt8 → List UInt32
  | 0, _ => []
  | count + 1, bytes => UInt32.ofNat (ofLittleEndian (bytes.take 4)) :: toWords count (bytes.drop 4)

/-- The words of a chaining value as bytes. -/
def toBytes (words : List UInt32) : List UInt8 := words.flatMap fun w => littleEndian 4 w.toNat

/-- The chaining value of the blocks of a chunk, each of which takes fuel; `marks` are those of its last block besides the usual. -/
def chunkFrom (counter marks : Nat) : (fuel : Nat) → (start : Nat) → (chain : List UInt32) → List UInt8 → List UInt32
  | 0, _, chain, _ => chain
  | fuel + 1, start, chain, bytes =>
    let block := bytes.take blockSize
    let rest := bytes.drop blockSize
    let last := if rest.isEmpty then chunkEnd + marks else 0
    let chain := compress ⟨chain, toWords 16 block, counter, block.length, keyed + start + last⟩
    if rest.isEmpty then chain else chunkFrom counter marks fuel 0 chain rest

/-- The number of bytes in the left subtree over more than one chunk: the most chunks that are a power of two and not all. -/
def leftSize (length : Nat) : Nat := chunkSize * Nat.pow 2 (Nat.log2 ((length - 1) / chunkSize))

/-- The chaining value of the tree over bytes, whose first chunk has a number; each level takes fuel. -/
def tree (key : List UInt32) : (fuel : Nat) → (counter marks : Nat) → List UInt8 → List UInt32
  | 0, _, _, _ => key
  | fuel + 1, counter, marks, bytes =>
    if bytes.length ≤ chunkSize then chunkFrom counter marks 17 chunkStart key bytes
    else
      let size := leftSize bytes.length
      let left := tree key fuel counter 0 (bytes.take size)
      let right := tree key fuel (counter + size / chunkSize) 0 (bytes.drop size)
      compress ⟨key, left ++ right, 0, blockSize, keyed + parent + marks⟩

/-- The hash of bytes under a key, in 32 bytes. -/
def keyedHash (key bytes : List UInt8) : List UInt8 := toBytes (tree (toWords 8 key) (bytes.length + 1) 0 root bytes)

end SensorWire.Blake3
