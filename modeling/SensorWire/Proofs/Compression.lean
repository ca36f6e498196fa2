import Mathlib
import SensorWire.Proofs.Head
import SensorWire.Zstd.Frame

/-!
# Frames give back what was put into them

Bytes are whole frames with a content (`Whole`) when they are read as this content in front of whatever follows. The frame that a
logger writes is whole, and so are whole frames one after the other. A single byte at the end is passed over by a reader, but it is no
whole frame, since a frame behind it would not be found.

Main statement: `whole_frame`.
-/

namespace SensorWire

/-- A number that fits is spelled by its bytes, the least one first. -/
theorem ofLittleEndian_littleEndian {width n : Nat} (h : n < 256 ^ width) : ofLittleEndian (littleEndian width n) = n := by
  induction width generalizing n with
  | zero =>
    have hzero : n = 0 := by simpa using h
    rw [hzero]
    rfl
  | succ width ih =>
    have hquotient : n / 256 < 256 ^ width := by
      rw [Nat.pow_succ] at h
      omega
    have hrest := ih hquotient
    simp only [ofLittleEndian, littleEndian, List.foldr_cons, UInt8.toNat_ofNat'] at hrest ⊢
    omega

namespace Zstd

/-! ## Blocks -/

@[simp] theorem length_blockHeader (last : Bool) (size : Nat) : (blockHeader last size).length = 3 := rfl

/-- The header of a block as it is read. -/
theorem readBlocks_header (last : Bool) {size : Nat} (h : size ≤ blockLimit) (fuel : Nat) (data : List UInt8) :
    readBlocks (fuel + 1) (blockHeader last size ++ data) =
      match splitExact size data with
      | some (content, rest) =>
        if last then (content, .ok rest) else (content ++ (readBlocks fuel rest).1, (readBlocks fuel rest).2)
      | none => ([], .error .truncated) := by
  have hnumber : ofLittleEndian (blockHeader last size) = 8 * size + (if last then 1 else 0) :=
    ofLittleEndian_littleEndian (by unfold blockLimit at h; split <;> omega)
  obtain ⟨a, b, c, hbytes⟩ : ∃ a b c, blockHeader last size = [a, b, c] := ⟨_, _, _, rfl⟩
  rw [hbytes] at hnumber ⊢
  have hkind : (8 * size + (if last then 1 else 0)) / 2 % 4 = 0 := by split <;> omega
  have hsize : (8 * size + (if last then 1 else 0)) / 8 = size := by split <;> omega
  have hlast : ((8 * size + (if last then 1 else 0)) % 2 = 1) = (last = true) := by cases last <;> simp <;> omega
  simp only [List.cons_append, List.nil_append, readBlocks, hnumber, hkind, hsize, blockContent, if_neg (Nat.not_lt.2 h)]
  cases splitExact size data with
  | none => rfl
  | some p => simp only [hlast]

/-- The blocks of a content are read up to the end of their frame. -/
theorem readBlocks_blocksWithin {fuel k : Nat} {data : List UInt8} (hfuel : data.length ≤ fuel)
    (hk : (blocksWithin fuel data).length < k) (rest : List UInt8) :
    readBlocks k (blocksWithin fuel data ++ (ending ++ rest)) = (data, .ok rest) := by
  induction fuel generalizing data k with
  | zero =>
    obtain ⟨k, rfl⟩ : ∃ n, k = n + 1 := ⟨k - 1, by omega⟩
    have hempty : data = [] := List.length_eq_zero_iff.1 (Nat.le_zero.1 hfuel)
    subst hempty
    exact readBlocks_header true (Nat.zero_le _) k rest
  | succ fuel ih =>
    obtain ⟨k, rfl⟩ : ∃ n, k = n + 1 := ⟨k - 1, by omega⟩
    unfold blocksWithin at hk ⊢
    by_cases hempty : data.isEmpty = true
    · rw [if_pos hempty, List.isEmpty_iff.1 hempty]
      exact readBlocks_header true (Nat.zero_le _) k rest
    · rw [if_neg hempty] at hk ⊢
      have hpos : 0 < data.length := List.length_pos_iff.2 (by simpa using hempty)
      have hsize : (data.take blockLimit).length ≤ blockLimit := List.length_take_le _ _
      have hshorter : (data.drop blockLimit).length ≤ fuel := by
        rw [List.length_drop]
        unfold blockLimit
        omega
      have hfewer : (blocksWithin fuel (data.drop blockLimit)).length < k := by
        simp only [List.length_append, length_blockHeader] at hk
        omega
      have hrest := ih hshorter hfewer
      dsimp only
      rw [List.append_assoc, List.append_assoc, readBlocks_header false hsize, splitExact_append]
      simp only [Bool.false_eq_true, if_false, hrest, List.take_append_drop]

theorem length_blockContent {kind size : Nat} {data content rest : List UInt8} (h : blockContent kind size data = .ok (content, rest)) :
    rest.length ≤ data.length := by
  unfold blockContent at h
  split at h
  · split at h
    · cases h
    · split at h
      · rename_i split hsplit
        cases h
        rw [(append_of_splitExact hsplit).1, List.length_append]
        omega
      · cases h
  · split at h
    · cases h
    · split at h
      · cases h
        exact Nat.le_succ _
      · cases h
  · cases h
  · cases h

/-- What follows the blocks of a frame is no longer than the bytes that they were read from. -/
theorem length_readBlocks {fuel : Nat} {data rest : List UInt8} (h : (readBlocks fuel data).2 = .ok rest) :
    rest.length ≤ data.length := by
  fun_induction readBlocks fuel data with
  | case1 fuel a b c data n f hblock => cases h
  | case2 fuel a b c data n content tail hblock hlast =>
    cases h
    have := length_blockContent hblock
    simp only [List.length_cons]
    omega
  | case3 fuel a b c data n content tail hblock hlast more result hmore ih =>
    have hless := ih (by rw [hmore]; exact h)
    have := length_blockContent hblock
    simp only [List.length_cons]
    omega
  | case4 => cases h

/-! ## Frames -/

/-- One frame is read with any fuel, and the bytes after it, which are fewer, with what fuel is left. -/
theorem readWithin_congr {k k' : Nat} {data : List UInt8}
    (h : ∀ rest : List UInt8, rest.length < data.length → readWithin k rest = readWithin k' rest) :
    readWithin (k + 1) data = readWithin (k' + 1) data := by
  rcases data with _ | ⟨a, _ | ⟨b, _ | ⟨c, _ | ⟨d, data⟩⟩⟩⟩
  iterate 4 rfl
  have hshorter (rest : List UInt8) (hrest : rest.length ≤ data.length) : readWithin k rest = readWithin k' rest := by
    refine h rest ?_
    simp only [List.length_cons]
    omega
  by_cases hskip : isSkippable a b c d = true
  · rcases data with _ | ⟨p, _ | ⟨q, _ | ⟨r, _ | ⟨s, data⟩⟩⟩⟩
    case cons.cons.cons.cons =>
      simp only [readWithin, hskip, if_true]
      cases hsplit : splitExact (ofLittleEndian [p, q, r, s]) data with
      | none => rfl
      | some parts =>
        refine hshorter parts.2 ?_
        have hlength := congrArg List.length (append_of_splitExact hsplit).1
        simp only [List.length_append, List.length_cons] at hlength ⊢
        omega
    all_goals simp only [readWithin, hskip, if_true]
  · simp only [readWithin, if_neg hskip]
    by_cases hmagic : [a, b, c, d] ≠ magic
    · rw [if_pos hmagic, if_pos hmagic]
    · rw [if_neg hmagic, if_neg hmagic]
      cases data with
      | nil => rfl
      | cons descriptor data =>
        dsimp only
        cases hheader : splitExact (headerSize descriptor.toNat) data with
        | none => rfl
        | some parts =>
          obtain ⟨_, body⟩ := parts
          dsimp only
          rcases hblocks : readBlocks body.length body with ⟨content, _ | rest⟩
          · rfl
          · dsimp only
            cases hsum : splitExact (if descriptor.toNat / 4 % 2 = 1 then 4 else 0) rest with
            | none => rfl
            | some parts =>
              obtain ⟨_, rest'⟩ := parts
              dsimp only
              rw [hshorter rest' ?_]
              have hheader' := congrArg List.length (append_of_splitExact hheader).1
              have hsum' := congrArg List.length (append_of_splitExact hsum).1
              have hless := length_readBlocks (congrArg Prod.snd hblocks)
              simp only [List.length_append, List.length_cons] at hheader' hsum' ⊢
              omega

/-- More fuel than there are bytes makes no difference. -/
theorem readWithin_eq_read {fuel : Nat} {data : List UInt8} (h : data.length < fuel) : readWithin fuel data = read data := by
  suffices heq : ∀ k k' (data : List UInt8), data.length < k → data.length < k' → readWithin k data = readWithin k' data from
    heq _ _ data h (Nat.lt_succ_self _)
  intro k
  induction k with
  | zero =>
    intro k' data hk
    exact absurd hk (Nat.not_lt_zero _)
  | succ k ih =>
    intro k' data hk hk'
    obtain ⟨k', rfl⟩ : ∃ n, k' = n + 1 := ⟨k' - 1, by omega⟩
    exact readWithin_congr fun rest hrest => ih k' rest (by omega) (by omega)

/-- Bytes that are whole frames with a content: they are read as this content, and what follows is read by itself. -/
def Whole (data content : List UInt8) : Prop :=
  ∀ more, read (data ++ more) = (content ++ (read more).1, (read more).2)

theorem whole_nil : Whole [] [] := fun _ => rfl

theorem Whole.append {data content data' content' : List UInt8} (h : Whole data content) (h' : Whole data' content') :
    Whole (data ++ data') (content ++ content') := by
  intro more
  rw [List.append_assoc, h, h', List.append_assoc]

/-- Whole frames are read as their content, with nothing wrong after them. -/
theorem Whole.read {data content : List UInt8} (h : Whole data content) : Zstd.read data = (content, none) := by
  have hread := h []
  rw [List.append_nil] at hread
  exact hread.trans (by rw [show Zstd.read [] = ([], none) from rfl, List.append_nil])

/-- A frame with blocks that are read, in front of other bytes. -/
theorem readWithin_header {body content rest : List UInt8} (h : readBlocks body.length body = (content, .ok rest)) (fuel : Nat) :
    readWithin (fuel + 1) (header ++ body) = (content ++ (readWithin fuel rest).1, (readWithin fuel rest).2) := by
  have hsplit : splitExact (headerSize (0x00 : UInt8).toNat) (0x68 :: body) = some ([0x68], body) := rfl
  change readWithin (fuel + 1) (0x28 :: 0xb5 :: 0x2f :: 0xfd :: 0x00 :: 0x68 :: body) = _
  simp only [readWithin, show isSkippable 0x28 0xb5 0x2f 0xfd = false from rfl, Bool.false_eq_true, if_false,
    show ¬[0x28, 0xb5, 0x2f, 0xfd] ≠ magic from fun hne => hne rfl, hsplit, h]
  rfl

/-- The frame that a content is written in is whole. -/
theorem whole_frame (content : List UInt8) : Whole (header ++ blocks content ++ ending) content := by
  intro more
  have hbody : header ++ blocks content ++ ending ++ more = header ++ (blocks content ++ (ending ++ more)) := by
    simp only [List.append_assoc]
  have hfuel : (blocks content).length < (blocks content ++ (ending ++ more)).length := by
    simp only [List.length_append, ending, length_blockHeader]
    omega
  have hblocks : readBlocks (blocks content ++ (ending ++ more)).length (blocks content ++ (ending ++ more)) = (content, .ok more) :=
    readBlocks_blocksWithin (Nat.le_refl content.length) hfuel more
  have hrest : readWithin (header ++ (blocks content ++ (ending ++ more))).length more = Zstd.read more := by
    refine readWithin_eq_read ?_
    simp only [List.length_append, ending, length_blockHeader]
    omega
  rw [hbody, Zstd.read, readWithin_header hblocks, hrest]

end Zstd

end SensorWire
