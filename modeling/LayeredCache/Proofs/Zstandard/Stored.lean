import LayeredCache.Proofs.Bytes
import LayeredCache.Zstandard.Compressor

/-!
# Expanding inverts compressing

A stored frame holds a byte string in blocks as it is, and expands to it. The compressor gives
another frame only after expanding it, so whatever it gives expands to what it was given.

## Main results

* `Zstandard.Frame.blocks_storedBlocks` — what stored blocks produce.
* `Zstandard.expand_store` — what a stored frame expands to.
* `Zstandard.expand_compress` — what a compressed byte string expands to, at every level.
-/

set_option autoImplicit false

namespace LayeredCache.Zstandard

/-- What the header of a stored frame says. -/
def storedHeader : FrameHeader := ⟨0x20000, none, false⟩

/-- The header of a stored frame is read. -/
lemma FrameHeader.read_stored (bs : Bytes) :
    FrameHeader.read (0x00 :: 0x38 :: bs) = some (storedHeader, bs) := by
  have hempty : Bytes.split? 0 bs = some ([], bs) := rfl
  simp [FrameHeader.read, window?, windowOf, sizeWidth, hempty, contentSizeOf, storedHeader,
    FrameHeader.isWhole, windowLimit, Bytes.ofLittleEndian]

/-- The header of a block that holds bytes as they are. -/
lemma Frame.blockHeader?_stored (last : Bool) {size : Nat} (hsize : size ≤ blockLimit)
    (bs : Bytes) :
    Frame.blockHeader? (blockHeader last 0 size ++ bs) = some (⟨last, 0, size⟩, bs) := by
  unfold Frame.blockHeader? blockHeader
  have hlimit : size ≤ 0x20000 := hsize
  have hfits : (if last then 1 else 0) + 2 * 0 + 8 * size < Nat.pow 256 3 := by
    show _ < 16777216
    split <;> omega
  rw [Bytes.split?_append (Bytes.length_toLittleEndian 3 _), Option.map_some]
  dsimp only
  rw [Bytes.ofLittleEndian_toLittleEndian hfits]
  have hparts : ∀ n : Nat, n = (if last then 1 else 0) + 2 * 0 + 8 * size →
      (n % 2 == 1) = last ∧ n / 2 % 4 = 0 ∧ n / 8 = size := by
    intro n hn
    cases last with
    | true => exact ⟨by simp at hn ⊢; omega, by simp at hn; omega, by simp at hn; omega⟩
    | false => exact ⟨by simp at hn ⊢; omega, by simp at hn; omega, by simp at hn; omega⟩
  obtain ⟨hlast, hkind, hlength⟩ := hparts _ rfl
  rw [hlast, hkind, hlength]

/-- A block that holds some bytes as they are produces them. -/
lemma Frame.block_stored (last : Bool) (st : BlockState) {content : Bytes}
    (hsize : content.length ≤ blockLimit) (bs : Bytes) :
    Frame.block storedHeader ⟨last, 0, content.length⟩ st (content ++ bs) =
      some ({ st with output := st.output ++ content.toArray }, bs) := by
  have hfits : st.output.size + content.length ≤ storedHeader.outputLimit st.output.size :=
    Nat.add_le_add_left hsize _
  unfold Frame.block
  simp only [hfits, if_true, Bytes.split?_append rfl, Option.map_some]

/-- The last block. -/
lemma Frame.blocks_last (fuel : Nat) (st : BlockState) {bs : Bytes}
    (hsize : bs.length ≤ blockLimit) :
    ∃ sized, Frame.blocks storedHeader (fuel + 1) st (blockHeader true 0 bs.length ++ bs) =
      some (st.output ++ bs.toArray, sized, []) := by
  unfold Frame.blocks
  rw [Frame.blockHeader?_stored true hsize]
  dsimp only
  cases bs with
  | nil => exact ⟨false, by simp [Frame.BlockHeader.isEmpty, storedHeader, FrameHeader.isWhole]⟩
  | cons b bs =>
    have hblock := Frame.block_stored true st hsize []
    rw [List.append_nil] at hblock
    have hfilled : Frame.BlockHeader.isEmpty ⟨true, 0, (b :: bs).length⟩ storedHeader = false := by
      simp [Frame.BlockHeader.isEmpty]
    refine ⟨true, ?_⟩
    rw [hfilled, if_neg Bool.false_ne_true, hblock]
    rfl

/-- A block that is not the last one, and not empty. -/
lemma Frame.blocks_more (fuel : Nat) (st : BlockState) {content : Bytes} (hfilled : content ≠ [])
    (hsize : content.length ≤ blockLimit) (bs : Bytes) :
    Frame.blocks storedHeader (fuel + 1) st
        (blockHeader false 0 content.length ++ (content ++ bs)) =
      Frame.blocks storedHeader fuel
        (BlockState.turn storedHeader { st with output := st.output ++ content.toArray }) bs := by
  have hheader : Frame.BlockHeader.isEmpty ⟨false, 0, content.length⟩ storedHeader = false := by
    simp [Frame.BlockHeader.isEmpty, hfilled]
  rw [Frame.blocks, Frame.blockHeader?_stored false hsize]
  dsimp only
  rw [hheader, if_neg Bool.false_ne_true, Frame.block_stored false st hsize bs]
  rfl

/-- What a turn of blocks keeps. -/
lemma Frame.output_turn (h : FrameHeader) (st : BlockState) :
    (Frame.BlockState.turn h st).output = st.output := by
  unfold Frame.BlockState.turn
  split <;> rfl

/-- **Stored blocks** produce the bytes that they hold.

**Proof sketch.** Induction on the number of blocks. A block that is not the last one is full, and
what is left after it fits into one block less. -/
lemma Frame.blocks_storedBlocks (n : Nat) {bs : Bytes} (hn : bs.length / blockLimit ≤ n)
    {fuel : Nat} (hfuel : n < fuel) (st : BlockState) :
    ∃ sized, Frame.blocks storedHeader fuel st (storedBlocks n bs) =
      some (st.output ++ bs.toArray, sized, []) := by
  induction n generalizing bs fuel st with
  | zero =>
    obtain ⟨fuel, rfl⟩ := Nat.exists_eq_succ_of_ne_zero (Nat.ne_of_gt hfuel)
    have hshort : bs.length < blockLimit :=
      (Nat.div_eq_zero_iff_lt (by decide)).mp (Nat.le_zero.mp hn)
    exact Frame.blocks_last fuel st (Nat.le_of_lt hshort)
  | succ n ih =>
    obtain ⟨fuel, rfl⟩ := Nat.exists_eq_add_one_of_ne_zero (Nat.ne_of_gt (Nat.zero_lt_of_lt hfuel))
    unfold storedBlocks
    by_cases hshort : bs.length ≤ blockLimit
    · rw [if_pos hshort]
      exact Frame.blocks_last fuel st hshort
    · rw [if_neg hshort]
      have hfull : (bs.take blockLimit).length = blockLimit :=
        List.length_take_of_le (Nat.le_of_not_le hshort)
      have hfilled : bs.take blockLimit ≠ [] := by
        rw [← List.length_pos_iff, hfull]
        decide
      have hblock := Frame.blocks_more fuel st hfilled (Nat.le_of_eq hfull)
        (storedBlocks n (bs.drop blockLimit))
      rw [hfull] at hblock
      have hdrop : (bs.drop blockLimit).length / blockLimit ≤ n := by
        rw [List.length_drop]
        have hsub : (bs.length - blockLimit) / blockLimit = bs.length / blockLimit - 1 :=
          Nat.sub_mul_div bs.length blockLimit 1
        omega
      obtain ⟨sized, hrest⟩ := ih hdrop (Nat.lt_of_succ_lt_succ hfuel)
        (BlockState.turn storedHeader
          { st with output := st.output ++ (bs.take blockLimit).toArray })
      have hwhole : (bs.take blockLimit).toArray ++ (bs.drop blockLimit).toArray = bs.toArray := by
        rw [List.append_toArray, List.take_append_drop]
      rw [Frame.output_turn, Array.append_assoc, hwhole] at hrest
      exact ⟨sized, hblock.trans hrest⟩

/-- A stored frame has more bytes than blocks. -/
lemma length_storedBlocks (n : Nat) (bs : Bytes) :
    bs.length + 3 ≤ (storedBlocks n bs).length := by
  induction n generalizing bs with
  | zero =>
    rw [storedBlocks, List.length_append, blockHeader, Bytes.length_toLittleEndian]
    omega
  | succ n ih =>
    unfold storedBlocks
    split
    · rw [List.length_append, blockHeader, Bytes.length_toLittleEndian]
      omega
    · have hrest := ih (bs.drop blockLimit)
      have hsplit := congrArg List.length (List.take_append_drop blockLimit bs)
      rw [List.length_append] at hsplit
      rw [List.length_append, List.length_append, blockHeader, Bytes.length_toLittleEndian]
      omega

/-- **A stored frame** expands to the byte string that it holds. -/
theorem expand_store (bs : Bytes) : expand (store bs) = some bs := by
  have hlength : bs.length / blockLimit < (storedBlocks (bs.length / blockLimit) bs).length := by
    have hmore := length_storedBlocks (bs.length / blockLimit) bs
    have hdiv := Nat.div_le_self bs.length blockLimit
    omega
  obtain ⟨sized, hblocks⟩ :=
    Frame.blocks_storedBlocks _ (Nat.le_refl _) hlength BlockState.initial
  have hcontent : Frame.content? (0x00 :: 0x38 :: storedBlocks (bs.length / blockLimit) bs) =
      some (bs, []) := by
    unfold Frame.content?
    rw [FrameHeader.read_stored]
    dsimp only
    rw [hblocks]
    simp [BlockState.initial, storedHeader, Frame.verified?]
  have hfirst : Frame.first? (store bs) = some (bs, []) := by
    have hstore : store bs =
        magic ++ (0x00 :: 0x38 :: storedBlocks (bs.length / blockLimit) bs) := rfl
    unfold Frame.first?
    have hmagic : magic.length = 4 := rfl
    rw [hstore, Bytes.split?_append hmagic]
    dsimp only
    rw [if_pos rfl, hcontent]
  unfold expand Frame.all?
  rw [hfirst]

/-- **Expanding inverts compressing** at every level. -/
theorem expand_compress (level : Int) (bs : Bytes) : expand (compress level bs) = some bs := by
  unfold compress
  dsimp only
  split
  · rename_i hframe
    rw [Bool.and_eq_true, beq_iff_eq] at hframe
    exact hframe.2
  · exact expand_store bs

end LayeredCache.Zstandard
