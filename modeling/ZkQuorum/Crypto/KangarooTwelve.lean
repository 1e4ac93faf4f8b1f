import ZkQuorum.Crypto.Absorb

/-!
# KangarooTwelve of the C port (crypto/src/riscv_fourq_verify.c)

The port never builds the message with its trailing zero byte: it moves the
position of whichever node the byte falls into. **`kangarooTwelve_eq`** says that
the result is KT128 with the empty customization string.
-/

namespace ZkQuorum.Crypto

open Keccak

/-- `K12_chunkSize`. -/
abbrev k12ChunkSize : UInt32 := 8192

/-- `K12_suffixLeaf`. -/
abbrev k12SuffixLeaf : UInt8 := 0x0B

/-- `setMem(&node, sizeof(KangarooTwelve_F), 0)`. -/
def KangarooTwelveF.zero : KangarooTwelveF := ⟨Keccak.zero, 0, rate_pos⟩

/-- `len`: the bytes of the first chunk. -/
def firstLen (inputByteLen : UInt32) : UInt32 :=
  inputByteLen ^^^ ((k12ChunkSize ^^^ inputByteLen)
    &&& -(decide (k12ChunkSize < inputByteLen)).toUInt32)

/-- `clen`: the bytes of a further chunk. -/
def chunkLen (inputByteLen : UInt32) : UInt32 :=
  k12ChunkSize ^^^ ((inputByteLen ^^^ k12ChunkSize)
    &&& -(decide (inputByteLen < k12ChunkSize)).toUInt32)

/-- The local variables of a tree hash. -/
structure Tree where
  finalNode : KangarooTwelveF
  queueNode : KangarooTwelveF
  blockNumber : Nat
  queueAbsorbedLen : Nat

/-- `if (++node.byteIOIndex == K12_rateInBytes)`: the trailing zero byte. -/
def bumpIndex (node : KangarooTwelveF) : KangarooTwelveF :=
  if h : node.byteIOIndex + 1 = k12RateInBytes then
    ⟨keccakP1600Permute12rounds node.state, 0, rate_pos⟩
  else
    ⟨node.state, node.byteIOIndex + 1, Nat.lt_of_le_of_ne node.index_lt h⟩

/-- The byte 0x03 after the first chunk, and the step to the next lane. -/
def beginLeaves (finalNode : KangarooTwelveF) (hindex : finalNode.byteIOIndex < 160) :
    KangarooTwelveF :=
  let state := xorByte finalNode.state finalNode.byteIOIndex 0x03
  if finalNode.byteIOIndex + 1 = k12RateInBytes then
    ⟨keccakP1600Permute12rounds state, 0, rate_pos⟩
  else
    ⟨state, (finalNode.byteIOIndex + 1 + 7) &&& 0xFFFFFFF8, by
      rw [and_not_seven _ (by omega)]
      show 8 * _ < 168
      omega⟩

/-- The suffix and the final bit of the queue node; its 32 bytes go to the final node. -/
def pushLeaf (t : Tree) : Tree :=
  let state := xorByte t.queueNode.state t.queueNode.byteIOIndex k12SuffixLeaf
  let state := xorByte state (k12RateInBytes - 1) 0x80
  let state := keccakP1600Permute12rounds state
  { t with
    queueNode := ⟨state, k12CapacityInBytes, by decide⟩
    finalNode := absorb t.finalNode ((bytes state).take k12CapacityInBytes) }

theorem firstLen_toNat (n : UInt32) : (firstLen n).toNat = min n.toNat 8192 := by
  have hlt : k12ChunkSize < n ↔ 8192 < n.toNat := UInt32.lt_iff_toNat_lt
  rw [firstLen]
  by_cases h : k12ChunkSize < n
  · rw [decide_eq_true h]
    have hmask : -(true.toUInt32) = -1 := rfl
    rw [hmask, UInt32.and_neg_one, UInt32.xor_comm k12ChunkSize, ← UInt32.xor_assoc,
      UInt32.xor_self, UInt32.zero_xor, Nat.min_eq_right (Nat.le_of_lt (hlt.mp h))]
    rfl
  · rw [decide_eq_false h]
    have hmask : -(false.toUInt32) = 0 := rfl
    rw [hmask, UInt32.and_zero, UInt32.xor_zero, Nat.min_eq_left]
    exact Nat.le_of_not_lt fun hc => h (hlt.mpr hc)

theorem chunkLen_toNat (n : UInt32) : (chunkLen n).toNat = min n.toNat 8192 := by
  have hlt : n < k12ChunkSize ↔ n.toNat < 8192 := UInt32.lt_iff_toNat_lt
  rw [chunkLen]
  by_cases h : n < k12ChunkSize
  · rw [decide_eq_true h]
    have hmask : -(true.toUInt32) = -1 := rfl
    rw [hmask, UInt32.and_neg_one, UInt32.xor_comm n, ← UInt32.xor_assoc,
      UInt32.xor_self, UInt32.zero_xor, Nat.min_eq_left (Nat.le_of_lt (hlt.mp h))]
  · rw [decide_eq_false h]
    have hmask : -(false.toUInt32) = 0 := rfl
    rw [hmask, UInt32.and_zero, UInt32.xor_zero, Nat.min_eq_right]
    · rfl
    · exact Nat.le_of_not_lt fun hc => h (hlt.mpr hc)

/-- The loop over the chunks after the first. -/
def leafLoop (t : Tree) (input : Bytes) (inputByteLen : UInt32) : Tree :=
  if _hpos : 0 < inputByteLen then
    let clen := chunkLen inputByteLen
    let queueNode := absorb .zero (input.take clen.toNat)
    let input := input.drop clen.toNat
    if clen = k12ChunkSize then
      leafLoop (pushLeaf { t with queueNode, blockNumber := t.blockNumber + 1 }) input
        (inputByteLen - clen)
    else
      leafLoop { t with queueNode, queueAbsorbedLen := clen.toNat } input (inputByteLen - clen)
  else t
termination_by inputByteLen.toNat
decreasing_by
  all_goals
    have hpos : 0 < inputByteLen.toNat := UInt32.lt_iff_toNat_lt.mp _hpos
    have hclen := chunkLen_toNat inputByteLen
    have hle : chunkLen inputByteLen ≤ inputByteLen := UInt32.le_iff_toNat_le.mpr (by omega)
    rw [UInt32.toNat_sub_of_le _ _ hle]
    omega

/-- The trailing zero byte of the message, in the last chunk or in one of its own. -/
def closeQueue (t : Tree) : Tree :=
  if t.queueAbsorbedLen ≠ 0 then
    let t := { t with
      queueNode := bumpIndex t.queueNode
      queueAbsorbedLen := t.queueAbsorbedLen + 1 }
    if t.queueAbsorbedLen = k12ChunkSize.toNat then
      pushLeaf { t with blockNumber := t.blockNumber + 1, queueAbsorbedLen := 0 }
    else t
  else { t with queueNode := ⟨Keccak.zero, 1, by decide⟩, queueAbsorbedLen := 1 }

/-- The loop that counts the bytes of a number: `limit` is what `n` may still grow by. -/
def countBytes : Nat → Nat → Nat
  | 0, _ => 0
  | limit + 1, v => if v ≠ 0 then countBytes limit (v >>> 8) + 1 else 0

/-- `encbuf`. -/
def encbuf (blockNumber : Nat) : Bytes :=
  let n := countBytes 8 blockNumber
  (List.range n).map (fun j => UInt8.ofNat (blockNumber >>> (8 * (n - (j + 1)))))
    ++ [UInt8.ofNat n, 0xFF, 0xFF]

/-- The branch `if (blockNumber)`: the last leaf, the number of leaves and the suffix. -/
def closeTree (t : Tree) : State :=
  let t :=
    if t.queueAbsorbedLen ≠ 0 then pushLeaf { t with blockNumber := t.blockNumber + 1 } else t
  let finalNode := absorb t.finalNode (encbuf (t.blockNumber - 1))
  xorByte finalNode.state finalNode.byteIOIndex 0x06

/-- The branch of a message in one chunk: the trailing zero byte and the suffix. -/
def closeSingle (finalNode : KangarooTwelveF) : State :=
  if finalNode.byteIOIndex + 1 = k12RateInBytes then
    xorByte (keccakP1600Permute12rounds finalNode.state) 0 0x07
  else xorByte finalNode.state (finalNode.byteIOIndex + 1) 0x07

/-- The first node after the first chunk. -/
def firstNode (input : Bytes) (inputByteLen : UInt32) : KangarooTwelveF :=
  absorb .zero (input.take (firstLen inputByteLen).toNat)

/-- The position after a sequence of bytes. -/
theorem byteIOIndex_absorb (inst : KangarooTwelveF) (data : Bytes) :
    (absorb inst data).byteIOIndex = (inst.byteIOIndex + data.length) % k12RateInBytes := by
  have hindex := congrArg Sponge.Absorbing.index (absorb_eq inst data)
  rw [Sponge.index_absorb] at hindex
  exact hindex

theorem firstNode_index {input : Bytes} {inputByteLen : UInt32}
    (hlen : inputByteLen.toNat ≤ input.length) (h : firstLen inputByteLen = k12ChunkSize) :
    (firstNode input inputByteLen).byteIOIndex = 128 := by
  have hn := firstLen_toNat inputByteLen
  rw [h] at hn
  change 8192 = min inputByteLen.toNat 8192 at hn
  rw [firstNode, byteIOIndex_absorb, h, List.length_take_of_le (by show 8192 ≤ input.length; omega)]
  rfl

/-- The final node up to its suffix. `queueNode` is what the uninitialised variable holds. -/
def closeNode (queueNode : KangarooTwelveF) (input : Bytes) (inputByteLen : UInt32)
    (hlen : inputByteLen.toNat ≤ input.length) : State :=
  let len := firstLen inputByteLen
  let finalNode := firstNode input inputByteLen
  let rest := input.drop len.toNat
  let restByteLen := inputByteLen - len
  if h : len = k12ChunkSize then
    let finalNode := beginLeaves finalNode (by rw [firstNode_index hlen h]; decide)
    if restByteLen ≠ 0 then
      closeTree (closeQueue (leafLoop ⟨finalNode, queueNode, 1, 0⟩ rest restByteLen))
    else closeTree ⟨finalNode, ⟨Keccak.zero, 1, by decide⟩, 1, 1⟩
  else closeSingle finalNode

/-- The final bit, the last permutation and the output. -/
def output (state : State) (outputByteLen : Nat) : Bytes :=
  (bytes (keccakP1600Permute12rounds (xorByte state (k12RateInBytes - 1) 0x80))).take outputByteLen

/-- `KangarooTwelve`. -/
def kangarooTwelve (queueNode : KangarooTwelveF) (input : Bytes) (inputByteLen : UInt32)
    (hlen : inputByteLen.toNat ≤ input.length) (outputByteLen : Nat) : Bytes :=
  output (closeNode queueNode input inputByteLen hlen) outputByteLen

/-! ## The number of leaves -/

/-- The `n` low bytes of a number, most significant first. -/
theorem encbuf_digits (limit x : Nat) (h : x < 256 ^ limit) :
    (List.range (countBytes limit x)).map
        (fun j => UInt8.ofNat (x >>> (8 * (countBytes limit x - (j + 1)))))
      = ((Nat.digits 256 x).map UInt8.ofNat).reverse := by
  -- `countBytes` drops the last digit each time, `Nat.digits` lists it first
  induction limit generalizing x with
  | zero =>
    have hx : x = 0 := by
      rw [pow_zero] at h
      omega
    subst hx
    simp [countBytes]
  | succ limit ih =>
    by_cases hx : x = 0
    · subst hx
      simp [countBytes]
    · have hdiv : x >>> 8 = x / 256 := Nat.shiftRight_eq_div_pow x 8
      have hlt : x / 256 < 256 ^ limit := by
        rw [pow_succ] at h
        exact Nat.div_lt_of_lt_mul (by rw [Nat.mul_comm]; exact h)
      have hdigits : Nat.digits 256 x = x % 256 :: Nat.digits 256 (x / 256) :=
        Nat.digits_def' (by decide) (Nat.pos_of_ne_zero hx)
      have hbyte : UInt8.ofNat (x % 256) = UInt8.ofNat x := by
        apply UInt8.toNat_inj.mp
        rw [UInt8.toNat_ofNat', UInt8.toNat_ofNat', Nat.mod_mod]
      rw [countBytes, if_pos hx, hdiv, hdigits, List.map_cons, List.reverse_cons, ← ih _ hlt,
        List.range_succ, List.map_append, List.map_singleton, Nat.sub_self, Nat.mul_zero,
        Nat.shiftRight_zero, hbyte]
      congr 1
      apply List.map_congr_left
      intro j hj
      have hj' := List.mem_range.mp hj
      rw [← hdiv, ← Nat.shiftRight_add]
      congr 2
      rw [hdiv]
      omega

theorem encbuf_eq {n : Nat} (h : n < 2 ^ 64) :
    encbuf n = KangarooTwelve.lengthEncode n ++ [0xFF, 0xFF] := by
  have hdigits := encbuf_digits 8 n (by norm_num; omega)
  have hlength := congrArg List.length hdigits
  rw [List.length_map, List.length_range] at hlength
  rw [encbuf, KangarooTwelve.lengthEncode, ← hdigits, List.append_assoc]
  simp only [List.length_map, List.length_range]
  rfl

/-! ## The nodes -/

/-- The node holds these bytes. -/
def Holds (node : KangarooTwelveF) (s : Bytes) : Prop :=
  node.toAbsorbing = sponge.absorb (sponge.start Keccak.zero) s

theorem Holds.nil : Holds .zero [] := rfl

/-- The bytes of a node that absorbs some more. -/
theorem Holds.absorb {node : KangarooTwelveF} {s : Bytes} (h : Holds node s) (data : Bytes) :
    Holds (absorb node data) (s ++ data) := by
  rw [Holds, absorb_eq, h, Sponge.absorb_append]

theorem Holds.absorb_zero (data : Bytes) : Holds (Crypto.absorb .zero data) data := by
  have h := Holds.nil.absorb data
  rwa [List.nil_append] at h

/-- Moving the position absorbs a zero byte. -/
theorem Holds.bumpIndex {node : KangarooTwelveF} {s : Bytes} (h : Holds node s) :
    Holds (bumpIndex node) (s ++ [0]) := by
  rw [Holds, Sponge.absorb_append, ← h]
  show _ = sponge.absorbByte node.toAbsorbing 0
  rw [Sponge.absorbByte, Crypto.bumpIndex, sponge.xorByte_zero]
  by_cases hfull : node.byteIOIndex + 1 = k12RateInBytes
  · have hfull' : node.toAbsorbing.index + 1 = sponge.rate := hfull
    rw [dif_pos hfull, dif_pos hfull', keccakP1600Permute12rounds_eq]
    rfl
  · have hfull' : ¬ node.toAbsorbing.index + 1 = sponge.rate := hfull
    rw [dif_neg hfull, dif_neg hfull']
    rfl

/-- The first chunk ends at byte 128 of a block: the leaves start at byte 136. -/
theorem beginLeaves_eq {node : KangarooTwelveF} (hindex : node.byteIOIndex = 128) :
    beginLeaves node (by omega) = ⟨xorByte node.state 128 0x03, 136, by decide⟩ := by
  have hround : (node.byteIOIndex + 1 + 7) &&& 0xFFFFFFF8 = 136 := by
    rw [hindex]
    exact and_not_seven 136 (by decide)
  rw [beginLeaves, if_neg (by rw [hindex]; decide)]
  apply KangarooTwelveF.ext
  · show xorByte node.state node.byteIOIndex 0x03 = xorByte node.state 128 0x03
    rw [hindex]
  · exact hround

theorem Holds.beginLeaves {node : KangarooTwelveF} {s : Bytes} (h : Holds node s)
    (hindex : node.byteIOIndex = 128) :
    Holds (beginLeaves node (by omega)) (s ++ [0x03, 0, 0, 0, 0, 0, 0, 0]) := by
  have hlt : node.toAbsorbing.index + [(0x03 : UInt8), 0, 0, 0, 0, 0, 0, 0].length < 168 := by
    show node.byteIOIndex + 8 < 168
    omega
  have hstate : sponge.xorBytes node.state node.byteIOIndex [0x03, 0, 0, 0, 0, 0, 0, 0]
      = xorByte node.state 128 0x03 := by
    have hzeros : [(0 : UInt8), 0, 0, 0, 0, 0, 0] = List.replicate 7 0 := rfl
    rw [hindex, Sponge.xorBytes_cons, hzeros, Sponge.xorBytes_replicate_zero]
    rfl
  have hnext : node.byteIOIndex + 8 = 136 := by omega
  rw [Holds, beginLeaves_eq hindex, Sponge.absorb_append, ← h, Sponge.absorb_of_lt _ hlt]
  exact Sponge.Absorbing.ext hstate.symm hnext.symm

/-- The zero node moved by one holds the byte 0. -/
theorem Holds.zero_byte : Holds ⟨Keccak.zero, 1, by decide⟩ [0] := Holds.nil.bumpIndex

/-- A node that ends with its suffix. -/
theorem output_eq {node : KangarooTwelveF} {s : Bytes} (h : Holds node s) (suffix : UInt8)
    {L : Nat} (hL : L ≤ 168) :
    output (xorByte node.state node.byteIOIndex suffix) L = KangarooTwelve.F suffix s L := by
  rw [KangarooTwelve.F_eq suffix s hL, ← h, output, keccakP1600Permute12rounds_eq]
  rfl

/-- The queue node becomes a leaf of the final node. -/
theorem Holds.pushLeaf {t : Tree} {s chunk : Bytes} (hs : Holds t.finalNode s)
    (hchunk : Holds t.queueNode chunk) :
    Holds (pushLeaf t).finalNode (s ++ KangarooTwelve.leaf chunk) := by
  have hleaf := output_eq hchunk k12SuffixLeaf (show 32 ≤ 168 by decide)
  rw [KangarooTwelve.leaf, ← hleaf]
  exact hs.absorb _

/-- The final node closed over the leaves it holds. -/
theorem output_closeTree {t : Tree} {s : Bytes} (hs : Holds t.finalNode s)
    (hqueue : t.queueAbsorbedLen = 0) (hnumber : t.blockNumber < 2 ^ 64) {L : Nat} (hL : L ≤ 168) :
    output (closeTree t) L = KangarooTwelve.F 0x06
      (s ++ (KangarooTwelve.lengthEncode (t.blockNumber - 1) ++ [0xFF, 0xFF])) L := by
  rw [closeTree, if_neg (not_not_intro hqueue), ← encbuf_eq (by omega)]
  exact output_eq (hs.absorb _) 0x06 hL

/-- The final node closed over the leaves it holds and the queue node. -/
theorem output_closeTree_queue {t : Tree} {s chunk : Bytes} (hs : Holds t.finalNode s)
    (hchunk : Holds t.queueNode chunk) (hqueue : t.queueAbsorbedLen ≠ 0)
    (hnumber : t.blockNumber < 2 ^ 64) {L : Nat} (hL : L ≤ 168) :
    output (closeTree t) L = KangarooTwelve.F 0x06 (s ++ (KangarooTwelve.leaf chunk
      ++ (KangarooTwelve.lengthEncode t.blockNumber ++ [0xFF, 0xFF]))) L := by
  have hpush : Holds (pushLeaf { t with blockNumber := t.blockNumber + 1 }).finalNode
      (s ++ KangarooTwelve.leaf chunk) := Holds.pushLeaf hs hchunk
  rw [closeTree, if_pos hqueue, ← encbuf_eq hnumber, ← List.append_assoc]
  exact output_eq (hpush.absorb _) 0x06 hL

/-- Nothing is left of the message: its trailing zero byte is a chunk of its own. -/
theorem output_closeQueue_nil {t : Tree} {s : Bytes} (hs : Holds t.finalNode s)
    (hqueue : t.queueAbsorbedLen = 0) (hnumber : t.blockNumber < 2 ^ 64) {L : Nat} (hL : L ≤ 168) :
    output (closeTree (closeQueue t)) L = KangarooTwelve.F 0x06 (s ++ (KangarooTwelve.leaf [0]
      ++ (KangarooTwelve.lengthEncode t.blockNumber ++ [0xFF, 0xFF]))) L := by
  rw [closeQueue, if_neg (not_not_intro hqueue)]
  exact output_closeTree_queue
    (t := { t with queueNode := ⟨Keccak.zero, 1, by decide⟩, queueAbsorbedLen := 1 })
    hs Holds.zero_byte Nat.one_ne_zero hnumber hL

/-- The queue node holds the last bytes of the message: the trailing zero byte completes them, in
the tree at once when the chunk is full. -/
theorem output_closeQueue {t : Tree} {s chunk : Bytes} (hs : Holds t.finalNode s)
    (hchunk : Holds t.queueNode chunk) (hqueue : t.queueAbsorbedLen ≠ 0)
    (hnumber : t.blockNumber + 1 < 2 ^ 64) {L : Nat} (hL : L ≤ 168) :
    output (closeTree (closeQueue t)) L
      = KangarooTwelve.F 0x06 (s ++ (KangarooTwelve.leaf (chunk ++ [0])
        ++ (KangarooTwelve.lengthEncode t.blockNumber ++ [0xFF, 0xFF]))) L := by
  rw [closeQueue, if_pos hqueue]
  by_cases hfull : t.queueAbsorbedLen + 1 = k12ChunkSize.toNat
  · have hpush := Holds.pushLeaf
      (t := { t with
        queueNode := bumpIndex t.queueNode, queueAbsorbedLen := 0
        blockNumber := t.blockNumber + 1 }) hs hchunk.bumpIndex
    rw [← List.append_assoc]
    exact (congrArg (fun t => output (closeTree t) L) (if_pos hfull)).trans
      (output_closeTree hpush rfl hnumber hL)
  · exact (congrArg (fun t => output (closeTree t) L) (if_neg hfull)).trans
      (output_closeTree_queue
        (t := { t with
          queueNode := bumpIndex t.queueNode, queueAbsorbedLen := t.queueAbsorbedLen + 1 })
        hs hchunk.bumpIndex (Nat.succ_ne_zero _) (Nat.lt_of_succ_lt hnumber) hL)

/-- No bytes left: the loop is over. -/
theorem leafLoop_nil (t : Tree) {inputByteLen : UInt32} (hlen : inputByteLen.toNat = 0) :
    leafLoop t [] inputByteLen = t := by
  have hdone : ¬ 0 < inputByteLen := by
    rw [UInt32.lt_iff_toNat_lt, hlen]
    decide
  rw [leafLoop, dif_neg hdone]

/-- A chunk that is not whole is the last: the loop ends with it in the queue node. -/
theorem leafLoop_last (t : Tree) {input : Bytes} {inputByteLen : UInt32}
    (hlen : inputByteLen.toNat = input.length) (hpos : 0 < input.length)
    (hlast : input.length < 8192) :
    leafLoop t input inputByteLen
      = { t with queueNode := absorb .zero input, queueAbsorbedLen := input.length } := by
  have hsize : (chunkLen inputByteLen).toNat = input.length := by
    rw [chunkLen_toNat, hlen, Nat.min_eq_left (Nat.le_of_lt hlast)]
  have hmore : 0 < inputByteLen := UInt32.lt_iff_toNat_lt.mpr (hlen ▸ hpos)
  have hshort : chunkLen inputByteLen ≠ k12ChunkSize := by
    intro h
    have h8192 : (chunkLen inputByteLen).toNat = 8192 := congrArg UInt32.toNat h
    omega
  have hrest : (inputByteLen - chunkLen inputByteLen).toNat = 0 := by
    rw [UInt32.toNat_sub_of_le _ _ (UInt32.le_iff_toNat_le.mpr (by omega))]
    omega
  rw [leafLoop, dif_pos hmore, if_neg hshort, hsize, List.drop_length, leafLoop_nil _ hrest,
    List.take_length]

/-- A whole chunk becomes a leaf, and the loop goes on after it. -/
theorem leafLoop_full (t : Tree) {input : Bytes} {inputByteLen : UInt32}
    (hlen : inputByteLen.toNat = input.length) (hfull : 8192 ≤ input.length) :
    ∃ rest : UInt32, rest.toNat = (input.drop 8192).length ∧
      leafLoop t input inputByteLen
        = leafLoop (pushLeaf { t with
            queueNode := absorb .zero (input.take 8192), blockNumber := t.blockNumber + 1 })
          (input.drop 8192) rest := by
  have hsize : (chunkLen inputByteLen).toNat = 8192 := by
    rw [chunkLen_toNat, hlen, Nat.min_eq_right hfull]
  have hmore : 0 < inputByteLen := UInt32.lt_iff_toNat_lt.mpr (by
    rw [hlen]
    exact Nat.lt_of_lt_of_le (by decide) hfull)
  refine ⟨inputByteLen - chunkLen inputByteLen, ?_, ?_⟩
  · rw [UInt32.toNat_sub_of_le _ _ (UInt32.le_iff_toNat_le.mpr (by omega)), List.length_drop, hlen,
      hsize]
  · rw [leafLoop, dif_pos hmore, if_pos (UInt32.toNat_inj.mp hsize), hsize]

/-- **The leaves.** From a final node that holds `s`, the chunks that are left become leaves,
with the trailing zero byte in the last of them. -/
theorem output_leafLoop (t : Tree) {s input : Bytes} {inputByteLen : UInt32}
    (hs : Holds t.finalNode s) (hlen : inputByteLen.toNat = input.length)
    (hqueue : t.queueAbsorbedLen = 0) (hpos : 0 < t.blockNumber)
    (hnumber : t.blockNumber + input.length < 2 ^ 64) {L : Nat} (hL : L ≤ 168) :
    output (closeTree (closeQueue (leafLoop t input inputByteLen))) L
      = let leaves := chunks 8192 (input ++ [0])
        KangarooTwelve.F 0x06 (s ++ (leaves.flatMap KangarooTwelve.leaf
          ++ (KangarooTwelve.lengthEncode (t.blockNumber - 1 + leaves.length)
            ++ [0xFF, 0xFF]))) L := by
  -- on the bytes that are left; the final node's content and the block number change with them
  induction hn : input.length using Nat.strongRecOn generalizing t s input inputByteLen with
  | ind n ih =>
  subst hn
  have hcount : t.blockNumber - 1 + 1 = t.blockNumber := Nat.sub_add_cancel hpos
  by_cases hfull : 8192 ≤ input.length
  · -- a whole chunk
    obtain ⟨rest, hrest, hloop⟩ := leafLoop_full t hlen hfull
    have htake : (input.take 8192).length = 8192 := List.length_take_of_le hfull
    have hdrop : (input.drop 8192).length = input.length - 8192 := List.length_drop
    have hchunks := chunks_append (n := 8192) (by decide) htake (input.drop 8192 ++ [0])
    rw [← List.append_assoc, List.take_append_drop] at hchunks
    have hpush := Holds.pushLeaf
      (t := { t with
        queueNode := absorb .zero (input.take 8192), blockNumber := t.blockNumber + 1 })
      hs (Holds.absorb_zero (input.take 8192))
    have hcount' : t.blockNumber + 1 - 1 + (chunks 8192 (input.drop 8192 ++ [0])).length
        = t.blockNumber - 1 + ((chunks 8192 (input.drop 8192 ++ [0])).length + 1) := by omega
    rw [hloop, ih (input.drop 8192).length (by omega) _ hpush hrest hqueue (Nat.succ_pos _)
      (by show t.blockNumber + 1 + (input.drop 8192).length < 2 ^ 64; omega) rfl, hchunks]
    simp only [List.flatMap_cons, List.length_cons, List.append_assoc, pushLeaf, hcount']
  have hlast : input.length < 8192 := Nat.lt_of_not_le hfull
  have hchunks : chunks 8192 (input ++ [0]) = [input ++ [0]] :=
    chunks_of_length_le (List.append_ne_nil_of_right_ne_nil input (List.cons_ne_nil 0 []))
      (by rw [List.length_append]; exact hlast)
  rw [hchunks]
  simp only [List.flatMap_singleton, List.length_singleton, hcount]
  cases input with
  | nil =>
    -- the zero byte alone is the last leaf
    rw [leafLoop_nil t hlen]
    exact output_closeQueue_nil hs hqueue (Nat.lt_of_le_of_lt (Nat.le_add_right ..) hnumber) hL
  | cons b bs =>
    have hlt : 0 < (b :: bs).length := Nat.succ_pos _
    rw [leafLoop_last t hlen hlt hlast]
    exact output_closeQueue
      (t := { t with queueNode := absorb .zero (b :: bs), queueAbsorbedLen := (b :: bs).length })
      hs (Holds.absorb_zero _) (Nat.ne_of_gt hlt) (by show t.blockNumber + 1 < _; omega) hL

/-! ## The hash -/

/-- A message in one chunk. -/
theorem output_closeSingle {node : KangarooTwelveF} {s : Bytes} (h : Holds node s) {L : Nat}
    (hL : L ≤ 168) : output (closeSingle node) L = KangarooTwelve.F 0x07 (s ++ [0]) L := by
  rw [← output_eq h.bumpIndex 0x07 hL, closeSingle, bumpIndex]
  by_cases hfull : node.byteIOIndex + 1 = k12RateInBytes
  · rw [if_pos hfull, dif_pos hfull]
  · rw [if_neg hfull, dif_neg hfull]

/-- The port on a message and its length. -/
theorem kangarooTwelve_of_length (queueNode : KangarooTwelveF) (input : Bytes)
    (inputByteLen : UInt32)
    (hlen : inputByteLen.toNat = input.length) {L : Nat} (hL : L ≤ 168) :
    kangarooTwelve queueNode input inputByteLen (Nat.le_of_eq hlen) L
      = KangarooTwelve.kt128 input [] L := by
  have hn := firstLen_toNat inputByteLen
  rw [hlen] at hn
  have hfirst : Holds (firstNode input inputByteLen) (input.take (firstLen inputByteLen).toNat) :=
    Holds.absorb_zero _
  rw [kangarooTwelve, closeNode]
  by_cases hfull : firstLen inputByteLen = k12ChunkSize
  · -- a whole first chunk: a tree, even when nothing but the zero byte follows
    have hsize : (firstLen inputByteLen).toNat = 8192 := congrArg UInt32.toNat hfull
    have hleaves := hfirst.beginLeaves (firstNode_index (Nat.le_of_eq hlen) hfull)
    have hle : 8192 ≤ input.length := by omega
    have hrest : (inputByteLen - firstLen inputByteLen).toNat = (input.drop 8192).length := by
      rw [UInt32.toNat_sub_of_le _ _ (UInt32.le_iff_toNat_le.mpr (by omega)), List.length_drop,
        hlen, hsize]
    rw [dif_pos hfull, KangarooTwelve.kt128_tree hle, KangarooTwelve.finalNode, ← List.append_assoc]
    rw [hsize] at hleaves
    by_cases hmore : inputByteLen - firstLen inputByteLen ≠ 0
    · rw [if_pos hmore, hsize]
      refine (output_leafLoop _ hleaves hrest rfl Nat.one_pos ?_ hL).trans ?_
      · have hlt := inputByteLen.toNat_lt
        show 1 + (input.drop 8192).length < 2 ^ 64
        rw [List.length_drop]
        omega
      · simp only [Nat.sub_self, Nat.zero_add]
    · -- the source closes the tree without the loop
      have hzero : (input.drop 8192).length = 0 := by
        rw [← hrest, not_not.mp hmore]
        rfl
      have hchunks : chunks 8192 [0] = [[0]] :=
        chunks_of_length_le (List.cons_ne_nil 0 []) (by decide)
      rw [if_neg hmore, List.eq_nil_of_length_eq_zero hzero, List.nil_append, hchunks,
        List.flatMap_singleton, List.length_singleton]
      refine output_closeTree_queue hleaves Holds.zero_byte Nat.one_ne_zero ?_ hL
      show 1 < 2 ^ 64
      decide
  · have hlast : input.length < 8192 := by
      refine Nat.lt_of_not_le fun hc => hfull (UInt32.toNat_inj.mp ?_)
      rw [hn]
      exact Nat.min_eq_right hc
    rw [dif_neg hfull, KangarooTwelve.kt128_single hlast]
    rw [hn, Nat.min_eq_left (Nat.le_of_lt hlast), List.take_length] at hfirst
    exact output_closeSingle hfirst hL

/-- **`KangarooTwelve` is KT128.** -/
theorem kangarooTwelve_eq (queueNode : KangarooTwelveF) (input : Bytes) (h : input.length < 2 ^ 32)
    {L : Nat} (hL : L ≤ 168) :
    kangarooTwelve queueNode input (UInt32.ofNat input.length)
      (Nat.le_of_eq (UInt32.toNat_ofNat_of_lt' h)) L = KangarooTwelve.kt128 input [] L :=
  kangarooTwelve_of_length queueNode input _ (UInt32.toNat_ofNat_of_lt' h) hL

/-- `kangarooTwelve_eq` on a message of one whole chunk, whose zero byte is a chunk of its own. -/
theorem kangarooTwelve_eq_chunk :
    (List.replicate 8192 (7 : UInt8)).length < 2 ^ 32 ∧ 32 ≤ 168 ∧
      ∃ h, kangarooTwelve .zero (List.replicate 8192 7)
        (UInt32.ofNat (List.replicate 8192 (7 : UInt8)).length) h 32
          = KangarooTwelve.kt128 (List.replicate 8192 7) [] 32 :=
  have h : (List.replicate 8192 (7 : UInt8)).length < 2 ^ 32 := by
    rw [List.length_replicate]
    decide
  ⟨h, by decide, _, kangarooTwelve_eq .zero _ h (by decide)⟩

end ZkQuorum.Crypto
