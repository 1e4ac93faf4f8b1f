import ZkQuorum.Crypto.Absorb

/-!
# Absorption in pieces (crypto/src/riscv_fourq_verify.c)

`KangarooTwelve_F_Absorb` as it is declared: the state is 200 bytes, the position and
`partialBlock` are an `unsigned char`, the lengths `unsigned long long`, and the loop goes on
until `i` has reached `dataByteLen`.

- `kangarooTwelveFAbsorb` is the loop, with a bound on its turns; none is a loop that has not
  ended.
- `Node.absorbByte` is one byte of the sponge that takes its data byte by byte.
- **`absorb_in_pieces`**: the loop ends with the node of the byte sponge, so that it does not
  matter in which pieces the data arrives.

`i + K12_rateInBytes` must not wrap. The lengths that the code passes are `unsigned int`, and
an object beside the 208 bytes of a node is shorter than `2 ^ 64 - 168` bytes.
-/

namespace ZkQuorum.Crypto

open Keccak

/-- `KangarooTwelve_F`, as declared. -/
structure Node where
  state : ByteVec 200
  byteIOIndex : UInt8

/-- `(uint64_t*)state`. -/
def lanesOf (state : ByteVec 200) : State := ofBytes state.val

/-- The bytes that are written as lanes. -/
def bytesOf (A : State) : ByteVec 200 := ⟨bytes A, length_bytes A⟩

/-! ## The loop -/

/-- The loop over whole blocks: the registers, `data` and `modifiedDataByteLen` after it. -/
def wholeBlocks (A : Lanes) (data : Bytes) (modifiedDataByteLen : UInt64) :
    Lanes × Bytes × UInt64 :=
  if modifiedDataByteLen ≥ 168 then
    wholeBlocks (rounds12 (xorBlock A data)) (data.drop 168) (modifiedDataByteLen - 168)
  else (A, data, modifiedDataByteLen)
termination_by modifiedDataByteLen.toNat
decreasing_by
  rename_i hge
  have hle : 168 ≤ modifiedDataByteLen.toNat := UInt64.le_iff_toNat_le.mp hge
  rw [UInt64.toNat_sub_of_le _ _ hge]
  show modifiedDataByteLen.toNat - 168 < modifiedDataByteLen.toNat
  omega

theorem offsetInLane_lt (byteIOIndex : UInt8) : byteIOIndex.toNat &&& 7 < 8 :=
  Nat.and_lt_two_pow _ (by decide : 7 < 2 ^ 3)

/-- The state after a partial block. -/
def partialLanes (A : State) (byteIOIndex : UInt8) (data : Bytes) (partialBlock : UInt8) : State :=
  if byteIOIndex = 0 then absorbLanes A data partialBlock.toNat
  else absorbShifted A (byteIOIndex.toNat >>> 3)
    ⟨byteIOIndex.toNat &&& 7, offsetInLane_lt byteIOIndex⟩ data partialBlock.toNat

/-- `partialBlock`, from `dataByteLen - i`. -/
def partialBlockOf (left : UInt64) (byteIOIndex : UInt8) : UInt8 :=
  if left + byteIOIndex.toUInt64 > 168 then 168 - byteIOIndex else left.toUInt8

/-- The variables of the loop; `data` is what is left at the pointer. -/
structure Absorption where
  node : Node
  data : Bytes
  i : UInt64

/-- A turn of the loop. -/
def Absorption.turn (dataByteLen : UInt64) (s : Absorption) : Absorption :=
  let byteIOIndex := s.node.byteIOIndex
  let A := lanesOf s.node.state
  if byteIOIndex = 0 ∧ dataByteLen ≥ s.i + 168 then
    let (A, data, modifiedDataByteLen) := wholeBlocks (copyFromState A) s.data (dataByteLen - s.i)
    ⟨⟨bytesOf (copyToState A), byteIOIndex⟩, data, dataByteLen - modifiedDataByteLen⟩
  else
    let partialBlock := partialBlockOf (dataByteLen - s.i) byteIOIndex
    let i := s.i + partialBlock.toUInt64
    let A := partialLanes A byteIOIndex s.data partialBlock
    let data := s.data.drop partialBlock.toNat
    let byteIOIndex := byteIOIndex + partialBlock
    if byteIOIndex = 168 then ⟨⟨bytesOf (keccakP1600Permute12rounds A), 0⟩, data, i⟩
    else ⟨⟨bytesOf A, byteIOIndex⟩, data, i⟩

/-- The loop, for at most `fuel` turns. -/
def Absorption.loop (dataByteLen : UInt64) : Nat → Absorption → Option Node
  | 0, s => if s.i < dataByteLen then none else some s.node
  | fuel + 1, s =>
    if s.i < dataByteLen then loop dataByteLen fuel (s.turn dataByteLen) else some s.node

/-- `KangarooTwelve_F_Absorb`. -/
def kangarooTwelveFAbsorb (fuel : Nat) (node : Node) (data : Bytes) : Option Node :=
  Absorption.loop (.ofNat data.length) fuel ⟨node, data, 0⟩

/-! ## The byte sponge -/

theorem length_modify_state (state : ByteVec 200) (i : Nat) (b : UInt8) :
    (state.val.modify i (· ^^^ b)).length = 200 := by
  rw [List.length_modify, state.property]

/-- `state[i] ^= b`. -/
def xorAt (state : ByteVec 200) (i : Nat) (b : UInt8) : ByteVec 200 :=
  ⟨state.val.modify i (· ^^^ b), length_modify_state state i b⟩

/-- One byte: it is xored in at `byteIOIndex`, which advances; at 168 the state is permuted and
the position reset. -/
def Node.absorbByte (node : Node) (b : UInt8) : Node :=
  let state := xorAt node.state node.byteIOIndex.toNat b
  let byteIOIndex := node.byteIOIndex + 1
  if byteIOIndex = 168 then ⟨bytesOf (keccakP1600Permute12rounds (lanesOf state)), 0⟩
  else ⟨state, byteIOIndex⟩

/-- The bytes of a string, one at a time. -/
def Node.absorbBytes (node : Node) (data : Bytes) : Node := data.foldl Node.absorbByte node

/-! ## Nodes and lanes -/

theorem val_bytesOf (A : State) : (bytesOf A).val = bytes A := rfl

@[simp] theorem lanesOf_bytesOf (A : State) : lanesOf (bytesOf A) = A := by
  rw [lanesOf, val_bytesOf, ofBytes_bytes]

@[simp] theorem bytesOf_lanesOf (state : ByteVec 200) : bytesOf (lanesOf state) = state := by
  apply Subtype.ext
  rw [val_bytesOf, lanesOf]
  exact bytes_ofBytes state.property

/-- The node of a byte sponge between two bytes. -/
def nodeOf (st : sponge.Absorbing) : Node := ⟨bytesOf st.state, .ofNat st.index⟩

/-- The position fits its byte. -/
theorem byteIOIndex_nodeOf (st : sponge.Absorbing) :
    (nodeOf st).byteIOIndex.toNat = st.index := by
  have hlt : st.index < 168 := st.index_lt
  have hsize : st.index < 2 ^ 8 := by omega
  exact UInt8.toNat_ofNat_of_lt' hsize

theorem byteIOIndex_nodeOf_lt (st : sponge.Absorbing) : (nodeOf st).byteIOIndex < 168 := by
  rw [UInt8.lt_iff_toNat_lt, byteIOIndex_nodeOf]
  exact st.index_lt

/-- A node whose position is inside the block. -/
theorem exists_nodeOf {node : Node} (h : node.byteIOIndex < 168) :
    ∃ inst : KangarooTwelveF, node = nodeOf inst.toAbsorbing := by
  obtain ⟨state, byteIOIndex⟩ := node
  refine ⟨⟨lanesOf state, byteIOIndex.toNat, h⟩, ?_⟩
  show _ = Node.mk (bytesOf (lanesOf state)) (.ofNat byteIOIndex.toNat)
  rw [bytesOf_lanesOf, UInt8.ofNat_toNat]

/-- A byte among the bytes is a byte in its lane. -/
theorem lanesOf_xorAt (state : ByteVec 200) (i : Nat) (b : UInt8) :
    lanesOf (xorAt state i b) = xorByte (lanesOf state) i b :=
  ofBytes_modify b state.property

theorem xorAt_bytesOf (A : State) (i : Nat) (b : UInt8) :
    xorAt (bytesOf A) i b = bytesOf (xorByte A i b) := by
  rw [← bytesOf_lanesOf (xorAt (bytesOf A) i b), lanesOf_xorAt, lanesOf_bytesOf]

/-- The position after a byte. -/
theorem byteIOIndex_add_one (st : sponge.Absorbing) :
    (nodeOf st).byteIOIndex + 1 = .ofNat (st.index + 1) := (UInt8.ofNat_add ..).symm

theorem byteIOIndex_add_one_eq_iff (st : sponge.Absorbing) :
    (nodeOf st).byteIOIndex + 1 = 168 ↔ st.index + 1 = 168 := by
  have hlt : st.index < 168 := st.index_lt
  rw [byteIOIndex_add_one, ← UInt8.toNat_inj, UInt8.toNat_ofNat', Nat.mod_eq_of_lt (by omega)]
  rfl

/-- One byte, on the bytes and on the lanes. -/
theorem absorbByte_nodeOf (st : sponge.Absorbing) (b : UInt8) :
    (nodeOf st).absorbByte b = nodeOf (sponge.absorbByte st b) := by
  have hxor : xorAt (nodeOf st).state (nodeOf st).byteIOIndex.toNat b
      = bytesOf (xorByte st.state st.index b) := by
    rw [byteIOIndex_nodeOf]
    exact xorAt_bytesOf st.state st.index b
  rw [Node.absorbByte, hxor, lanesOf_bytesOf, Sponge.absorbByte]
  by_cases hfull : st.index + 1 = sponge.rate
  · rw [if_pos ((byteIOIndex_add_one_eq_iff st).mpr hfull), dif_pos hfull,
      keccakP1600Permute12rounds_eq]
    rfl
  · rw [if_neg (fun h => hfull ((byteIOIndex_add_one_eq_iff st).mp h)), dif_neg hfull,
      byteIOIndex_add_one]
    rfl

/-- The byte sponge on the bytes is the byte sponge on the lanes. -/
theorem absorbBytes_nodeOf (st : sponge.Absorbing) (data : Bytes) :
    (nodeOf st).absorbBytes data = nodeOf (sponge.absorb st data) :=
  List.foldl_hom nodeOf fun st b => absorbByte_nodeOf st b

theorem byteIOIndex_toAbsorbing (inst : KangarooTwelveF) :
    (nodeOf inst.toAbsorbing).byteIOIndex.toNat = inst.byteIOIndex :=
  byteIOIndex_nodeOf inst.toAbsorbing

theorem byteIOIndex_eq_zero_iff (inst : KangarooTwelveF) :
    (nodeOf inst.toAbsorbing).byteIOIndex = 0 ↔ inst.byteIOIndex = 0 := by
  rw [← UInt8.toNat_inj, byteIOIndex_toAbsorbing]
  rfl

theorem lanesOf_toAbsorbing (inst : KangarooTwelveF) :
    lanesOf (nodeOf inst.toAbsorbing).state = inst.state := lanesOf_bytesOf inst.state

/-! ## The turns -/

/-- The loop over whole blocks counts down the bytes that are left. -/
theorem wholeBlocks_eq (A : Lanes) {data : Bytes} {n : UInt64} (hn : n.toNat = data.length) :
    ∃ left : UInt64, left.toNat = (absorbBlocks A data).2.length ∧
      wholeBlocks A data n = ((absorbBlocks A data).1, (absorbBlocks A data).2, left) := by
  induction A, data using absorbBlocks.induct generalizing n with
  | case1 A data h ih =>
    have hge : (168 : UInt64) ≤ n := by
      rw [UInt64.le_iff_toNat_le, hn]
      exact h
    have hsub : (n - 168).toNat = (data.drop 168).length := by
      rw [UInt64.toNat_sub_of_le _ _ hge, hn, List.length_drop]
      rfl
    rw [absorbBlocks, if_pos h, wholeBlocks, if_pos hge]
    exact ih hsub
  | case2 A data h =>
    have hlt : ¬ (168 : UInt64) ≤ n := by
      rw [UInt64.le_iff_toNat_le, hn]
      exact h
    rw [absorbBlocks, if_neg h, wholeBlocks, if_neg hlt]
    exact ⟨n, hn, rfl⟩

section Turn

variable {inst : KangarooTwelveF} {data : Bytes} {dataByteLen i : UInt64}

/-- The counter and the bytes that are left make up the length, which leaves room for a block
below `2 ^ 64`. -/
structure Counts (dataByteLen i : UInt64) (data : Bytes) : Prop where
  total : i.toNat + data.length = dataByteLen.toNat
  room : dataByteLen.toNat + 168 ≤ 2 ^ 64

theorem Counts.toNat_sub (h : Counts dataByteLen i data) :
    (dataByteLen - i).toNat = data.length := by
  have htotal := h.total
  rw [UInt64.toNat_sub_of_le _ _ (UInt64.le_iff_toNat_le.mpr (by omega))]
  omega

theorem Counts.lt_iff (h : Counts dataByteLen i data) : i < dataByteLen ↔ data ≠ [] := by
  have htotal := h.total
  rw [UInt64.lt_iff_toNat_lt, ← List.length_pos_iff]
  omega

/-- The test for a whole block does not wrap. -/
theorem Counts.block_iff (h : Counts dataByteLen i data) (hdata : data ≠ []) :
    dataByteLen ≥ i + 168 ↔ 168 ≤ data.length := by
  have htotal := h.total
  have hroom := h.room
  have hpos := List.length_pos_of_ne_nil hdata
  have hadd : (i + 168).toNat = i.toNat + 168 := by
    rw [UInt64.toNat_add]
    exact Nat.mod_eq_of_lt (by show i.toNat + 168 < 2 ^ 64; omega)
  rw [ge_iff_le, UInt64.le_iff_toNat_le, hadd]
  omega

/-- A partial block and the position stay below 256. -/
theorem Counts.toNat_partialBlockOf (h : Counts dataByteLen i data) :
    (partialBlockOf (dataByteLen - i) (nodeOf inst.toAbsorbing).byteIOIndex).toNat
      = partialBlock inst.byteIOIndex data.length := by
  have htotal := h.total
  have hroom := h.room
  have hindex : inst.byteIOIndex < 168 := inst.index_lt
  have hbyte := byteIOIndex_toAbsorbing inst
  have hsum : (dataByteLen - i + (nodeOf inst.toAbsorbing).byteIOIndex.toUInt64).toNat
      = data.length + inst.byteIOIndex := by
    rw [UInt64.toNat_add, h.toNat_sub, UInt8.toNat_toUInt64, hbyte]
    exact Nat.mod_eq_of_lt (by omega)
  have hiff : dataByteLen - i + (nodeOf inst.toAbsorbing).byteIOIndex.toUInt64 > 168
      ↔ k12RateInBytes < data.length + inst.byteIOIndex := by
    rw [gt_iff_lt, UInt64.lt_iff_toNat_lt, hsum]
    rfl
  rw [partialBlockOf, partialBlock]
  by_cases hlt : k12RateInBytes < data.length + inst.byteIOIndex
  · rw [if_pos (hiff.mpr hlt), if_pos hlt, UInt8.toNat_sub_of_le, hbyte]
    · rfl
    · rw [UInt8.le_iff_toNat_le, hbyte]
      exact Nat.le_of_lt hindex
  · rw [if_neg (fun hgt => hlt (hiff.mp hgt)), if_neg hlt, UInt64.toNat_toUInt8, h.toNat_sub]

/-- A turn over whole blocks. -/
theorem turn_blocks (h : Counts dataByteLen i data) (hdata : data ≠ [])
    (hblock : inst.byteIOIndex = 0 ∧ k12RateInBytes ≤ data.length) :
    let r := absorbBlocks (copyFromState inst.state) data
    ∃ i', Counts dataByteLen i' r.2 ∧
      Absorption.turn dataByteLen ⟨nodeOf inst.toAbsorbing, data, i⟩
        = ⟨nodeOf { inst with state := copyToState r.1 }.toAbsorbing, r.2, i'⟩ := by
  intro r
  obtain ⟨left, hleft, hblocks⟩ := wholeBlocks_eq (copyFromState inst.state) h.toNat_sub
  have htotal := h.total
  have hrest : left.toNat = r.2.length := hleft
  have hmod : r.2.length ≤ data.length := by
    rw [length_absorbBlocks]
    exact Nat.mod_le _ _
  have hsub : (dataByteLen - left).toNat = dataByteLen.toNat - r.2.length := by
    rw [UInt64.toNat_sub_of_le _ _ (UInt64.le_iff_toNat_le.mpr (by omega)), hrest]
  have hpath : (nodeOf inst.toAbsorbing).byteIOIndex = 0 ∧ dataByteLen ≥ i + 168 :=
    ⟨(byteIOIndex_eq_zero_iff inst).mpr hblock.1, (h.block_iff hdata).mpr hblock.2⟩
  refine ⟨dataByteLen - left, ⟨by omega, h.room⟩, ?_⟩
  rw [Absorption.turn]
  simp only [lanesOf_toAbsorbing, hblocks]
  rw [if_pos hpath]
  rfl

theorem partialLanes_eq (inst : KangarooTwelveF) (data : Bytes) (k : UInt8) :
    partialLanes inst.state (nodeOf inst.toAbsorbing).byteIOIndex data k
      = absorbPartial inst data k.toNat := by
  have hzero := byteIOIndex_eq_zero_iff inst
  rw [partialLanes, absorbPartial]
  by_cases h0 : inst.byteIOIndex = 0
  · rw [if_pos (hzero.mpr h0), if_pos h0]
  · rw [if_neg (fun h => h0 (hzero.mp h)), if_neg h0]
    simp only [byteIOIndex_toAbsorbing]

/-- A turn over a partial block: the bytes go in at the position, and a full block is permuted. -/
theorem turn_partial (h : Counts dataByteLen i data) (hdata : data ≠ [])
    (hblock : ¬ (inst.byteIOIndex = 0 ∧ k12RateInBytes ≤ data.length)) :
    let n := partialBlock inst.byteIOIndex data.length
    let state := absorbPartial inst data n
    ∃ i', Counts dataByteLen i' (data.drop n) ∧
      Absorption.turn dataByteLen ⟨nodeOf inst.toAbsorbing, data, i⟩
        = ⟨if inst.byteIOIndex + n = k12RateInBytes
            then ⟨bytesOf (keccakP1600Permute12rounds state), 0⟩
            else ⟨bytesOf state, .ofNat (inst.byteIOIndex + n)⟩, data.drop n, i'⟩ := by
  intro n state
  have htotal := h.total
  have hroom := h.room
  obtain ⟨_, hle, hin⟩ := partialBlock_spec inst.index_lt (List.length_pos_of_ne_nil hdata)
  have hbound : inst.byteIOIndex + n ≤ 168 := hin
  have hpart : (partialBlockOf (dataByteLen - i) (nodeOf inst.toAbsorbing).byteIOIndex).toNat = n :=
    h.toNat_partialBlockOf
  -- the test of the source, on its counters
  have hpath : ¬ ((nodeOf inst.toAbsorbing).byteIOIndex = 0 ∧ dataByteLen ≥ i + 168) := by
    rintro ⟨hzero, hge⟩
    exact hblock ⟨(byteIOIndex_eq_zero_iff inst).mp hzero, (h.block_iff hdata).mp hge⟩
  rw [Absorption.turn]
  simp only [lanesOf_toAbsorbing]
  rw [if_neg hpath]
  generalize partialBlockOf (dataByteLen - i) (nodeOf inst.toAbsorbing).byteIOIndex = k at hpart ⊢
  have hindex : (nodeOf inst.toAbsorbing).byteIOIndex + k = .ofNat (inst.byteIOIndex + n) := by
    rw [UInt8.ofNat_add, ← hpart, UInt8.ofNat_toNat]
    rfl
  have hfull : (nodeOf inst.toAbsorbing).byteIOIndex + k = 168
      ↔ inst.byteIOIndex + n = k12RateInBytes := by
    rw [hindex, ← UInt8.toNat_inj, UInt8.toNat_ofNat', Nat.mod_eq_of_lt (by omega)]
    rfl
  -- the counter does not wrap, since it stays below the length of the data
  have hadd : (i + k.toUInt64).toNat = i.toNat + n := by
    rw [UInt64.toNat_add, UInt8.toNat_toUInt64, hpart]
    exact Nat.mod_eq_of_lt (by omega)
  refine ⟨i + k.toUInt64, ⟨by rw [hadd, List.length_drop]; omega, hroom⟩, ?_⟩
  rw [partialLanes_eq, hpart, hindex]
  by_cases hend : inst.byteIOIndex + n = k12RateInBytes
  · rw [if_pos (hindex ▸ hfull.mpr hend), if_pos hend]
  · rw [if_neg (fun heq => hend (hfull.mp (hindex ▸ heq))), if_neg hend]

end Turn

/-! ## The runs -/

section Loop

variable {dataByteLen i : UInt64} {data : Bytes}

theorem loop_done (hi : ¬ i < dataByteLen) (fuel : Nat) (node : Node) :
    Absorption.loop dataByteLen fuel ⟨node, data, i⟩ = some node := by
  cases fuel with
  | zero => exact if_neg hi
  | succ fuel => exact if_neg hi

theorem loop_turn (h : Counts dataByteLen i data) (hdata : data ≠ []) {fuel : Nat}
    (hfuel : data.length ≤ fuel) (node : Node) :
    ∃ k, fuel = k + 1 ∧ Absorption.loop dataByteLen fuel ⟨node, data, i⟩
      = Absorption.loop dataByteLen k (Absorption.turn dataByteLen ⟨node, data, i⟩) := by
  have hpos := List.length_pos_of_ne_nil hdata
  obtain ⟨k, rfl⟩ : ∃ k, fuel = k + 1 := ⟨fuel - 1, by omega⟩
  exact ⟨k, rfl, if_pos (h.lt_iff.mpr hdata)⟩

/-- The loop on a node inside its block is the absorption of the lanes. -/
theorem loop_eq (inst : KangarooTwelveF) (data : Bytes) : ∀ {i : UInt64} {fuel : Nat},
    Counts dataByteLen i data → data.length ≤ fuel →
      Absorption.loop dataByteLen fuel ⟨nodeOf inst.toAbsorbing, data, i⟩
        = some (nodeOf (absorb inst data).toAbsorbing) := by
  -- each turn takes at least one byte, so the fuel lasts
  fun_induction absorb inst data with
  | case1 inst =>
    intro i fuel h _
    exact loop_done (fun hlt => h.lt_iff.mp hlt rfl) fuel _
  | case2 inst data hdata hblock r =>
    rename_i ih
    intro i fuel h hfuel
    obtain ⟨i', hcounts, hturn⟩ := turn_blocks h hdata hblock
    have hlen : r.2.length < data.length := by
      rw [length_absorbBlocks]
      exact Nat.lt_of_lt_of_le (Nat.mod_lt _ (by decide)) hblock.2
    obtain ⟨k, rfl, hloop⟩ := loop_turn h hdata hfuel (nodeOf inst.toAbsorbing)
    rw [hloop, hturn]
    exact ih hcounts (by omega)
  | case3 inst data hdata hblock n state =>
    rename_i hfull ih
    intro i fuel h hfuel
    obtain ⟨i', hcounts, hturn⟩ := turn_partial h hdata hblock
    have hn := partialBlock_spec inst.index_lt (List.length_pos_of_ne_nil hdata)
    obtain ⟨k, rfl, hloop⟩ := loop_turn h hdata hfuel (nodeOf inst.toAbsorbing)
    rw [if_pos hfull] at hturn
    rw [hloop, hturn]
    exact ih hcounts (by rw [List.length_drop]; omega)
  | case4 inst data hdata hblock n state =>
    rename_i hfull ih
    intro i fuel h hfuel
    obtain ⟨i', hcounts, hturn⟩ := turn_partial h hdata hblock
    have hn := partialBlock_spec inst.index_lt (List.length_pos_of_ne_nil hdata)
    obtain ⟨k, rfl, hloop⟩ := loop_turn h hdata hfuel (nodeOf inst.toAbsorbing)
    rw [if_neg hfull] at hturn
    rw [hloop, hturn]
    exact ih hcounts (by rw [List.length_drop]; omega)

end Loop

/-- The loop is the byte sponge. -/
theorem kangarooTwelveFAbsorb_nodeOf (st : sponge.Absorbing) {data : Bytes} {fuel : Nat}
    (hdata : data.length + 168 ≤ 2 ^ 64) (hfuel : data.length ≤ fuel) :
    kangarooTwelveFAbsorb fuel (nodeOf st) data = some (nodeOf (sponge.absorb st data)) := by
  have hlen : (UInt64.ofNat data.length).toNat = data.length :=
    UInt64.toNat_ofNat_of_lt' (show data.length < 2 ^ 64 by omega)
  have hcounts : Counts (.ofNat data.length) 0 data :=
    ⟨by rw [hlen]; exact Nat.zero_add _, by rw [hlen]; exact hdata⟩
  have hloop := loop_eq ⟨st.state, st.index, st.index_lt⟩ data hcounts hfuel
  rw [absorb_eq] at hloop
  exact hloop

/-- **Absorption in pieces**: `KangarooTwelve_F_Absorb` ends with the node of the byte sponge, whose
position is inside the block, and two pieces absorbed in turn are absorbed as one. -/
theorem absorb_in_pieces (node : Node) (hnode : node.byteIOIndex < 168) (fuel : Nat) :
    (∀ data : Bytes, data.length + 168 ≤ 2 ^ 64 → data.length ≤ fuel →
      kangarooTwelveFAbsorb fuel node data = some (node.absorbBytes data) ∧
        (node.absorbBytes data).byteIOIndex < 168) ∧
    ∀ a b : Bytes, (a ++ b).length + 168 ≤ 2 ^ 64 → (a ++ b).length ≤ fuel →
      ((kangarooTwelveFAbsorb fuel node a).bind fun node => kangarooTwelveFAbsorb fuel node b)
        = kangarooTwelveFAbsorb fuel node (a ++ b) := by
  obtain ⟨inst, rfl⟩ := exists_nodeOf hnode
  constructor
  · intro data hdata hfuel
    rw [kangarooTwelveFAbsorb_nodeOf _ hdata hfuel, absorbBytes_nodeOf]
    exact ⟨rfl, byteIOIndex_nodeOf_lt _⟩
  · intro a b hdata hfuel
    have hlen : (a ++ b).length = a.length + b.length := List.length_append
    rw [kangarooTwelveFAbsorb_nodeOf _ hdata hfuel,
      kangarooTwelveFAbsorb_nodeOf _ (by omega) (by omega), Option.bind_some,
      kangarooTwelveFAbsorb_nodeOf _ (by omega) (by omega), Sponge.absorb_append]

/-- A block boundary inside the data. -/
theorem absorb_in_pieces_boundary :
    kangarooTwelveFAbsorb 3 ⟨.zero 200, 167⟩ [1, 2, 3]
        = some ((Node.mk (.zero 200) 167).absorbBytes [1, 2, 3]) ∧
      ((kangarooTwelveFAbsorb 3 ⟨.zero 200, 167⟩ [1]).bind fun node =>
          kangarooTwelveFAbsorb 3 node [2, 3])
        = kangarooTwelveFAbsorb 3 ⟨.zero 200, 167⟩ [1, 2, 3] := by
  obtain ⟨hbytes, hpieces⟩ := absorb_in_pieces ⟨.zero 200, 167⟩ (by decide) 3
  exact ⟨(hbytes [1, 2, 3] (by decide) (by decide)).1, hpieces [1] [2, 3] (by decide) (by decide)⟩

end ZkQuorum.Crypto
