import ZkQuorum.Crypto.Keccak
import ZkQuorum.Lib.KangarooTwelve

/-!
# Absorption (crypto/src/riscv_fourq_verify.c)

`KangarooTwelve_F_Absorb` has three paths: whole blocks on registers, a partial
block from the start of the state lane by lane, and a partial block from any
position with shifted lanes.

**`absorb_eq`** says that all of them are the byte sponge: the bytes go in one at a
time, and a full block is permuted.

The state is `unsigned char state[200]`, which the code reads as 25 `uint64_t` on a
little-endian machine; here it is its lanes, and `state[i] ^= b` is `xorByte`.
-/

namespace ZkQuorum.Crypto

open Keccak LittleEndian

/-- `K12_rateInBytes`. -/
abbrev k12RateInBytes : Nat := 168

/-- `K12_capacityInBytes`. -/
abbrev k12CapacityInBytes : Nat := 32

theorem rate_pos : 0 < k12RateInBytes := by decide

/-- `KangarooTwelve_F`. The position is inside the block between any two calls. -/
@[ext]
structure KangarooTwelveF where
  state : State
  byteIOIndex : Nat
  index_lt : byteIOIndex < k12RateInBytes

/-- `uint64_t lane; copyMem(&lane, data + j * 8, 8)`. -/
def laneAt (data : Bytes) (j : Nat) : UInt64 := toU64 ((data.drop (j * 8)).take 8)

/-- The 21 lanes of a block xored into the registers. -/
def xorBlock (A : Lanes) (data : Bytes) : Lanes :=
  let d := laneAt data
  { ba := A.ba ^^^ d 0, be := A.be ^^^ d 1, bi := A.bi ^^^ d 2, bo := A.bo ^^^ d 3,
    bu := A.bu ^^^ d 4, ga := A.ga ^^^ d 5, ge := A.ge ^^^ d 6, gi := A.gi ^^^ d 7,
    go := A.go ^^^ d 8, gu := A.gu ^^^ d 9, ka := A.ka ^^^ d 10, ke := A.ke ^^^ d 11,
    ki := A.ki ^^^ d 12, ko := A.ko ^^^ d 13, ku := A.ku ^^^ d 14, ma := A.ma ^^^ d 15,
    me := A.me ^^^ d 16, mi := A.mi ^^^ d 17, mo := A.mo ^^^ d 18, mu := A.mu ^^^ d 19,
    sa := A.sa ^^^ d 20, se := A.se, si := A.si, so := A.so, su := A.su }

/-- The loop over whole blocks: the registers after them, and the data that is left. -/
def absorbBlocks (A : Lanes) (data : Bytes) : Lanes × Bytes :=
  if k12RateInBytes ≤ data.length then
    absorbBlocks (rounds12 (xorBlock A data)) (data.drop k12RateInBytes)
  else (A, data)
termination_by data.length
decreasing_by
  have hle : 168 ≤ data.length := ‹_›
  rw [List.length_drop]
  show data.length - 168 < data.length
  omega

/-- A partial block at the start of the state. -/
def absorbLanes (state : State) (data : Bytes) (partialBlock : Nat) : State :=
  let state := (List.range (partialBlock >>> 3)).foldl
    (fun state j => xorLane state j (laneAt data j)) state
  if partialBlock &&& 7 ≠ 0 then
    xorLane state (partialBlock >>> 3)
      (toU64 ((data.drop (partialBlock &&& 0xFFFFFFF8)).take (partialBlock &&& 7)))
  else state

/-- The loop over a partial block from the byte `offsetInLane` of a lane on. -/
def absorbShifted (state : State) (lanePosition : Nat) (offsetInLane : Fin 8) (curData : Bytes)
    (sizeLeft : Nat) : State :=
  if 0 < sizeLeft then
    let bytesInLane := if 8 - offsetInLane.val > sizeLeft then sizeLeft else 8 - offsetInLane.val
    let lane := toU64 (curData.take bytesInLane)
    let state := xorLane state lanePosition (lane <<< UInt64.ofNat (offsetInLane.val <<< 3))
    absorbShifted state (lanePosition + 1) 0 (curData.drop bytesInLane) (sizeLeft - bytesInLane)
  else state
termination_by sizeLeft
decreasing_by
  split <;> omega

/-- The whole blocks are consumed. -/
theorem length_absorbBlocks (A : Lanes) (data : Bytes) :
    (absorbBlocks A data).2.length = data.length % k12RateInBytes := by
  induction A, data using absorbBlocks.induct with
  | case1 A data h ih =>
    rw [absorbBlocks, if_pos h, ih, List.length_drop]
    exact (Nat.mod_eq_sub_mod h).symm
  | case2 A data h =>
    rw [absorbBlocks, if_neg h]
    exact (Nat.mod_eq_of_lt (Nat.lt_of_not_le h)).symm

/-- `partialBlock`, an `unsigned char`: what fits into the block, or all that is left. -/
def partialBlock (byteIOIndex dataByteLen : Nat) : Nat :=
  if k12RateInBytes < dataByteLen + byteIOIndex then k12RateInBytes - byteIOIndex
  else dataByteLen % 2 ^ 8

/-- The partial block stays inside the block and inside the data, and is not empty. -/
theorem partialBlock_spec {byteIOIndex n : Nat} (h : byteIOIndex < k12RateInBytes) (hn : 0 < n) :
    0 < partialBlock byteIOIndex n ∧ partialBlock byteIOIndex n ≤ n
      ∧ byteIOIndex + partialBlock byteIOIndex n ≤ k12RateInBytes := by
  simp only [partialBlock, k12RateInBytes] at *
  split <;> omega

/-- The state after `n` bytes of a partial block. -/
def absorbPartial (inst : KangarooTwelveF) (data : Bytes) (n : Nat) : State :=
  if inst.byteIOIndex = 0 then absorbLanes inst.state data n
  else absorbShifted inst.state (inst.byteIOIndex >>> 3)
    ⟨inst.byteIOIndex &&& 7, Nat.and_lt_two_pow _ (by decide : 7 < 2 ^ 3)⟩ data n

/-- `KangarooTwelve_F_Absorb`, with `data` from the current position on. -/
def absorb (inst : KangarooTwelveF) (data : Bytes) : KangarooTwelveF :=
  if _hdata : data = [] then inst
  else if _hblock : inst.byteIOIndex = 0 ∧ k12RateInBytes ≤ data.length then
    let r := absorbBlocks (copyFromState inst.state) data
    absorb { inst with state := copyToState r.1 } r.2
  else
    let n := partialBlock inst.byteIOIndex data.length
    let state := absorbPartial inst data n
    if _hfull : inst.byteIOIndex + n = k12RateInBytes then
      absorb ⟨keccakP1600Permute12rounds state, 0, rate_pos⟩ (data.drop n)
    else
      absorb ⟨state, inst.byteIOIndex + n, by
        have hn := partialBlock_spec inst.index_lt (List.length_pos_of_ne_nil _hdata)
        omega⟩ (data.drop n)
termination_by data.length
decreasing_by
  · rw [length_absorbBlocks]
    exact Nat.lt_of_lt_of_le (Nat.mod_lt _ (by decide)) _hblock.2
  all_goals
    have hn := partialBlock_spec inst.index_lt (List.length_pos_of_ne_nil _hdata)
    rw [List.length_drop]
    omega

/-! ## The paths -/

/-- `& 0xFFFFFFF8` and `& ~7` round a byte down to whole lanes. -/
theorem and_not_seven : ∀ n < 2 ^ 8, n &&& 0xFFFFFFF8 = 8 * (n / 8) := by decide +kernel

/-- The byte sponge of the port. -/
abbrev sponge : Sponge State := KangarooTwelve.sponge

/-- The registers after the block is xored in hold the state with its bytes xored in. -/
theorem copyToState_xorBlock (s : State) (data : Bytes) :
    copyToState (xorBlock (copyFromState s) data) = sponge.xorBytes s 0 (data.take 168) := by
  have hlane : ∀ j (hj : j < 25), (sponge.xorBytes s 0 (data.take 168))[j]
      = if j < 21 then s[j] ^^^ laneAt data j else s[j] := by
    intro j hj
    have hget := getElem_xorBytes 168 (by decide) 12 s 0
      (data.take 168) j hj
    rw [if_pos (Nat.zero_le j), List.drop_take, List.take_take, Nat.sub_zero] at hget
    refine hget.trans ?_
    by_cases h21 : j < 21
    · rw [if_pos h21, Nat.min_eq_left (show 8 ≤ 168 - 8 * j by omega), laneAt, Nat.mul_comm]
    · rw [if_neg h21, Nat.min_eq_right (by omega), show 168 - 8 * j = 0 by omega, List.take_zero]
      exact UInt64.xor_zero
  apply Vector.ext
  intro i hi
  rw [hlane i hi]
  interval_cases i <;> rfl

/-- Whole blocks on the registers are whole blocks of the byte sponge. -/
theorem absorbBlocks_eq (A : Lanes) (data : Bytes) :
    sponge.absorb (sponge.start (copyToState A)) data
      = sponge.absorb (sponge.start (copyToState (absorbBlocks A data).1))
        (absorbBlocks A data).2 := by
  induction A, data using absorbBlocks.induct with
  | case1 A data h ih =>
    have htake : (data.take 168).length = 168 := List.length_take_of_le h
    have hblock := Sponge.absorb_of_eq (sponge.start (copyToState A))
      (show 0 + (data.take 168).length = 168 by omega)
    have hpermute : copyToState (rounds12 (xorBlock A data))
        = permute 12 (sponge.xorBytes (copyToState A) 0 (data.take 168)) := by
      rw [← copyToState_xorBlock, copyFromState_copyToState, ← keccakP1600Permute12rounds_eq,
        keccakP1600Permute12rounds, copyFromState_copyToState]
    rw [absorbBlocks, if_pos h, ← ih, hpermute]
    conv => lhs; rw [← List.take_append_drop 168 data]
    rw [Sponge.absorb_append, hblock]
    rfl
  | case2 A data h => rw [absorbBlocks, if_neg h]

/-- Whole lanes from the start of the state. -/
theorem foldl_xorLane_eq (s : State) {data : Bytes} (k : Nat) (hk : 8 * k ≤ data.length) :
    (List.range k).foldl (fun state j => xorLane state j (laneAt data j)) s
      = sponge.xorBytes s 0 (data.take (8 * k)) := by
  induction k with
  | zero => rfl
  | succ k ih =>
    have htake : (data.take (8 * k)).length = 8 * k := List.length_take_of_le (by omega)
    have hlane := xorBytes_lane 168 (by decide) 12
      (sponge.xorBytes s 0 (data.take (8 * k))) (8 * k) ((data.drop (8 * k)).take 8)
      (by rw [List.length_take]; omega)
    rw [Nat.mul_succ, List.take_add, Sponge.xorBytes_append, htake, Nat.zero_add]
    refine Eq.trans ?_ hlane.symm
    rw [List.range_succ, List.foldl_append, ih (by omega), show 8 * k / 8 = k by omega,
      show 8 * k % 8 = 0 by omega]
    show xorLane _ k (laneAt data k) = _
    rw [laneAt, Nat.mul_comm k]
    exact congrArg _ UInt64.shiftLeft_zero.symm

/-- Lane by lane from the start of the state. -/
theorem absorbLanes_eq (s : State) {data : Bytes} {n : Nat} (h : n ≤ data.length)
    (hn : n < 2 ^ 8) :
    absorbLanes s data n = sponge.xorBytes s 0 (data.take n) := by
  have hdiv : n >>> 3 = n / 8 := Nat.shiftRight_eq_div_pow n 3
  have hmod : n &&& 7 = n % 8 := Nat.and_two_pow_sub_one_eq_mod n 3
  have hround : n &&& 0xFFFFFFF8 = 8 * (n / 8) := and_not_seven n hn
  have hsplit : data.take n
      = data.take (8 * (n / 8)) ++ (data.drop (8 * (n / 8))).take (n % 8) := by
    rw [← List.take_add, Nat.div_add_mod]
  have htake : (data.take (8 * (n / 8))).length = 8 * (n / 8) := List.length_take_of_le (by omega)
  have htail := xorBytes_lane 168 (by decide) 12
    (sponge.xorBytes s 0 (data.take (8 * (n / 8)))) (8 * (n / 8))
    ((data.drop (8 * (n / 8))).take (n % 8)) (by rw [List.length_take]; omega)
  rw [show 8 * (n / 8) / 8 = n / 8 by omega, show 8 * (n / 8) % 8 = 0 by omega] at htail
  rw [absorbLanes, hdiv, hmod, foldl_xorLane_eq s (n / 8) (by omega), hsplit,
    Sponge.xorBytes_append, htake, Nat.zero_add]
  refine Eq.trans ?_ htail.symm
  -- the bytes after the last whole lane, if there are any
  by_cases h0 : n % 8 = 0
  · rw [h0, if_neg (by decide), List.take_zero, show toU64 [] = 0 from rfl,
      UInt64.zero_shiftLeft, xorLane_zero]
  · rw [if_pos h0, hround]
    exact congrArg _ UInt64.shiftLeft_zero.symm

/-- Shifted lanes from any position. -/
theorem absorbShifted_eq (s : State) (lanePosition : Nat) (offsetInLane : Fin 8)
    {curData : Bytes} {sizeLeft : Nat} (h : sizeLeft ≤ curData.length) :
    absorbShifted s lanePosition offsetInLane curData sizeLeft
      = sponge.xorBytes s (8 * lanePosition + offsetInLane.val) (curData.take sizeLeft) := by
  induction hn : sizeLeft using Nat.strongRecOn generalizing s lanePosition offsetInLane curData
    sizeLeft with
  | ind n ih =>
  subst hn
  rw [absorbShifted]
  by_cases h0 : 0 < sizeLeft
  · rw [if_pos h0]
    have hoff := offsetInLane.isLt
    generalize hb : (if 8 - offsetInLane.val > sizeLeft then sizeLeft else 8 - offsetInLane.val) = b
    have hb' : b = min sizeLeft (8 - offsetInLane.val) := by
      rw [← hb]
      split <;> omega
    have htake : (curData.take b).length = b := List.length_take_of_le (by omega)
    have hlane := xorBytes_lane 168 (by decide) 12 s
      (8 * lanePosition + offsetInLane.val) (curData.take b) (by omega)
    rw [show (8 * lanePosition + offsetInLane.val) / 8 = lanePosition by omega,
      show (8 * lanePosition + offsetInLane.val) % 8 = offsetInLane.val by omega] at hlane
    have hshift : offsetInLane.val <<< 3 = 8 * offsetInLane.val := by
      rw [Nat.shiftLeft_eq, Nat.mul_comm]
    have hsplit : curData.take sizeLeft
        = curData.take b ++ (curData.drop b).take (sizeLeft - b) := by
      rw [← List.take_add, show b + (sizeLeft - b) = sizeLeft by omega]
    rw [hsplit, Sponge.xorBytes_append, htake]
    show absorbShifted (xorLane s lanePosition (toU64 (curData.take b) <<<
      UInt64.ofNat (offsetInLane.val <<< 3))) (lanePosition + 1) 0 (curData.drop b)
      (sizeLeft - b) = _
    rw [hshift, ih (sizeLeft - b) (by omega) _ _ _ (by rw [List.length_drop]; omega) rfl]
    rw [show sponge.xorBytes s (8 * lanePosition + offsetInLane.val) (curData.take b) = _
      from hlane]
    -- the next lane starts where this one ends, unless nothing is left
    by_cases hleft : sizeLeft - b = 0
    · rw [hleft, List.take_zero]
      rfl
    · rw [show 8 * lanePosition + offsetInLane.val + b = 8 * (lanePosition + 1) by omega]
      rfl
  · rw [if_neg h0, show sizeLeft = 0 by omega, List.take_zero]
    rfl

/-- Both partial paths xor the bytes in at the position. -/
theorem absorbPartial_eq (inst : KangarooTwelveF) {data : Bytes} {n : Nat} (h : n ≤ data.length)
    (hn : n < 2 ^ 8) :
    absorbPartial inst data n = sponge.xorBytes inst.state inst.byteIOIndex (data.take n) := by
  rw [absorbPartial]
  by_cases h0 : inst.byteIOIndex = 0
  · rw [if_pos h0, absorbLanes_eq _ h hn, h0]
  · have hdiv : inst.byteIOIndex >>> 3 = inst.byteIOIndex / 8 := Nat.shiftRight_eq_div_pow _ 3
    have hmod : inst.byteIOIndex &&& 7 = inst.byteIOIndex % 8 :=
      Nat.and_two_pow_sub_one_eq_mod _ 3
    rw [if_neg h0, absorbShifted_eq _ _ _ h]
    simp only [hdiv, hmod, Nat.div_add_mod]

/-! ## Absorption -/

/-- The state and the position as the byte sponge has them. -/
def KangarooTwelveF.toAbsorbing (inst : KangarooTwelveF) : sponge.Absorbing :=
  ⟨inst.state, inst.byteIOIndex, inst.index_lt⟩

/-- A partial block that fills the block. -/
theorem absorb_partial_full (inst : KangarooTwelveF) {data : Bytes} {n : Nat} (h : n ≤ data.length)
    (hfull : inst.byteIOIndex + n = k12RateInBytes) :
    sponge.absorb inst.toAbsorbing (data.take n)
      = (KangarooTwelveF.mk (keccakP1600Permute12rounds (absorbPartial inst data n)) 0
          (by decide)).toAbsorbing := by
  have hlen : (data.take n).length = n := List.length_take_of_le h
  rw [absorbPartial_eq inst h (by simp only [k12RateInBytes] at hfull; omega),
    keccakP1600Permute12rounds_eq]
  exact Sponge.absorb_of_eq inst.toAbsorbing (by rw [hlen]; exact hfull)

/-- A partial block that leaves room. -/
theorem absorb_partial_lt (inst : KangarooTwelveF) {data : Bytes} {n : Nat} (h : n ≤ data.length)
    (hlt : inst.byteIOIndex + n < k12RateInBytes) :
    sponge.absorb inst.toAbsorbing (data.take n)
      = (KangarooTwelveF.mk (absorbPartial inst data n) (inst.byteIOIndex + n)
          hlt).toAbsorbing := by
  have hlen : (data.take n).length = n := List.length_take_of_le h
  rw [absorbPartial_eq inst h (by simp only [k12RateInBytes] at hlt; omega),
    Sponge.absorb_of_lt inst.toAbsorbing (by rw [hlen]; exact hlt)]
  simp only [KangarooTwelveF.toAbsorbing, hlen]

/-- **`KangarooTwelve_F_Absorb` is the byte sponge.** -/
theorem absorb_eq (inst : KangarooTwelveF) (data : Bytes) :
    (absorb inst data).toAbsorbing = sponge.absorb inst.toAbsorbing data := by
  -- the cases are the branches of the loop: nothing left, whole blocks, a part of a block that
  -- fills it, and one that does not
  induction inst, data using absorb.induct with
  | case1 inst => rw [absorb, dif_pos rfl, Sponge.absorb_nil]
  | case2 inst data hdata hblock r ih =>
    have hstart : inst.toAbsorbing = sponge.start (copyToState (copyFromState inst.state)) := by
      rw [copyToState_copyFromState]
      exact Sponge.Absorbing.ext rfl hblock.1
    rw [absorb, dif_neg hdata, dif_pos hblock, ih, hstart, absorbBlocks_eq]
    congr 1
    exact Sponge.Absorbing.ext rfl hblock.1
  | case3 inst data hdata hblock n state hfull ih =>
    have hn := partialBlock_spec inst.index_lt (List.length_pos_of_ne_nil hdata)
    rw [absorb, dif_neg hdata, dif_neg hblock, dif_pos hfull, ih,
      ← absorb_partial_full inst hn.2.1 hfull, ← Sponge.absorb_append, List.take_append_drop]
  | case4 inst data hdata hblock n state hfull ih =>
    have hn := partialBlock_spec inst.index_lt (List.length_pos_of_ne_nil hdata)
    rw [absorb, dif_neg hdata, dif_neg hblock, dif_neg hfull, ih,
      ← absorb_partial_lt inst hn.2.1 (by omega), ← Sponge.absorb_append, List.take_append_drop]

end ZkQuorum.Crypto
