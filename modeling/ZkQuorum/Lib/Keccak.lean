import ZkQuorum.Lib.Sponge
import Mathlib.Data.List.FinRange

/-!
# Keccak-p[1600]

The permutation of FIPS 202 on 25 lanes of 64 bits; the lane `(x, y)` is at index
`x + 5 y`. The rotation offsets and the round constants are computed as the
standard defines them, from the walk over the lanes and from the shift register.

A state is also a string of 200 bytes, each lane least significant byte first;
`bytes` and `ofBytes` go between the two. `xorByte` and `xorLane` are the two ways to write
into a state, and `getElem_xorBytes` says which lanes a block of bytes lands in.
-/

namespace Keccak

open LittleEndian

/-- The 1600 bits of the state, as lanes. -/
abbrev State := Vector UInt64 25

/-- The coordinates have numerals. -/
instance neZeroFive : NeZero (5 : Nat) := ⟨by decide⟩

/-- The lane `(x, y)`. -/
def lane (A : State) (x y : Fin 5) : UInt64 := A[x.val + 5 * y.val]

/-- The state with these lanes. -/
def ofLanes (f : Fin 5 → Fin 5 → UInt64) : State :=
  Vector.ofFn fun i => f ⟨i.val % 5, by omega⟩ ⟨i.val / 5, by omega⟩

/-- The state of zero bits. -/
def zero : State := Vector.replicate 25 0

/-- A lane rotated to the left. -/
def rotl (v : UInt64) (n : Nat) : UInt64 := ⟨v.toBitVec.rotateLeft n⟩

/-- The column parity `C[x]`. -/
def columnParity (A : State) (x : Fin 5) : UInt64 :=
  lane A x 0 ^^^ lane A x 1 ^^^ lane A x 2 ^^^ lane A x 3 ^^^ lane A x 4

/-- The step θ. -/
def theta (A : State) : State :=
  ofLanes fun x y => lane A x y ^^^ (columnParity A (x - 1) ^^^ rotl (columnParity A (x + 1)) 1)

/-- The lanes in the order in which ρ visits them, from `(1, 0)` on. -/
def walk : Nat → Fin 5 × Fin 5
  | 0 => (1, 0)
  | t + 1 => ((walk t).2, 2 * (walk t).1 + 3 * (walk t).2)

/-- The rotation offset of the lane `(x, y)`: `(t + 1)(t + 2) / 2` at step `t` of the walk. -/
def rhoOffset (x y : Fin 5) : Nat :=
  match (List.range 24).find? fun t => walk t = (x, y) with
  | some t => (t + 1) * (t + 2) / 2 % 64
  | none => 0

/-- The step ρ. -/
def rho (A : State) : State := ofLanes fun x y => rotl (lane A x y) (rhoOffset x y)

/-- The step π. -/
def pi (A : State) : State := ofLanes fun x y => lane A (x + 3 * y) x

/-- The step χ. -/
def chi (A : State) : State :=
  ofLanes fun x y => lane A x y ^^^ (~~~ lane A (x + 1) y &&& lane A (x + 2) y)

/-- The shift register of the round constants, after `t` steps. -/
def shiftRegister : Nat → Nat
  | 0 => 1
  | t + 1 =>
    let R := shiftRegister t * 2
    if R.testBit 8 then R ^^^ 0x171 else R

/-- The round constant of round `ir`. -/
def roundConstant (ir : Nat) : UInt64 :=
  (List.range 7).foldl
    (fun rc j =>
      rc ||| (UInt64.ofNat (shiftRegister (j + 7 * ir) % 2) <<< UInt64.ofNat (2 ^ j - 1))) 0

/-- The step ι with the round constant `rc`. -/
def iota (rc : UInt64) (A : State) : State :=
  ofLanes fun x y => if x = 0 ∧ y = 0 then lane A x y ^^^ rc else lane A x y

/-- One round with the round constant `rc`. -/
def round (rc : UInt64) (A : State) : State := iota rc (chi (pi (rho (theta A))))

/-- Keccak-p[1600, `nr`]: the last `nr` rounds of Keccak-f[1600]. -/
def permute (nr : Nat) (A : State) : State :=
  (List.range' (24 - nr) nr).foldl (fun A ir => round (roundConstant ir) A) A

/-! ## Lanes -/

@[simp] theorem lane_ofLanes (f : Fin 5 → Fin 5 → UInt64) (x y : Fin 5) :
    lane (ofLanes f) x y = f x y := by
  have hx : (⟨(x.val + 5 * y.val) % 5, by omega⟩ : Fin 5) = x := Fin.ext (by simp only []; omega)
  have hy : (⟨(x.val + 5 * y.val) / 5, by omega⟩ : Fin 5) = y := Fin.ext (by simp only []; omega)
  rw [lane, ofLanes, Vector.getElem_ofFn, hx, hy]

/-- States with the same lanes are equal. -/
theorem ext_lanes {A B : State} (h : ∀ x y, lane A x y = lane B x y) : A = B := by
  apply Vector.ext
  intro i hi
  have hxy := h ⟨i % 5, by omega⟩ ⟨i / 5, by omega⟩
  simp only [lane] at hxy
  simpa only [show i % 5 + 5 * (i / 5) = i by omega] using hxy

/-- A lane after a round. -/
theorem lane_round (rc : UInt64) (A : State) (x y : Fin 5) :
    lane (round rc A) x y =
      let B := fun x y : Fin 5 => rotl (lane A (x + 3 * y) x
        ^^^ (columnParity A (x + 3 * y - 1) ^^^ rotl (columnParity A (x + 3 * y + 1)) 1))
          (rhoOffset (x + 3 * y) x)
      let v := B x y ^^^ (~~~ B (x + 1) y &&& B (x + 2) y)
      if x = 0 ∧ y = 0 then v ^^^ rc else v := by
  simp only [round, iota, chi, pi, rho, theta, lane_ofLanes]

@[simp] theorem rotl_zero (v : UInt64) : rotl v 0 = v := by
  apply UInt64.toBitVec_inj.mp
  show v.toBitVec.rotateLeft 0 = v.toBitVec
  apply BitVec.eq_of_getLsbD_eq
  intro i hi
  simp [hi]

/-- A rotation from its two shifts. -/
theorem rotl_eq (v : UInt64) {n : Nat} (h0 : 0 < n) (h : n < 64) :
    (v <<< UInt64.ofNat n) ^^^ (v >>> UInt64.ofNat (64 - n)) = rotl v n := by
  apply UInt64.toBitVec_inj.mp
  show _ = v.toBitVec.rotateLeft n
  rw [BitVec.rotateLeft_def, Nat.mod_eq_of_lt h]
  apply BitVec.eq_of_getLsbD_eq
  intro i hi
  simp only [UInt64.toBitVec_xor, UInt64.toBitVec_shiftLeft, UInt64.toBitVec_shiftRight,
    UInt64.toBitVec_ofNat']
  have hn : ((BitVec.ofNat 64 n) % 64).toNat = n := by
    simp [BitVec.toNat_umod, Nat.mod_eq_of_lt h]
  have hm : ((BitVec.ofNat 64 (64 - n)) % 64).toNat = 64 - n := by
    simp [BitVec.toNat_umod, Nat.mod_eq_of_lt (show 64 - n < 64 by omega)]
  simp only [BitVec.getLsbD_xor, BitVec.getLsbD_or, BitVec.shiftLeft_eq', BitVec.ushiftRight_eq',
    BitVec.getLsbD_shiftLeft, BitVec.getLsbD_ushiftRight, hn, hm]
  -- the two shifts have no bit in common
  by_cases hin : i < n
  · simp [hin]
  · have hge : v.toBitVec.getLsbD (64 - n + i) = false := BitVec.getLsbD_of_ge _ _ (by omega)
    simp [hge]

/-- The round constants of the last 12 rounds. -/
theorem roundConstant_last :
    (List.range' 12 12).map roundConstant =
      [0x000000008000808B, 0x800000000000008B, 0x8000000000008089, 0x8000000000008003,
       0x8000000000008002, 0x8000000000000080, 0x000000000000800A, 0x800000008000000A,
       0x8000000080008081, 0x8000000000008080, 0x0000000080000001, 0x8000000080008008] := by
  decide +kernel

/-! ## Bytes -/

/-- The 200 bytes of a state. -/
def bytes (A : State) : Bytes := A.toList.flatMap ofU64

/-- A word xored into the lane at index `j`. -/
def xorLane (A : State) (j : Nat) (v : UInt64) : State :=
  if h : j < 25 then A.set j (A[j] ^^^ v) else A

/-- A byte xored into the byte at index `i`. -/
def xorByte (A : State) (i : Nat) (b : UInt8) : State :=
  xorLane A (i / 8) (b.toUInt64 <<< UInt64.ofNat (8 * (i % 8)))

@[simp] theorem length_bytes (A : State) : (bytes A).length = 200 := by
  rw [bytes, length_flatMap_blocks fun v _ => length_ofU64 v, Vector.length_toList]

theorem getElem_xorLane (A : State) (j : Nat) (v : UInt64) (i : Nat) (hi : i < 25) :
    (xorLane A j v)[i] = if i = j then A[i] ^^^ v else A[i] := by
  by_cases hij : i = j
  · subst hij
    simp [xorLane, hi]
  · rw [if_neg hij, xorLane]
    split
    next hj => exact Vector.getElem_set_ne hj hi (Ne.symm hij)
    next => rfl

@[simp] theorem xorLane_zero (A : State) (j : Nat) : xorLane A j 0 = A := by
  apply Vector.ext
  intro i hi
  rw [getElem_xorLane, UInt64.xor_zero, ite_self]

/-- Two words in the same lane. -/
theorem xorLane_xorLane (A : State) (j : Nat) (v w : UInt64) :
    xorLane (xorLane A j v) j w = xorLane A j (v ^^^ w) := by
  apply Vector.ext
  intro i hi
  simp only [getElem_xorLane]
  split
  · rw [UInt64.xor_assoc]
  · rfl

theorem xorByte_zero (A : State) (i : Nat) : xorByte A i 0 = A := by
  rw [xorByte, show (0 : UInt8).toUInt64 = 0 from rfl, UInt64.zero_shiftLeft, xorLane_zero]

theorem xorByte_xorByte (A : State) (i : Nat) (a b : UInt8) :
    xorByte (xorByte A i a) i b = xorByte A i (a ^^^ b) := by
  rw [xorByte, xorByte, xorByte, xorLane_xorLane, UInt8.toUInt64_xor, UInt64.shiftLeft_xor]

/-- The state in 200 bytes. -/
def ofBytes (s : Bytes) : State := Vector.ofFn fun j => toU64 ((s.drop (j.val * 8)).take 8)

theorem getElem_ofBytes (s : Bytes) {j : Nat} (hj : j < 25) :
    (ofBytes s)[j] = toU64 ((s.drop (j * 8)).take 8) := Vector.getElem_ofFn hj

@[simp] theorem ofBytes_bytes (A : State) : ofBytes (bytes A) = A := by
  apply Vector.ext
  intro j hj
  have hlt : j < A.toList.length := by
    rw [Vector.length_toList]
    exact hj
  have hlane := take_drop_flatMap (fun v _ => length_ofU64 v) hlt []
  rw [List.append_nil] at hlane
  rw [getElem_ofBytes, bytes, hlane, toU64_ofU64, Vector.getElem_toList]

@[simp] theorem bytes_ofBytes {s : Bytes} (h : s.length = 200) : bytes (ofBytes s) = s := by
  have hlanes : (ofBytes s).toList
      = (List.range 25).map fun j => toU64 ((s.drop (j * 8)).take 8) := by
    rw [ofBytes, Vector.toList_ofFn, List.ofFn_eq_map, ← List.map_coe_finRange_eq_range,
      List.map_map]
    rfl
  have hback : ∀ j ∈ List.range 25,
      ofU64 (toU64 ((s.drop (j * 8)).take 8)) = (s.drop (j * 8)).take 8 := by
    intro j hj
    have hlt := List.mem_range.mp hj
    apply ofU64_toU64
    rw [List.length_take, List.length_drop, h]
    omega
  rw [bytes, hlanes, List.flatMap_map, List.flatMap_congr hback, flatMap_take_drop]
  exact List.take_of_length_le (by omega)

/-- A byte xored in at its place among the bytes. -/
theorem ofBytes_modify {s : Bytes} {i : Nat} (b : UInt8) (hs : s.length = 200) :
    ofBytes (s.modify i (· ^^^ b)) = xorByte (ofBytes s) i b := by
  apply Vector.ext
  intro j hj
  rw [xorByte, getElem_xorLane, getElem_ofBytes, getElem_ofBytes]
  rcases Nat.lt_trichotomy (i / 8) j with hlt | heq | hgt
  · rw [if_neg (by omega), List.drop_modify_of_lt _ _ _ _ (by omega)]
  · subst heq
    have hlen : ((s.drop (i / 8 * 8)).take 8).length = 8 := by
      rw [List.length_take, List.length_drop, hs]
      omega
    rw [if_pos rfl, List.drop_modify_of_ge _ _ _ _ (by omega), List.take_modify,
      show i - i / 8 * 8 = i % 8 by omega, toU64_modify b (by omega) (by omega)]
  · rw [if_neg (by omega), List.drop_modify_of_ge _ _ _ _ (by omega), List.take_modify,
      List.modify_eq_self (by rw [List.length_take]; omega)]

/-- The sponge over Keccak-p[1600, `nr`]. -/
def sponge (rate : Nat) (rate_pos : 0 < rate) (nr : Nat) : Sponge State where
  rate := rate
  rate_pos := rate_pos
  xorByte := xorByte
  permute := permute nr
  xorByte_zero := xorByte_zero
  xorByte_xorByte := xorByte_xorByte

variable (rate : Nat) (rate_pos : 0 < rate) (nr : Nat)

/-- Bytes that stay inside one lane. -/
theorem xorBytes_lane (A : State) (i : Nat) (bs : Bytes) (h : i % 8 + bs.length ≤ 8) :
    (sponge rate rate_pos nr).xorBytes A i bs
      = xorLane A (i / 8) (toU64 bs <<< UInt64.ofNat (8 * (i % 8))) := by
  induction bs generalizing A i with
  | nil => rw [show toU64 [] = 0 from rfl, UInt64.zero_shiftLeft, xorLane_zero, Sponge.xorBytes_nil]
  | cons b bs ih =>
    rw [List.length_cons] at h
    rw [toU64_cons (by omega), UInt64.shiftLeft_xor, ← xorLane_xorLane, Sponge.xorBytes_cons]
    cases bs with
    | nil =>
      rw [show toU64 [] = 0 from rfl, UInt64.zero_shiftLeft, UInt64.zero_shiftLeft, xorLane_zero]
      rfl
    | cons c cs =>
      rw [List.length_cons] at h
      -- another byte follows, so this one is not the last of its lane
      have hdiv : (i + 1) / 8 = i / 8 := by omega
      have hmod : (i + 1) % 8 = i % 8 + 1 := by omega
      rw [ih _ _ (by rw [List.length_cons]; omega), hdiv, hmod, ← UInt64.shiftLeft_add_of_toNat_lt]
      · have hshift : (8 : UInt64) + UInt64.ofNat (8 * (i % 8))
            = UInt64.ofNat (8 * (i % 8 + 1)) := by
          rw [Nat.mul_add, UInt64.ofNat_add, UInt64.add_comm]
          rfl
        rw [hshift]
        rfl
      · rw [UInt64.toNat_ofNat', Nat.mod_eq_of_lt (by omega)]
        show 8 + 8 * (i % 8) < 64
        omega

/-- **The lanes of a block.** A block xored in from the lane `k` on: the lane `j` receives the
8 bytes of the block that lie over it. -/
theorem getElem_xorBytes (A : State) (k : Nat) (bs : Bytes) (j : Nat) (hj : j < 25) :
    ((sponge rate rate_pos nr).xorBytes A (8 * k) bs)[j]
      = if k ≤ j then A[j] ^^^ toU64 ((bs.drop (8 * (j - k))).take 8) else A[j] := by
  induction hlen : bs.length using Nat.strongRecOn generalizing A k bs with
  | ind n ih =>
  by_cases hnil : bs = []
  · subst hnil
    rw [List.drop_nil, List.take_nil, show toU64 [] = 0 from rfl, UInt64.xor_zero, ite_self]
    rfl
  have hpos := List.length_pos_of_ne_nil hnil
  have htake : (bs.take 8).length ≤ 8 := List.length_take_le 8 bs
  have hhead : (sponge rate rate_pos nr).xorBytes A (8 * k) (bs.take 8)
      = xorLane A k (toU64 (bs.take 8)) := by
    rw [xorBytes_lane rate rate_pos nr A (8 * k) _ (by omega), show 8 * k / 8 = k by omega,
      show 8 * k % 8 = 0 by omega]
    exact congrArg _ UInt64.shiftLeft_zero
  -- a last piece of fewer than 8 bytes has nothing after it
  have hrest : (sponge rate rate_pos nr).xorBytes (xorLane A k (toU64 (bs.take 8)))
        (8 * k + (bs.take 8).length) (bs.drop 8)
      = (sponge rate rate_pos nr).xorBytes (xorLane A k (toU64 (bs.take 8)))
        (8 * (k + 1)) (bs.drop 8) := by
    by_cases h8 : 8 ≤ bs.length
    · rw [List.length_take_of_le h8, Nat.mul_succ]
    · rw [List.drop_of_length_le (by omega), Sponge.xorBytes_nil, Sponge.xorBytes_nil]
  have hsplit := Sponge.xorBytes_append (S := sponge rate rate_pos nr) A (8 * k) (bs.take 8)
    (bs.drop 8)
  rw [List.take_append_drop] at hsplit
  rw [hsplit, hhead, hrest, ih (bs.drop 8).length (by rw [List.length_drop]; omega) _ _ _ rfl,
    getElem_xorLane]
  rcases Nat.lt_trichotomy j k with hjk | hjk | hjk
  · rw [if_neg (by omega), if_neg (by omega), if_neg (by omega)]
  · subst hjk
    rw [if_neg (by omega), if_pos rfl, if_pos (Nat.le_refl _), Nat.sub_self, Nat.mul_zero,
      List.drop_zero]
  · rw [if_pos (show k + 1 ≤ j by omega), if_neg (by omega), if_pos (by omega), List.drop_drop,
      show 8 + 8 * (j - (k + 1)) = 8 * (j - k) by omega]

end Keccak
