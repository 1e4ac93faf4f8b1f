import ZkQuorum.Crypto.Fp2
import ZkQuorum.Lib.Memory

/-!
# The bigint2 shims (methods/guest/src/bigint2.rs)

In the guest, field products and inverses come from precompiles whose results the host
supplies. The shims copy their operands into scratch arrays, let the host answer, and copy
the answer out if it is below p.

- `Host` is what the shims rely on: numbers of 256 bits with the right residue, and
  nothing else about them.
- `run` is a guest program that computes on its memory and calls the shims, with a host of
  its own at each step. Pointers count 32-bit words.
- `ideal` is the same program on a machine that has the field operations.
- **`host_cannot_steer`**: a run panics or ends with the memory of the ideal one, so the
  memory does not depend on the hosts. `run_honest` is the other direction: no honest
  answer is refused.
-/

namespace ZkQuorum.Guest.Bigint2

open Crypto

/-! ## Words -/

/-- A `[u32; 8]`. -/
structure U256 where
  w0 : UInt32
  w1 : UInt32
  w2 : UInt32
  w3 : UInt32
  w4 : UInt32
  w5 : UInt32
  w6 : UInt32
  w7 : UInt32
deriving DecidableEq

namespace U256

/-- The words 0..4. -/
def low (r : U256) : Nat :=
  r.w0.toNat + 2 ^ 32 * r.w1.toNat + 2 ^ 64 * r.w2.toNat + 2 ^ 96 * r.w3.toNat

/-- The words 4..8. -/
def high (r : U256) : Nat :=
  r.w4.toNat + 2 ^ 32 * r.w5.toNat + 2 ^ 64 * r.w6.toNat + 2 ^ 96 * r.w7.toNat

/-- The number, little-endian. -/
def value (r : U256) : Nat := r.low + 2 ^ 128 * r.high

/-- The words of a number. -/
def ofNat (n : Nat) : U256 where
  w0 := .ofNat n
  w1 := .ofNat (n / 2 ^ 32)
  w2 := .ofNat (n / 2 ^ 64)
  w3 := .ofNat (n / 2 ^ 96)
  w4 := .ofNat (n / 2 ^ 128)
  w5 := .ofNat (n / 2 ^ 160)
  w6 := .ofNat (n / 2 ^ 192)
  w7 := .ofNat (n / 2 ^ 224)

theorem value_ofNat {n : Nat} (h : n < 2 ^ 256) : (ofNat n).value = n := by
  simp only [value, low, high, ofNat, UInt32.toNat_ofNat']
  omega

end U256

/-- p = 2^127 - 1 as 256-bit little-endian words. -/
def P : U256 := ⟨0xFFFFFFFF, 0xFFFFFFFF, 0xFFFFFFFF, 0x7FFFFFFF, 0, 0, 0, 0⟩

/-- p^2 = 2^254 - 2^128 + 1, in two halves. -/
def P2 : U256 × U256 :=
  (⟨1, 0, 0, 0, 0xFFFFFFFF, 0xFFFFFFFF, 0xFFFFFFFF, 0x3FFFFFFF⟩, ⟨0, 0, 0, 0, 0, 0, 0, 0⟩)

theorem value_P : P.value = p1271 := by decide

theorem value_P2 : P2.1.value + 2 ^ 256 * P2.2.value = P.value ^ 2 := by decide

/-! ## The precompiles -/

/-- The precompiles, as a host answers them: the residues are right. -/
structure Host where
  modmul256 : U256 → U256 → U256 → U256
  extfieldXxoneMul256 : U256 × U256 → U256 × U256 → U256 → U256 × U256 → U256 × U256
  modinv256 : U256 → U256 → U256
  modmul_congr : ∀ x y p : U256, 0 < p.value →
    (modmul256 x y p).value ≡ x.value * y.value [MOD p.value]
  extfield_congr_re : ∀ (x y : U256 × U256) (p : U256) (p2 : U256 × U256), 0 < p.value →
    p2.1.value + 2 ^ 256 * p2.2.value = p.value ^ 2 →
      ((extfieldXxoneMul256 x y p p2).1.value : Int)
        ≡ x.1.value * y.1.value - x.2.value * y.2.value [ZMOD p.value]
  extfield_congr_im : ∀ (x y : U256 × U256) (p : U256) (p2 : U256 × U256), 0 < p.value →
    p2.1.value + 2 ^ 256 * p2.2.value = p.value ^ 2 →
      ((extfieldXxoneMul256 x y p p2).2.value : Int)
        ≡ x.1.value * y.2.value + x.2.value * y.1.value [ZMOD p.value]
  modinv_congr : ∀ a p : U256, 0 < p.value → a.value.Coprime p.value →
    a.value * (modinv256 a p).value ≡ 1 [MOD p.value]

/-! ## The shims -/

/-- The memory of the guest and the scratch arrays. -/
structure Machine where
  mem : Memory UInt32
  X : U256 × U256
  Y : U256 × U256
  R : U256 × U256

/-- `put`: the words 0..4 of a coefficient. -/
def put (m : Memory UInt32) (src : Nat) (dst : U256) : U256 :=
  { dst with w0 := m src, w1 := m (src + 1), w2 := m (src + 2), w3 := m (src + 3) }

/-- `take`: none is the panic `bigint2 result not reduced`. -/
def take (r : U256) (dst : Nat) (m : Memory UInt32) : Option (Memory UInt32) :=
  let hi := r.w4 ||| r.w5 ||| r.w6 ||| r.w7
  let ltP := r.w3 < 0x7FFFFFFF || (r.w3 == 0x7FFFFFFF && (r.w0 &&& r.w1 &&& r.w2) != 0xFFFFFFFF)
  if hi == 0 && ltP then
    some ((((m.set dst r.w0).set (dst + 1) r.w1).set (dst + 2) r.w2).set (dst + 3) r.w3)
  else none

/-- `zkq_fpmul1271`. -/
def zkqFpmul1271 (host : Host) (a b c : Nat) (s : Machine) : Option Machine := do
  let x := put s.mem a s.X.1
  let y := put s.mem b s.Y.1
  let r := host.modmul256 x y P
  let mem ← take r c s.mem
  some { mem, X := (x, s.X.2), Y := (y, s.Y.2), R := (r, s.R.2) }

/-- `zkq_fp2mul1271`. -/
def zkqFp2mul1271 (host : Host) (a b c : Nat) (s : Machine) : Option Machine := do
  let x := (put s.mem a s.X.1, put s.mem (a + 4) s.X.2)
  let y := (put s.mem b s.Y.1, put s.mem (b + 4) s.Y.2)
  let r := host.extfieldXxoneMul256 x y P P2
  let mem ← take r.1 c s.mem
  let mem ← take r.2 (c + 4) mem
  some { mem, X := x, Y := y, R := r }

/-- `zkq_fpinv1271`. -/
def zkqFpinv1271 (host : Host) (a c : Nat) (s : Machine) : Option Machine := do
  let x := put s.mem a s.X.1
  let r := host.modinv256 x P
  let mem ← take r c s.mem
  some { mem, X := (x, s.X.2), Y := s.Y, R := (r, s.R.2) }

/-- A call of a shim, with its pointers. -/
inductive Call where
  | fpmul1271 (a b c : Nat)
  | fp2mul1271 (a b c : Nat)
  | fpinv1271 (a c : Nat)

/-- What the guest does next: it computes on its memory, or calls a shim. -/
inductive Action where
  | compute (f : Memory UInt32 → Memory UInt32)
  | call (c : Call)

/-- A guest program: the next action, from the step and the memory. -/
abbrev Program := Nat → Memory UInt32 → Action

def Call.exec (host : Host) (s : Machine) : Call → Option Machine
  | .fpmul1271 a b c => zkqFpmul1271 host a b c s
  | .fp2mul1271 a b c => zkqFp2mul1271 host a b c s
  | .fpinv1271 a c => zkqFpinv1271 host a c s

def Action.exec (host : Host) (s : Machine) : Action → Option Machine
  | .compute f => some { s with mem := f s.mem }
  | .call c => c.exec host s

/-- The first `n` steps of a program, with a host for each step. None is a panic. -/
def run (program : Program) (hosts : Nat → Host) : Nat → Machine → Option Machine
  | 0, s => some s
  | n + 1, s => do
    let s ← run program hosts n s
    (program n s.mem).exec (hosts n) s

/-! ## The ideal machine -/

/-- The number that a `felm_t` spells. -/
def felm (m : Memory UInt32) (p : Nat) : Nat :=
  (m p).toNat + 2 ^ 32 * (m (p + 1)).toNat + 2 ^ 64 * (m (p + 2)).toNat + 2 ^ 96 * (m (p + 3)).toNat

/-- The representative in `[0, p - 1]` stored. -/
def store (m : Memory UInt32) (p : Nat) (x : Fp) : Memory UInt32 :=
  (((m.set p (.ofNat x.val)).set (p + 1) (.ofNat (x.val / 2 ^ 32))).set (p + 2)
    (.ofNat (x.val / 2 ^ 64))).set (p + 3) (.ofNat (x.val / 2 ^ 96))

/-- The two components of an element of GF(p^2), one after the other. -/
def storeFp2 (m : Memory UInt32) (p : Nat) (x : Fp2) : Memory UInt32 :=
  store (store m p x.re) (p + 4) x.im

/-- The element of GF(p) at a pointer. -/
def fpAt (m : Memory UInt32) (p : Nat) : Fp := felm m p

/-- The element of GF(p^2) at a pointer. -/
def fp2At (m : Memory UInt32) (p : Nat) : Fp2 := ⟨fpAt m p, fpAt m (p + 4)⟩

/-- The field operation of a call. -/
def Call.ideal (m : Memory UInt32) : Call → Memory UInt32
  | .fpmul1271 a b c => store m c (fpAt m a * fpAt m b)
  | .fp2mul1271 a b c => storeFp2 m c (fp2At m a * fp2At m b)
  | .fpinv1271 a c => store m c (fpAt m a)⁻¹

def Action.ideal (m : Memory UInt32) : Action → Memory UInt32
  | .compute f => f m
  | .call c => c.ideal m

/-- The memory after the first `n` steps of a program. -/
def ideal (program : Program) : Nat → Memory UInt32 → Memory UInt32
  | 0, m => m
  | n + 1, m => (program n (ideal program n m)).ideal (ideal program n m)

/-- An inverse is asked of an element that is not 0 modulo p only. The products take all
operands. -/
def Action.InDomain (m : Memory UInt32) : Action → Prop
  | .call (.fpinv1271 a _) => fpAt m a ≠ 0
  | _ => True

/-- The first `n` steps of a program stay in the domain. -/
def InDomain (program : Program) (n : Nat) (m : Memory UInt32) : Prop :=
  ∀ k < n, (program k (ideal program k m)).InDomain (ideal program k m)

/-- Only words 0..4 of each coefficient are written. -/
structure Machine.Clean (s : Machine) : Prop where
  x0 : s.X.1.high = 0
  x1 : s.X.2.high = 0
  y0 : s.Y.1.high = 0
  y1 : s.Y.2.high = 0

/-- The scratch arrays as they are linked. -/
def Machine.start (mem : Memory UInt32) : Machine where
  mem := mem
  X := (.ofNat 0, .ofNat 0)
  Y := (.ofNat 0, .ofNat 0)
  R := (.ofNat 0, .ofNat 0)

theorem clean_start (mem : Memory UInt32) : (Machine.start mem).Clean := ⟨rfl, rfl, rfl, rfl⟩

/-! ## Operands and results -/

section Words

variable {m : Memory UInt32} {r : U256}

theorem high_put (m : Memory UInt32) (src : Nat) (dst : U256) : (put m src dst).high = dst.high :=
  rfl

/-- An operand in a scratch array is the number at its pointer. -/
theorem value_put {dst : U256} (src : Nat) (h : dst.high = 0) :
    (put m src dst).value = felm m src := by
  rw [U256.value, high_put, h]
  rfl

theorem cast_value_put {dst : U256} (src : Nat) (h : dst.high = 0) :
    ((put m src dst).value : Fp) = fpAt m src := by
  rw [value_put src h, fpAt]

theorem high_eq_zero_iff : r.w4 ||| r.w5 ||| r.w6 ||| r.w7 = 0 ↔ r.high = 0 := by
  simp only [UInt32.or_eq_zero_iff]
  simp only [← UInt32.toNat_inj, U256.high, UInt32.reduceToNat]
  omega

/-- The comparison with the words of p. -/
theorem low_lt_iff : (r.w3 < 0x7FFFFFFF ∨
    r.w3 = 0x7FFFFFFF ∧ r.w0 &&& r.w1 &&& r.w2 ≠ 0xFFFFFFFF) ↔ r.low < p1271 := by
  have hones : r.w0 &&& r.w1 &&& r.w2 = 0xFFFFFFFF
      ↔ (r.w0 = 0xFFFFFFFF ∧ r.w1 = 0xFFFFFFFF) ∧ r.w2 = 0xFFFFFFFF := by
    rw [show (0xFFFFFFFF : UInt32) = -1 from rfl, UInt32.and_eq_neg_one_iff,
      UInt32.and_eq_neg_one_iff]
  have h0 := r.w0.toNat_lt
  have h1 := r.w1.toNat_lt
  have h2 := r.w2.toNat_lt
  have h3 := r.w3.toNat_lt
  rw [Ne, hones]
  simp only [UInt32.lt_iff_toNat_lt, ← UInt32.toNat_inj, U256.low, p1271, UInt32.reduceToNat]
  omega

/-- The test of `take`. -/
theorem accepted_iff : (r.w4 ||| r.w5 ||| r.w6 ||| r.w7 == 0 &&
    (r.w3 < 0x7FFFFFFF || (r.w3 == 0x7FFFFFFF && (r.w0 &&& r.w1 &&& r.w2) != 0xFFFFFFFF)))
      ↔ r.value < p1271 := by
  simp only [Bool.and_eq_true, Bool.or_eq_true, beq_iff_eq, bne_iff_ne, decide_eq_true_eq]
  rw [high_eq_zero_iff, low_lt_iff, U256.value]
  unfold p1271
  omega

/-- The words of a number below p. -/
theorem store_value (m : Memory UInt32) (dst : Nat) (h : r.value < p1271) :
    store m dst (r.value : Fp)
      = (((m.set dst r.w0).set (dst + 1) r.w1).set (dst + 2) r.w2).set (dst + 3) r.w3 := by
  have hval : (r.value : Fp).val = r.low := by
    have hhigh : r.value = r.low := by
      unfold U256.value p1271 at h
      unfold U256.value
      omega
    rw [ZMod.val_natCast_of_lt h, hhigh]
  have hw0 := r.w0.toNat_lt
  have hw1 := r.w1.toNat_lt
  have hw2 := r.w2.toNat_lt
  have hw3 := r.w3.toNat_lt
  have h0 : UInt32.ofNat r.low = r.w0 := by
    rw [← UInt32.toNat_inj, UInt32.toNat_ofNat', U256.low]
    omega
  have h1 : UInt32.ofNat (r.low / 2 ^ 32) = r.w1 := by
    rw [← UInt32.toNat_inj, UInt32.toNat_ofNat', U256.low]
    omega
  have h2 : UInt32.ofNat (r.low / 2 ^ 64) = r.w2 := by
    rw [← UInt32.toNat_inj, UInt32.toNat_ofNat', U256.low]
    omega
  have h3 : UInt32.ofNat (r.low / 2 ^ 96) = r.w3 := by
    rw [← UInt32.toNat_inj, UInt32.toNat_ofNat', U256.low]
    omega
  rw [store, hval, h0, h1, h2, h3]

/-- What `take` does: it stores the residue, if the answer is its representative below p. -/
theorem take_eq (dst : Nat) (m : Memory UInt32) :
    take r dst m = if r.value < p1271 then some (store m dst r.value) else none := by
  rw [take]
  by_cases h : r.value < p1271
  · rw [if_pos h, store_value m dst h, if_pos (accepted_iff.mpr h)]
  · rw [if_neg h, if_neg (fun hacc => h (accepted_iff.mp hacc))]

theorem take_of_lt (h : r.value < p1271) (dst : Nat) (m : Memory UInt32) :
    ∃ m', take r dst m = some m' := by
  rw [take_eq, if_pos h]
  exact ⟨_, rfl⟩

theorem take_eq_some {dst : Nat} {m m' : Memory UInt32} (h : take r dst m = some m') :
    m' = store m dst r.value := by
  rw [take_eq] at h
  by_cases hlt : r.value < p1271
  · rw [if_pos hlt] at h
    exact (Option.some.inj h).symm
  · rw [if_neg hlt] at h
    cases h

end Words

/-! ## One step -/

section Step

variable {host : Host} {s s' : Machine}

theorem cast_modmul256 (host : Host) (x y : U256) :
    ((host.modmul256 x y P).value : Fp) = x.value * y.value := by
  have h := host.modmul_congr x y P (by decide)
  rw [value_P] at h
  have hcast := (ZMod.natCast_eq_natCast_iff _ _ _).mpr h
  rwa [Nat.cast_mul] at hcast

theorem cast_extfieldXxoneMul256 (host : Host) (x y : U256 × U256) :
    (⟨(host.extfieldXxoneMul256 x y P P2).1.value, (host.extfieldXxoneMul256 x y P P2).2.value⟩
      : Fp2) = ⟨x.1.value, x.2.value⟩ * ⟨y.1.value, y.2.value⟩ := by
  have hre := host.extfield_congr_re x y P P2 (by decide) value_P2
  have him := host.extfield_congr_im x y P P2 (by decide) value_P2
  rw [value_P] at hre him
  have hcre := (ZMod.intCast_eq_intCast_iff _ _ _).mpr hre
  have hcim := (ZMod.intCast_eq_intCast_iff _ _ _).mpr him
  push_cast at hcre hcim
  apply Fp2.ext
  · rw [re_mul]
    exact hcre
  · rw [im_mul]
    exact hcim

theorem cast_modinv256 (host : Host) {a : U256} (ha : (a.value : Fp) ≠ 0) :
    ((host.modinv256 a P).value : Fp) = (a.value : Fp)⁻¹ := by
  have hcoprime : a.value.Coprime p1271 := by
    rw [Nat.coprime_comm, Nat.Prime.coprime_iff_not_dvd Fact.out, ← ZMod.natCast_eq_zero_iff]
    exact ha
  rw [← value_P] at hcoprime
  have h := host.modinv_congr a P (by decide) hcoprime
  rw [value_P] at h
  have hcast := (ZMod.natCast_eq_natCast_iff _ _ _).mpr h
  rw [Nat.cast_mul, Nat.cast_one] at hcast
  exact eq_inv_of_mul_eq_one_right hcast

theorem zkqFpmul1271_spec {a b c : Nat} (hs : s.Clean) (h : zkqFpmul1271 host a b c s = some s') :
    s'.Clean ∧ s'.mem = store s.mem c (fpAt s.mem a * fpAt s.mem b) := by
  rw [zkqFpmul1271, Option.bind_eq_bind, Option.bind_eq_some_iff] at h
  obtain ⟨mem, htake, heq⟩ := h
  cases heq
  refine ⟨⟨hs.x0, hs.x1, hs.y0, hs.y1⟩, ?_⟩
  show mem = _
  rw [take_eq_some htake, cast_modmul256, cast_value_put a hs.x0, cast_value_put b hs.y0]

theorem zkqFp2mul1271_spec {a b c : Nat} (hs : s.Clean)
    (h : zkqFp2mul1271 host a b c s = some s') :
    s'.Clean ∧ s'.mem = storeFp2 s.mem c (fp2At s.mem a * fp2At s.mem b) := by
  rw [zkqFp2mul1271, Option.bind_eq_bind, Option.bind_eq_some_iff] at h
  obtain ⟨mem, htake, h⟩ := h
  rw [Option.bind_eq_some_iff] at h
  obtain ⟨mem', htake', heq⟩ := h
  cases heq
  refine ⟨⟨hs.x0, hs.x1, hs.y0, hs.y1⟩, ?_⟩
  have hmul := cast_extfieldXxoneMul256 host (put s.mem a s.X.1, put s.mem (a + 4) s.X.2)
    (put s.mem b s.Y.1, put s.mem (b + 4) s.Y.2)
  -- both operands are in the scratch arrays before the first component is written
  dsimp only at hmul
  rw [cast_value_put a hs.x0, cast_value_put (a + 4) hs.x1, cast_value_put b hs.y0,
    cast_value_put (b + 4) hs.y1] at hmul
  show mem' = _
  rw [take_eq_some htake', take_eq_some htake, fp2At, fp2At, ← hmul, storeFp2]

theorem zkqFpinv1271_spec {a c : Nat} (hs : s.Clean) (ha : fpAt s.mem a ≠ 0)
    (h : zkqFpinv1271 host a c s = some s') :
    s'.Clean ∧ s'.mem = store s.mem c (fpAt s.mem a)⁻¹ := by
  rw [zkqFpinv1271, Option.bind_eq_bind, Option.bind_eq_some_iff] at h
  obtain ⟨mem, htake, heq⟩ := h
  cases heq
  refine ⟨⟨hs.x0, hs.x1, hs.y0, hs.y1⟩, ?_⟩
  have hput := cast_value_put (m := s.mem) a hs.x0
  show mem = _
  rw [take_eq_some htake, cast_modinv256 host (hput ▸ ha), hput]

/-- A step that does not panic is the ideal step. -/
theorem step_spec {action : Action} (hs : s.Clean) (hin : action.InDomain s.mem)
    (h : action.exec host s = some s') : s'.Clean ∧ s'.mem = action.ideal s.mem := by
  cases action with
  | compute f =>
    cases h
    exact ⟨⟨hs.x0, hs.x1, hs.y0, hs.y1⟩, rfl⟩
  | call c =>
    cases c with
    | fpmul1271 a b c => exact zkqFpmul1271_spec hs h
    | fp2mul1271 a b c => exact zkqFp2mul1271_spec hs h
    | fpinv1271 a c => exact zkqFpinv1271_spec hs hin h

end Step

/-! ## Runs -/

section Run

variable {program : Program} {hosts : Nat → Host} {s s' : Machine}

/-- A run that does not panic is the ideal run, by induction on the steps. -/
theorem run_spec (hs : s.Clean) : ∀ {n : Nat} {s' : Machine}, InDomain program n s.mem →
    run program hosts n s = some s' → s'.Clean ∧ s'.mem = ideal program n s.mem := by
  intro n
  induction n with
  | zero =>
    intro s' _ h
    cases h
    exact ⟨hs, rfl⟩
  | succ n ih =>
    intro s' hin h
    rw [run, Option.bind_eq_bind, Option.bind_eq_some_iff] at h
    obtain ⟨t, ht, hstep⟩ := h
    obtain ⟨htclean, htmem⟩ := ih (fun k hk => hin k (Nat.lt_succ_of_lt hk)) ht
    have hlast := hin n (Nat.lt_succ_self n)
    rw [← htmem] at hlast
    rw [ideal, ← htmem]
    exact step_spec htclean hlast hstep

end Run

/-! ## Honest hosts -/

namespace U256

theorem value_lt (r : U256) : r.value < 2 ^ 256 := by
  have h0 := r.w0.toNat_lt
  have h1 := r.w1.toNat_lt
  have h2 := r.w2.toNat_lt
  have h3 := r.w3.toNat_lt
  have h4 := r.w4.toNat_lt
  have h5 := r.w5.toNat_lt
  have h6 := r.w6.toNat_lt
  have h7 := r.w7.toNat_lt
  unfold value low high
  omega

/-- The representative below p of an integer. -/
def residue (z : Int) (p : U256) : U256 := .ofNat (z % p.value).toNat

theorem value_residue (z : Int) {p : U256} (hp : 0 < p.value) :
    ((residue z p).value : Int) = z % p.value := by
  have hlt := p.value_lt
  have hnonneg := Int.emod_nonneg z (b := p.value) (by omega)
  have hmod := Int.emod_lt_of_pos z (b := p.value) (by omega)
  rw [residue, value_ofNat (by omega)]
  exact Int.toNat_of_nonneg hnonneg

theorem residue_congr (z : Int) {p : U256} (hp : 0 < p.value) :
    ((residue z p).value : Int) ≡ z [ZMOD p.value] := by
  rw [value_residue z hp]
  exact Int.mod_modEq z _

end U256

/-- The host that answers with the representatives below p. -/
def Host.honest : Host where
  modmul256 x y p := .residue (x.value * y.value) p
  extfieldXxoneMul256 x y p _ :=
    (.residue (x.1.value * y.1.value - x.2.value * y.2.value) p,
      .residue (x.1.value * y.2.value + x.2.value * y.1.value) p)
  modinv256 a p := .residue (Nat.gcdA a.value p.value) p
  modmul_congr x y p hp := by
    rw [← Int.natCast_modEq_iff, Nat.cast_mul]
    exact U256.residue_congr _ hp
  extfield_congr_re _ _ _ _ hp _ := U256.residue_congr _ hp
  extfield_congr_im _ _ _ _ hp _ := U256.residue_congr _ hp
  modinv_congr a p hp hcoprime := by
    rw [← Int.natCast_modEq_iff, Nat.cast_mul, Nat.cast_one]
    have hbezout := Nat.gcd_eq_gcd_ab a.value p.value
    rw [hcoprime, Nat.cast_one] at hbezout
    have hinv := (U256.residue_congr (Nat.gcdA a.value p.value) hp).mul_left a.value
    refine hinv.trans ?_
    rw [hbezout]
    exact Int.modEq_add_fac_self.symm

section Honest

variable {s : Machine}

theorem value_residue_lt (z : Int) : (U256.residue z P).value < p1271 := by
  have hval := U256.value_residue z (p := P) (by decide)
  have hmod := Int.emod_lt_of_pos z (b := P.value) (by decide)
  rw [value_P] at hval hmod
  omega

theorem take_residue (z : Int) (dst : Nat) (m : Memory UInt32) :
    ∃ m', take (.residue z P) dst m = some m' := take_of_lt (value_residue_lt z) dst m

/-- No step panics on honest answers. -/
theorem step_honest (s : Machine) (action : Action) :
    ∃ s', action.exec .honest s = some s' := by
  cases action with
  | compute f => exact ⟨_, rfl⟩
  | call c =>
    cases c with
    | fpmul1271 a b c =>
      obtain ⟨m, hm⟩ := take_residue
        ((put s.mem a s.X.1).value * (put s.mem b s.Y.1).value) c s.mem
      exact ⟨_, Option.bind_eq_some_iff.mpr ⟨m, hm, rfl⟩⟩
    | fp2mul1271 a b c =>
      obtain ⟨m, hm⟩ := take_residue ((put s.mem a s.X.1).value * (put s.mem b s.Y.1).value
        - (put s.mem (a + 4) s.X.2).value * (put s.mem (b + 4) s.Y.2).value) c s.mem
      obtain ⟨m', hm'⟩ := take_residue ((put s.mem a s.X.1).value
        * (put s.mem (b + 4) s.Y.2).value + (put s.mem (a + 4) s.X.2).value
          * (put s.mem b s.Y.1).value) (c + 4) m
      exact ⟨_, Option.bind_eq_some_iff.mpr ⟨m, hm, Option.bind_eq_some_iff.mpr ⟨m', hm', rfl⟩⟩⟩
    | fpinv1271 a c =>
      obtain ⟨m, hm⟩ := take_residue (Nat.gcdA (put s.mem a s.X.1).value P.value) c s.mem
      exact ⟨_, Option.bind_eq_some_iff.mpr ⟨m, hm, rfl⟩⟩

/-- A run with honest answers does not panic. -/
theorem run_honest (program : Program) (n : Nat) (s : Machine) :
    ∃ s', run program (fun _ => .honest) n s = some s' := by
  induction n with
  | zero => exact ⟨s, rfl⟩
  | succ n ih =>
    obtain ⟨t, ht⟩ := ih
    obtain ⟨s', hs'⟩ := step_honest t (program n t.mem)
    exact ⟨s', Option.bind_eq_some_iff.mpr ⟨t, ht, hs'⟩⟩

end Honest

/-! ## The elements of the verifier -/

section Elements

variable {m : Memory UInt32} {p q : Nat}

theorem store_ne (x : Fp) (h : q < p ∨ p + 4 ≤ q) : store m p x q = m q := by
  rw [store, Memory.set_ne _ _ (by omega), Memory.set_ne _ _ (by omega),
    Memory.set_ne _ _ (by omega), Memory.set_ne _ _ (by omega)]

/-- What is stored is read back, below p. -/
theorem felm_store (m : Memory UInt32) (p : Nat) (x : Fp) : felm (store m p x) p = x.val := by
  have hlt := Felm.val_lt x
  simp (disch := omega) only [felm, store, Memory.set_same, Memory.set_ne, UInt32.toNat_ofNat']
  omega

theorem felm_store_of_apart (m : Memory UInt32) (x : Fp) (h : q + 4 ≤ p ∨ p + 4 ≤ q) :
    felm (store m p x) q = felm m q := by
  rw [felm, store_ne x (by omega), store_ne x (by omega), store_ne x (by omega),
    store_ne x (by omega), felm]

/-- The words at a pointer spell a `felm_t`. -/
def Spells (m : Memory UInt32) (p : Nat) (x : Felm) : Prop := felm m p = x.value

/-- The words at a pointer spell an `f2elm_t`. -/
def SpellsFp2 (m : Memory UInt32) (p : Nat) (x : F2elm) : Prop :=
  Spells m p x.c0 ∧ Spells m (p + 4) x.c1

theorem Spells.fpAt_eq {x : Felm} (h : Spells m p x) : fpAt m p = x.toFp := by
  rw [fpAt, h, Felm.toFp]

theorem SpellsFp2.fp2At_eq {x : F2elm} (h : SpellsFp2 m p x) : fp2At m p = x.toFp2 := by
  rw [fp2At, h.1.fpAt_eq, h.2.fpAt_eq, F2elm.toFp2]

theorem spells_store (m : Memory UInt32) (p : Nat) (x : Fp) : Spells (store m p x) p (.ofFp x) := by
  rw [Spells, felm_store, Felm.value_ofFp]

theorem spells_storeFp2 (m : Memory UInt32) (p : Nat) (x : Fp2) :
    SpellsFp2 (storeFp2 m p x) p (.ofFp2 x) := by
  constructor
  · rw [Spells, storeFp2, felm_store_of_apart _ _ (.inl (Nat.le_refl _))]
    exact spells_store m p x.re
  · exact spells_store _ _ x.im

end Elements

theorem take_isSome_iff (r : U256) (dst : Nat) (m : Memory UInt32) :
    (take r dst m).isSome ↔ r.value < p1271 := by
  rw [take_eq]
  by_cases h : r.value < p1271
  · rw [if_pos h]
    exact ⟨fun _ => h, fun _ => rfl⟩
  · rw [if_neg h]
    exact ⟨fun hsome => absurd hsome Bool.false_ne_true, fun hlt => absurd hlt h⟩

theorem fpAt_ne_zero {m : Memory UInt32} {a : Nat} {x : Felm} (hx : Spells m a x)
    (hpos : 0 < x.value) (hlt : x.value < p1271) : fpAt m a ≠ 0 := by
  rw [hx.fpAt_eq]
  intro h
  rcases Felm.toFp_eq_zero_iff.mp h with hzero | hp
  · omega
  · omega

/-- **The host cannot steer the field arithmetic**: `take` accepts what is below p, a shim
that returns has stored the reduced product or inverse of its operands, a run that does not panic
ends with the memory of the ideal run, and two such runs with the same memory. -/
theorem host_cannot_steer :
    (∀ (r : U256) (dst : Nat) (m : Memory UInt32), (take r dst m).isSome ↔ r.value < p1271) ∧
    (∀ (host : Host) (s s' : Machine) (a b c : Nat) (x y : Felm), s.Clean →
      Spells s.mem a x → Spells s.mem b y → zkqFpmul1271 host a b c s = some s' →
        Spells s'.mem c (Crypto.zkqFpmul1271 x y)) ∧
    (∀ (host : Host) (s s' : Machine) (a b c : Nat) (x y : F2elm), s.Clean →
      SpellsFp2 s.mem a x → SpellsFp2 s.mem b y → zkqFp2mul1271 host a b c s = some s' →
        SpellsFp2 s'.mem c (Crypto.zkqFp2mul1271 x y)) ∧
    (∀ (host : Host) (s s' : Machine) (a c : Nat) (x : Felm), s.Clean →
      Spells s.mem a x → 0 < x.value → x.value < p1271 → zkqFpinv1271 host a c s = some s' →
        Spells s'.mem c (Crypto.zkqFpinv1271 x)) ∧
    (∀ (program : Program) (hosts : Nat → Host) (n : Nat) (s s' : Machine), s.Clean →
      InDomain program n s.mem → run program hosts n s = some s' →
        s'.Clean ∧ s'.mem = ideal program n s.mem) ∧
    ∀ (program : Program) (hosts hosts' : Nat → Host) (n : Nat) (s t s' t' : Machine), s.Clean →
      t.Clean → s.mem = t.mem → InDomain program n s.mem → run program hosts n s = some s' →
        run program hosts' n t = some t' → s'.mem = t'.mem := by
  refine ⟨take_isSome_iff, ?_, ?_, ?_, ?_, ?_⟩
  · intro host s s' a b c x y hs hx hy h
    rw [(zkqFpmul1271_spec hs h).2, hx.fpAt_eq, hy.fpAt_eq]
    exact spells_store _ _ _
  · intro host s s' a b c x y hs hx hy h
    rw [(zkqFp2mul1271_spec hs h).2, hx.fp2At_eq, hy.fp2At_eq]
    exact spells_storeFp2 _ _ _
  · intro host s s' a c x hs hx hpos hlt h
    rw [(zkqFpinv1271_spec hs (fpAt_ne_zero hx hpos hlt) h).2, hx.fpAt_eq]
    exact spells_store _ _ _
  · intro program hosts n s s' hs hin h
    exact run_spec hs hin h
  · -- both runs end as the ideal run, which asks no host
    intro program hosts hosts' n s t s' t' hs ht hmem hin h h'
    have hideal := (run_spec hs hin h).2
    have hideal' := (run_spec ht (hmem ▸ hin) h').2
    rw [hideal, hideal', hmem]

end ZkQuorum.Guest.Bigint2
