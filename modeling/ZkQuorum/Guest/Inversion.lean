import ZkQuorum.Crypto.Chain
import ZkQuorum.Guest.Bigint2

/-!
# Exponentiation and inversion in the guest (crypto/src/riscv_fourq_verify.c)

With `ZKQ_BIGINT2` the products of the chain are calls of the shims, and `fpinv1271` reduces its
operand, answers 0 itself and hands everything else to `zkq_fpinv1271`.

- `Execution` is a guest that may panic, with a record of the numbers that were handed to
  `zkq_fpinv1271`; `words` is its memory as the C code sees it.
- `Follows` is the simulation: a guest that has not panicked has the memory on which each
  product is one store.
- **`exponentiation_and_inversion`**: both builds compute `a ^ (2 ^ 125 - 1)` and the inverse,
  and no run asks for the inverse of a number that is 0 modulo p or not below p.
-/

namespace ZkQuorum.Guest.Inversion

open Crypto Bigint2

/-! ## Words -/

/-- The memory as the C code reads it: pointers count 64-bit words. -/
def words (m : Memory UInt32) : Memory UInt64 := fun p =>
  .ofNat ((m (2 * p)).toNat + 2 ^ 32 * (m (2 * p + 1)).toNat)

/-- The memory as the shims read it. -/
def halves (m : Memory UInt64) : Memory UInt32 := fun q =>
  if q % 2 = 0 then .ofNat (m (q / 2)).toNat else .ofNat ((m (q / 2)).toNat / 2 ^ 32)

theorem toNat_words (m : Memory UInt32) (p : Nat) :
    (words m p).toNat = (m (2 * p)).toNat + 2 ^ 32 * (m (2 * p + 1)).toNat := by
  have h0 := (m (2 * p)).toNat_lt
  have h1 := (m (2 * p + 1)).toNat_lt
  exact UInt64.toNat_ofNat_of_lt' (by show _ < 2 ^ 64; omega)

@[simp] theorem words_halves (m : Memory UInt64) : words (halves m) = m := by
  funext p
  have hlt := (m p).toNat_lt
  have hlow : halves m (2 * p) = .ofNat (m p).toNat := by
    rw [halves, if_pos (by omega), show 2 * p / 2 = p by omega]
  have hhigh : halves m (2 * p + 1) = .ofNat ((m p).toNat / 2 ^ 32) := by
    rw [halves, if_neg (by omega), show (2 * p + 1) / 2 = p by omega]
  apply UInt64.toNat_inj.mp
  rw [toNat_words, hlow, hhigh, UInt32.toNat_ofNat', UInt32.toNat_ofNat']
  omega

/-- An operand of a shim is the number in two words. -/
theorem felm_words (m : Memory UInt32) (p : Nat) :
    felm m (2 * p) = Limbs.value ((words m).pair p) := by
  rw [Limbs.value_eq]
  show _ = (words m p).toNat + 2 ^ 64 * (words m (p + 1)).toNat
  rw [toNat_words, toNat_words, felm, show 2 * (p + 1) = 2 * p + 2 by omega,
    show 2 * p + 2 + 1 = 2 * p + 3 from rfl]
  omega

theorem fpAt_words (m : Memory UInt32) (p : Nat) :
    fpAt m (2 * p) = (Limbs.value ((words m).pair p) : Fp) := by
  rw [fpAt, felm_words]

/-- What a shim stores is two words. -/
theorem words_store (m : Memory UInt32) (c : Nat) (x : Fp) :
    words (store m (2 * c) x) = (words m).setPair c (Felm.ofFp x).limbs := by
  have hread := felm_words (store m (2 * c) x) c
  rw [felm_store, ← Felm.value_ofFp] at hread
  have hpair : (words (store m (2 * c) x)).pair c = (Felm.ofFp x).limbs :=
    (Limbs.value_inj hread).symm
  refine Memory.eq_setPair hpair fun q hq => ?_
  rw [words, words, store_ne x (by omega), store_ne x (by omega)]

/-! ## The guest -/

/-- The guest between two operations. -/
structure Execution where
  /-- none after a panic -/
  machine : Option Machine
  /-- the precompile calls so far; the host answers each on its own -/
  calls : Nat
  /-- the numbers that `zkq_fpinv1271` was handed, the last one first -/
  inverted : List Nat

namespace Execution

/-- The memory of a guest that has not panicked. -/
def mem (s : Execution) : Option (Memory UInt64) :=
  s.machine.map fun machine => words machine.mem

/-- C code that computes on the memory. -/
def compute (f : Memory UInt64 → Memory UInt64) (s : Execution) : Execution :=
  { s with
    machine := s.machine.map fun machine =>
      { machine with mem := halves (f (words machine.mem)) } }

/-- A test of the memory; after a panic nothing is tested. -/
def holds (test : Memory UInt64 → Bool) (s : Execution) : Bool :=
  s.machine.any fun machine => test (words machine.mem)

variable (hosts : Nat → Host)

/-- A call of a shim. -/
def call (shim : Host → Machine → Option Machine) (s : Execution) : Execution :=
  { s with machine := s.machine.bind (shim (hosts s.calls)), calls := s.calls + 1 }

/-- A call of `zkq_fpinv1271`, with its operand on the record. -/
def callFpinv1271 (a c : Nat) (s : Execution) : Execution :=
  { s.call hosts fun host => Bigint2.zkqFpinv1271 host (2 * a) (2 * c) with
    inverted := s.machine.elim s.inverted fun machine =>
      felm machine.mem (2 * a) :: s.inverted }

end Execution

section Build

variable (hosts : Nat → Host)

/-- `fpmul1271`. -/
def fpmul1271 (a b c : Nat) (s : Execution) : Execution :=
  s.call hosts fun host => Bigint2.zkqFpmul1271 host (2 * a) (2 * b) (2 * c)

/-- `fpsqr1271`. -/
def fpsqr1271 (a c : Nat) (s : Execution) : Execution :=
  s.call hosts fun host => Bigint2.zkqFpmul1271 host (2 * a) (2 * a) (2 * c)

/-- The products of the build with `ZKQ_BIGINT2`. -/
def bigint2 : Pointers.Products Execution where
  fpmul1271 := fpmul1271 hosts
  fpsqr1271 := fpsqr1271 hosts

/-- `fpinv1271`. -/
def fpinv1271 (sp a c : Nat) (s : Execution) : Execution :=
  let t := sp
  let s := s.compute fun m => m.setPair t (m.pair a)
  let s := s.compute (Pointers.mod1271 t)
  if s.holds fun m => m t == 0 && m (t + 1) == 0 then
    s.compute fun m => (m.set c 0).set (c + 1) 0
  else s.callFpinv1271 hosts t c

end Build

/-! ## Simulation -/

/-- The scratch arrays of a guest that has not panicked are clean. -/
def Execution.Clean (s : Execution) : Prop := ∀ machine, s.machine = some machine → machine.Clean

/-- A guest that has not panicked has this memory. -/
structure Follows (s : Execution) (m : Memory UInt64) : Prop where
  clean : s.Clean
  mem : ∀ m', s.mem = some m' → m' = m

theorem mem_eq_some {s : Execution} {m : Memory UInt64} :
    s.mem = some m ↔ ∃ machine, s.machine = some machine ∧ words machine.mem = m :=
  Option.map_eq_some_iff

section Simulation

variable {hosts : Nat → Host} {s : Execution} {m : Memory UInt64}

theorem Follows.compute (h : Follows s m) (f : Memory UInt64 → Memory UInt64) :
    Follows (s.compute f) (f m) := by
  constructor
  · intro machine hmachine
    obtain ⟨before, hbefore, rfl⟩ := Option.map_eq_some_iff.mp hmachine
    have hclean := h.clean before hbefore
    exact ⟨hclean.x0, hclean.x1, hclean.y0, hclean.y1⟩
  · intro m' hm'
    obtain ⟨machine, hmachine, rfl⟩ := mem_eq_some.mp hm'
    obtain ⟨before, hbefore, rfl⟩ := Option.map_eq_some_iff.mp hmachine
    have hmem := h.mem _ (mem_eq_some.mpr ⟨before, hbefore, rfl⟩)
    rw [← hmem]
    exact words_halves _

/-- A shim that stores `x` when it returns. -/
theorem Follows.call (h : Follows s m) {shim : Host → Machine → Option Machine} {c : Nat} {x : Fp}
    (hshim : ∀ (machine machine' : Machine), machine.Clean → words machine.mem = m →
      shim (hosts s.calls) machine = some machine' →
        machine'.Clean ∧ machine'.mem = store machine.mem (2 * c) x) :
    Follows (s.call hosts shim) (m.setPair c (Felm.ofFp x).limbs) := by
  have hreturn : ∀ machine', (s.call hosts shim).machine = some machine' →
      machine'.Clean ∧ words machine'.mem = m.setPair c (Felm.ofFp x).limbs := by
    intro machine' hmachine'
    obtain ⟨machine, hmachine, hreturns⟩ := Option.bind_eq_some_iff.mp hmachine'
    have hmem := h.mem _ (mem_eq_some.mpr ⟨machine, hmachine, rfl⟩)
    obtain ⟨hclean, hstore⟩ := hshim machine machine' (h.clean machine hmachine) hmem hreturns
    rw [hstore, words_store, hmem]
    exact ⟨hclean, rfl⟩
  constructor
  · exact fun machine' hmachine' => (hreturn machine' hmachine').1
  · intro m' hm'
    obtain ⟨machine', hmachine', rfl⟩ := mem_eq_some.mp hm'
    exact (hreturn machine' hmachine').2

theorem Follows.fpmul1271 (h : Follows s m) (a b c : Nat) :
    Follows (fpmul1271 hosts a b c s)
      ((Pointers.products .bigint2).fpmul1271 a b c m) := by
  refine h.call fun machine machine' hclean hmem hreturns => ?_
  rw [← hmem, ← fpAt_words, ← fpAt_words]
  exact zkqFpmul1271_spec hclean hreturns

/-- **The chain of the guest** is the chain on the memory. -/
theorem related_bigint2 (hosts : Nat → Host) :
    Pointers.Products.Related Follows (bigint2 hosts) (Pointers.products .bigint2) where
  mul a b c _ _ h := h.fpmul1271 a b c
  sqr a c _ _ h := h.fpmul1271 a a c

end Simulation

/-! ## Inversion -/

section Inverse

variable {hosts : Nat → Host} {s : Execution} {m : Memory UInt64} {sp a c : Nat} {x : Felm}

theorem mem_compute (h : s.mem = some m) (f : Memory UInt64 → Memory UInt64) :
    (s.compute f).mem = some (f m) := by
  obtain ⟨machine, hmachine, rfl⟩ := mem_eq_some.mp h
  rw [Execution.mem, Execution.compute, hmachine]
  exact congrArg some (words_halves _)

theorem holds_eq (h : s.mem = some m) (test : Memory UInt64 → Bool) : s.holds test = test m := by
  obtain ⟨machine, hmachine, rfl⟩ := mem_eq_some.mp h
  rw [Execution.holds, hmachine]
  rfl

/-- `felm_t t = { a[0], a[1] }; mod1271(t)`. -/
def reduce (sp a : Nat) (s : Execution) : Execution :=
  (s.compute fun m => m.setPair sp (m.pair a)).compute (Pointers.mod1271 sp)

theorem fpinv1271_reduce (hosts : Nat → Host) (sp a c : Nat) (s : Execution) :
    fpinv1271 hosts sp a c s =
      if (reduce sp a s).holds fun m => m sp == 0 && m (sp + 1) == 0 then
        (reduce sp a s).compute fun m => m.setPair c (0, 0)
      else (reduce sp a s).callFpinv1271 hosts sp c := rfl

theorem reduce_memory (hx : m.pair a = x.limbs) :
    Pointers.mod1271 sp (m.setPair sp (m.pair a)) = m.setPair sp (Crypto.mod1271 x).limbs := by
  rw [Pointers.mod1271_eq, Memory.pair_setPair, Memory.setPair_setPair, hx]
  rfl

theorem Follows.reduce (h : Follows s m) (hx : m.pair a = x.limbs) :
    Follows (reduce sp a s) (m.setPair sp (Crypto.mod1271 x).limbs) := by
  rw [← reduce_memory hx]
  exact (h.compute _).compute _

theorem mem_reduce (h : s.mem = some m) (hx : m.pair a = x.limbs) :
    (reduce sp a s).mem = some (m.setPair sp (Crypto.mod1271 x).limbs) := by
  rw [← reduce_memory hx]
  exact mem_compute (mem_compute h _) _

/-- The test for 0 is a test for 0 modulo p. -/
theorem holds_reduce (h : s.mem = some m) (hx : m.pair a = x.limbs) :
    ((reduce sp a s).holds fun m => m sp == 0 && m (sp + 1) == 0) = decide (x.toFp = 0) := by
  have hpair : (m.setPair sp (Crypto.mod1271 x).limbs).pair sp = (Crypto.mod1271 x).limbs :=
    Memory.pair_setPair m sp _
  have h0 : (m.setPair sp (Crypto.mod1271 x).limbs) sp = (Crypto.mod1271 x).limbs.1 :=
    congrArg Prod.fst hpair
  have h1 : (m.setPair sp (Crypto.mod1271 x).limbs) (sp + 1) = (Crypto.mod1271 x).limbs.2 :=
    congrArg Prod.snd hpair
  rw [holds_eq (mem_reduce h hx), h0, h1, ← Felm.isZero_ofFp, ← mod1271_eq]
  rfl

/-- A call of `zkq_fpinv1271` on a number between 0 and p. -/
theorem Follows.callFpinv1271 (h : Follows s m) (ht : m.pair a = x.limbs) (hx : x.toFp ≠ 0) :
    Follows (s.callFpinv1271 hosts a c) (m.setPair c (Felm.ofFp x.toFp⁻¹).limbs) := by
  have hcall : Follows (s.call hosts fun host => Bigint2.zkqFpinv1271 host (2 * a) (2 * c))
      (m.setPair c (Felm.ofFp x.toFp⁻¹).limbs) := by
    refine h.call fun machine machine' hclean hmem hreturns => ?_
    have hvalue : fpAt machine.mem (2 * a) = x.toFp := by
      rw [fpAt_words, hmem, ht]
      rfl
    rw [← hvalue] at hx ⊢
    exact zkqFpinv1271_spec hclean hx hreturns
  exact ⟨hcall.clean, hcall.mem⟩

/-- **`fpinv1271` of the guest**: reduced in its own words, it stores the inverse. -/
theorem Follows.fpinv1271 (h : Follows s m) (hmem : s.mem = some m) (hx : m.pair a = x.limbs) :
    Follows (fpinv1271 hosts sp a c s) ((m.setPair sp (Crypto.mod1271 x).limbs).setPair c
      (Crypto.fpinv1271 .bigint2 x).limbs) := by
  rw [fpinv1271_reduce, holds_reduce hmem hx, Crypto.fpinv1271]
  simp only [mod1271_eq, Felm.isZero_ofFp]
  by_cases h0 : x.toFp = 0
  · rw [decide_eq_true h0, if_pos rfl, if_pos rfl, ← mod1271_eq]
    exact (h.reduce hx).compute _
  · rw [decide_eq_false h0, if_neg Bool.false_ne_true, if_neg Bool.false_ne_true, ← mod1271_eq]
    refine (h.reduce hx).callFpinv1271 (Memory.pair_setPair m sp _) ?_
    rw [toFp_mod1271]
    exact h0

/-! ## The record -/

/-- A number that has an inverse, below p. -/
def Invertible (v : Nat) : Prop := 0 < v ∧ v < p1271

theorem inverted_callFpinv1271 (h : s.mem = some m) :
    (s.callFpinv1271 hosts a c).inverted = Limbs.value (m.pair a) :: s.inverted := by
  obtain ⟨machine, hmachine, rfl⟩ := mem_eq_some.mp h
  rw [Execution.callFpinv1271, hmachine, ← felm_words]
  rfl

/-- After a panic nothing is called. -/
theorem inverted_fpinv1271_of_panic (h : s.mem = none) :
    (fpinv1271 hosts sp a c s).inverted = s.inverted := by
  have hnone : s.machine = none := Option.map_eq_none_iff.mp h
  rw [fpinv1271_reduce, reduce, Execution.holds, Execution.callFpinv1271]
  simp only [Execution.compute, hnone]
  rfl

/-- What `fpinv1271` hands on is reduced, and not 0. -/
theorem inverted_fpinv1271 (hx : ∀ m, s.mem = some m → Pointers.felm.InRange m a) {v : Nat}
    (hv : v ∈ (fpinv1271 hosts sp a c s).inverted) : v ∈ s.inverted ∨ Invertible v := by
  cases h : s.mem with
  | none =>
    rw [inverted_fpinv1271_of_panic h] at hv
    exact .inl hv
  | some m =>
    have hxm : m.pair a = (Pointers.felmAt (hx m h)).limbs := rfl
    generalize Pointers.felmAt (hx m h) = x at hxm
    rw [fpinv1271_reduce, holds_reduce h hxm] at hv
    by_cases h0 : x.toFp = 0
    · rw [decide_eq_true h0, if_pos rfl] at hv
      exact .inl hv
    · rw [decide_eq_false h0, if_neg Bool.false_ne_true,
        inverted_callFpinv1271 (mem_reduce h hxm), Memory.pair_setPair, mod1271_eq] at hv
      rcases List.mem_cons.mp hv with rfl | hv
      · refine .inr ⟨?_, ?_⟩
        · show 0 < (Felm.ofFp x.toFp).value
          rw [Felm.value_ofFp, Nat.pos_iff_ne_zero, Ne, ZMod.val_eq_zero]
          exact h0
        · show (Felm.ofFp x.toFp).value < p1271
          rw [Felm.value_ofFp]
          exact Felm.val_lt x.toFp
      · exact .inl hv

/-- The products ask for no inverse. -/
theorem inverted_fpexp1251 (hosts : Nat → Host) (sp a af : Nat) (s : Execution) :
    ((bigint2 hosts).fpexp1251 sp a af s).inverted = s.inverted := by
  have hrelated : Pointers.Products.Related (fun s' (_ : Unit) => s'.inverted = s.inverted)
      (bigint2 hosts) ⟨fun _ _ _ u => u, fun _ _ u => u⟩ :=
    ⟨fun _ _ _ _ _ h => h, fun _ _ _ _ h => h⟩
  exact hrelated.fpexp1251 sp a af (t := ()) rfl

end Inverse

/-! ## Hosts that answer below p -/

/-- A host whose answers are below p; for 0 modulo p it may have no answer. -/
structure Reduced (host : Host) : Prop where
  modmul : ∀ x y, (host.modmul256 x y P).value < p1271
  modinv : ∀ a, a.value.Coprime P.value → (host.modinv256 a P).value < p1271

theorem reduced_honest : Reduced .honest :=
  ⟨fun _ _ => value_residue_lt _, fun _ _ => value_residue_lt _⟩

section Return

variable {hosts : Nat → Host} {s : Execution} {m : Memory UInt64} {sp a b c : Nat} {x : Felm}

theorem isSome_mem (s : Execution) : s.mem.isSome = s.machine.isSome := Option.isSome_map

theorem isSome_fpmul1271 (hhosts : ∀ n, Reduced (hosts n)) (h : s.machine.isSome) :
    (fpmul1271 hosts a b c s).machine.isSome := by
  obtain ⟨machine, hmachine⟩ := Option.isSome_iff_exists.mp h
  obtain ⟨m', hm'⟩ := take_of_lt ((hhosts s.calls).modmul (put machine.mem (2 * a) machine.X.1)
    (put machine.mem (2 * b) machine.Y.1)) (2 * c) machine.mem
  rw [fpmul1271, Execution.call, hmachine, Option.bind_some, Bigint2.zkqFpmul1271]
  simp only [hm']
  rfl

theorem isSome_callFpinv1271 (hhosts : ∀ n, Reduced (hosts n)) (hs : s.Clean)
    (h : s.mem = some m) (ht : m.pair a = x.limbs) (hx : x.toFp ≠ 0) :
    (s.callFpinv1271 hosts a c).machine.isSome := by
  obtain ⟨machine, hmachine, hwords⟩ := mem_eq_some.mp h
  have hvalue : ((put machine.mem (2 * a) machine.X.1).value : Fp) = x.toFp := by
    rw [cast_value_put _ (hs machine hmachine).x0, fpAt_words, hwords, ht]
    rfl
  have hcoprime : (put machine.mem (2 * a) machine.X.1).value.Coprime P.value := by
    rw [value_P, Nat.coprime_comm, Nat.Prime.coprime_iff_not_dvd Fact.out,
      ← ZMod.natCast_eq_zero_iff, hvalue]
    exact hx
  obtain ⟨m', hm'⟩ := take_of_lt ((hhosts s.calls).modinv _ hcoprime) (2 * c) machine.mem
  rw [Execution.callFpinv1271, Execution.call, hmachine, Option.bind_some, Bigint2.zkqFpinv1271]
  simp only [hm']
  rfl

/-- The chain returns. -/
theorem isSome_fpexp1251 (hhosts : ∀ n, Reduced (hosts n)) (sp a af : Nat)
    (h : s.machine.isSome) : ((bigint2 hosts).fpexp1251 sp a af s).machine.isSome := by
  have hrelated : Pointers.Products.Related (fun s (_ : Unit) => s.machine.isSome = true)
      (bigint2 hosts) ⟨fun _ _ _ u => u, fun _ _ u => u⟩ :=
    ⟨fun _ _ _ _ _ h => isSome_fpmul1271 hhosts h, fun _ _ _ _ h => isSome_fpmul1271 hhosts h⟩
  exact hrelated.fpexp1251 sp a af (t := ()) h

/-- The inversion returns. -/
theorem isSome_fpinv1271 (hhosts : ∀ n, Reduced (hosts n)) (hs : Follows s m)
    (h : s.mem = some m) (hx : m.pair a = x.limbs) :
    (fpinv1271 hosts sp a c s).machine.isSome := by
  have hreduce : (reduce sp a s).machine.isSome := by
    rw [← isSome_mem, mem_reduce h hx]
    rfl
  rw [fpinv1271_reduce, holds_reduce h hx]
  by_cases h0 : x.toFp = 0
  · rw [decide_eq_true h0, if_pos rfl, Execution.compute, Option.isSome_map]
    exact hreduce
  · rw [decide_eq_false h0, if_neg Bool.false_ne_true]
    refine isSome_callFpinv1271 hhosts (hs.reduce hx).clean (mem_reduce h hx)
      (Memory.pair_setPair m sp _) ?_
    rw [toFp_mod1271]
    exact h0

end Return

/-! ## Runs -/

/-- What the guest does next, with the pointers of the call. -/
inductive Step where
  | compute (f : Memory UInt64 → Memory UInt64)
  | fpmul1271 (a b c : Nat)
  | fpsqr1271 (a c : Nat)
  | fp2mul1271 (a b c : Nat)
  | fpexp1251 (sp a af : Nat)
  | fpinv1271 (sp a c : Nat)

/-- A step of a run. -/
def Step.exec (hosts : Nat → Host) (s : Execution) : Step → Execution
  | .compute f => s.compute f
  | .fpmul1271 a b c => Inversion.fpmul1271 hosts a b c s
  | .fpsqr1271 a c => Inversion.fpsqr1271 hosts a c s
  | .fp2mul1271 a b c =>
    s.call hosts fun host => Bigint2.zkqFp2mul1271 host (2 * a) (2 * b) (2 * c)
  | .fpexp1251 sp a af => (bigint2 hosts).fpexp1251 sp a af s
  | .fpinv1271 sp a c => Inversion.fpinv1271 hosts sp a c s

/-- The operand of an inversion is a field element. -/
def Step.InRange (s : Execution) : Step → Prop
  | .fpinv1271 _ a _ => ∀ m, s.mem = some m → Pointers.felm.InRange m a
  | _ => True

/-- The guest after some steps. -/
def run (hosts : Nat → Host) (s : Execution) (steps : List Step) : Execution :=
  steps.foldl (Step.exec hosts) s

/-- Every step of a run is on field elements. -/
def InRange (hosts : Nat → Host) : Execution → List Step → Prop
  | _, [] => True
  | s, step :: steps => step.InRange s ∧ InRange hosts (step.exec hosts s) steps

theorem inverted_step {hosts : Nat → Host} {s : Execution} {step : Step} (h : step.InRange s)
    (hs : ∀ v ∈ s.inverted, Invertible v) : ∀ v ∈ (step.exec hosts s).inverted, Invertible v := by
  cases step with
  | compute f => exact hs
  | fpmul1271 a b c => exact hs
  | fpsqr1271 a c => exact hs
  | fp2mul1271 a b c => exact hs
  | fpexp1251 sp a af =>
    intro v hv
    exact hs v (inverted_fpexp1251 hosts sp a af s ▸ hv)
  | fpinv1271 sp a c =>
    intro v hv
    exact (inverted_fpinv1271 h hv).elim (hs v) id

/-- No run asks for an inverse that does not exist, by induction on the steps. -/
theorem inverted_run {hosts : Nat → Host} {s : Execution} {steps : List Step}
    (h : InRange hosts s steps) (hs : ∀ v ∈ s.inverted, Invertible v) :
    ∀ v ∈ (run hosts s steps).inverted, Invertible v := by
  induction steps generalizing s with
  | nil => exact hs
  | cons step steps ih => exact ih h.2 (inverted_step h.1 hs)

/-! ## What they compute -/

/-- A routine of the guest on an input and an output: where it returns it has stored `f` of the
input, and it returns if the hosts answer below p. -/
def Computes₁ (f : Fp → Fp) (op : (Nat → Host) → Nat → Nat → Nat → Execution → Execution) : Prop :=
  ∀ hosts sp a c s m, s.Clean → s.mem = some m → a + 2 ≤ sp → c + 2 ≤ sp →
    Memory.SameOrApart 2 c a → Pointers.felm.InRange m a →
    (∀ m', (op hosts sp a c s).mem = some m' →
      Pointers.Stores Pointers.felm sp c m m' (f (Pointers.felm.residue m a))) ∧
    ((∀ n, Reduced (hosts n)) → (op hosts sp a c s).mem.isSome)

theorem follows_of_mem {s : Execution} {m : Memory UInt64} (hs : s.Clean) (h : s.mem = some m) :
    Follows s m := by
  refine ⟨hs, fun m' hm' => ?_⟩
  rw [h] at hm'
  exact (Option.some.inj hm').symm

theorem isSome_machine {s : Execution} {m : Memory UInt64} (h : s.mem = some m) :
    s.machine.isSome := by
  rw [← isSome_mem, h]
  rfl

theorem computes_fpexp1251 :
    Computes₁ (· ^ (2 ^ 125 - 1)) fun hosts => (bigint2 hosts).fpexp1251 := by
  intro hosts sp a c s m hs hmem hasp _ _ ha
  obtain ⟨m₁, hchanges, hexp⟩ :=
    @Pointers.fpexp1251_eq .bigint2 m a (Pointers.felmAt ha) sp hasp rfl c
  have hfollows := (related_bigint2 hosts).fpexp1251 sp a c (follows_of_mem hs hmem)
  constructor
  · intro m' hm'
    have hstores := Pointers.stores_setPair hchanges
      (Crypto.fpexp1251 .bigint2 (Pointers.felmAt ha))
    rw [toFp_fpexp1251] at hstores
    rw [hfollows.mem m' hm', hexp]
    exact hstores
  · intro hhosts
    rw [isSome_mem]
    exact isSome_fpexp1251 hhosts sp a c (isSome_machine hmem)

theorem computes_fpinv1271 : Computes₁ (·⁻¹) fpinv1271 := by
  intro hosts sp a c s m hs hmem hasp _ _ ha
  have hfollows := follows_of_mem hs hmem
  have hinv := @Follows.fpinv1271 hosts s m sp a c (Pointers.felmAt ha) hfollows hmem rfl
  constructor
  · intro m' hm'
    have h0 : Memory.Changes sp c 2 m m := Memory.Changes.refl m
    have hstores := Pointers.stores_setPair
      (h0.setPair (w := (Crypto.mod1271 (Pointers.felmAt ha)).limbs) (.inl (Nat.le_refl sp)))
      (Crypto.fpinv1271 .bigint2 (Pointers.felmAt ha))
    rw [toFp_fpinv1271] at hstores
    rw [hinv.mem m' hm']
    exact hstores
  · intro hhosts
    rw [isSome_mem]
    exact isSome_fpinv1271 hhosts hfollows hmem (x := Pointers.felmAt ha) rfl

/-- The inverse of a representative. -/
theorem inv_representative :
    (∀ v : Nat, v = 0 ∨ v = p1271 → (v : Fp)⁻¹ = 0) ∧
    ∀ v : Nat, 0 < v → v < p1271 → (v : Fp) * (v : Fp)⁻¹ = 1 := by
  constructor
  · rintro v (rfl | rfl)
    · rw [Nat.cast_zero, inv_zero]
    · rw [natCast_p1271, inv_zero]
  · intro v hpos hlt
    apply mul_inv_cancel₀
    rw [Ne, ZMod.natCast_eq_zero_iff]
    exact Nat.not_dvd_of_pos_of_lt hpos hlt

/-- **Exponentiation and inversion**: on an operand in `[0, p]`, in both builds and in place,
`fpexp1251` stores `a ^ (2 ^ 125 - 1)` and `fpinv1271` the inverse, which is 0 for the two
representatives of 0; and no run of the guest on field elements hands `zkq_fpinv1271` a number that
is 0 modulo p or not below p. -/
theorem exponentiation_and_inversion :
    Pointers.Computes₁ Pointers.felm (· ^ (2 ^ 125 - 1)) Pointers.portable.fpexp1251 ∧
    (Computes₁ (· ^ (2 ^ 125 - 1)) fun hosts => (bigint2 hosts).fpexp1251) ∧
    Pointers.Computes₁ Pointers.felm (·⁻¹) Pointers.fpinv1271 ∧
    Computes₁ (·⁻¹) fpinv1271 ∧
    (∀ v : Nat, v = 0 ∨ v = p1271 → (v : Fp)⁻¹ = 0) ∧
    (∀ v : Nat, 0 < v → v < p1271 → (v : Fp) * (v : Fp)⁻¹ = 1) ∧
    ∀ (hosts : Nat → Host) (s : Execution) (steps : List Step), s.inverted = [] →
      InRange hosts s steps → ∀ v ∈ (run hosts s steps).inverted, 0 < v ∧ v < p1271 := by
  refine ⟨Pointers.computes_fpexp1251, computes_fpexp1251, Pointers.computes_fpinv1271,
    computes_fpinv1271, inv_representative.1, inv_representative.2, ?_⟩
  intro hosts s steps hnil hrange
  refine inverted_run hrange fun v hv => ?_
  rw [hnil] at hv
  exact absurd hv List.not_mem_nil

/-- A memory with the representative p of 0. -/
def memoryOfP : Memory UInt64 := fun q =>
  if q = 0 then 0xFFFFFFFFFFFFFFFF else if q = 1 then 0x7FFFFFFFFFFFFFFF else 0

/-- Both builds on the representative p, in place. -/
theorem exponentiation_and_inversion_p :
    Pointers.Stores Pointers.felm 2 0 memoryOfP (Pointers.fpinv1271 2 0 0 memoryOfP)
        (Pointers.felm.residue memoryOfP 0)⁻¹ ∧
      (fpinv1271 (fun _ => .honest) 2 0 0
        ⟨some (.start (halves memoryOfP)), 0, []⟩).mem.isSome := by
  have hrange : Pointers.felm.InRange memoryOfP 0 := by
    show Limbs.value (memoryOfP.pair 0) ≤ p1271
    decide
  have hclean : Execution.Clean ⟨some (.start (halves memoryOfP)), 0, []⟩ := by
    intro machine hmachine
    cases hmachine
    exact clean_start _
  obtain ⟨-, -, hportable, hguest, -⟩ := exponentiation_and_inversion
  refine ⟨hportable 2 0 0 memoryOfP (by decide) (by decide) (.inl rfl) hrange, ?_⟩
  exact (hguest _ 2 0 0 _ memoryOfP hclean (congrArg some (words_halves _)) (by decide) (by decide)
    (.inl rfl) hrange).2 fun _ => reduced_honest

end ZkQuorum.Guest.Inversion
