import ZkQuorum.Crypto.Scalars
import ZkQuorum.Lib.SignedDigits
import Mathlib.Data.List.GetD
import Mathlib.Tactic.LinearCombination

/-!
# The recoding (crypto/src/riscv_fourq_verify.c)

`wNAF_recode` on its array of 65 signed characters, with every store checked against the
array, and the list of `wnafRecode` that it spells.

The invariant that gives the bound 65: where n positions are left before the last one, the
scalar is at most 2^n (`length_wnafLoop_le`). A negative digit makes the scalar one larger, but
then it was odd and so below 2^n.
-/

namespace ZkQuorum.Crypto

open SignedDigits

/-! ## The digits -/

section Digits

variable {w : Width} {scalar : UInt64}

theorem wnafLoop_zero (digits : List (Digit w)) : wnafLoop w 0 digits = digits := by
  rw [wnafLoop, dif_pos rfl]

theorem wnafLoop_even (hzero : scalar ≠ 0) (heven : scalar &&& 1 = 0) (digits : List (Digit w)) :
    wnafLoop w scalar digits = wnafLoop w (scalar >>> 1) (digits ++ [.zero w]) := by
  rw [wnafLoop, dif_neg hzero, dif_pos heven]

/-- The digit of an odd scalar. -/
def oddDigit (w : Width) {scalar : UInt64} (hodd : ¬ scalar &&& 1 = 0) : Digit w :=
  ⟨signedDigit w scalar, natAbs_signedDigit w hodd⟩

/-- The zeros that follow the digit of an odd scalar. -/
def padding (w : Width) (scalar : UInt64) : List (Digit w) :=
  if nextScalar w scalar ≠ 0 then List.replicate (w - 1) (.zero w) else []

theorem wnafLoop_odd (hodd : ¬ scalar &&& 1 = 0) (digits : List (Digit w)) :
    wnafLoop w scalar digits
      = wnafLoop w (nextScalar w scalar) (digits ++ oddDigit w hodd :: padding w scalar) := by
  have hzero : scalar ≠ 0 := by
    rintro rfl
    exact hodd rfl
  rw [wnafLoop, dif_neg hzero, dif_neg hodd]
  dsimp only
  rw [padding]
  split
  · rw [List.append_assoc]
    rfl
  · rfl

theorem wnafLoop_eq_append (w : Width) (scalar : UInt64) (digits : List (Digit w)) :
    wnafLoop w scalar digits = digits ++ wnafLoop w scalar [] := by
  refine wnafLoop.induct w (fun scalar _ => ∀ digits,
    wnafLoop w scalar digits = digits ++ wnafLoop w scalar []) ?_ ?_ ?_ scalar [] digits
  · intro _ digits
    rw [wnafLoop_zero, wnafLoop_zero, List.append_nil]
  · intro scalar _ hzero heven ih digits
    rw [wnafLoop_even hzero heven, wnafLoop_even hzero heven, ih, ih ([] ++ _), List.nil_append,
      List.append_assoc]
  · intro scalar _ _ hodd _ _ _ ih digits
    rw [wnafLoop_odd hodd, wnafLoop_odd hodd, ih, ih ([] ++ _), List.nil_append, List.append_assoc]

/-- The induction over the digits of a scalar: a zero, the last digit, or a digit and the zeros
after it. -/
theorem wnafLoop_induction {P : UInt64 → List (Digit w) → Prop} (zero : P 0 [])
    (even : ∀ (scalar : UInt64) ds, scalar ≠ 0 → scalar &&& 1 = 0 → P (scalar >>> 1) ds →
      P scalar (.zero w :: ds))
    (last : ∀ (scalar : UInt64) (hodd : ¬ scalar &&& 1 = 0), nextScalar w scalar = 0 →
      P scalar [oddDigit w hodd])
    (odd : ∀ (scalar : UInt64) ds (hodd : ¬ scalar &&& 1 = 0), nextScalar w scalar ≠ 0 →
      P (nextScalar w scalar) ds →
      P scalar (oddDigit w hodd :: (List.replicate (w - 1) (.zero w) ++ ds)))
    (scalar : UInt64) : P scalar (wnafLoop w scalar []) := by
  refine wnafLoop.induct w (fun scalar _ => P scalar (wnafLoop w scalar [])) ?_ ?_ ?_ scalar []
  · intro _
    rw [wnafLoop_zero]
    exact zero
  · intro scalar _ hzero heven ih
    rw [wnafLoop_even hzero heven, wnafLoop_eq_append]
    exact even scalar _ hzero heven ih
  · intro scalar _ _ hodd _ _ _ ih
    rw [wnafLoop_odd hodd, wnafLoop_eq_append, padding]
    by_cases hnext : nextScalar w scalar = 0
    · rw [if_neg (not_not.mpr hnext), hnext, wnafLoop_zero]
      exact last scalar hodd hnext
    · rw [if_pos hnext]
      exact odd scalar _ hodd hnext ih

/-- The scalar in terms of its digit and of what is left. -/
theorem signedDigit_add (w : Width) (scalar : UInt64) :
    signedDigit w scalar + 2 ^ w.val * (nextScalar w scalar).toNat = scalar.toNat := by
  have hlt : scalar.toNat % 2 ^ w.val < 2 ^ w.val := Nat.mod_lt _ (Nat.two_pow_pos _)
  have hpow : (2 : Int) ^ w.val = (2 ^ w.val : Nat) := by norm_cast
  have hdiv : ((scalar.toNat % 2 ^ w.val : Nat) : Int)
      + 2 ^ w.val * (scalar.toNat / 2 ^ w.val : Nat) = scalar.toNat := by
    rw [hpow]
    exact_mod_cast Nat.mod_add_div scalar.toNat (2 ^ w.val)
  have hdigit : signedDigit w scalar = if ((scalar.toNat % 2 ^ w.val : Nat) : Int)
      > 2 ^ (w.val - 1) - 1 then ((scalar.toNat % 2 ^ w.val : Nat) : Int) - 2 ^ w.val
      else (scalar.toNat % 2 ^ w.val : Nat) := by
    rw [signedDigit, toNat_lowDigit]
  rw [toNat_nextScalar]
  by_cases hlarge : ((scalar.toNat % 2 ^ w.val : Nat) : Int) > 2 ^ (w.val - 1) - 1
  · rw [if_pos hlarge] at hdigit
    rw [if_pos (by rw [hdigit, hpow]; omega), hdigit, Nat.cast_add, Nat.cast_one]
    linear_combination hdiv
  · rw [if_neg hlarge] at hdigit
    rw [if_neg (by rw [hdigit]; exact not_lt.mpr (Nat.cast_nonneg _)), hdigit, Nat.add_zero]
    exact hdiv

theorem odd_signedDigit (w : Width) {scalar : UInt64} (hodd : ¬ scalar &&& 1 = 0) :
    signedDigit w scalar % 2 = 1 := by
  have hadd := signedDigit_add w scalar
  have hdvd : (2 : Int) ∣ 2 ^ w.val := dvd_pow_self 2 (by have hw := w.property; omega)
  obtain ⟨m, hm⟩ := hdvd
  rw [and_one_eq_zero_iff] at hodd
  rw [hm, mul_assoc] at hadd
  omega

/-- The digits of a scalar. -/
def digitValues (ds : List (Digit w)) : List Int := ds.map Subtype.val

theorem digitValues_odd (d : Digit w) (n : Nat) (ds : List (Digit w)) :
    digitValues (d :: (List.replicate n (.zero w) ++ ds))
      = d.val :: (List.replicate n 0 ++ digitValues ds) := by
  rw [digitValues, List.map_cons, List.map_append, List.map_replicate]
  rfl

/-- **The digits spell the scalar.** -/
theorem value_wnafLoop (w : Width) (scalar : UInt64) :
    value (digitValues (wnafLoop w scalar [])) = scalar.toNat := by
  apply wnafLoop_induction (P := fun scalar ds => value (digitValues ds) = scalar.toNat)
  case zero => rfl
  case even =>
    intro scalar ds _ heven ih
    have hshift : (scalar >>> 1).toNat = scalar.toNat / 2 :=
      toNat_shiftRight scalar (show 1 < 64 by decide)
    rw [and_one_eq_zero_iff] at heven
    show 0 + 2 * value (digitValues ds) = _
    rw [ih, hshift]
    omega
  case last =>
    intro scalar hodd hnext
    have hadd := signedDigit_add w scalar
    rw [hnext, UInt64.toNat_zero, Nat.cast_zero, mul_zero] at hadd
    show signedDigit w scalar + 2 * 0 = _
    rw [mul_zero, hadd]
  case odd =>
    intro scalar ds hodd _ ih
    have hw := w.property
    rw [digitValues_odd, value, value_zeros, ih, ← mul_assoc, ← pow_succ',
      show w.val - 1 + 1 = w.val by omega]
    exact signedDigit_add w scalar

/-- An odd scalar with something left has `w` positions below what is left. -/
theorem nextScalar_le {n : Nat} (hodd : ¬ scalar &&& 1 = 0) (hnext : nextScalar w scalar ≠ 0)
    (hn : scalar.toNat ≤ 2 ^ n) : w.val ≤ n ∧ (nextScalar w scalar).toNat ≤ 2 ^ (n - w.val) := by
  have hadd := signedDigit_add w scalar
  have habs := natAbs_signedDigit w hodd
  have hw := w.property
  have hhalf : 2 ^ w.val = 2 * 2 ^ (w.val - 1) := by
    rw [← pow_succ', show w.val - 1 + 1 = w.val by omega]
  have hpow : (2 : Int) ^ w.val = (2 ^ w.val : Nat) := by norm_cast
  have hpos : 0 < (nextScalar w scalar).toNat := by
    refine Nat.pos_of_ne_zero fun h => hnext (UInt64.toNat_inj.mp h)
  have hlt : 2 ^ w.val * (nextScalar w scalar).toNat < 2 ^ n + 2 ^ (w.val - 1) := by
    rw [hpow] at hadd
    omega
  have hwn : w.val ≤ n := by
    by_contra hshort
    have hsmall : 2 ^ n ≤ 2 ^ (w.val - 1) := Nat.pow_le_pow_right two_pos (by omega)
    have hlarge := Nat.mul_le_mul_left (2 ^ w.val) hpos
    omega
  refine ⟨hwn, Nat.le_of_lt_succ (Nat.lt_of_mul_lt_mul_left (a := 2 ^ w.val) ?_)⟩
  rw [Nat.mul_succ, ← pow_add, Nat.add_sub_cancel' hwn]
  omega

/-- **The bound on the number of digits.** -/
theorem length_wnafLoop_le (w : Width) (scalar : UInt64) :
    ∀ n, scalar.toNat ≤ 2 ^ n → (wnafLoop w scalar []).length ≤ n + 1 := by
  apply wnafLoop_induction (P := fun scalar ds => ∀ n, scalar.toNat ≤ 2 ^ n → ds.length ≤ n + 1)
  case zero =>
    intro n _
    exact Nat.zero_le _
  case even =>
    intro scalar ds hzero heven ih n hn
    have hshift : (scalar >>> 1).toNat = scalar.toNat / 2 :=
      toNat_shiftRight scalar (show 1 < 64 by decide)
    have hpos : scalar.toNat ≠ 0 := fun h => hzero (UInt64.toNat_inj.mp h)
    rw [and_one_eq_zero_iff] at heven
    -- an even scalar is not 1
    cases n with
    | zero => omega
    | succ n =>
      rw [pow_succ] at hn
      have hle := ih n (by omega)
      rw [List.length_cons]
      omega
  case last =>
    intro scalar hodd _ n _
    exact Nat.le_add_left 1 n
  case odd =>
    intro scalar ds hodd hnext ih n hn
    obtain ⟨hwn, hle⟩ := nextScalar_le hodd hnext hn
    have hlen := ih (n - w.val) hle
    have hw := w.property
    rw [List.length_cons, List.length_append, List.length_replicate]
    omega

/-- **Nonzero digits are odd.** -/
theorem odd_wnafLoop (w : Width) (scalar : UInt64) :
    ∀ d ∈ wnafLoop w scalar [], d.val = 0 ∨ d.val % 2 = 1 := by
  apply wnafLoop_induction (P := fun _ ds => ∀ d ∈ ds, d.val = 0 ∨ d.val % 2 = 1)
  case zero =>
    intro d hd
    cases hd
  case even =>
    intro scalar ds _ _ ih d hd
    rcases List.mem_cons.mp hd with rfl | hd
    · exact Or.inl rfl
    · exact ih d hd
  case last =>
    intro scalar hodd _ d hd
    rw [List.mem_singleton.mp hd]
    exact Or.inr (odd_signedDigit w hodd)
  case odd =>
    intro scalar ds hodd _ ih d hd
    rcases List.mem_cons.mp hd with rfl | hd
    · exact Or.inr (odd_signedDigit w hodd)
    rcases List.mem_append.mp hd with hd | hd
    · rw [List.eq_of_mem_replicate hd]
      exact Or.inl rfl
    · exact ih d hd

/-- **Nonzero digits are spaced.** -/
theorem spaced_wnafLoop (w : Width) (scalar : UInt64) :
    Spaced w (digitValues (wnafLoop w scalar [])) := by
  apply wnafLoop_induction (P := fun _ ds => Spaced w (digitValues ds))
  case zero => exact spaced_nil
  case even =>
    intro scalar ds _ _ ih
    exact spaced_zero_cons ih
  case last =>
    intro scalar hodd _
    exact spaced_single _
  case odd =>
    intro scalar ds hodd _ ih
    rw [digitValues_odd]
    exact spaced_cons_zeros _ ih

end Digits

/-! ## The array -/

/-- `digits[index] = d`: none is a store outside of the array. -/
def store (digits : Vector Int8 65) (index : Nat) (d : Int8) : Option (Vector Int8 65) :=
  if h : index < 65 then some (digits.set index d) else none

/-- `for (i = 0; i < n; i++) digits[++index] = 0;`. -/
def storeZeros : Nat → Nat → Vector Int8 65 → Option (Nat × Vector Int8 65)
  | 0, index, digits => some (index, digits)
  | n + 1, index, digits => do
    let digits ← store digits (index + 1) 0
    storeZeros n (index + 1) digits

/-- `if (scalar) for (...) digits[++index] = 0;`. -/
def storePadding (w : Width) (scalar : UInt64) (index : Nat) (digits : Vector Int8 65) :
    Option (Nat × Vector Int8 65) :=
  if scalar ≠ 0 then storeZeros (w - 1) index digits else some (index, digits)

/-- The loop of `wNAF_recode`, with the index and the array. -/
def recodeLoop (w : Width) (scalar : UInt64) (index : Nat) (digits : Vector Int8 65) :
    Option (Nat × Vector Int8 65) :=
  if _hzero : scalar = 0 then some (index, digits)
  else if hodd : scalar &&& 1 = 0 then do
    let digits ← store digits index 0
    recodeLoop w (scalar >>> 1) (index + 1) digits
  else do
    let digits ← store digits index (Int8.ofInt (signedDigit w scalar))
    let (index, digits) ← storePadding w (nextScalar w scalar) index digits
    recodeLoop w (nextScalar w scalar) (index + 1) digits
termination_by scalar.toNat
decreasing_by
  · have hpos : scalar.toNat ≠ 0 := fun h => _hzero (UInt64.toNat_inj.mp h)
    have hshift : (scalar >>> 1).toNat = scalar.toNat / 2 :=
      toNat_shiftRight scalar (show 1 < 64 by decide)
    omega
  · exact nextScalar_lt w hodd

/-- `setMem(&digits[index], 65 - index, 0)`. -/
def setMemZeros (digits : Vector Int8 65) (index : Nat) : Option (Vector Int8 65) :=
  if index ≤ 65 then some (.ofFn fun i => if i.val < index then digits[i] else 0) else none

/-- `wNAF_recode` on an array with any contents. -/
def wnafRecodeArray (w : Width) (scalar : UInt64) (digits : Vector Int8 65) :
    Option (Vector Int8 65) := do
  let (index, digits) ← recodeLoop w scalar 0 digits
  setMemZeros digits index

/-- Stores one after the other. -/
def storeAll : List Int → Nat → Vector Int8 65 → Option (Nat × Vector Int8 65)
  | [], index, digits => some (index, digits)
  | d :: ds, index, digits => do
    let digits ← store digits index (Int8.ofInt d)
    storeAll ds (index + 1) digits

theorem storeAll_zero_cons (ds : List Int) (index : Nat) (digits : Vector Int8 65) :
    storeAll (0 :: ds) index digits = (store digits index 0).bind (storeAll ds (index + 1)) := rfl

/-- The zeros after a digit, with the `index++` that ends the turn. -/
theorem storeZeros_bind (n index : Nat) (digits : Vector Int8 65) (ds : List Int) :
    ((storeZeros n index digits).bind fun st => storeAll ds (st.1 + 1) st.2)
      = storeAll (List.replicate n 0 ++ ds) (index + 1) digits := by
  induction n generalizing index digits with
  | zero => rfl
  | succ n ih =>
    rw [storeZeros, List.replicate_succ, List.cons_append, storeAll_zero_cons]
    cases store digits (index + 1) 0 with
    | none => rfl
    | some digits => exact ih (index + 1) digits

theorem recodeLoop_odd {w : Width} {scalar : UInt64} (hodd : ¬ scalar &&& 1 = 0) (index : Nat)
    (digits : Vector Int8 65) : recodeLoop w scalar index digits
      = (store digits index (Int8.ofInt (oddDigit w hodd).val)).bind fun digits =>
        (storePadding w (nextScalar w scalar) index digits).bind fun st =>
          recodeLoop w (nextScalar w scalar) (st.1 + 1) st.2 := by
  have hzero : scalar ≠ 0 := by
    rintro rfl
    exact hodd rfl
  rw [recodeLoop, dif_neg hzero, dif_neg hodd]
  rfl

/-- **The loop stores the digits of the scalar.** -/
theorem recodeLoop_eq_storeAll (w : Width) (scalar : UInt64) : ∀ index digits,
    recodeLoop w scalar index digits
      = storeAll (digitValues (wnafLoop w scalar [])) index digits := by
  apply wnafLoop_induction (P := fun scalar ds => ∀ index digits,
    recodeLoop w scalar index digits = storeAll (digitValues ds) index digits)
  case zero =>
    intro index digits
    rw [recodeLoop, dif_pos rfl]
    rfl
  case even =>
    intro scalar ds hzero heven ih index digits
    rw [recodeLoop, dif_neg hzero, dif_pos heven]
    simp only [ih]
    rfl
  case last =>
    intro scalar hodd hnext index digits
    have hstop : ∀ index digits, recodeLoop w 0 index digits = some (index, digits) := by
      intro index digits
      rw [recodeLoop, dif_pos rfl]
    rw [recodeLoop_odd hodd, hnext]
    simp only [hstop]
    rfl
  case odd =>
    intro scalar ds hodd hnext ih index digits
    rw [recodeLoop_odd hodd, digitValues_odd]
    simp only [ih, storePadding, if_pos hnext, storeZeros_bind]
    rfl

/-- Stores within the array. -/
theorem storeAll_eq_some (ds : List Int) (index : Nat) (digits : Vector Int8 65)
    (hfit : index + ds.length ≤ 65) : ∃ digits', storeAll ds index digits
        = some (index + ds.length, digits') ∧ ∀ i : Fin 65, i.val < index + ds.length →
      digits'[i] = if i.val < index then digits[i] else Int8.ofInt (ds.getD (i.val - index) 0) := by
  induction ds generalizing index digits with
  | nil =>
    refine ⟨digits, rfl, fun i hi => (if_pos hi).symm⟩
  | cons d ds ih =>
    rw [List.length_cons] at hfit
    have hindex : index < 65 := by omega
    obtain ⟨digits', hrun, hget⟩ := ih (index + 1) (digits.set index (Int8.ofInt d)) (by omega)
    refine ⟨digits', ?_, fun i hi => ?_⟩
    · rw [storeAll, store, dif_pos hindex, List.length_cons, ← Nat.add_assoc, Nat.add_right_comm]
      exact hrun
    · rw [List.length_cons] at hi
      rw [hget i (by omega)]
      by_cases hbefore : i.val < index
      · rw [if_pos hbefore, if_pos (by omega)]
        exact Vector.getElem_set_ne hindex i.isLt (by omega)
      · rw [if_neg hbefore]
        by_cases hat : i.val = index
        · have hself : (digits.set index (Int8.ofInt d))[i] = Int8.ofInt d := by
            simp only [Fin.getElem_fin, hat, Vector.getElem_set_self]
          rw [if_pos (by omega), hself, hat, Nat.sub_self]
          rfl
        · rw [if_neg (by omega), show i.val - index = i.val - (index + 1) + 1 by omega,
            List.getD_cons_succ]

/-- The array of the digits. -/
def recoded (w : Width) (scalar : UInt64) : Vector Int8 65 :=
  .ofFn fun i => Int8.ofInt ((digitValues (wnafLoop w scalar [])).getD i 0)

theorem getElem_recoded (w : Width) (scalar : UInt64) (i : Fin 65) :
    (recoded w scalar)[i] = Int8.ofInt ((digitValues (wnafLoop w scalar [])).getD i 0) :=
  Vector.getElem_ofFn i.isLt

/-- **The array after the recoding**, whatever it held before. -/
theorem wnafRecodeArray_eq (w : Width) (scalar : UInt64) (digits : Vector Int8 65) :
    wnafRecodeArray w scalar digits = some (recoded w scalar) := by
  have hlen : (digitValues (wnafLoop w scalar [])).length ≤ 65 := by
    rw [digitValues, List.length_map]
    exact length_wnafLoop_le w scalar 64 (Nat.le_of_lt scalar.toNat_lt)
  obtain ⟨digits', hrun, hget⟩ := storeAll_eq_some (digitValues (wnafLoop w scalar [])) 0 digits
    (by omega)
  rw [wnafRecodeArray, recodeLoop_eq_storeAll, hrun]
  show setMemZeros digits' _ = _
  rw [setMemZeros, if_pos (by omega), recoded]
  congr 2
  funext i
  by_cases hi : i.val < 0 + (digitValues (wnafLoop w scalar [])).length
  · rw [if_pos hi, hget i hi, if_neg (Nat.not_lt_zero _)]
    rfl
  · rw [if_neg hi, List.getD_eq_default _ _ (by omega)]
    rfl

/-! ## The specification -/

/-- What the digits of a scalar have to be. -/
structure IsRecoding (w : Nat) (scalar : UInt64) (digits : Vector Int8 65) : Prop where
  sum : ∑ i : Fin 65, digits[i].toInt * 2 ^ i.val = scalar.toNat
  odd : ∀ i : Fin 65, digits[i] ≠ 0 → digits[i].toInt % 2 = 1
  bound : ∀ i : Fin 65, digits[i].toInt.natAbs ≤ 2 ^ (w - 1) - 1
  spaced : ∀ i j : Fin 65, i < j → digits[i] ≠ 0 → digits[j] ≠ 0 → i.val + w ≤ j.val

/-- The digit at a position. -/
def digitAt (w : Width) (scalar : UInt64) (i : Nat) : Digit w :=
  (wnafLoop w scalar []).getD i (.zero w)

theorem getD_digitValues (w : Width) (scalar : UInt64) (i : Nat) :
    (digitValues (wnafLoop w scalar [])).getD i 0 = (digitAt w scalar i).val :=
  List.getD_map (wnafLoop w scalar []) (Digit.zero w) Subtype.val

theorem odd_digitAt (w : Width) (scalar : UInt64) (i : Nat) :
    (digitAt w scalar i).val = 0 ∨ (digitAt w scalar i).val % 2 = 1 := by
  by_cases hi : i < (wnafLoop w scalar []).length
  · rw [digitAt, List.getD_eq_getElem _ _ hi]
    exact odd_wnafLoop w scalar _ (List.getElem_mem hi)
  · rw [digitAt, List.getD_eq_default _ _ (Nat.not_lt.mp hi)]
    exact Or.inl rfl

/-- A digit fits in a signed character. -/
theorem toInt_digit {w : Width} (hw : w.val ≤ 8) (d : Digit w) :
    (Int8.ofInt d.val).toInt = d.val := by
  have hlt := d.property
  have hpow : 2 ^ (w.val - 1) ≤ 2 ^ 7 := Nat.pow_le_pow_right two_pos (by omega)
  exact Int8.toInt_ofInt_of_le (by omega) (by omega)

theorem isRecoding_of_digitAt {w : Width} {scalar : UInt64} {digits : Vector Int8 65}
    (h : ∀ i : Fin 65, digits[i].toInt = (digitAt w scalar i).val) :
    IsRecoding w scalar digits := by
  have hlen : (digitValues (wnafLoop w scalar [])).length ≤ 65 := by
    rw [digitValues, List.length_map]
    exact length_wnafLoop_le w scalar 64 (Nat.le_of_lt scalar.toNat_lt)
  have hne : ∀ i : Fin 65, digits[i] ≠ 0 → (digitAt w scalar i).val ≠ 0 := by
    intro i hi hzero
    rw [← h i] at hzero
    exact hi (Int8.toInt_inj.mp hzero)
  constructor
  case sum =>
    rw [← value_wnafLoop w scalar, value_eq_sum hlen]
    refine Finset.sum_congr rfl fun i _ => ?_
    rw [h i, getD_digitValues]
  case odd =>
    intro i hi
    rw [h i]
    exact (odd_digitAt w scalar i).resolve_left (hne i hi)
  case bound =>
    intro i
    rw [h i]
    exact Nat.le_sub_one_of_lt (digitAt w scalar i).property
  case spaced =>
    intro i j hij hi hj
    apply spaced_wnafLoop w scalar i j hij
    · rw [getD_digitValues]
      exact hne i hi
    · rw [getD_digitValues]
      exact hne j hj

/-- The digits of a width up to 8 are signed characters, and the array holds them. -/
theorem wnafRecodeArray_digitAt {w : Width} (hw : w.val ≤ 8) (scalar : UInt64) :
    ∃ digits : Vector Int8 65, (∀ old, wnafRecodeArray w scalar old = some digits) ∧
      ∀ i : Fin 65, digits[i].toInt = (digitAt w scalar i).val := by
  refine ⟨_, wnafRecodeArray_eq w scalar, fun i => ?_⟩
  rw [getElem_recoded, getD_digitValues, toInt_digit hw]

/-- `wNAF_recode` writes every cell of its array and no other, with a recoding of the scalar. -/
def RecodesAll (w : Width) : Prop := ∀ scalar : UInt64, ∃ digits,
  (∀ old, wnafRecodeArray w scalar old = some digits) ∧ IsRecoding w scalar digits

/-- **`wNAF_recode` recodes every scalar**, with width 4 and with width 8. -/
theorem recodesAll : RecodesAll ⟨4, by decide⟩ ∧ RecodesAll ⟨8, by decide⟩ := by
  have hall : ∀ w : Width, w.val ≤ 8 → RecodesAll w := by
    intro w hw scalar
    obtain ⟨digits, hrun, hdigit⟩ := wnafRecodeArray_digitAt hw scalar
    exact ⟨digits, hrun, isRecoding_of_digitAt hdigit⟩
  exact ⟨hall _ (by decide), hall _ (by decide)⟩

/-- The list that the loop of `ecc_mul_double` reads is the same. -/
theorem getD_wnafRecode (w : Width) (scalar : UInt64) (i : Nat) :
    (wnafRecode w scalar).getD i (.zero w) = digitAt w scalar i := by
  rw [wnafRecode, digitAt]
  by_cases hi : i < (wnafLoop w scalar []).length
  · rw [List.getD_append _ _ _ _ hi]
  · rw [List.getD_append_right _ _ _ _ (Nat.not_lt.mp hi),
      List.getD_eq_default _ _ (Nat.not_lt.mp hi)]
    rw [List.getD_eq_getElem?_getD, List.getElem?_getD_replicate_default_eq]

end ZkQuorum.Crypto
