import Mathlib.Data.Fintype.Basic
import Mathlib.Tactic.FinCases
import Mathlib.Tactic.IntervalCases
import ZkQuorum.Lib.Keccak

/-!
# The permutation of the C port (crypto/src/riscv_fourq_verify.c)

`KeccakP1600_Permute_12rounds` unrolls the 12 rounds over 25 named lanes. Each
expansion of the macro `thetaRhoPiChiIotaPrepareTheta` turns the lanes `A` into the
lanes `E` and prepares the column parities of the next round on the way; the
expansions alternate two register sets.

**`keccakP1600Permute12rounds_eq`** is the refinement: the port computes
Keccak-p[1600, 12] on every state.
-/

namespace ZkQuorum.Crypto

open Keccak

/-- `ROL64`. -/
def rol64 (a : UInt64) (offset : Nat) : UInt64 :=
  if offset = 0 then a
  else (a <<< UInt64.ofNat offset) ^^^ (a >>> UInt64.ofNat (64 - offset))

/-- `andn64`. -/
def andn64 (a b : UInt64) : UInt64 := ~~~a &&& b

/-- `declareABCDE`: a register set of 25 named lanes. -/
structure Lanes where
  (ba be bi bo bu : UInt64)
  (ga ge gi go gu : UInt64)
  (ka ke ki ko ku : UInt64)
  (ma me mi mo mu : UInt64)
  (sa se si so su : UInt64)

/-- The column parities `Ca`, `Ce`, `Ci`, `Co`, `Cu`. -/
structure Parities where
  (a e i o u : UInt64)

/-- `copyFromState`. -/
def copyFromState (s : State) : Lanes where
  ba := s[0]; be := s[1]; bi := s[2]; bo := s[3]; bu := s[4]
  ga := s[5]; ge := s[6]; gi := s[7]; go := s[8]; gu := s[9]
  ka := s[10]; ke := s[11]; ki := s[12]; ko := s[13]; ku := s[14]
  ma := s[15]; me := s[16]; mi := s[17]; mo := s[18]; mu := s[19]
  sa := s[20]; se := s[21]; si := s[22]; so := s[23]; su := s[24]

/-- `copyToState`. -/
def copyToState (A : Lanes) : State :=
  #v[A.ba, A.be, A.bi, A.bo, A.bu,
    A.ga, A.ge, A.gi, A.go, A.gu,
    A.ka, A.ke, A.ki, A.ko, A.ku,
    A.ma, A.me, A.mi, A.mo, A.mu,
    A.sa, A.se, A.si, A.so, A.su]

/-- `thetaRhoPiChiIotaPrepareTheta(i, A, E)`, with the round constant `i`. -/
def thetaRhoPiChiIotaPrepareTheta (roundConstant : UInt64) (A : Lanes) (C : Parities) :
    Lanes × Parities :=
  let Da := C.u ^^^ rol64 C.e 1
  let De := C.a ^^^ rol64 C.i 1
  let Di := C.e ^^^ rol64 C.o 1
  let Do := C.i ^^^ rol64 C.u 1
  let Du := C.o ^^^ rol64 C.a 1
  let Aba := A.ba ^^^ Da; let Bba := Aba
  let Age := A.ge ^^^ De; let Bbe := rol64 Age 44
  let Aki := A.ki ^^^ Di; let Bbi := rol64 Aki 43
  let Amo := A.mo ^^^ Do; let Bbo := rol64 Amo 21
  let Asu := A.su ^^^ Du; let Bbu := rol64 Asu 14
  let Eba := (Bba ^^^ andn64 Bbe Bbi) ^^^ roundConstant; let Ca := Eba
  let Ebe := Bbe ^^^ andn64 Bbi Bbo; let Ce := Ebe
  let Ebi := Bbi ^^^ andn64 Bbo Bbu; let Ci := Ebi
  let Ebo := Bbo ^^^ andn64 Bbu Bba; let Co := Ebo
  let Ebu := Bbu ^^^ andn64 Bba Bbe; let Cu := Ebu
  let Abo := A.bo ^^^ Do; let Bga := rol64 Abo 28
  let Agu := A.gu ^^^ Du; let Bge := rol64 Agu 20
  let Aka := A.ka ^^^ Da; let Bgi := rol64 Aka 3
  let Ame := A.me ^^^ De; let Bgo := rol64 Ame 45
  let Asi := A.si ^^^ Di; let Bgu := rol64 Asi 61
  let Ega := Bga ^^^ andn64 Bge Bgi; let Ca := Ca ^^^ Ega
  let Ege := Bge ^^^ andn64 Bgi Bgo; let Ce := Ce ^^^ Ege
  let Egi := Bgi ^^^ andn64 Bgo Bgu; let Ci := Ci ^^^ Egi
  let Ego := Bgo ^^^ andn64 Bgu Bga; let Co := Co ^^^ Ego
  let Egu := Bgu ^^^ andn64 Bga Bge; let Cu := Cu ^^^ Egu
  let Abe := A.be ^^^ De; let Bka := rol64 Abe 1
  let Agi := A.gi ^^^ Di; let Bke := rol64 Agi 6
  let Ako := A.ko ^^^ Do; let Bki := rol64 Ako 25
  let Amu := A.mu ^^^ Du; let Bko := rol64 Amu 8
  let Asa := A.sa ^^^ Da; let Bku := rol64 Asa 18
  let Eka := Bka ^^^ andn64 Bke Bki; let Ca := Ca ^^^ Eka
  let Eke := Bke ^^^ andn64 Bki Bko; let Ce := Ce ^^^ Eke
  let Eki := Bki ^^^ andn64 Bko Bku; let Ci := Ci ^^^ Eki
  let Eko := Bko ^^^ andn64 Bku Bka; let Co := Co ^^^ Eko
  let Eku := Bku ^^^ andn64 Bka Bke; let Cu := Cu ^^^ Eku
  let Abu := A.bu ^^^ Du; let Bma := rol64 Abu 27
  let Aga := A.ga ^^^ Da; let Bme := rol64 Aga 36
  let Ake := A.ke ^^^ De; let Bmi := rol64 Ake 10
  let Ami := A.mi ^^^ Di; let Bmo := rol64 Ami 15
  let Aso := A.so ^^^ Do; let Bmu := rol64 Aso 56
  let Ema := Bma ^^^ andn64 Bme Bmi; let Ca := Ca ^^^ Ema
  let Eme := Bme ^^^ andn64 Bmi Bmo; let Ce := Ce ^^^ Eme
  let Emi := Bmi ^^^ andn64 Bmo Bmu; let Ci := Ci ^^^ Emi
  let Emo := Bmo ^^^ andn64 Bmu Bma; let Co := Co ^^^ Emo
  let Emu := Bmu ^^^ andn64 Bma Bme; let Cu := Cu ^^^ Emu
  let Abi := A.bi ^^^ Di; let Bsa := rol64 Abi 62
  let Ago := A.go ^^^ Do; let Bse := rol64 Ago 55
  let Aku := A.ku ^^^ Du; let Bsi := rol64 Aku 39
  let Ama := A.ma ^^^ Da; let Bso := rol64 Ama 41
  let Ase := A.se ^^^ De; let Bsu := rol64 Ase 2
  let Esa := Bsa ^^^ andn64 Bse Bsi; let Ca := Ca ^^^ Esa
  let Ese := Bse ^^^ andn64 Bsi Bso; let Ce := Ce ^^^ Ese
  let Esi := Bsi ^^^ andn64 Bso Bsu; let Ci := Ci ^^^ Esi
  let Eso := Bso ^^^ andn64 Bsu Bsa; let Co := Co ^^^ Eso
  let Esu := Bsu ^^^ andn64 Bsa Bse; let Cu := Cu ^^^ Esu
  ({ ba := Eba, be := Ebe, bi := Ebi, bo := Ebo, bu := Ebu,
      ga := Ega, ge := Ege, gi := Egi, go := Ego, gu := Egu,
      ka := Eka, ke := Eke, ki := Eki, ko := Eko, ku := Eku,
      ma := Ema, me := Eme, mi := Emi, mo := Emo, mu := Emu,
      sa := Esa, se := Ese, si := Esi, so := Eso, su := Esu },
   { a := Ca, e := Ce, i := Ci, o := Co, u := Cu })

/-- The parities with which `rounds12` starts. -/
def prepareTheta (A : Lanes) : Parities where
  a := A.ba ^^^ A.ga ^^^ A.ka ^^^ A.ma ^^^ A.sa
  e := A.be ^^^ A.ge ^^^ A.ke ^^^ A.me ^^^ A.se
  i := A.bi ^^^ A.gi ^^^ A.ki ^^^ A.mi ^^^ A.si
  o := A.bo ^^^ A.go ^^^ A.ko ^^^ A.mo ^^^ A.so
  u := A.bu ^^^ A.gu ^^^ A.ku ^^^ A.mu ^^^ A.su

/-- `KeccakF1600RoundConstant0` to `10`, and the constant of the round that
`rounds12` writes out at its end. -/
def keccakF1600RoundConstants : List UInt64 :=
  [0x000000008000808b, 0x800000000000008b, 0x8000000000008089, 0x8000000000008003,
   0x8000000000008002, 0x8000000000000080, 0x000000000000800a, 0x800000008000000a,
   0x8000000080008081, 0x8000000000008080, 0x0000000080000001, 0x8000000080008008]

/-- `rounds12`. The last round is the macro without the parities, which nothing
reads after it. -/
def rounds12 (A : Lanes) : Lanes :=
  (keccakF1600RoundConstants.foldl
    (fun st roundConstant => thetaRhoPiChiIotaPrepareTheta roundConstant st.1 st.2)
    (A, prepareTheta A)).1

/-- `KeccakP1600_Permute_12rounds`. -/
def keccakP1600Permute12rounds (state : State) : State :=
  copyToState (rounds12 (copyFromState state))

/-! ## Refinement -/

theorem copyToState_copyFromState (s : State) : copyToState (copyFromState s) = s := by
  apply Vector.ext
  intro i hi
  interval_cases i <;> rfl

theorem copyFromState_copyToState (A : Lanes) : copyFromState (copyToState A) = A := rfl

theorem rol64_eq (a : UInt64) {offset : Nat} (h : offset < 64) :
    rol64 a offset = rotl a offset := by
  rw [rol64]
  split
  next h0 => rw [h0, rotl_zero]
  next h0 => exact rotl_eq a (Nat.pos_of_ne_zero h0) h

theorem rhoOffset_lt (x y : Fin 5) : rhoOffset x y < 64 := by
  revert x y
  decide

/-- **One expansion of the macro is one round.** -/
theorem copyToState_macro (rc : UInt64) (s : State) :
    copyToState (thetaRhoPiChiIotaPrepareTheta rc (copyFromState s)
      (prepareTheta (copyFromState s))).1 = round rc s := by
  apply ext_lanes
  intro x y
  rw [lane_round]
  simp only [← rol64_eq _ (rhoOffset_lt _ _), ← rol64_eq _ (show 1 < 64 by decide)]
  fin_cases x <;> fin_cases y <;> rfl

/-- Expansions of the macro one after the other are rounds one after the other. -/
theorem copyToState_foldl (rcs : List UInt64) (A : Lanes) :
    copyToState (rcs.foldl (fun st rc => thetaRhoPiChiIotaPrepareTheta rc st.1 st.2)
      (A, prepareTheta A)).1 = rcs.foldl (fun s rc => round rc s) (copyToState A) := by
  induction rcs generalizing A with
  | nil => rfl
  | cons rc rcs ih =>
    have hround := copyToState_macro rc (copyToState A)
    rw [copyFromState_copyToState] at hround
    rw [List.foldl_cons, List.foldl_cons, ← hround, ← ih]
    rfl

/-- **The port computes Keccak-p[1600, 12].** -/
theorem keccakP1600Permute12rounds_eq (state : State) :
    keccakP1600Permute12rounds state = permute 12 state := by
  rw [keccakP1600Permute12rounds, rounds12, copyToState_foldl, copyToState_copyFromState, permute,
    show keccakF1600RoundConstants = (List.range' 12 12).map roundConstant from
      roundConstant_last.symm, List.foldl_map]

end ZkQuorum.Crypto
