import ZkQuorum.Crypto.KangarooTwelve
import ZkQuorum.Lib.Loops
import ZkQuorum.Lib.Rust

/-!
# KangarooTwelve of the build script (methods/guest/identity.rs)

`keccak_p1600_12` is a loop over an array `l[x][y]`, `k12` pads its input in a
buffer. The port of the guest unrolls the rounds and pads in place.

**`k12_eq`** says that both hashes are KT128 on a message of one chunk.
-/

namespace ZkQuorum.Identity

open Keccak LittleEndian

/-- `[[u64; 5]; 5]`, indexed `l[x][y]`. -/
abbrev Array5 := Vector (Vector UInt64 5) 5

/-- `RC`. -/
def RC : List UInt64 :=
  [0x000000008000808B, 0x800000000000008B, 0x8000000000008089, 0x8000000000008003,
   0x8000000000008002, 0x8000000000000080, 0x000000000000800A, 0x800000008000000A,
   0x8000000080008081, 0x8000000000008080, 0x0000000080000001, 0x8000000080008008]

/-- `ROT`. -/
def ROT : Vector (Vector Nat 5) 5 :=
  #v[#v[0, 36, 3, 41, 18], #v[1, 44, 10, 45, 2], #v[62, 6, 43, 15, 61],
    #v[28, 55, 25, 21, 56], #v[27, 20, 39, 8, 14]]

/-- `l[x][y] = v`. -/
def set2 (l : Array5) (x y : Fin 5) (v : UInt64) : Array5 := l.set x (l[x].set y v)

/-- The column parities. -/
def columns (l : Array5) : Vector UInt64 5 :=
  forRange 5 (.replicate 5 0) fun c x =>
    c.set x (l[x][0] ^^^ l[x][1] ^^^ l[x][2] ^^^ l[x][3] ^^^ l[x][4])

/-- `d[x] = c[(x + 4) % 5] ^ c[(x + 1) % 5].rotate_left(1)`. -/
def effect (cs : Vector UInt64 5) : Vector UInt64 5 :=
  forRange 5 (.replicate 5 0) fun d x => d.set x (cs[x + 4] ^^^ rotl cs[x + 1] 1)

/-- `l[x][y] ^= d[x]`. -/
def addEffect (l : Array5) (d : Vector UInt64 5) : Array5 :=
  forRange 5 l fun l x => forRange 5 l fun l y => set2 l x y (l[x][y] ^^^ d[x])

/-- `(2 * x + 3 * y) % 5`. -/
def rotateIndex (x y : Fin 5) : Fin 5 := 2 * x + 3 * y

/-- `b[y][(2 * x + 3 * y) % 5] = l[x][y].rotate_left(ROT[x][y])`, over `y`. -/
def rotateColumn (l b : Array5) (x : Fin 5) : Array5 :=
  forRange 5 b fun b y => set2 b y (rotateIndex x y) (rotl l[x][y] ROT[x][y])

/-- The array `b`. -/
def rotate (l : Array5) : Array5 :=
  forRange 5 (.replicate 5 (.replicate 5 0)) (rotateColumn l)

/-- `l[x][y] = b[x][y] ^ (!b[(x + 1) % 5][y] & b[(x + 2) % 5][y])`. -/
def combine (l b : Array5) : Array5 :=
  forRange 5 l fun l x => forRange 5 l fun l y =>
    set2 l x y (b[x][y] ^^^ (~~~ b[x + 1][y] &&& b[x + 2][y]))

/-- The body of the loop over `RC`. -/
def keccakRound (l : Array5) (rc : UInt64) : Array5 :=
  let c := columns l
  let d := effect c
  let l := addEffect l d
  let b := rotate l
  let l := combine l b
  set2 l 0 0 (l[0][0] ^^^ rc)

/-- `keccak_p1600_12`. -/
def keccakP1600_12 (l : Array5) : Array5 := RC.foldl keccakRound l

/-- The lane map `x + 5 y`. -/
def toState (l : Array5) : State := ofLanes fun x y => l[x][y]

/-! ## The permutation -/

theorem getElem_set2 (l : Array5) (a b : Fin 5) (v : UInt64) (x y : Fin 5) :
    (set2 l a b v)[x][y] = if x = a ∧ y = b then v else l[x][y] := by
  by_cases hx : x = a
  · subst hx
    have hrow : (set2 l x b v)[x] = l[x].set b v := Vector.getElem_set_self x.isLt
    rw [hrow]
    by_cases hy : y = b
    · subst hy
      rw [if_pos ⟨rfl, rfl⟩]
      exact Vector.getElem_set_self y.isLt
    · rw [if_neg fun h => hy h.2]
      exact Vector.getElem_set_ne b.isLt y.isLt fun h => hy (Fin.ext h.symm)
  · have hrow : (set2 l a b v)[x] = l[x] :=
      Vector.getElem_set_ne a.isLt x.isLt fun h => hx (Fin.ext h.symm)
    rw [hrow, if_neg fun h => hx h.1]

/-- A loop over all cells that rewrites each from its old value. -/
theorem getElem_cells (f : Fin 5 → Fin 5 → UInt64 → UInt64) (l : Array5) (x y : Fin 5) :
    (forRange 5 l fun l x => forRange 5 l fun l y => set2 l x y (f x y l[x][y]))[x][y]
      = f x y l[x][y] := by
  have hrow : ∀ (l : Array5) (x : Fin 5),
      (forRange 5 l fun l y => set2 l x y (f x y l[x][y]))
        = l.set x (forRange 5 l[x] fun r y => r.set y (f x y r[y])) := by
    intro l x
    exact forRange_row (fun r y => r.set y (f x y r[y])) l x
  have hcol := getElem_forRange_set
    (fun x (r : Vector UInt64 5) => forRange 5 r fun r y => r.set y (f x y r[y])) l x
  simp only [hrow]
  exact (congrArg (fun r => r[y]) hcol).trans (getElem_forRange_set (f x) l[x] y)

theorem getElem_columns (l : Array5) (x : Fin 5) :
    (columns l)[x] = l[x][0] ^^^ l[x][1] ^^^ l[x][2] ^^^ l[x][3] ^^^ l[x][4] :=
  getElem_forRange_set (fun x _ => l[x][0] ^^^ l[x][1] ^^^ l[x][2] ^^^ l[x][3] ^^^ l[x][4]) _ x

theorem getElem_effect (cs : Vector UInt64 5) (x : Fin 5) :
    (effect cs)[x] = cs[x + 4] ^^^ rotl cs[x + 1] 1 :=
  getElem_forRange_set (fun x _ => cs[x + 4] ^^^ rotl cs[x + 1] 1) _ x

theorem getElem_addEffect (l : Array5) (d : Vector UInt64 5) (x y : Fin 5) :
    (addEffect l d)[x][y] = l[x][y] ^^^ d[x] :=
  getElem_cells (fun x _ v => v ^^^ d[x]) l x y

theorem getElem_combine (l b : Array5) (x y : Fin 5) :
    (combine l b)[x][y] = b[x][y] ^^^ (~~~ b[x + 1][y] &&& b[x + 2][y]) :=
  getElem_cells (fun x y _ => b[x][y] ^^^ (~~~ b[x + 1][y] &&& b[x + 2][y])) l x y

theorem getElem_rotateColumn (l b : Array5) (z x : Fin 5) :
    (rotateColumn l b z)[x] = b[x].set (rotateIndex z x) (rotl l[z][x] ROT[z][x]) :=
  getElem_forRange_set
    (fun y (r : Vector UInt64 5) => r.set (rotateIndex z y) (rotl l[z][y] ROT[z][y])) b x

/-- Each cell of a row is written once. -/
theorem rotateIndex_injective : ∀ y : Fin 5, Function.Injective fun x => rotateIndex x y := by
  decide

theorem rotateIndex_eq : ∀ x y : Fin 5, rotateIndex (x + 3 * y) x = y := by decide

/-- The cell `(x, y)` receives the lane `(x + 3 y, x)`. -/
theorem getElem_rotate (l : Array5) (x y : Fin 5) :
    (rotate l)[x][y] = rotl l[x + 3 * y][x] ROT[x + 3 * y][x] := by
  have hrow := getElem_forRange (rotateColumn l)
    (fun r z => r.set (rotateIndex z x) (rotl l[z][x] ROT[z][x])) x
    (fun b z => getElem_rotateColumn l b z x) (.replicate 5 (.replicate 5 0))
  have hcell := getElem_forRange_scatter (rotateIndex_injective x) (fun z => rotl l[z][x] ROT[z][x])
    (Vector.replicate 5 (Vector.replicate 5 0))[x] (x + 3 * y)
  simp only [rotateIndex_eq] at hcell
  rw [rotate]
  exact (congrArg (fun r => r[y]) hrow).trans hcell

theorem rhoOffset_eq (x y : Fin 5) : ROT[x][y] = rhoOffset x y := by
  revert x y
  decide

/-- A cell of the array `b`, from the lanes of the state. -/
theorem getElem_rotate_addEffect (l : Array5) (x y : Fin 5) :
    (rotate (addEffect l (effect (columns l))))[x][y]
      = rotl (lane (toState l) (x + 3 * y) x ^^^ (columnParity (toState l) (x + 3 * y - 1)
        ^^^ rotl (columnParity (toState l) (x + 3 * y + 1)) 1)) (rhoOffset (x + 3 * y) x) := by
  have hsub : ∀ x y : Fin 5, x + 3 * y - 1 = x + 3 * y + 4 := by decide
  rw [getElem_rotate, getElem_addEffect, getElem_effect, getElem_columns, getElem_columns,
    rhoOffset_eq, hsub]
  simp only [toState, columnParity, lane_ofLanes]
  rfl

/-- **One pass of the loop is one round.** -/
theorem toState_keccakRound (l : Array5) (rc : UInt64) :
    toState (keccakRound l rc) = round rc (toState l) := by
  apply ext_lanes
  intro x y
  rw [lane_round, toState, lane_ofLanes, keccakRound]
  simp only [← getElem_rotate_addEffect]
  have hcell := getElem_combine (addEffect l (effect (columns l)))
    (rotate (addEffect l (effect (columns l))))
  refine (getElem_set2 _ 0 0 _ x y).trans ?_
  by_cases h0 : x = 0 ∧ y = 0
  · obtain ⟨rfl, rfl⟩ := h0
    rw [if_pos ⟨rfl, rfl⟩, if_pos ⟨rfl, rfl⟩]
    exact congrArg (· ^^^ rc) (hcell 0 0)
  · rw [if_neg h0, if_neg h0]
    exact hcell x y

theorem RC_eq : RC = (List.range' 12 12).map roundConstant := roundConstant_last.symm

/-- **`keccak_p1600_12` computes Keccak-p[1600, 12].** -/
theorem toState_keccakP1600_12 (l : Array5) :
    toState (keccakP1600_12 l) = permute 12 (toState l) := by
  have hfold : ∀ (rcs : List UInt64) (l : Array5),
      toState (rcs.foldl keccakRound l) = rcs.foldl (fun A rc => round rc A) (toState l) := by
    intro rcs
    induction rcs with
    | nil => intro l; rfl
    | cons rc rcs ih => intro l; rw [List.foldl_cons, ih, toState_keccakRound, List.foldl_cons]
  rw [keccakP1600_12, hfold, RC_eq, List.foldl_map, permute]

/-! ## The hash -/

/-- `l[i % 5][i / 5]`. -/
def entry (l : Array5) (i : Fin 21) : UInt64 :=
  l[(⟨i.val % 5, by omega⟩ : Fin 5)][(⟨i.val / 5, by omega⟩ : Fin 5)]

/-- `l[i % 5][i / 5] ^= v`. -/
def xorEntry (l : Array5) (i : Fin 21) (v : UInt64) : Array5 :=
  set2 l ⟨i.val % 5, by omega⟩ ⟨i.val / 5, by omega⟩ (entry l i ^^^ v)

/-- The `rate` of `k12`. -/
abbrev rate : Nat := 168

/-- The buffer `padded`. -/
def padded (data : Bytes) : Bytes :=
  let padded := data ++ [0x00] ++ [0x07]
  let padded := padded
    ++ List.replicate ((padded.length + rate - 1) / rate * rate - padded.length) 0
  padded.modify (padded.length - 1) (· ||| 0x80)

/-- The loop over the lanes of a block. -/
def xorLanes (l : Array5) (block : Bytes) : Rust Array5 :=
  (List.finRange 21).foldlM (fun l i => do
    let lane ← Rust.toArray 8 (← Rust.slice block (i.val * 8) (i.val * 8 + 8))
    return xorEntry l i (toU64 lane.val)) l

/-- `k12`, with an output of `outLen` bytes. -/
def k12 (data : Bytes) (outLen : Nat) : Rust Bytes := do
  Rust.assert (decide (data.length < 8192) && decide (outLen ≤ 168))
    "assertion failed: data.len() < 8192 && out.len() <= 168"
  let l ← (chunks rate (padded data)).foldlM
    (fun l block => do return keccakP1600_12 (← xorLanes l block)) (.replicate 5 (.replicate 5 0))
  let squeezed := (List.finRange 21).flatMap fun i => ofU64 (entry l i)
  let front ← Rust.slice squeezed 0 outLen
  Rust.copyFromSlice (List.replicate outLen 0) 0 outLen front

theorem getElem_toState (l : Array5) (j : Nat) (hj : j < 25) :
    (toState l)[j] = l[(⟨j % 5, by omega⟩ : Fin 5)][(⟨j / 5, by omega⟩ : Fin 5)] :=
  Vector.getElem_ofFn ..

theorem toState_xorEntry (l : Array5) (i : Fin 21) (v : UInt64) :
    toState (xorEntry l i v) = xorLane (toState l) i.val v := by
  apply Vector.ext
  intro j hj
  have hcell := getElem_set2 l ⟨i.val % 5, by omega⟩ ⟨i.val / 5, by omega⟩ (entry l i ^^^ v)
    ⟨j % 5, by omega⟩ ⟨j / 5, by omega⟩
  rw [getElem_xorLane, getElem_toState _ _ hj, getElem_toState _ _ hj]
  refine hcell.trans ?_
  by_cases hij : j = i.val
  · subst hij
    rw [if_pos ⟨rfl, rfl⟩, if_pos rfl]
    rfl
  · rw [if_neg hij, if_neg]
    rintro ⟨hx, hy⟩
    have hx' : j % 5 = i.val % 5 := congrArg Fin.val hx
    have hy' : j / 5 = i.val / 5 := congrArg Fin.val hy
    omega

/-- No slice of a whole block panics. -/
theorem foldlM_xorEntry {block : Bytes} (h : block.length = 168) (is : List (Fin 21))
    (l : Array5) :
    is.foldlM (fun l i => do
        let lane ← Rust.toArray 8 (← Rust.slice block (i.val * 8) (i.val * 8 + 8))
        return xorEntry l i (toU64 lane.val)) l
      = (.ok (is.foldl (fun l i => xorEntry l i (Crypto.laneAt block i.val)) l) : Rust Array5) := by
  induction is generalizing l with
  | nil => rfl
  | cons i is ih =>
    have hlane : ((block.drop (i.val * 8)).take 8).length = 8 :=
      List.length_take_of_le (by rw [List.length_drop]; omega)
    rw [List.foldlM_cons, Rust.slice_of_le (by omega) (by omega), Nat.add_sub_cancel_left,
      Rust.ok_bind, Rust.toArray_of_length hlane]
    exact ih _

theorem toState_foldl_xorEntry (block : Bytes) (is : List (Fin 21)) (l : Array5) :
    toState (is.foldl (fun l i => xorEntry l i (Crypto.laneAt block i.val)) l)
      = (is.map Fin.val).foldl (fun s j => xorLane s j (Crypto.laneAt block j)) (toState l) := by
  induction is generalizing l with
  | nil => rfl
  | cons i is ih => rw [List.foldl_cons, ih, toState_xorEntry, List.map_cons, List.foldl_cons]

/-- The lanes of a whole block are its bytes. -/
theorem xorLanes_eq (l : Array5) {block : Bytes} (h : block.length = 168) :
    ∃ m, xorLanes l block = .ok m
      ∧ toState m = KangarooTwelve.sponge.xorBytes (toState l) 0 block := by
  have hlanes := Crypto.absorbLanes_eq (toState l) (Nat.le_of_eq h.symm) (by decide)
  rw [List.take_of_length_le (Nat.le_of_eq h)] at hlanes
  refine ⟨_, foldlM_xorEntry h (List.finRange 21) l, ?_⟩
  rw [toState_foldl_xorEntry, List.map_coe_finRange_eq_range]
  exact hlanes

/-- The final bit: on a byte below 0x80, or is xor. -/
theorem modify_last_eq {bs : Bytes} (hlast : ∀ b, bs.getLast? = some b → b = 0x07 ∨ b = 0) :
    bs.modify (bs.length - 1) (· ||| 0x80) = Sponge.xorLast 0x80 bs := by
  induction bs with
  | nil => rfl
  | cons x bs ih =>
    cases bs with
    | nil =>
      show [x ||| 0x80] = [x ^^^ 0x80]
      rcases hlast x rfl with rfl | rfl <;> rfl
    | cons y bs =>
      have htail := ih fun b hb => hlast b hb
      show x :: (y :: bs).modify bs.length (· ||| 0x80) = x :: Sponge.xorLast 0x80 (y :: bs)
      rw [← htail]
      rfl

/-- The buffer is the padding of the message with its zero byte. -/
theorem padded_eq (data : Bytes) :
    padded data = KangarooTwelve.sponge.pad 0x07 (data ++ [0]) := by
  have hlen : (data ++ [(0 : UInt8)] ++ [0x07]).length = data.length + 2 := by
    rw [List.length_append, List.length_append]
    rfl
  have hcount : (data.length + 2 + rate - 1) / rate * rate - (data.length + 2)
      = 168 - 1 - (data ++ [(0 : UInt8)]).length % 168 := by
    rw [List.length_append, List.length_singleton]
    show (data.length + 2 + 168 - 1) / 168 * 168 - _ = _
    omega
  rw [padded, hlen, hcount, modify_last_eq]
  · rw [Sponge.pad, List.append_assoc _ [(0x07 : UInt8)]]
    rfl
  · intro b hb
    rw [List.append_assoc _ [(0x07 : UInt8)], List.getLast?_append_of_ne_nil _
      (List.append_ne_nil_of_left_ne_nil (List.cons_ne_nil 0x07 []) _)] at hb
    rcases List.mem_append.mp (List.mem_of_getLast? hb) with hb | hb
    · exact Or.inl (List.mem_singleton.mp hb)
    · exact Or.inr (List.eq_of_mem_replicate hb)

/-- `squeezed` is the first block of the state. -/
theorem squeezed_eq (l : Array5) :
    (List.finRange 21).flatMap (fun i => ofU64 (entry l i)) = (bytes (toState l)).take 168 := by
  have hblocks := flatMap_take_drop (bytes (toState l)) 8 21
  rw [← List.map_coe_finRange_eq_range, List.flatMap_map] at hblocks
  refine Eq.trans ?_ hblocks
  apply List.flatMap_congr
  intro i _
  have hi : i.val < (toState l).toList.length := by
    rw [Vector.length_toList]
    omega
  have hblock := take_drop_flatMap (f := ofU64) (k := 8) (fun v _ => length_ofU64 v) hi []
  rw [List.append_nil, Vector.getElem_toList, getElem_toState _ _ (by omega)] at hblock
  exact hblock.symm

/-- The blocks of the padded message, one after the other. -/
theorem absorb_padded {blocks : List Bytes} (h : ∀ b ∈ blocks, b.length = 168) (l : Array5) :
    ∃ m, blocks.foldlM (fun l block => do return keccakP1600_12 (← xorLanes l block)) l
        = (.ok m : Rust Array5)
      ∧ toState m = blocks.foldl
          (fun A block => permute 12 (KangarooTwelve.sponge.xorBytes A 0 block)) (toState l) := by
  induction blocks generalizing l with
  | nil => exact ⟨l, rfl, rfl⟩
  | cons b bs ih =>
    obtain ⟨l', hl', hxor⟩ := xorLanes_eq l (h b List.mem_cons_self)
    obtain ⟨m, hm, hstate⟩ := ih (fun c hc => h c (List.mem_cons_of_mem b hc)) (keccakP1600_12 l')
    refine ⟨m, ?_, ?_⟩
    · rw [List.foldlM_cons, hl']
      exact hm
    · rw [hstate, toState_keccakP1600_12, hxor, List.foldl_cons]

/-- **`k12` is KT128 on a message of one chunk.** -/
theorem k12_eq {data : Bytes} (h : data.length < 8192) {L : Nat} (hL : L ≤ 168) :
    k12 data L = .ok (KangarooTwelve.kt128 data [] L) := by
  -- the padding completes the last block, so no block is cut short
  have hblocks : ∀ b ∈ chunks rate (padded data), b.length = 168 := by
    rw [padded_eq]
    exact fun b hb => length_of_mem_chunks (Sponge.dvd_length_pad 0x07 (data ++ [0])) hb
  obtain ⟨l, hl, hstate⟩ := absorb_padded hblocks (.replicate 5 (.replicate 5 0))
  have hout : ((bytes (toState l)).take L).length = L :=
    List.length_take_of_le (by rw [length_bytes]; omega)
  -- one block is squeezed, and the output is cut from it
  have hslice : Rust.slice ((bytes (toState l)).take 168) 0 L
      = .ok ((bytes (toState l)).take L) := by
    have hlen : ((bytes (toState l)).take 168).length = 168 :=
      List.length_take_of_le (by rw [length_bytes]; decide)
    rw [Rust.slice_of_le (Nat.zero_le L) (by omega), List.drop_zero, Nat.sub_zero, List.take_take,
      Nat.min_eq_left hL]
  have hcopy : Rust.copyFromSlice (List.replicate L 0) 0 L ((bytes (toState l)).take L)
      = .ok ((bytes (toState l)).take L) := by
    have hzeros : (List.replicate L (0 : UInt8)).length = L := List.length_replicate
    rw [Rust.copyFromSlice_of_length (Nat.zero_le L) (Nat.le_of_eq hzeros.symm) hout,
      List.take_zero, List.nil_append, List.drop_of_length_le (Nat.le_of_eq hzeros),
      List.append_nil]
  have hzero : toState (.replicate 5 (.replicate 5 0)) = Keccak.zero := by
    apply Vector.ext
    intro j hj
    rw [getElem_toState _ _ hj, Keccak.zero, Vector.getElem_replicate]
    exact (congrArg (fun r : Vector UInt64 5 => r[(⟨j / 5, by omega⟩ : Fin 5)])
      (Vector.getElem_replicate _)).trans (Vector.getElem_replicate _)
  rw [hzero] at hstate
  rw [k12, decide_eq_true h, decide_eq_true hL, Bool.and_self, Rust.assert_true, Rust.ok_bind, hl,
    Rust.ok_bind, squeezed_eq]
  show (Rust.slice ((bytes (toState l)).take 168) 0 L >>= fun front =>
    Rust.copyFromSlice (List.replicate L 0) 0 L front) = _
  rw [hslice, Rust.ok_bind, hcopy, KangarooTwelve.kt128_single h, KangarooTwelve.F,
    KangarooTwelve.squeeze_of_le _ hL, hstate, padded_eq]
  rfl

/-- **The two hashes agree.** On a message below 8192 bytes `k12` returns what the port's
`KangarooTwelve` computes, and the two permutations are one function under the lane map. -/
theorem k12_eq_kangarooTwelve (data : Bytes) (h : data.length < 8192) (L : Nat) (hL : L ≤ 168)
    (queueNode : Crypto.KangarooTwelveF) (l : Array5) :
    k12 data L = .ok (Crypto.kangarooTwelve queueNode data (UInt32.ofNat data.length)
        (Nat.le_of_eq (UInt32.toNat_ofNat_of_lt' (Nat.lt_trans h (by decide)))) L)
      ∧ toState (keccakP1600_12 l) = Crypto.keccakP1600Permute12rounds (toState l) := by
  have hlen : (UInt32.ofNat data.length).toNat = data.length :=
    UInt32.toNat_ofNat_of_lt' (Nat.lt_trans h (by decide))
  constructor
  · rw [k12_eq h hL, Crypto.kangarooTwelve_of_length queueNode data _ hlen hL]
  · rw [toState_keccakP1600_12, Crypto.keccakP1600Permute12rounds_eq]

/-- `k12_eq_kangarooTwelve` on a message that leaves one byte for the padding. -/
theorem k12_eq_kangarooTwelve_block :
    (List.replicate 166 (7 : UInt8)).length < 8192 ∧ 32 ≤ 168 ∧
      ∃ h, k12 (List.replicate 166 7) 32 = .ok (Crypto.kangarooTwelve .zero (List.replicate 166 7)
        (UInt32.ofNat (List.replicate 166 (7 : UInt8)).length) h 32) :=
  have h : (List.replicate 166 (7 : UInt8)).length < 8192 := by
    rw [List.length_replicate]
    decide
  ⟨h, by decide, _, (k12_eq_kangarooTwelve (List.replicate 166 7) h 32 (by decide)
    .zero (.replicate 5 (.replicate 5 0))).1⟩

end ZkQuorum.Identity
