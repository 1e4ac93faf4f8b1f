import ZkQuorum.Guest.Tx
import Mathlib.Data.List.Nodup

/-!
# The computor list (methods/guest/src/main.rs)

`reject_duplicate_pubkeys` sorts the indices of the list by public key, looks
for equal neighbours and keeps the order; `find_computor` bisects that order and
returns the original position of a key.

`SortedIndex` is what the one establishes and the other needs. From it,
`findComputor_eq_some` is the meaning of the lookup: it finds exactly the listed
keys, each at its position in the list.
-/

namespace ZkQuorum.Guest

open LittleEndian Rust Search

/-- `pubkey_at`: `&pubkeys[i * 32..i * 32 + 32]`. -/
def pubkeyAt (pubkeys : Bytes) (i : Nat) : Bytes := (pubkeys.drop (i * 32)).take 32

/-- `find_computor`: the index of `key` in the list via the sorted index. -/
def findComputor (pubkeys : Bytes) (sorted : List UInt16) (key : Bytes) : Option Nat :=
  match binarySearchBy (fun i => compare (pubkeyAt pubkeys i.toNat) key) sorted with
  | .ok pos => sorted[pos]?.map UInt16.toNat
  | .error _ => none

/-- The `order.windows(2)` loop. -/
def assertNeighboursDiffer (pubkeys : Bytes) : List UInt16 → Rust Unit
  | i :: j :: rest => do
    assert (pubkeyAt pubkeys i.toNat != pubkeyAt pubkeys j.toNat)
      "duplicate pubkey in computor list"
    assertNeighboursDiffer pubkeys (j :: rest)
  | _ => .ok ()

/-- `reject_duplicate_pubkeys`: the indices sorted by pubkey. -/
def rejectDuplicatePubkeys (E : Externs) (pubkeys : Bytes) : Rust (List UInt16) := do
  let order := (List.range numberOfComputors).map UInt16.ofNat
  let order := E.sort.run (fun i => pubkeyAt pubkeys i.toNat) order
  assertNeighboursDiffer pubkeys order
  return order

/-! ## The list and its order -/

/-- `key` is the `i`-th key of the list. -/
def ListedAt (pubkeys : Bytes) (i : Nat) (key : Bytes) : Prop :=
  i < numberOfComputors ∧ pubkeyAt pubkeys i = key

/-- No two positions of the list hold the same key. -/
def DistinctKeys (pubkeys : Bytes) : Prop :=
  ∀ i j, i < numberOfComputors → j < numberOfComputors →
    pubkeyAt pubkeys i = pubkeyAt pubkeys j → i = j

/-- The indices of the list, each once, in strictly increasing order of key. -/
structure SortedIndex (pubkeys : Bytes) (sorted : List UInt16) : Prop where
  mem : ∀ i : UInt16, i ∈ sorted ↔ i.toNat < numberOfComputors
  strict : sorted.Pairwise fun i j =>
    compare (pubkeyAt pubkeys i.toNat) (pubkeyAt pubkeys j.toNat) = .lt

theorem mem_indices (i : UInt16) :
    i ∈ (List.range numberOfComputors).map UInt16.ofNat ↔ i.toNat < numberOfComputors := by
  simp only [List.mem_map, List.mem_range]
  constructor
  · rintro ⟨n, hn, rfl⟩
    simp only [numberOfComputors] at hn ⊢
    rw [UInt16.toNat_ofNat']
    omega
  · exact fun h => ⟨i.toNat, h, UInt16.ofNat_toNat⟩

theorem indices_nodup : ((List.range numberOfComputors).map UInt16.ofNat).Nodup := by
  refine List.Nodup.map_on (fun m hm n hn h => ?_) List.nodup_range
  have hmn := congrArg UInt16.toNat h
  simp only [List.mem_range, numberOfComputors] at hm hn
  rw [UInt16.toNat_ofNat', UInt16.toNat_ofNat'] at hmn
  omega

theorem assertNeighboursDiffer_eq_ok (pubkeys : Bytes) (order : List UInt16) (u : Unit) :
    assertNeighboursDiffer pubkeys order = .ok u ↔
      order.IsChain fun i j => pubkeyAt pubkeys i.toNat ≠ pubkeyAt pubkeys j.toNat := by
  induction order with
  | nil => simp [assertNeighboursDiffer]
  | cons i rest ih =>
    cases rest with
    | nil => simp [assertNeighboursDiffer]
    | cons j rest =>
      rw [assertNeighboursDiffer, bind_eq_ok, List.isChain_cons_cons, ← ih]
      simp only [assert_eq_ok, bne_iff_ne, exists_const]

/-- Two positions of a strictly sorted index with the same key are the same. -/
theorem SortedIndex.inj {pubkeys : Bytes} {sorted : List UInt16}
    (h : SortedIndex pubkeys sorted) {i j : UInt16} (hi : i ∈ sorted) (hj : j ∈ sorted)
    (hkey : pubkeyAt pubkeys i.toNat = pubkeyAt pubkeys j.toNat) : i = j := by
  have hself : ∀ k : Bytes, compare k k ≠ .lt := fun k hk => by
    rw [Std.ReflOrd.compare_self] at hk
    cases hk
  obtain ⟨p, hp, rfl⟩ := List.getElem_of_mem hi
  obtain ⟨q, hq, rfl⟩ := List.getElem_of_mem hj
  have hord := List.pairwise_iff_getElem.mp h.strict
  rcases Nat.lt_trichotomy p q with hpq | rfl | hqp
  · have := hord p q hp hq hpq
    rw [hkey] at this
    exact absurd this (hself _)
  · rfl
  · have := hord q p hq hp hqp
    rw [hkey] at this
    exact absurd this (hself _)

/-- What `reject_duplicate_pubkeys` returns is a strictly sorted index. -/
theorem sortedIndex_of_ok {E : Externs} {pubkeys : Bytes} {sorted : List UInt16}
    (h : rejectDuplicatePubkeys E pubkeys = .ok sorted) : SortedIndex pubkeys sorted := by
  rw [rejectDuplicatePubkeys] at h
  obtain ⟨_, hne, hret⟩ := bind_eq_ok.mp h
  cases hret
  rw [assertNeighboursDiffer_eq_ok] at hne
  refine { mem := fun i => ?_, strict := strict_of_neighbours_ne (E.sort.sorted _ _) hne }
  rw [(E.sort.perm _ _).mem_iff, mem_indices]

/-- A strictly sorted index means distinct keys. -/
theorem SortedIndex.distinctKeys {pubkeys : Bytes} {sorted : List UInt16}
    (h : SortedIndex pubkeys sorted) : DistinctKeys pubkeys := by
  intro i j hi hj hkey
  have hval : ∀ n, n < numberOfComputors → (UInt16.ofNat n).toNat = n := fun n hn => by
    simp only [numberOfComputors] at hn
    rw [UInt16.toNat_ofNat']
    omega
  have hmem : ∀ n, n < numberOfComputors → UInt16.ofNat n ∈ sorted := fun n hn =>
    (h.mem _).mpr (by rw [hval n hn]; exact hn)
  have heq := h.inj (hmem i hi) (hmem j hj) (by rw [hval i hi, hval j hj, hkey])
  rw [← hval i hi, heq, hval j hj]

/-- A list of distinct keys is accepted. -/
theorem rejectDuplicatePubkeys_of_distinct (E : Externs) {pubkeys : Bytes}
    (h : DistinctKeys pubkeys) : ∃ sorted, rejectDuplicatePubkeys E pubkeys = .ok sorted := by
  let order := E.sort.run (fun i => pubkeyAt pubkeys i.toNat)
    ((List.range numberOfComputors).map UInt16.ofNat)
  have hperm : order.Perm ((List.range numberOfComputors).map UInt16.ofNat) := E.sort.perm _ _
  have hnodup : order.Nodup := hperm.nodup_iff.mpr indices_nodup
  have hmem : ∀ i ∈ order, i.toNat < numberOfComputors := fun i hi =>
    (mem_indices i).mp (hperm.mem_iff.mp hi)
  -- distinct indices have distinct keys, neighbours among them
  have hne : order.Pairwise fun i j => pubkeyAt pubkeys i.toNat ≠ pubkeyAt pubkeys j.toNat :=
    List.Pairwise.imp_of_mem
      (fun {i j} hi hj hij hkey =>
        hij (UInt16.toNat_inj.mp (h _ _ (hmem i hi) (hmem j hj) hkey))) hnodup
  refine ⟨order, ?_⟩
  rw [rejectDuplicatePubkeys, bind_eq_ok]
  exact ⟨(), (assertNeighboursDiffer_eq_ok _ _ _).mpr hne.isChain, rfl⟩

/-- **The lookup finds exactly the listed keys, each at its position.** -/
theorem findComputor_eq_some {pubkeys : Bytes} {sorted : List UInt16}
    (h : SortedIndex pubkeys sorted) {key : Bytes} {i : Nat} :
    findComputor pubkeys sorted key = some i ↔ ListedAt pubkeys i key := by
  have hpart : Partitioned (fun i : UInt16 => compare (pubkeyAt pubkeys i.toNat) key) sorted :=
    partitioned_of_strict h.strict key
  have hsound : ∀ {i}, findComputor pubkeys sorted key = some i → ListedAt pubkeys i key := by
    intro i hi
    rw [findComputor] at hi
    cases hs : binarySearchBy (fun i => compare (pubkeyAt pubkeys i.toNat) key) sorted with
    | error p =>
      rw [hs] at hi
      cases hi
    | ok pos =>
      obtain ⟨hlt, hcmp⟩ := binarySearchBy_sound hs
      rw [hs] at hi
      simp only [List.getElem?_eq_getElem hlt, Option.map_some, Option.some.injEq] at hi
      subst hi
      exact ⟨(h.mem _).mp (List.getElem_mem hlt), Std.LawfulEqCmp.compare_eq_iff_eq.mp hcmp⟩
  refine ⟨hsound, fun ⟨hi, hkey⟩ => ?_⟩
  have hval : (UInt16.ofNat i).toNat = i := by
    simp only [numberOfComputors] at hi
    rw [UInt16.toNat_ofNat']
    omega
  have hmem : UInt16.ofNat i ∈ sorted := (h.mem _).mpr (by rw [hval]; exact hi)
  obtain ⟨k, hk, hki⟩ := List.getElem_of_mem hmem
  have heq : compare (pubkeyAt pubkeys sorted[k].toNat) key = .eq := by
    rw [hki, hval, hkey]
    exact Std.ReflOrd.compare_self
  obtain ⟨pos, hpos⟩ := binarySearchBy_complete hpart hk heq
  obtain ⟨hlt, -⟩ := binarySearchBy_sound hpos
  have hfound : findComputor pubkeys sorted key = some sorted[pos].toNat := by
    rw [findComputor, hpos]
    simp only [List.getElem?_eq_getElem hlt, Option.map_some]
  -- the position found holds the same key, so it is the same index
  obtain ⟨hj, hjkey⟩ := hsound hfound
  rw [hfound, h.distinctKeys _ _ hj hi (hjkey.trans hkey.symm)]

end ZkQuorum.Guest
