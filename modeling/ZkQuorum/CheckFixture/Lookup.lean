import ZkQuorum.CheckFixture.Checks

/-!
# The two lookups (methods/guest/src/main.rs, crypto/tests/check_fixture.c)

The guest sorts the positions of the list once and bisects them for each key; the checker scans
the list. On a list of distinct keys the two give the same position, and on any other list the
guest stops (**`sorted_lookup_eq_linear`**).
-/

namespace ZkQuorum.CheckFixture

open LittleEndian Guest Rust Search

section Lookup

variable (keys : Vector (ByteVec 32) numberOfComputors)

/-- The list as it stands in the packet: 32 bytes a key. -/
def packed : Bytes := keys.toList.flatMap (·.val)

theorem length_packed : (packed keys).length = numberOfComputors * 32 := by
  rw [packed, length_flatMap_blocks fun k _ => k.property, Vector.length_toList]

theorem pubkeyAt_packed (i : Fin numberOfComputors) :
    pubkeyAt (packed keys) i = (keys.get i).val := by
  rw [packed, pubkeyAt, ← List.append_nil (List.flatMap _ _),
    take_drop_flatMap (fun k _ => k.property) (by rw [Vector.length_toList]; exact i.isLt)]
  rfl

variable {keys}

theorem distinctKeys_packed :
    DistinctKeys (packed keys) ↔ ∀ i j, keys.get i = keys.get j → i = j := by
  constructor
  · intro h i j hkey
    apply Fin.ext
    apply h i j i.isLt j.isLt
    rw [pubkeyAt_packed, pubkeyAt_packed, hkey]
  · intro h i j hi hj hkey
    have hval :=
      (pubkeyAt_packed keys ⟨i, hi⟩).symm.trans (hkey.trans (pubkeyAt_packed keys ⟨j, hj⟩))
    exact congrArg Fin.val (h ⟨i, hi⟩ ⟨j, hj⟩ (Subtype.ext hval))

theorem listedAt_packed {key : ByteVec 32} {i : Nat} :
    ListedAt (packed keys) i key.val ↔ ∃ hi : i < numberOfComputors, keys.get ⟨i, hi⟩ = key := by
  constructor
  · rintro ⟨hi, hkey⟩
    exact ⟨hi, Subtype.ext ((pubkeyAt_packed keys ⟨i, hi⟩).symm.trans hkey)⟩
  · rintro ⟨hi, hkey⟩
    exact ⟨hi, (pubkeyAt_packed keys ⟨i, hi⟩).trans (congrArg Subtype.val hkey)⟩

/-- **The duplicate test** stops the guest exactly on a repeated key. -/
theorem rejectDuplicatePubkeys_panics_iff (E : Externs) :
    (∃ p, rejectDuplicatePubkeys E (packed keys) = .error p) ↔
      ∃ i j, i ≠ j ∧ keys.get i = keys.get j := by
  have hok : (∃ sorted, rejectDuplicatePubkeys E (packed keys) = .ok sorted) ↔
      ∀ i j, keys.get i = keys.get j → i = j := by
    rw [← distinctKeys_packed]
    constructor
    · rintro ⟨sorted, h⟩
      exact (sortedIndex_of_ok h).distinctKeys
    · intro h
      exact rejectDuplicatePubkeys_of_distinct E h
  cases hrun : rejectDuplicatePubkeys E (packed keys) with
  | ok sorted =>
    have hdistinct := hok.mp ⟨sorted, hrun⟩
    constructor
    · rintro ⟨p, hp⟩
      cases hp
    · rintro ⟨i, j, hne, hkey⟩
      exact absurd (hdistinct i j hkey) hne
  | error p =>
    refine ⟨fun _ => ?_, fun _ => ⟨p, rfl⟩⟩
    by_contra hnone
    obtain ⟨sorted, hsorted⟩ := hok.mpr fun i j hkey => by
      by_contra hne
      exact hnone ⟨i, j, hne, hkey⟩
    rw [hrun] at hsorted
    cases hsorted

/-- The list of a packet, between its epoch and its signature. -/
theorem pubkeysOf_around (epoch : ByteVec 2) (rest : Bytes) :
    pubkeysOf (epoch.val ++ packed keys ++ rest) = packed keys :=
  take_drop_middle epoch.property (length_packed keys)

/-- **The scan of the checker** finds what the bisection of the guest finds. -/
theorem computorIndex_eq_findComputor {sorted : List UInt16}
    (h : SortedIndex (packed keys) sorted) (key : ByteVec 32) (epoch : ByteVec 2) (rest : Bytes) :
    (computorIndex (epoch.val ++ packed keys ++ rest) key.val).map Fin.val
      = findComputor (packed keys) sorted key.val := by
  have hpub : pubkeysOf (epoch.val ++ packed keys ++ rest) = packed keys :=
    pubkeysOf_around epoch rest
  have hd : DistinctKeys (pubkeysOf (epoch.val ++ packed keys ++ rest)) := by
    rw [hpub]
    exact h.distinctKeys
  have hscan : ∀ i, computorIndex (epoch.val ++ packed keys ++ rest) key.val = some i ↔
      findComputor (packed keys) sorted key.val = some i.val := by
    intro i
    rw [computorIndex_eq_some hd, hpub, List.take_of_length_le (Nat.le_of_eq key.property),
      findComputor_eq_some h]
  cases hfind : findComputor (packed keys) sorted key.val with
  | some i =>
    have hi := (findComputor_eq_some h).mp hfind
    rw [(hscan ⟨i, hi.1⟩).mpr hfind, Option.map_some]
  | none =>
    cases hindex : computorIndex (epoch.val ++ packed keys ++ rest) key.val with
    | none => rfl
    | some i =>
      rw [(hscan i).mp hindex] at hfind
      cases hfind

/-- **Sorted lookup equals linear lookup**: a list with a repeated key is refused, and on every
other list each key is found at its position, by both programs. -/
theorem sorted_lookup_eq_linear (E : Externs) (keys : Vector (ByteVec 32) numberOfComputors) :
    ((∃ p, rejectDuplicatePubkeys E (packed keys) = .error p) ↔
      ∃ i j, i ≠ j ∧ keys.get i = keys.get j) ∧
    ∀ sorted, rejectDuplicatePubkeys E (packed keys) = .ok sorted → ∀ key : ByteVec 32,
      (∀ i, findComputor (packed keys) sorted key.val = some i ↔
        ∃ hi : i < numberOfComputors, keys.get ⟨i, hi⟩ = key) ∧
      (findComputor (packed keys) sorted key.val = none ↔ ∀ i, keys.get i ≠ key) ∧
      ∀ (epoch : ByteVec 2) (rest : Bytes),
        findComputor (packed keys) sorted key.val
          = (computorIndex (epoch.val ++ packed keys ++ rest) key.val).map Fin.val := by
  refine ⟨rejectDuplicatePubkeys_panics_iff E, fun sorted hrun key => ?_⟩
  have hsorted := sortedIndex_of_ok hrun
  have hsome : ∀ i, findComputor (packed keys) sorted key.val = some i ↔
      ∃ hi : i < numberOfComputors, keys.get ⟨i, hi⟩ = key := by
    intro i
    rw [findComputor_eq_some hsorted, listedAt_packed]
  refine ⟨hsome, ?_, fun epoch rest =>
    (computorIndex_eq_findComputor hsorted key epoch rest).symm⟩
  constructor
  · intro hnone i hkey
    rw [(hsome i.val).mpr ⟨i.isLt, hkey⟩] at hnone
    cases hnone
  · intro habsent
    cases hfind : findComputor (packed keys) sorted key.val with
    | none => rfl
    | some i =>
      obtain ⟨hi, hkey⟩ := (hsome i).mp hfind
      exact absurd hkey (habsent ⟨i, hi⟩)

end Lookup

end ZkQuorum.CheckFixture
