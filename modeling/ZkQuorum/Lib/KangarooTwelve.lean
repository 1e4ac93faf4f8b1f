import Mathlib.Data.Nat.Digits.Defs
import ZkQuorum.Lib.Keccak

/-!
# KangarooTwelve

KT128: tree hashing over the sponge on Keccak-p[1600] with 12 rounds and a rate of
168 bytes. A message with its customization string is cut into chunks of 8192
bytes. A single chunk is hashed alone; otherwise each further chunk becomes a leaf
of 32 bytes and the final node hashes the first chunk and the leaves.
-/

namespace KangarooTwelve

open Keccak

/-- The sponge: 12 rounds, a rate of 168 bytes. -/
def sponge : Sponge State := Keccak.sponge 168 (by decide) 12

/-- The first `L` bytes that a state gives, one block after the other. -/
def squeeze (A : State) (L : Nat) : Bytes :=
  if L ≤ 168 then (bytes A).take L
  else (bytes A).take 168 ++ squeeze (permute 12 A) (L - 168)
termination_by L

/-- The hash of a node: its bytes padded with the domain byte, `L` bytes of output. -/
def F (suffix : UInt8) (node : Bytes) (L : Nat) : Bytes :=
  squeeze (sponge.absorbBlocks zero (sponge.pad suffix node)) L

/-- A number in base 256 without leading zeros, most significant byte first, then
the number of these bytes. -/
def lengthEncode (x : Nat) : Bytes :=
  let digits := ((Nat.digits 256 x).map UInt8.ofNat).reverse
  digits ++ [UInt8.ofNat digits.length]

/-- The 32 bytes of a leaf. -/
def leaf (chunk : Bytes) : Bytes := F 0x0B chunk 32

/-- The bytes of the final node. -/
def finalNode (chunk : Bytes) (leaves : List Bytes) : Bytes :=
  chunk ++ ([0x03, 0, 0, 0, 0, 0, 0, 0] ++ (leaves.flatMap leaf
    ++ (lengthEncode leaves.length ++ [0xFF, 0xFF])))

/-- KT128 of a message `M` with customization string `C`. -/
def kt128 (M C : Bytes) (L : Nat) : Bytes :=
  match chunks 8192 (M ++ C ++ lengthEncode C.length) with
  | [] => []
  | [chunk] => F 0x07 chunk L
  | chunk :: leaves => F 0x06 (finalNode chunk leaves) L

/-- A short output is the front of the state. -/
theorem squeeze_of_le (A : State) {L : Nat} (h : L ≤ 168) : squeeze A L = (bytes A).take L := by
  rw [squeeze, if_pos h]

/-- A node that is absorbed byte by byte. -/
theorem F_eq (suffix : UInt8) (node : Bytes) {L : Nat} (h : L ≤ 168) :
    F suffix node L
      = (bytes (sponge.finish (sponge.absorb (sponge.start zero) node) suffix)).take L := by
  rw [F, squeeze_of_le _ h, Sponge.absorb_pad]

theorem lengthEncode_zero : lengthEncode 0 = [0] := by
  simp [lengthEncode]

/-- The customization string is empty. -/
theorem kt128_nil (M : Bytes) (L : Nat) :
    kt128 M [] L = match chunks 8192 (M ++ [0]) with
      | [] => []
      | [chunk] => F 0x07 chunk L
      | chunk :: leaves => F 0x06 (finalNode chunk leaves) L := by
  rw [kt128, List.append_nil, List.length_nil, lengthEncode_zero]

/-- A message that fits into one chunk with its last byte. -/
theorem kt128_single {M : Bytes} (h : M.length < 8192) (L : Nat) :
    kt128 M [] L = F 0x07 (M ++ [0]) L := by
  have hne : M ++ [0] ≠ [] := List.append_ne_nil_of_right_ne_nil M (List.cons_ne_nil 0 [])
  rw [kt128_nil, chunks_of_length_le hne (by rw [List.length_append]; exact h)]

/-- A message of at least one whole chunk. -/
theorem kt128_tree {M : Bytes} (h : 8192 ≤ M.length) (L : Nat) :
    kt128 M [] L
      = F 0x06 (finalNode (M.take 8192) (chunks 8192 (M.drop 8192 ++ [0]))) L := by
  have hchunks := chunks_append (n := 8192) (by decide) (List.length_take_of_le h)
    (M.drop 8192 ++ [0])
  rw [← List.append_assoc, List.take_append_drop] at hchunks
  have hne : M.drop 8192 ++ [0] ≠ [] :=
    List.append_ne_nil_of_right_ne_nil _ (List.cons_ne_nil 0 [])
  rw [kt128_nil, hchunks, chunks_of_ne_nil (by decide) hne]

end KangarooTwelve
