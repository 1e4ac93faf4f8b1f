import ZkQuorum.Guest.Tx
import ZkQuorum.Lib.Records

/-!
# Fixtures (host/src/fixture.rs)

`Fixture` with `parse`, `serialize`, the frames `to_env` writes for the guest and
`expected_journal`.

Offsets and lengths are 64-bit `usize` values here; what `parse` is given and
what `serialize` returns are vectors of at most `isize::MAX` bytes (`Buffer`).
-/

namespace ZkQuorum.Host

open LittleEndian Rust Fallible

/-- `b"ZKQFIX02"`. -/
def magic : Bytes := [0x5a, 0x4b, 0x51, 0x46, 0x49, 0x58, 0x30, 0x32]

/-- Everything the guest needs for one proof. -/
structure Fixture where
  computorsPacket : Bytes
  queryId : UInt64
  queryTx : Bytes
  reply : Bytes
  commitTxs : List Bytes
  revealTx : Bytes
deriving DecidableEq

/-- The closure `take` of `parse`: the `n` bytes at offset `off`, and the offset
after them. -/
def take (bytes : Bytes) (off n : Nat) : Fallible (Bytes × Nat) :=
  match checkedAdd off n with
  | none => throw "length overflow"
  | some stop =>
    match get bytes off stop with
    | none => throw s!"truncated at offset {off}"
    | some s => pure (s, off + n)

/-- The closure `read_u32` of `parse`. -/
def readU32 (bytes : Bytes) (off : Nat) : Fallible (Nat × Nat) := do
  let (s, off) ← take bytes off 4
  let a ← toArray 4 s
  return ((toU32 a.val).toNat, off)

/-- The closure `read_blob` of `parse`. -/
def readBlob (bytes : Bytes) (off : Nat) : Fallible (Bytes × Nat) := do
  let (n, off) ← readU32 bytes off
  take bytes off n

/-- The loop of `parse` over the commit transactions. -/
def readBlobs (bytes : Bytes) : Nat → Nat → Fallible (List Bytes × Nat)
  | 0, off => return ([], off)
  | n + 1, off => do
    let (b, off) ← readBlob bytes off
    let (bs, off) ← readBlobs bytes n off
    return (b :: bs, off)

/-- `size_of::<Vec<u8>>()`. -/
def vecSize : Nat := 24

/-- The last check of `parse`: nothing is left to read. -/
def rejectTrailing (len off : Nat) : Fallible Unit := do
  if off ≠ len then
    let rest ← sub len off
    throw s!"{rest} trailing bytes"

/-- `Fixture::parse`. -/
def parse (bytes : Buffer) : Fallible Fixture := do
  let (m, off) ← take bytes.val 0 8
  ensure (m == magic) "bad magic (expected ZKQFIX02)"
  let (computorsPacket, off) ← take bytes.val off Guest.packetSize
  let (s, off) ← take bytes.val off 8
  let a ← toArray 8 s
  let queryId := toU64 a.val
  let (queryTx, off) ← readBlob bytes.val off
  let (reply, off) ← readBlob bytes.val off
  let (n, off) ← readU32 bytes.val off
  ensure (n ≤ bytes.val.length / 4) s!"commit count {n} exceeds file size"
  allocate vecSize n
  let (commitTxs, off) ← readBlobs bytes.val n off
  let (revealTx, off) ← readBlob bytes.val off
  rejectTrailing bytes.val.length off
  return { computorsPacket, queryId, queryTx, reply, commitTxs, revealTx }

/-- The closure `blob` of `serialize`: `len u32 | bytes`. -/
def blob (b : Bytes) : Bytes := Records.encode b

/-- The bytes `serialize` writes: magic | packet | queryId u64 | queryTx | reply |
commit list | revealTx. -/
def layout (fx : Fixture) : Bytes :=
  magic ++ fx.computorsPacket ++ ofU64 fx.queryId ++ blob fx.queryTx ++ blob fx.reply
    ++ ofU32 (UInt32.ofNat fx.commitTxs.length) ++ fx.commitTxs.flatMap blob ++ blob fx.revealTx

/-- `Fixture::serialize`. -/
def serialize (fx : Fixture) : Rust Buffer := do
  assert (fx.computorsPacket.length == Guest.packetSize) "assertion `left == right` failed"
  buffer (layout fx)

/-- `Fixture::epoch`. -/
def epoch (fx : Fixture) : Rust UInt16 := return toU16 (← slice fx.computorsPacket 0 2)

/-- `commits_frame`: n u32 | n x (len u32 | bytes). -/
def commitsFrame (fx : Fixture) : Bytes :=
  ofU32 (UInt32.ofNat fx.commitTxs.length) ++ fx.commitTxs.flatMap blob

/-- `to_env`: the frames in the order the guest reads them. -/
def toEnv (fx : Fixture) : List Bytes :=
  [fx.computorsPacket, ofU64 fx.queryId, fx.queryTx, fx.reply, commitsFrame fx, fx.revealTx]

/-- `expected_journal`: epoch u32 LE | queryId u64 LE | K12(reply). -/
def expectedJournal (E : Guest.Externs) (fx : Fixture) : Rust Bytes := do
  let j := List.replicate Guest.journalSize 0
  let j ← copyFromSlice j 0 4 (ofU32 (← epoch fx).toUInt32)
  let j ← copyFromSlice j 4 12 (ofU64 fx.queryId)
  copyFromSlice j 12 Guest.journalSize (E.qubicK12 fx.reply).val

/-- `decode_journal`: (epoch, queryId, replyDigest). -/
def decodeJournal (j : Bytes) : Rust (UInt32 × UInt64 × ByteVec 32) := do
  assert (j.length == Guest.journalSize) s!"journal must be {Guest.journalSize} bytes"
  let epoch ← toArray 4 (← slice j 0 4)
  let queryId ← toArray 8 (← slice j 4 12)
  let replyDigest ← toArray 32 (← slice j 12 j.length)
  return (toU32 epoch.val, toU64 queryId.val, replyDigest)

end ZkQuorum.Host
