import ZkQuorum.Guest.Computors

/-!
# The guest program (methods/guest/src/main.rs)

`check_commit` and `main`. The guest reads six frames in a fixed order, checks
the computor list, the query and the reveal, counts commits of distinct
computors until the quorum is reached, and commits the 44-byte journal. Every
violation is a panic, and a guest that panics proves nothing.

`usize` is 32 bits on the guest (rv32im) and the build has no overflow checks:
sums of offsets and lengths go through `wrap`. A vector of `2 ^ 31` bytes or more
is a panic.
-/

namespace ZkQuorum.Guest

open LittleEndian Rust

/-- A `usize` sum on rv32im. -/
def wrap (n : Nat) : Nat := n % 2 ^ 32

/-- The closure of `check_commit`: does this 72-byte item carry the query id, the
reply digest and the knowledge proof? -/
def itemMatches (queryId : ByteVec 8) (replyDigest knowledgeProof : ByteVec 32)
    (item : Bytes) : Bool :=
  item.take 8 == queryId.val && (item.drop 8).take 32 == replyDigest.val
    && (item.drop 40).take 32 == knowledgeProof.val

/-- `check_commit`: the computor index this commit counts for, or `none`. -/
def checkCommit (E : Externs) (raw pubkeys : Bytes) (sorted : List UInt16)
    (seen : Vector Bool numberOfComputors) (queryId : ByteVec 8) (queryTick : UInt32)
    (replyDigest : ByteVec 32) (reply : Bytes) : Rust (Option Nat) := do
  match ← parseTx raw with
  | none => return none
  | some tx =>
    if tx.inputType ≠ commitInputType ∨ ¬ tx.destIsZero ∨ tx.amount ≠ 0
        ∨ tx.tick ≤ queryTick then
      return none
    match findComputor pubkeys sorted tx.source with
    | none => return none
    | some idx =>
      if ← arrayGet seen idx then
        return none
      let proofMsg := reply ++ ofU16 (UInt16.ofNat idx)
      let knowledgeProof := k12 E proofMsg
      let matched := (chunksExact commitItemSize tx.input).any
        (itemMatches queryId replyDigest knowledgeProof)
      if !matched then
        return none
      if !(← txSignatureValid E raw tx) then
        return none
      return some idx

/-- The head of the loop body: the record at offset `off` of the commits frame,
and the offset after it. -/
def readRecord (commits : Bytes) (off : Nat) : Rust (Bytes × Nat) := do
  let len ← expect (get commits off (wrap (off + 4))) "commits frame: truncated length"
  let len := (toU32 len).toNat
  let off := wrap (off + 4)
  let raw ← expect (get commits off (wrap (off + len))) "commits frame: truncated transaction"
  return (raw, wrap (off + len))

/-- The `for _ in 0..n` loop of `main` over the commits frame, from offset `off`:
the number of commits counted. `check` is `check_commit` on a record. -/
def commitLoop (check : Bytes → Vector Bool numberOfComputors → Rust (Option Nat))
    (commits : Bytes) : Nat → Nat → Vector Bool numberOfComputors → Nat → Rust Nat
  | 0, _, _, count => .ok count
  | n + 1, off, seen, count => do
    let (raw, off) ← readRecord commits off
    match ← check raw seen with
    | none => commitLoop check commits n off seen count
    | some idx =>
      let seen ← arraySet seen idx true
      let count := count + 1
      if quorum ≤ count then
        return count -- quorum reached; skip remaining signature checks
      commitLoop check commits n off seen count

/-- `read_frame`: the next frame the host wrote, in a vector of its length. -/
def readFrame : List Bytes → Rust (Bytes × List Bytes)
  | frame :: frames => do
    allocate32 frame.length
    return (frame, frames)
  | [] => .error .endOfInput

/-- Step 1 of `main`: the arbitrator-signed list, with its epoch, its keys and
their sorted index. -/
def checkPacket (E : Externs) (packet : Bytes) : Rust (UInt16 × Bytes × List UInt16) := do
  let packetDigest := k12 E (← slice packet 0 packetSignedSize)
  let signature ← slice packet packetSignedSize packet.length
  assert (← schnorrqVerify E E.arbitratorPubkey.val signature packetDigest)
    "computor list is not signed by the arbitrator"
  let epoch := toU16 (← slice packet 0 2)
  assert (epoch != 0) "epoch 0 is not attestable"
  let pubkeys ← slice packet 2 packetSignedSize
  let sorted ← rejectDuplicatePubkeys E pubkeys
  return (epoch, pubkeys, sorted)

/-- Step 2 of `main`: the query transaction and its tick. -/
def checkQuery (E : Externs) (queryTx : Bytes) (queryIdU64 : UInt64) : Rust UInt32 := do
  let q ← expect (← parseTx queryTx) "query tx: length != 80 + inputSize + 64"
  assert (q.inputType == queryInputType) "query tx: inputType must be 10"
  assert q.destIsZero "query tx: destination must be zero"
  assert (← txSignatureValid E queryTx q) "query tx: invalid signature"
  assert (q.tick.toUInt64 == queryIdU64 >>> 31) "query tx: tick != queryId >> 31"
  return q.tick

/-- The last check of step 3: `input == queryId | reply`. -/
def revealInputMatches (queryId : ByteVec 8) (reply input : Bytes) : Rust Bool := do
  if input.length ≠ wrap (8 + reply.length) then
    return false
  if (← slice input 0 8) ≠ queryId.val then
    return false
  return (← slice input 8 input.length) == reply

/-- Step 3 of `main`: the reveal transaction. -/
def checkReveal (E : Externs) (pubkeys : Bytes) (sorted : List UInt16) (queryId : ByteVec 8)
    (reply revealTx : Bytes) : Rust Unit := do
  let r ← expect (← parseTx revealTx) "reveal tx: length != 80 + inputSize + 64"
  assert (r.inputType == revealInputType) "reveal tx: inputType must be 7"
  assert r.destIsZero "reveal tx: destination must be zero"
  assert (r.amount == 0) "reveal tx: amount must be 0"
  assert (findComputor pubkeys sorted r.source).isSome "reveal tx: source not in computor list"
  assert (← txSignatureValid E revealTx r) "reveal tx: invalid signature"
  assert (← revealInputMatches queryId reply r.input) "reveal tx: input != queryId | reply"

/-- The panic text for a count below the quorum. -/
def quorumNotReached (count : Nat) : String :=
  s!"quorum not reached: {count} valid distinct commits, need {quorum}"

/-- Step 4 of `main`: the commit transactions. -/
def checkCommits (E : Externs) (pubkeys : Bytes) (sorted : List UInt16) (queryId : ByteVec 8)
    (queryTick : UInt32) (replyDigest : ByteVec 32) (reply commits : Bytes) : Rust Unit := do
  assert (decide (4 ≤ commits.length)) "commits frame: missing count"
  let n := (toU32 (← slice commits 0 4)).toNat
  let check := fun raw seen =>
    checkCommit E raw pubkeys sorted seen queryId queryTick replyDigest reply
  let count ← commitLoop check commits n 4 (Vector.replicate _ false) 0
  if count < quorum then
    panicWith (quorumNotReached count)

/-- The journal `main` commits. -/
def buildJournal (epoch : UInt16) (queryId : ByteVec 8) (replyDigest : ByteVec 32) :
    Rust Bytes := do
  let journal := List.replicate journalSize 0
  let journal ← copyFromSlice journal 0 4 (ofU32 epoch.toUInt32)
  let journal ← copyFromSlice journal 4 12 queryId.val
  copyFromSlice journal 12 journalSize replyDigest.val

/-- `main` behind the six calls of `read_frame`. -/
def checkFrames (E : Externs) (packet queryIdBytes queryTx reply commits revealTx : Bytes) :
    Rust Bytes := do
  assert (packet.length == packetSize) s!"computors packet must be {packetSize} bytes"
  let queryId ← expect (toArray 8 queryIdBytes).toOption "queryId frame must be 8 bytes"
  let queryIdU64 := toU64 queryId.val
  let (epoch, pubkeys, sorted) ← checkPacket E packet
  let queryTick ← checkQuery E queryTx queryIdU64
  let replyDigest := k12 E reply
  checkReveal E pubkeys sorted queryId reply revealTx
  checkCommits E pubkeys sorted queryId queryTick replyDigest reply commits
  buildJournal epoch queryId replyDigest

/-- `main`, on the frames the host wrote: the committed journal. -/
def main (E : Externs) (frames : List Bytes) : Rust Bytes := do
  let (packet, frames) ← readFrame frames
  let (queryIdBytes, frames) ← readFrame frames
  let (queryTx, frames) ← readFrame frames
  let (reply, frames) ← readFrame frames
  let (commits, frames) ← readFrame frames
  let (revealTx, _) ← readFrame frames
  checkFrames E packet queryIdBytes queryTx reply commits revealTx

end ZkQuorum.Guest
