import ZkQuorum.Guest.Tx
import ZkQuorum.Host.Fixture

/-!
# The fixture checker (crypto/tests/check_fixture.c)

`main` from the point where the file is read, on a machine with 64-bit `size_t`:
`fail(m)` is the error `m`, and "fixture OK" is a `Report` of what was read.
`arb` is the key the second argument spells in hex.

A pointer into the file is the byte string it points to. Pointer reads are inside
the block that `take` returned: `byteAt` is total only to keep the definitions
simple.
-/

namespace ZkQuorum.CheckFixture

open LittleEndian Guest

abbrev maxReply : Nat := 1008

/-- What `main` read from a file it accepts. -/
structure Report where
  epoch : UInt32
  queryId : UInt64
  reply : Bytes
  commits : Nat

/-- `p[i]`. -/
def byteAt (p : Bytes) (i : Nat) : UInt8 := p.getD i 0

/-- The reads `p[0] | p[1] << 8` of a `uint16_t`. -/
def getU16 (p : Bytes) : UInt16 := (byteAt p 0).toUInt16 ||| ((byteAt p 1).toUInt16 <<< 8)

/-- `get_u32`. -/
def getU32 (p : Bytes) : UInt32 :=
  (byteAt p 0).toUInt32 ||| ((byteAt p 1).toUInt32 <<< 8) ||| ((byteAt p 2).toUInt32 <<< 16)
    ||| ((byteAt p 3).toUInt32 <<< 24)

/-- `get_u64`. -/
def getU64 (p : Bytes) : UInt64 :=
  (getU32 p).toUInt64 ||| ((getU32 (p.drop 4)).toUInt64 <<< 32)

/-- `if (!c) fail(m)`. -/
def require (c : Bool) (m : String) : Except String Unit := if c then .ok () else .error m

/-- `take`: the next `n` bytes of the file, and the position after them. -/
def take (buf : Bytes) (pos n : Nat) (what : String) : Except String (Bytes × Nat) :=
  let stop := (pos + n) % 2 ^ 64
  if buf.length < stop then .error what else .ok ((buf.drop pos).take n, stop)

/-- `blob`. -/
def blob (buf : Bytes) (pos : Nat) (what : String) : Except String (Bytes × Nat) := do
  let (p, pos) ← take buf pos 4 what
  take buf pos (getU32 p).toNat what

/-- `zero32`. -/
def zero32 (p : Bytes) : Bool := (p.take 32).all (· == 0)

/-- `fourq_verify` on pointers. -/
def verifyAt (E : Externs) (pk sig : Bytes) (d : ByteVec 32) : Bool :=
  match Rust.toArray 32 (pk.take 32), Rust.toArray 64 (sig.take 64) with
  | .ok pk, .ok sig => E.fourqVerify pk sig d
  | _, _ => false

/-- `tx_ok`: the checks shared by query, commit and reveal. -/
def txOk (E : Externs) (tx : Bytes) (type : UInt16) (amount : Int64) (checkAmount : Bool) : Bool :=
  if tx.length < txHeaderSize + 64 then false
  else
    let inputSize := getU16 (tx.drop 78)
    let inputType := getU16 (tx.drop 76)
    if txHeaderSize + inputSize.toNat + 64 ≠ tx.length ∨ inputType ≠ type ∨
        ¬ zero32 (tx.drop 32) then
      false
    else if checkAmount ∧ (getU64 (tx.drop 64)).toInt64 ≠ amount then false
    else
      let d := E.qubicK12 (tx.take (tx.length - 64))
      verifyAt E tx (tx.drop (tx.length - 64)) d

/-- The key at position `i` of the list: `packet + 2 + 32 * i`. -/
def keyAt (packet : Bytes) (i : Nat) : Bytes := (packet.drop (2 + 32 * i)).take 32

/-- `computor_index`: the first position of a key in the list. -/
def computorIndex (packet pk : Bytes) : Option (Fin numberOfComputors) :=
  (List.finRange numberOfComputors).find? fun i => keyAt packet i == pk.take 32

/-- The two nested loops that look for a repeated key. -/
def noRepeatedPubkey (packet : Bytes) : Bool :=
  (List.finRange numberOfComputors).all fun i =>
    (List.finRange numberOfComputors).all fun j =>
      !(decide (i < j) && keyAt packet i == keyAt packet j)

/-- The loop over the items of a commit, from offset `off`. -/
def anyItem (queryId : UInt64) (replyDigest kp : ByteVec 32) (input : Bytes) : Bool :=
  (List.range (input.length / 72)).any fun k =>
    let it := input.drop (72 * k)
    getU64 it == queryId && (it.drop 8).take 32 == replyDigest.val && (it.drop 40).take 32 == kp.val

/-- The body of the commit loop up to `hit`: the computor this commit counts for. -/
def commitIndex (E : Externs) (packet : Bytes) (queryId : UInt64) (queryTick : UInt32)
    (reply : Bytes) (seen : Vector Bool numberOfComputors) (tx : Bytes) :
    Option (Fin numberOfComputors) :=
  if !txOk E tx 6 0 true || decide (getU32 (tx.drop 72) ≤ queryTick) then none
  else
    match computorIndex packet tx with
    | none => none
    | some idx =>
      if seen.get idx then none
      else
        let kp := E.qubicK12 (reply ++ ofU16 (UInt16.ofNat idx))
        let input := (tx.drop txHeaderSize).take (getU16 (tx.drop 78)).toNat
        if anyItem queryId (E.qubicK12 reply) kp input then some idx else none

/-- The commit loop: the position after the commits and the number counted. -/
def commitLoop (index : Vector Bool numberOfComputors → Bytes → Option (Fin numberOfComputors))
    (buf : Bytes) : Nat → Nat → Vector Bool numberOfComputors → Nat → Except String (Nat × Nat)
  | 0, pos, _, counted => .ok (pos, counted)
  | c + 1, pos, seen, counted => do
    let (tx, pos) ← blob buf pos "commitTx"
    match index seen tx with
    | none => commitLoop index buf c pos seen counted
    | some idx => commitLoop index buf c pos (seen.set idx true idx.isLt) (counted + 1)

/-- `main`, on the content of the file. -/
def main (E : Externs) (arb : ByteVec 32) (buf : Bytes) : Except String Report := do
  let (m, pos) ← take buf 0 8 "magic"
  require (m == Host.magic) "bad magic"
  let (packet, pos) ← take buf pos packetSize "packet"
  let d := E.qubicK12 (packet.take (packetSize - 64))
  require (verifyAt E arb.val (packet.drop (packetSize - 64)) d) "packet signature"
  let epoch := (getU16 packet).toUInt32
  require (epoch != 0) "epoch 0"
  require (noRepeatedPubkey packet) "repeated pubkey"
  let (q, pos) ← take buf pos 8 "queryId"
  let queryId := getU64 q
  let (queryTx, pos) ← blob buf pos "queryTx"
  require (txOk E queryTx 10 0 false) "query tx"
  let queryTick := getU32 (queryTx.drop 72)
  require (queryTick == (queryId >>> 31).toUInt32) "query tick != queryId >> 31"
  let (reply, pos) ← blob buf pos "reply"
  require (decide (1 ≤ reply.length) && decide (reply.length ≤ maxReply)) "reply length"
  let (n, pos) ← take buf pos 4 "n"
  let n := (getU32 n).toNat
  let (pos, counted) ← commitLoop (commitIndex E packet queryId queryTick reply) buf n pos
    (Vector.replicate _ false) 0
  let (revealTx, pos) ← blob buf pos "revealTx"
  require (txOk E revealTx 7 0 true && (computorIndex packet revealTx).isSome) "reveal tx"
  let input := revealTx.drop txHeaderSize
  require (revealTx.length == txHeaderSize + 8 + reply.length + 64 && getU64 input == queryId
    && (input.drop 8).take reply.length == reply) "reveal input != queryId | reply"
  require (pos == buf.length) "trailing bytes"
  require (counted == n) "some commits invalid"
  require (decide (quorum ≤ counted)) "quorum not reached"
  return { epoch, queryId, reply, commits := n }

end ZkQuorum.CheckFixture
