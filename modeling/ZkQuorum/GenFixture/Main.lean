import ZkQuorum.GenFixture.Seeds
import ZkQuorum.GenFixture.Series

/-!
# The fixture writer (crypto/tools/gen_fixture.c)

`main` from the keys on: the packet, the transactions, the commit loop with its bad
commits, the file and the line that reports it.

The commits are written from the reply buffer, which the loop changes as it goes: each
round puts a computor index behind the reply and hashes the front of the buffer.
`out` can be opened, and there is memory for the commits.
-/

namespace ZkQuorum.GenFixture

open LittleEndian Guest

/-! ## The keys -/

/-- What `main` has after reading the seeds. -/
structure Setup where
  args : Args
  seeds : Vector Bytes numberOfComputors
  series : Series

/-- The entries of a list of known length. -/
def vectorOf {α : Type} {n : Nat} (l : List α) (h : l.length = n) : Vector α n := ⟨l.toArray, h⟩

/-- The data of the series. -/
def seriesOf (a : Args) (comp : Vector Key numberOfComputors) (arb user : Key) : Series where
  epoch := .ofNat a.epoch
  comp := comp
  arb := arb
  user := user
  queryId := (UInt64.ofNat a.queryTick <<< 31) ||| 0
  queryTick := .ofNat a.queryTick
  commitTick := .ofNat a.commitTick
  revealTick := .ofNat a.revealTick
  iface := .ofNat a.iface
  timeoutMs := .ofNat a.timeoutMs
  message := a.message.val
  revealBy := ⟨a.revealBy, a.revealBy_lt⟩

/-- The setup from what was read. -/
def setupOf (a : Args) (comp : Vector SeedKey numberOfComputors) (arb user : SeedKey) : Setup where
  args := a
  seeds := comp.map (·.seed)
  series := seriesOf a (comp.map (·.key)) arb.key user.key

/-- The part of `main` that reads the arguments and the seeds. -/
def setup (H : StockHost) (files : CString → Option Bytes) (argv : List CString) :
    Except Exit Setup := do
  let o ← parseArgs argv .default
  let a ← checkArgs o
  let comp ← readSeeds H files a.seeds numberOfComputors
  let ⟨hcomp⟩ ← require (comp.length = numberOfComputors) (.die "need exactly 676 computor seeds")
  let arb ← readSeeds H files a.arbSeed 1
  let [arb] := arb | throw (.die "arbitrator seed file must hold one seed")
  let user ← derive H a.userSeed
  return setupOf a (vectorOf comp hcomp) arb user

/-! ## The commit order -/

/-- One step of the generator: `x ^= x << 13; x ^= x >> 7; x ^= x << 17`. -/
def xorshift64 (x : UInt64) : UInt64 :=
  let x := x ^^^ (x <<< 13)
  let x := x ^^^ (x >>> 7)
  x ^^^ (x <<< 17)

/-- The Fisher-Yates loop, from index `i` down to 1. -/
def fisherYates {α : Type} {n : Nat} : Nat → UInt64 → Vector α n → Vector α n
  | 0, _, order => order
  | i + 1, x, order =>
    let x := xorshift64 x
    let j := (x % UInt64.ofNat (i + 2)).toNat
    fisherYates i x (order.swapIfInBounds (i + 1) j)

/-- `order`. -/
def commitOrder (shuffle : Bool) : Vector (Fin numberOfComputors) numberOfComputors :=
  let order := vectorOf (List.finRange numberOfComputors) List.length_finRange
  if shuffle then fisherYates (numberOfComputors - 1) 0x9e3779b97f4a7c15 order else order

/-! ## The commits -/

/-- `memcpy` to an offset of a buffer. -/
def writeAt (buf : Bytes) (off : Nat) (src : Bytes) : Bytes :=
  buf.take off ++ src ++ buf.drop (off + src.length)

/-- `verify_tx`. -/
def verifyTx (E : Externs) (tx : Bytes) : Bool :=
  let d := E.qubicK12 (tx.take (tx.length - 64))
  match Rust.toArray 32 (tx.take 32), Rust.toArray 64 (tx.drop (tx.length - 64)) with
  | .ok pk, .ok sig => E.fourqVerify pk sig d
  | _, _ => false

abbrev commitLen : Nat := txHeaderSize + commitItemSize + 64

/-- `^= 0xff` on a byte. -/
def invertByte (b : Bytes) (i : Nat) : Bytes := b.modify i (· ^^^ 0xff)

/-- The two digests of `main`: of the reply, and of the reply and an `x`. -/
structure Digests where
  reply : ByteVec 32
  wrongReply : ByteVec 32

section Commits

variable (E : Externs) (a : Args) (s : Series) (d : Digests)

/-- The item of position `n` for computor `idx`, and the reply buffer after it. -/
def commitItem (n : Nat) (idx : Fin numberOfComputors) (reply : Bytes) : Bytes × Bytes :=
  let rLen := s.message.length
  let wrong := decide (a.commits - a.wrongDigest ≤ n)
  let wl := if wrong then rLen + 1 else rLen
  let reply := writeAt reply wl (ofU16 (.ofNat idx))
  let kp := E.qubicK12 (reply.take (wl + 2))
  let queryId := s.queryId + (if a.replay then 1 else 0)
  (ofU64 queryId ++ (if wrong then d.wrongReply else d.reply).val ++ kp.val, reply)

/-- The transaction of position `n` with an item, its signature inverted in a byte where the
commit is to be bad. -/
def commitTxAt (n : Nat) (idx : Fin numberOfComputors) (item : Bytes) : Except Exit Bytes := do
  let bad := decide (a.commits - a.badCommits ≤ n)
  let tx := buildTx E (s.comp.get idx) 0 s.commitTick 6 item
  if bad then return invertByte tx (commitLen - 64 + 7)
  let _ ← require (verifyTx E tx) (.die "self-check: commit signature invalid")
  return tx

/-- The commit loop from position `n` on, over the rest of the order. -/
def commitLoop : Nat → List (Fin numberOfComputors) → Bytes → Except Exit (List Bytes)
  | _, [], _ => .ok []
  | n, idx :: rest, reply => do
    let (item, reply) := commitItem E a s d n idx reply
    let tx ← commitTxAt E a s n idx item
    let txs ← commitLoop (n + 1) rest reply
    return tx :: txs

end Commits

/-! ## The file and the report -/

/-- `fput_blob`. -/
def fputBlob (p : Bytes) : Bytes := ofU32 (.ofNat p.length) ++ p

/-- What the last line of output says. -/
structure Report where
  epoch : Nat
  queryId : UInt64
  replyDigest : ByteVec 32
  commits : Nat
  good : Int
  badSig : Nat
  wrongDigest : Nat
  replay : Bool
  out : CString
  size : Nat

/-- The file that is written, and the report. -/
structure Output where
  file : Bytes
  report : Report

/-- The number of good commits that is printed. -/
def printedGood (a : Args) : Int :=
  let overlap : Int := if a.badCommits + a.wrongDigest > a.commits then
    a.badCommits + a.wrongDigest - a.commits else 0
  a.commits - a.badCommits - a.wrongDigest + overlap

/-- The file and the report, from the commits. -/
def outputOf (E : Externs) (u : Setup) (replyDigest : ByteVec 32) (commitTxs : List Bytes) :
    Output :=
  let a := u.args
  let s := u.series
  let file := Host.magic ++ s.packet E ++ ofU64 s.queryId ++ fputBlob (s.queryTx E)
    ++ fputBlob s.message ++ ofU32 (.ofNat a.commits) ++ commitTxs.flatMap fputBlob
    ++ fputBlob (s.revealTx E)
  { file
    report := {
      epoch := a.epoch, queryId := s.queryId, replyDigest, commits := a.commits,
      good := printedGood a, badSig := a.badCommits, wrongDigest := a.wrongDigest,
      replay := a.replay, out := a.out, size := file.length } }

/-- The part of `main` after the seeds. -/
def generate (E : Externs) (u : Setup) : Except Exit Output := do
  let a := u.args
  let s := u.series
  let d := E.qubicK12 s.signedList
  let _ ← require (E.fourqVerify s.arb.pub (s.arb.sign d) d)
    (.die "self-check: packet signature invalid")
  let _ ← require (verifyTx E (s.queryTx E)) (.die "self-check: query signature invalid")
  let rLen := s.message.length
  let reply := writeAt (List.replicate (maxReply + 3) 0) 0 s.message
  let replyDigest := E.qubicK12 (reply.take rLen)
  let reply := writeAt reply rLen (ascii "x")
  let wrongReplyDigest := E.qubicK12 (reply.take (rLen + 1))
  let order := (commitOrder a.shuffle).toList.take a.commits
  let commitTxs ← commitLoop E a s { reply := replyDigest, wrongReply := wrongReplyDigest } 0 order
    reply
  let _ ← require (verifyTx E (s.revealTx E)) (.die "self-check: reveal signature invalid")
  return outputOf E u replyDigest commitTxs

/-- `main`. -/
def main (E : Externs) (H : StockHost) (files : CString → Option Bytes) (argv : List CString) :
    Except Exit Output := do
  let u ← setup H files argv
  generate E u

end ZkQuorum.GenFixture
