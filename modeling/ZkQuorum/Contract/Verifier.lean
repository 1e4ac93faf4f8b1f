import ZkQuorum.Lib.Bytes

/-!
# The verifier contract (contracts/QubicQuorumVerifier.sol)

`attest` as a function of the contract's storage and event log. A call carries
what the router would answer during it, so the router may depend on its
arguments and change from call to call in any way; `verify` is a view, so it does
not touch the storage.
-/

namespace ZkQuorum.Contract

open LittleEndian

/-- `QuorumAttested(digest, epoch, queryId)`. -/
structure QuorumAttested where
  digest : ByteVec 32
  epoch : UInt32
  queryId : UInt64
deriving DecidableEq

/-- The errors `attest` reverts with. -/
inductive Revert where
  | badJournalLength (length : Nat)
  | zeroEpoch
  /-- `ROUTER.verify` reverted -/
  | router
deriving DecidableEq

/-- What the constructor fixes, and the `sha256` precompile. -/
structure Config where
  imageId : ByteVec 32
  sha256 : Bytes → ByteVec 32

/-- Storage and event log. -/
structure State where
  isAttested : ByteVec 32 → UInt32 → Bool
  attestedQueryId : ByteVec 32 → UInt32 → UInt64
  events : List QuorumAttested

/-- One call of `attest`. -/
structure Call where
  caller : ByteVec 20
  journal : Bytes
  sealBytes : Bytes
  /-- does `ROUTER.verify(seal, imageId, journalDigest)` return during this call? -/
  verify : Bytes → ByteVec 32 → ByteVec 32 → Bool

/-- The storage after deployment. -/
def State.init : State where
  isAttested _ _ := false
  attestedQueryId _ _ := 0
  events := []

/-- `epoch`: the bytes 0 to 3, shifted into place. -/
def decodeEpoch (journal : ByteVec 44) : UInt32 :=
  (journal.byte 0).toUInt32 ||| ((journal.byte 1).toUInt32 <<< 8)
    ||| ((journal.byte 2).toUInt32 <<< 16) ||| ((journal.byte 3).toUInt32 <<< 24)

/-- `queryId`: the loop over the bytes 4 to 11. -/
def decodeQueryId (journal : ByteVec 44) : UInt64 :=
  (List.finRange 8).foldl
    (fun queryId (i : Fin 8) =>
      queryId ||| ((journal.byte ⟨4 + i, by omega⟩).toUInt64 <<< UInt64.ofNat (8 * i)))
    0

/-- `digest`: `bytes32(journal[12:44])`. -/
def decodeDigest (journal : ByteVec 44) : ByteVec 32 :=
  ⟨journal.val.drop 12, by rw [List.length_drop, journal.property]⟩

/-- A mapping of a mapping with one entry set. -/
def setEntry {α : Type} (m : ByteVec 32 → UInt32 → α) (digest : ByteVec 32) (epoch : UInt32)
    (a : α) : ByteVec 32 → UInt32 → α :=
  fun d e => if d = digest ∧ e = epoch then a else m d e

/-- `attest`: the storage and log after the call, or the error it reverts with. -/
def attest (C : Config) (s : State) (call : Call) : Except Revert State :=
  if h : call.journal.length = 44 then
    let epoch := decodeEpoch ⟨call.journal, h⟩
    let queryId := decodeQueryId ⟨call.journal, h⟩
    let digest := decodeDigest ⟨call.journal, h⟩
    if epoch = 0 then .error .zeroEpoch
    else if s.isAttested digest epoch then .ok s
    else if call.verify call.sealBytes C.imageId (C.sha256 call.journal) then
      .ok {
        isAttested := setEntry s.isAttested digest epoch true
        attestedQueryId := setEntry s.attestedQueryId digest epoch queryId
        events := s.events ++ [⟨digest, epoch, queryId⟩] }
    else .error .router
  else .error (.badJournalLength call.journal.length)

/-- The effect of a call: a call that reverts has none. -/
def exec (C : Config) (s : State) (call : Call) : State :=
  match attest C s call with
  | .ok s' => s'
  | .error _ => s

/-- The state after a sequence of calls. -/
def run (C : Config) (calls : List Call) : State := calls.foldl (exec C) State.init

end ZkQuorum.Contract
