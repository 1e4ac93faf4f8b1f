import ZkQuorum.Contract.Journal
import ZkQuorum.Lib.WriteOnce

/-!
# Runs of the verifier contract

The contract is a write-once store of query ids under (digest, epoch): a call
whose journal decodes and whose proof the router accepts offers its query id, any
other call offers nothing (`offer`). `exec_step` is the simulation step; through
it the facts about write-once stores become facts about every sequence of calls.
-/

namespace ZkQuorum.Contract

/-- The router accepts the proof of a call for this journal. -/
def Verified (C : Config) (call : Call) : Prop :=
  call.verify call.sealBytes C.imageId (C.sha256 call.journal) = true

/-- The call carries a 44-byte journal that decodes to `(digest, epoch, queryId)`
with an epoch other than 0, and the router accepts it. -/
def Accepted (C : Config) (call : Call) (digest : ByteVec 32) (epoch : UInt32)
    (queryId : UInt64) : Prop :=
  ∃ h : call.journal.length = 44, decode ⟨call.journal, h⟩ = (epoch, queryId, digest) ∧
    epoch ≠ 0 ∧ Verified C call

/-- What a call offers to the store. -/
def offer (C : Config) (call : Call) : Option ((ByteVec 32 × UInt32) × UInt64) :=
  if h : call.journal.length = 44 then
    let journal : ByteVec 44 := ⟨call.journal, h⟩
    if decodeEpoch journal ≠ 0 ∧ call.verify call.sealBytes C.imageId (C.sha256 call.journal) then
      some ((decodeDigest journal, decodeEpoch journal), decodeQueryId journal)
    else none
  else none

theorem offer_eq_some {C : Config} {call : Call} {digest : ByteVec 32} {epoch : UInt32}
    {queryId : UInt64} :
    offer C call = some ((digest, epoch), queryId) ↔ Accepted C call digest epoch queryId := by
  unfold offer Accepted Verified decode
  by_cases h : call.journal.length = 44
  · simp only [dif_pos h, exists_prop_of_true h]
    split
    · rename_i hc
      simp only [Option.some.injEq, Prod.mk.injEq]
      constructor
      · rintro ⟨⟨rfl, rfl⟩, rfl⟩
        exact ⟨⟨rfl, rfl, rfl⟩, hc⟩
      · rintro ⟨⟨rfl, rfl, rfl⟩, -⟩
        exact ⟨⟨rfl, rfl⟩, rfl⟩
    · rename_i hc
      simp only [reduceCtorEq, false_iff]
      rintro ⟨heq, hepoch, hverify⟩
      cases heq
      exact hc ⟨hepoch, hverify⟩
  · rw [dif_neg h]
    simp only [reduceCtorEq, false_iff]
    rintro ⟨h', -⟩
    exact h h'

/-! ## One call -/

/-- The store of a contract state. -/
def storeOf (s : State) : WriteOnce.Store (ByteVec 32 × UInt32) UInt64 where
  entries k := if s.isAttested k.1 k.2 then some (s.attestedQueryId k.1 k.2) else none
  log := s.events.map fun ev => ((ev.digest, ev.epoch), ev.queryId)

theorem storeOf_entries {s : State} {digest : ByteVec 32} {epoch : UInt32} :
    ((storeOf s).entries (digest, epoch)).isSome ↔ s.isAttested digest epoch = true := by
  show (if s.isAttested digest epoch then some _ else none).isSome = true ↔ _
  by_cases h : s.isAttested digest epoch = true
  · simp [h]
  · simp [h]

/-- The state after a call the contract records. -/
def recorded (s : State) (digest : ByteVec 32) (epoch : UInt32) (queryId : UInt64) : State where
  isAttested := setEntry s.isAttested digest epoch true
  attestedQueryId := setEntry s.attestedQueryId digest epoch queryId
  events := s.events ++ [⟨digest, epoch, queryId⟩]

/-- **What a call does.** It is recorded if it is accepted and its entry is not set
yet; otherwise nothing changes, whether it reverts or returns early. -/
theorem attest_cases (C : Config) (s : State) (call : Call) :
    (∃ digest epoch queryId, Accepted C call digest epoch queryId ∧
      s.isAttested digest epoch = false ∧
      attest C s call = .ok (recorded s digest epoch queryId)) ∨
    ((∀ digest epoch queryId, Accepted C call digest epoch queryId →
      s.isAttested digest epoch = true) ∧ exec C s call = s) := by
  unfold exec attest
  by_cases hlen : call.journal.length = 44
  swap
  · rw [dif_neg hlen]
    exact Or.inr ⟨fun d e q ⟨h, _⟩ => absurd h hlen, rfl⟩
  rw [dif_pos hlen]
  -- what a journal is accepted for is what it decodes to
  have hdecode : ∀ {d e q}, Accepted C call d e q → d = decodeDigest ⟨call.journal, hlen⟩ ∧
      e = decodeEpoch ⟨call.journal, hlen⟩ := by
    rintro d e q ⟨_, heq, -⟩
    cases heq
    exact ⟨rfl, rfl⟩
  simp only
  by_cases hepoch : decodeEpoch ⟨call.journal, hlen⟩ = 0
  · rw [if_pos hepoch]
    refine Or.inr ⟨fun d e q h => ?_, rfl⟩
    exact absurd ((hdecode h).2.trans hepoch) h.2.2.1
  rw [if_neg hepoch]
  -- an entry that is set ends the call before the proof is looked at
  cases hset : s.isAttested (decodeDigest ⟨call.journal, hlen⟩) (decodeEpoch ⟨call.journal, hlen⟩)
  · rw [if_neg Bool.false_ne_true]
    by_cases hverify : call.verify call.sealBytes C.imageId (C.sha256 call.journal) = true
    · rw [if_pos hverify]
      exact Or.inl ⟨_, _, _, ⟨hlen, rfl, hepoch, hverify⟩, hset, rfl⟩
    · rw [if_neg hverify]
      exact Or.inr ⟨fun d e q h => absurd h.2.2.2 hverify, rfl⟩
  · rw [if_pos rfl]
    refine Or.inr ⟨fun d e q h => ?_, rfl⟩
    obtain ⟨rfl, rfl⟩ := hdecode h
    exact hset

theorem storeOf_recorded {s : State} {digest : ByteVec 32} {epoch : UInt32}
    (h : s.isAttested digest epoch = false) (queryId : UInt64) :
    storeOf (recorded s digest epoch queryId)
      = WriteOnce.step (storeOf s) (some ((digest, epoch), queryId)) := by
  have hunset : (storeOf s).entries (digest, epoch) = none :=
    if_neg (by simp only [h]; exact Bool.false_ne_true)
  rw [WriteOnce.step_of_unset hunset, storeOf, recorded, List.map_append]
  congr 1
  funext k
  obtain ⟨d, e⟩ := k
  simp only [setEntry]
  by_cases hk : d = digest ∧ e = epoch
  · obtain ⟨rfl, rfl⟩ := hk
    rw [Function.update_self]
    simp
  · have hne : (d, e) ≠ (digest, epoch) := fun hc => hk (Prod.mk.inj hc)
    rw [Function.update_of_ne hne, if_neg hk, if_neg hk]
    rfl

/-- **The simulation step**: a call acts on the store as what it offers. -/
theorem exec_step (C : Config) (s : State) (call : Call) :
    storeOf (exec C s call) = WriteOnce.step (storeOf s) (offer C call) := by
  rcases attest_cases C s call with ⟨d, e, q, hacc, hunset, hattest⟩ | ⟨hset, hexec⟩
  · rw [exec, hattest, offer_eq_some.mpr hacc]
    exact storeOf_recorded hunset q
  · rw [hexec]
    cases hoffer : offer C call with
    | none => rfl
    | some p =>
      obtain ⟨⟨d, e⟩, q⟩ := p
      have := hset d e q (offer_eq_some.mp hoffer)
      exact (WriteOnce.step_of_set (storeOf_entries.mpr this)).symm

/-! ## Runs -/

/-- A run of the contract is a run of the store. -/
theorem storeOf_run (C : Config) (calls : List Call) :
    storeOf (run C calls) = WriteOnce.run (calls.map (offer C)) := by
  have hfold : ∀ s : State, storeOf (calls.foldl (exec C) s)
      = (calls.map (offer C)).foldl WriteOnce.step (storeOf s) := by
    induction calls with
    | nil => exact fun s => rfl
    | cons call calls ih =>
      intro s
      rw [List.foldl_cons, ih, exec_step]
      rfl
  exact hfold State.init

theorem valueFor_offer {C : Config} {call : Call} {digest : ByteVec 32} {epoch : UInt32}
    {queryId : UInt64} :
    WriteOnce.valueFor (digest, epoch) (offer C call) = some queryId ↔
      Accepted C call digest epoch queryId :=
  WriteOnce.valueFor_eq_some.trans offer_eq_some

/-- What the first accepted call of a run for an entry leaves there. -/
theorem entries_run_of_first {C : Config} {calls before after : List Call} {call : Call}
    {digest : ByteVec 32} {epoch : UInt32} {queryId : UInt64}
    (hcalls : calls = before ++ call :: after)
    (hacc : Accepted C call digest epoch queryId)
    (hfirst : ∀ c ∈ before, ∀ q, ¬ Accepted C c digest epoch q) :
    (storeOf (run C calls)).entries (digest, epoch) = some queryId := by
  have hnone : (before.map (offer C)).findSome? (WriteOnce.valueFor (digest, epoch)) = none := by
    rw [List.findSome?_eq_none_iff]
    intro o ho
    obtain ⟨c, hc, rfl⟩ := List.mem_map.mp ho
    cases hv : WriteOnce.valueFor (digest, epoch) (offer C c) with
    | none => rfl
    | some q => exact absurd (valueFor_offer.mp hv) (hfirst c hc q)
  rw [storeOf_run, WriteOnce.run_entries, hcalls, List.map_append, List.findSome?_append, hnone,
    Option.none_or, List.map_cons, List.findSome?_cons, valueFor_offer.mpr hacc]

/-- An entry is set iff some call of the run was accepted for it. -/
theorem isAttested_run_iff (C : Config) (calls : List Call) (digest : ByteVec 32) (epoch : UInt32) :
    (run C calls).isAttested digest epoch = true ↔
      ∃ call ∈ calls, ∃ queryId, Accepted C call digest epoch queryId := by
  rw [← storeOf_entries, storeOf_run, WriteOnce.run_entries, List.findSome?_isSome_iff]
  constructor
  · rintro ⟨o, ho, hsome⟩
    obtain ⟨call, hcall, rfl⟩ := List.mem_map.mp ho
    obtain ⟨q, hq⟩ := Option.isSome_iff_exists.mp hsome
    exact ⟨call, hcall, q, valueFor_offer.mp hq⟩
  · rintro ⟨call, hcall, q, hacc⟩
    exact ⟨_, List.mem_map_of_mem hcall, by rw [valueFor_offer.mpr hacc]; rfl⟩

/-- The events of a run for one entry. -/
theorem events_run (C : Config) (calls : List Call) (digest : ByteVec 32) (epoch : UInt32) :
    (run C calls).events.filter (fun ev => ev.digest = digest ∧ ev.epoch = epoch)
      = ((storeOf (run C calls)).entries (digest, epoch)).toList.map
          fun queryId => ⟨digest, epoch, queryId⟩ := by
  let toEvent (p : (ByteVec 32 × UInt32) × UInt64) : QuorumAttested := ⟨p.1.1, p.1.2, p.2⟩
  have hback : ∀ evs : List QuorumAttested,
      evs.filter (fun ev => ev.digest = digest ∧ ev.epoch = epoch)
        = ((evs.map fun ev => ((ev.digest, ev.epoch), ev.queryId)).filter
            (·.1 = (digest, epoch))).map toEvent := by
    intro evs
    rw [List.filter_map, List.map_map]
    refine (List.map_id _).symm.trans (congrArg _ ?_)
    refine List.filter_congr fun ev _ => ?_
    simp only [Function.comp_apply, Prod.mk.injEq]
  have hlog := WriteOnce.run_log (calls.map (offer C)) (digest, epoch)
  rw [← storeOf_run] at hlog
  rw [hback]
  exact (congrArg (List.map toEvent) hlog).trans (List.map_map ..)

/-- **The run invariant of the contract.** After any sequence of calls, with a
router that answers as it likes:

- an entry is set iff some call was accepted for it;
- it holds the query id of the first call accepted for it, and that call emitted
  the only event for it; an entry that is not set has no event;
- no entry of epoch 0 is set;
- a further call records the entry it is accepted for, if that is not set yet, and
  leaves every other entry as it is; any other call, reverting or not, changes
  nothing. -/
theorem run_invariant (C : Config) (calls : List Call) :
    (∀ digest epoch, (run C calls).isAttested digest epoch = true ↔
      ∃ call ∈ calls, ∃ queryId, Accepted C call digest epoch queryId) ∧
    (∀ before call after digest epoch queryId, calls = before ++ call :: after →
      Accepted C call digest epoch queryId →
      (∀ c ∈ before, ∀ q, ¬ Accepted C c digest epoch q) →
      (run C calls).attestedQueryId digest epoch = queryId ∧
        (run C calls).events.filter (fun ev => ev.digest = digest ∧ ev.epoch = epoch)
          = [⟨digest, epoch, queryId⟩]) ∧
    (∀ digest epoch, (run C calls).isAttested digest epoch = false →
      (run C calls).events.filter (fun ev => ev.digest = digest ∧ ev.epoch = epoch) = []) ∧
    (∀ digest, (run C calls).isAttested digest 0 = false) ∧
    (∀ call,
      (∃ digest epoch queryId, Accepted C call digest epoch queryId ∧
        (run C calls).isAttested digest epoch = false ∧
        run C (calls ++ [call]) = recorded (run C calls) digest epoch queryId) ∨
      ((∀ digest epoch queryId, Accepted C call digest epoch queryId →
        (run C calls).isAttested digest epoch = true) ∧
        run C (calls ++ [call]) = run C calls)) := by
  refine ⟨isAttested_run_iff C calls, fun before call after d e q hcalls hacc hfirst => ?_,
    fun d e hunset => ?_, fun d => ?_, fun call => ?_⟩
  · have hentry := entries_run_of_first hcalls hacc hfirst
    refine ⟨?_, by rw [events_run, hentry]; rfl⟩
    have hset := storeOf_entries.mp (by rw [hentry]; rfl)
    have hval : (storeOf (run C calls)).entries (d, e)
        = some ((run C calls).attestedQueryId d e) := if_pos hset
    rw [hentry] at hval
    exact (Option.some.inj hval).symm
  · have hentry : (storeOf (run C calls)).entries (d, e) = none :=
      if_neg (by simp only [hunset]; exact Bool.false_ne_true)
    rw [events_run, hentry]
    rfl
  · rw [Bool.eq_false_iff]
    intro hset
    obtain ⟨call, -, q, hacc⟩ := (isAttested_run_iff C calls d 0).mp hset
    exact hacc.2.2.1 rfl
  · -- the run so far is any state: what one more call does is `attest_cases`
    have hlast : run C (calls ++ [call]) = exec C (run C calls) call := by
      rw [run, List.foldl_append]
      rfl
    rw [hlast]
    rcases attest_cases C (run C calls) call with ⟨d, e, q, hacc, hunset, hattest⟩ | h
    · exact Or.inl ⟨d, e, q, hacc, hunset, by rw [exec, hattest]⟩
    · exact Or.inr h

end ZkQuorum.Contract
