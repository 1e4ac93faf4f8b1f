import ZkQuorum.Guest.Commits

/-!
# The walk over the commits frame (methods/guest/src/main.rs)

What the loop of `main` hands to `check_commit`, for any outcomes of `check_commit`. The
frame is the host's: its count and the lengths in it are any 32-bit values, and the offset
is a 32-bit sum that nothing checks.

- `commitWalk` is the loop with a record of its calls (`snd_commitWalk`).
- `Tiles` says that the calls lie side by side in the frame, at offsets that are sums
  over the unbounded integers.
- `walked_commitWalk`: the calls are a prefix of what the grammar finds in the frame, and
  the loop stops where the quorum is, or where the frame does.
-/

namespace ZkQuorum.Guest

open LittleEndian Rust

/-! ## The loop with its calls -/

/-- A call of `check_commit`: its record, the offset of the record, and the offset that the
loop goes on with. -/
structure Handed where
  off : Nat
  raw : Bytes
  next : Nat

section Walk

variable (check : Bytes → Vector Bool numberOfComputors → Rust (Option Nat)) (commits : Bytes)

/-- `commitLoop`, and the calls it makes on the way. -/
def commitWalk : Nat → Nat → Vector Bool numberOfComputors → Nat → List Handed × Rust Nat
  | 0, _, _, count => ([], .ok count)
  | n + 1, off, seen, count =>
    match readRecord commits off with
    | .error p => ([], .error p)
    | .ok (raw, next) =>
      let (calls, result) : List Handed × Rust Nat :=
        match check raw seen with
        | .error p => ([], .error p)
        | .ok none => commitWalk n next seen count
        | .ok (some idx) =>
          match arraySet seen idx true with
          | .error p => ([], .error p)
          | .ok seen =>
            if quorum ≤ count + 1 then ([], .ok (count + 1))
            else commitWalk n next seen (count + 1)
      ({ off, raw, next } :: calls, result)

/-- The calls are only written down: the result is that of the loop. -/
theorem snd_commitWalk (n off : Nat) (seen : Vector Bool numberOfComputors) (count : Nat) :
    (commitWalk check commits n off seen count).2 = commitLoop check commits n off seen count := by
  induction n generalizing off seen count with
  | zero => rfl
  | succ n ih =>
    rw [commitWalk, commitLoop]
    cases readRecord commits off with
    | error p => rfl
    | ok record =>
      obtain ⟨raw, next⟩ := record
      rw [ok_bind]
      dsimp only
      cases check raw seen with
      | error p => rfl
      | ok outcome =>
        rw [ok_bind]
        cases outcome with
        | none => exact ih next seen count
        | some idx =>
          dsimp only
          cases arraySet seen idx true with
          | error p => rfl
          | ok seen' =>
            simp only [ok_bind]
            by_cases hq : quorum ≤ count + 1
            · rw [if_pos hq, if_pos hq]
              rfl
            · rw [if_neg hq, if_neg hq]
              exact ih next seen' (count + 1)

end Walk

/-! ## Outcomes -/

/-- What `check_commit` may return on each record, for each state of the flags. -/
abbrev Outcome := Bytes → Vector Bool numberOfComputors → Option (Fin numberOfComputors)

/-- A `check_commit` with these outcomes. -/
def Outcome.check (outcome : Outcome) (raw : Bytes) (seen : Vector Bool numberOfComputors) :
    Rust (Option Nat) := .ok ((outcome raw seen).map Fin.val)

/-- The number of records that count when they are handed over one after the other. -/
def Outcome.accepted (outcome : Outcome) : List Bytes → Vector Bool numberOfComputors → Nat
  | [], _ => 0
  | raw :: raws, seen =>
    match outcome raw seen with
    | none => accepted outcome raws seen
    | some idx => accepted outcome raws (seen.set idx.val true idx.isLt) + 1

/-- `check_commit` has outcomes: it returns, and what it returns is the index of a computor. -/
theorem checkCommit_outcome (E : Externs) {pubkeys : Bytes} {sorted : List UInt16}
    (queryId : ByteVec 8) (queryTick : UInt32) (reply : Bytes) (hs : SortedIndex pubkeys sorted) :
    ∃ outcome : Outcome, ∀ raw seen,
      checkCommit E raw pubkeys sorted seen queryId queryTick (k12 E reply) reply
        = outcome.check raw seen := by
  have hvalue : ∀ raw seen, ∃ r : Option (Fin numberOfComputors),
      checkCommit E raw pubkeys sorted seen queryId queryTick (k12 E reply) reply
        = .ok (r.map Fin.val) := by
    intro raw seen
    obtain ⟨r, hr, hiff⟩ := checkCommit_spec E queryId queryTick reply hs raw seen
    cases r with
    | none => exact ⟨none, hr⟩
    | some i =>
      obtain ⟨hvalid, -⟩ := (hiff i).mp rfl
      exact ⟨some ⟨i, hvalid.lt⟩, hr⟩
  choose outcome houtcome using hvalue
  exact ⟨outcome, houtcome⟩

/-! ## The calls in the frame -/

/-- The calls are records of the frame that lie side by side, the first one at `off`. No
sum here is taken modulo `2 ^ 32`. -/
def Tiles (commits : Bytes) : Nat → List Handed → Prop
  | _, [] => True
  | off, call :: calls =>
    call.off = off ∧ call.next = off + 4 + call.raw.length ∧ call.next ≤ commits.length ∧
      commits.drop off = Records.encode call.raw ++ commits.drop call.next ∧
        Tiles commits call.next calls

section Steps

variable {outcome : Outcome} {commits raw : Bytes} {n off next count : Nat}
  {seen : Vector Bool numberOfComputors}

/-- A record in the frame is read, at an offset that did not wrap, and a record that is cut
short is not. -/
theorem readRecord_span (hlen : commits.length < 2 ^ 32) (hoff : off ≤ commits.length) :
    match Records.read (commits.drop off) with
    | .ok (raw, rest) => ∃ next, readRecord commits off = .ok (raw, next) ∧
        next = off + 4 + raw.length ∧ next ≤ commits.length ∧ rest = commits.drop next
    | .error cut => readRecord commits off = .error (cutPanic cut) := by
  have hread := readRecord_complete hlen hoff
  cases hrec : Records.read (commits.drop off) with
  | error cut =>
    rw [hrec] at hread
    exact hread
  | ok record =>
    obtain ⟨raw, rest⟩ := record
    rw [hrec] at hread
    obtain ⟨next, hnext, hle, rfl⟩ := hread
    refine ⟨next, hnext, ?_, hle, rfl⟩
    have hsplit := congrArg List.length (Records.encode_of_read hrec).1
    rw [List.length_append, Records.length_encode, List.length_drop, List.length_drop] at hsplit
    omega

/-- A turn that finds no record. -/
theorem commitWalk_error {p : Panic} (hread : readRecord commits off = .error p) :
    commitWalk outcome.check commits (n + 1) off seen count = ([], .error p) := by
  rw [commitWalk, hread]

/-- A turn on a record that does not count. -/
theorem commitWalk_skip (hread : readRecord commits off = .ok (raw, next))
    (hnone : outcome raw seen = none) :
    commitWalk outcome.check commits (n + 1) off seen count
      = ({ off, raw, next } :: (commitWalk outcome.check commits n next seen count).1,
          (commitWalk outcome.check commits n next seen count).2) := by
  rw [commitWalk, hread]
  simp only [Outcome.check, hnone, Option.map_none]

/-- A turn on a record that counts. -/
theorem commitWalk_count (hread : readRecord commits off = .ok (raw, next))
    {idx : Fin numberOfComputors} (hsome : outcome raw seen = some idx) :
    commitWalk outcome.check commits (n + 1) off seen count
      = if quorum ≤ count + 1 then ([{ off, raw, next }], .ok (count + 1))
        else ({ off, raw, next }
            :: (commitWalk outcome.check commits n next (seen.set idx.val true idx.isLt)
              (count + 1)).1,
          (commitWalk outcome.check commits n next (seen.set idx.val true idx.isLt)
            (count + 1)).2) := by
  have hset : arraySet seen idx.val true = .ok (seen.set idx.val true idx.isLt) := dif_pos idx.isLt
  rw [commitWalk, hread]
  simp only [Outcome.check, hsome, Option.map_some, hset]
  by_cases hq : quorum ≤ count + 1
  · rw [if_pos hq, if_pos hq]
  · rw [if_neg hq, if_neg hq]

end Steps

/-! ## Where the loop stops -/

/-- What the loop returns when it needs everything that is left. -/
def atEnd (count : Nat) : Except Records.Cut Bytes → Rust Nat
  | .ok _ => .ok count
  | .error cut => .error (cutPanic cut)

theorem atEnd_eq_ok {total count : Nat} {tail : Except Records.Cut Bytes} :
    atEnd total tail = .ok count ↔ (∃ rest, tail = .ok rest) ∧ count = total := by
  cases tail with
  | ok rest =>
    constructor
    · rintro ⟨⟩
      exact ⟨⟨rest, rfl⟩, rfl⟩
    · rintro ⟨-, rfl⟩
      rfl
  | error cut =>
    constructor
    · rintro ⟨⟩
    · rintro ⟨⟨rest, ⟨⟩⟩, -⟩

theorem atEnd_eq_error {total : Nat} {tail : Except Records.Cut Bytes} {p : Panic} :
    atEnd total tail = .error p ↔ ∃ cut, tail = .error cut ∧ p = cutPanic cut := by
  cases tail with
  | ok rest =>
    constructor
    · rintro ⟨⟩
    · rintro ⟨cut, ⟨⟩, -⟩
  | error cut =>
    constructor
    · rintro ⟨⟩
      exact ⟨cut, rfl, rfl⟩
    · rintro ⟨cut', ⟨⟩, rfl⟩
      rfl

/-- A walk `w` of up to `n` records from `off`, with `count` of them counted before: it
hands over the first records of the frame, and ends with the quorum or with the records. -/
structure Walked (outcome : Outcome) (commits : Bytes) (n off : Nat)
    (seen : Vector Bool numberOfComputors) (count : Nat) (w : List Handed × Rust Nat) : Prop where
  tiles : Tiles commits off w.1
  front : w.1.map Handed.raw <+: (Records.readAll n (commits.drop off)).1
  stops : let total := count + outcome.accepted (w.1.map Handed.raw) seen
    (total = quorum ∧ w.2 = .ok total) ∨
      (total < quorum ∧ w.1.map Handed.raw = (Records.readAll n (commits.drop off)).1 ∧
        w.2 = atEnd total (Records.readAll n (commits.drop off)).2)

section Walk

variable {outcome : Outcome} {commits raw : Bytes} {n off next count count' : Nat}
  {seen seen' : Vector Bool numberOfComputors}

/-- One more record before a walk. -/
theorem Walked.cons {w : List Handed × Rust Nat}
    (hrec : Records.read (commits.drop off) = .ok (raw, commits.drop next))
    (hnext : next = off + 4 + raw.length) (hle : next ≤ commits.length)
    (htotal : ∀ raws, count + outcome.accepted (raw :: raws) seen
      = count' + outcome.accepted raws seen')
    (h : Walked outcome commits n next seen' count' w) :
    Walked outcome commits (n + 1) off seen count ({ off, raw, next } :: w.1, w.2) := by
  have hall := Records.readAll_of_ok (n := n) hrec
  refine ⟨⟨rfl, hnext, hle, (Records.encode_of_read hrec).1, h.tiles⟩, ?_, ?_⟩
  · rw [hall]
    exact List.cons_prefix_cons.mpr ⟨rfl, h.front⟩
  · simp only [List.map_cons]
    rw [htotal, hall]
    rcases h.stops with ⟨hquorum, hresult⟩ | ⟨hless, hraws, hresult⟩
    · exact Or.inl ⟨hquorum, hresult⟩
    · exact Or.inr ⟨hless, congrArg (raw :: ·) hraws, hresult⟩

/-- A record that reaches the quorum ends the walk. -/
theorem Walked.last {idx : Fin numberOfComputors}
    (hrec : Records.read (commits.drop off) = .ok (raw, commits.drop next))
    (hnext : next = off + 4 + raw.length) (hle : next ≤ commits.length)
    (hsome : outcome raw seen = some idx) (hquorum : count + 1 = quorum) :
    Walked outcome commits (n + 1) off seen count ([{ off, raw, next }], .ok (count + 1)) := by
  have hone : outcome.accepted [raw] seen = 1 := by
    simp only [Outcome.accepted, hsome]
  refine ⟨⟨rfl, hnext, hle, (Records.encode_of_read hrec).1, trivial⟩, ?_, Or.inl ?_⟩
  · rw [Records.readAll_of_ok (n := n) hrec]
    exact List.cons_prefix_cons.mpr ⟨rfl, List.nil_prefix⟩
  · show count + outcome.accepted [raw] seen = quorum ∧
      Except.ok (count + 1) = Except.ok (count + outcome.accepted [raw] seen)
    rw [hone]
    exact ⟨hquorum, rfl⟩

/-- **The walk**, by induction on the number of records that are asked for. -/
theorem walked_commitWalk (hlen : commits.length < 2 ^ 32) (hoff : off ≤ commits.length)
    (hlt : count < quorum) : Walked outcome commits n off seen count
      (commitWalk outcome.check commits n off seen count) := by
  induction n generalizing off seen count with
  | zero =>
    refine ⟨trivial, List.nil_prefix, Or.inr ⟨?_, rfl, ?_⟩⟩
    · exact hlt
    · rfl
  | succ n ih =>
    have hspan := readRecord_span hlen hoff
    -- the loop and the list reader read the same record, or both fail
    cases hrec : Records.read (commits.drop off) with
    | error cut =>
      rw [hrec] at hspan
      rw [commitWalk_error hspan]
      refine ⟨trivial, List.nil_prefix, Or.inr ⟨?_, ?_, ?_⟩⟩
      · exact hlt
      · rw [Records.readAll_of_error hrec]
        rfl
      · rw [Records.readAll_of_error hrec]
        rfl
    | ok record =>
      obtain ⟨raw, rest⟩ := record
      rw [hrec] at hspan
      obtain ⟨next, hread, hnext, hle, rfl⟩ := hspan
      cases houtcome : outcome raw seen with
      | none =>
        rw [commitWalk_skip hread houtcome]
        refine Walked.cons hrec hnext hle (fun raws => ?_) (ih hle hlt)
        rw [Outcome.accepted, houtcome]
      | some idx =>
        rw [commitWalk_count hread houtcome]
        -- the loop ends early when this commit makes the quorum
        by_cases hq : quorum ≤ count + 1
        · rw [if_pos hq]
          exact Walked.last hrec hnext hle houtcome (by omega)
        · rw [if_neg hq]
          refine Walked.cons hrec hnext hle (fun raws => ?_) (ih hle (Nat.not_le.mp hq))
          rw [Outcome.accepted, houtcome]
          exact (Nat.add_right_comm count 1 _).symm

/-- Where a walk stops that starts with no record counted. -/
theorem Walked.stops_unseen {w : List Handed × Rust Nat}
    (h : Walked outcome commits n off seen 0 w) :
    (outcome.accepted (w.1.map Handed.raw) seen = quorum ∧ w.2 = .ok quorum) ∨
      (outcome.accepted (w.1.map Handed.raw) seen < quorum ∧
        w.1.map Handed.raw = (Records.readAll n (commits.drop off)).1 ∧
        w.2 = atEnd (outcome.accepted (w.1.map Handed.raw) seen)
          (Records.readAll n (commits.drop off)).2) := by
  have hstops := h.stops
  simp only [Nat.zero_add] at hstops
  rcases hstops with ⟨htotal, hreturned⟩ | hend
  · rw [htotal] at hreturned
    exact Or.inl ⟨htotal, hreturned⟩
  · exact Or.inr hend

end Walk

/-- **Walking the commits frame.** The calls of `check_commit` are, in order and side by side,
the first records of the frame; the loop returns just when the quorum is among them or all
`n` records are present, and panics just when it needs a record that is cut short. -/
theorem commits_frame_walk (outcome : Outcome) (commits : Bytes) (hmin : 4 ≤ commits.length)
    (hmax : commits.length < 2 ^ 31) :
    let n := (toU32 (commits.take 4)).toNat
    let present := Records.readAll n (commits.drop 4)
    let unseen := Vector.replicate numberOfComputors false
    let walk := commitWalk outcome.check commits n 4 unseen 0
    let raws := walk.1.map Handed.raw
    let result := commitLoop outcome.check commits n 4 unseen 0
    walk.2 = result ∧ raws <+: present.1 ∧ Tiles commits 4 walk.1 ∧
      ((∃ count, result = .ok count) ↔
        quorum ≤ outcome.accepted raws unseen ∨ ∃ rest, present.2 = .ok rest) ∧
      (∀ p, result = .error p ↔ outcome.accepted raws unseen < quorum ∧ raws = present.1 ∧
        ∃ cut, present.2 = .error cut ∧ p = cutPanic cut) ∧
      ∀ count, result = .ok count → count = outcome.accepted raws unseen ∧ count ≤ quorum := by
  intro n present unseen walk raws result
  have hresult : walk.2 = result := snd_commitWalk outcome.check commits n 4 unseen 0
  have h : Walked outcome commits n 4 unseen 0 walk :=
    walked_commitWalk (by omega) hmin (by decide)
  have hstops := h.stops_unseen
  rw [hresult] at hstops
  refine ⟨hresult, h.front, h.tiles, ?_⟩
  generalize outcome.accepted raws unseen = total at hstops ⊢
  rcases hstops with ⟨rfl, hreturned⟩ | ⟨hless, hraws, hreturned⟩
  · -- the quorum was reached
    rw [hreturned]
    refine ⟨⟨fun _ => Or.inl (Nat.le_refl _), fun _ => ⟨_, rfl⟩⟩, fun p => ?_,
      fun count hcount => ?_⟩
    · constructor
      · rintro ⟨⟩
      · rintro ⟨hlt, -⟩
        exact absurd hlt (Nat.lt_irrefl _)
    · cases hcount
      exact ⟨rfl, Nat.le_refl _⟩
  · -- the records ended before it
    rw [hreturned]
    simp only [atEnd_eq_ok, atEnd_eq_error]
    refine ⟨⟨?_, ?_⟩, fun p => ?_, ?_⟩
    · rintro ⟨count, hrest, -⟩
      exact Or.inr hrest
    · rintro (hge | hrest)
      · exact absurd hless (Nat.not_lt.mpr hge)
      · exact ⟨total, hrest, rfl⟩
    · exact ⟨fun hcut => ⟨hless, hraws, hcut⟩, fun h => h.2.2⟩
    · rintro count ⟨-, rfl⟩
      exact ⟨rfl, Nat.le_of_lt hless⟩

/-- The theorem on a frame whose one length wraps: the record would end where the frame
starts. -/
theorem commits_frame_walk_wrapped :
    commitLoop (Outcome.check fun _ _ => none) [1, 0, 0, 0, 0xfc, 0xff, 0xff, 0xff] 1 4
        (Vector.replicate numberOfComputors false) 0
      = .error (.message "commits frame: truncated transaction") :=
  ((commits_frame_walk (fun _ _ => none) [1, 0, 0, 0, 0xfc, 0xff, 0xff, 0xff] (by decide)
    (by decide)).2.2.2.2.1 _).mpr ⟨by decide, rfl, .body, rfl, rfl⟩

end ZkQuorum.Guest
