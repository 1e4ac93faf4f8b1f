import ZkQuorum.GenFixture.BuildTx

/-!
# The command line of the fixture writer (crypto/tools/gen_fixture.c)

The first part of `main`: the loop over the arguments, and the checks on what it found.
`Args` is what gets through, and carries the checks as its fields.

`long` has 64 bits here. A value that is kept was read as not negative, so the options
are numbers.
-/

namespace ZkQuorum.GenFixture

open Guest

abbrev maxReply : Nat := 1008

/-- A C string, without its NUL. -/
abbrev CString := { s : Bytes // 0 ∉ s }

/-- A literal of the source. -/
def ascii (s : String) : Bytes := s.toList.map fun c => UInt8.ofNat c.toNat

/-- How the program ends before it has written a file. -/
inductive Exit where
  /-- `USAGE`, status 2 -/
  | usage
  /-- `needs a value` and `USAGE`, status 2 -/
  | needsValue (a : CString)
  /-- `bad value`, status 2 -/
  | badValue (a v : CString)
  /-- `unknown argument` and `USAGE`, status 2 -/
  | unknownArgument (a : CString)
  /-- `die`, status 1 -/
  | die (msg : String)
  /-- `perror`, status 1 -/
  | perror (path : CString)
  /-- `more than max seeds`, status 1 -/
  | moreSeeds (path : CString) (max : Nat)
deriving DecidableEq

/-- A check that leaves what was checked. -/
def require (c : Prop) [Decidable c] (e : Exit) : Except Exit (PLift c) :=
  if h : c then .ok ⟨h⟩ else .error e

theorem require_of {c : Prop} [Decidable c] (h : c) (e : Exit) : require c e = .ok ⟨h⟩ := by
  unfold require
  exact dif_pos h

/-! ## Numbers -/

/-- `isspace` in the C locale. -/
def isSpace (c : UInt8) : Bool := c == 0x20 || (0x09 ≤ c && c ≤ 0x0d)

def isDigit (c : UInt8) : Bool := 0x30 ≤ c && c ≤ 0x39

/-- The number some digits spell. -/
def digits (ds : Bytes) : Nat := ds.foldl (fun n c => 10 * n + (c.toNat - 0x30)) 0

/-- `strtol` in base 10: the number, at most `LONG_MAX` and at least `LONG_MIN`, and what
follows it. Without a digit nothing is read. -/
def strtol (v : Bytes) : Int × Bytes :=
  let s := v.dropWhile isSpace
  let negative := s.head? == some 0x2d
  let s := if s.head? == some 0x2d || s.head? == some 0x2b then s.tail else s
  let ds := s.takeWhile isDigit
  if ds = [] then (0, v)
  else
    let n := digits ds
    (if negative then max (-(n : Int)) (-2 ^ 63) else min n (2 ^ 63 - 1), s.dropWhile isDigit)

/-! ## The loop over the arguments -/

/-- What the loop has found. None is `NULL` or -1. -/
structure Options where
  seeds : Option CString
  arbSeed : Option CString
  message : Option CString
  out : Option CString
  userSeed : Bytes
  epoch : Option Nat
  commits : Option Nat
  badCommits : Nat
  wrongDigest : Nat
  revealBy : Nat
  queryTick : Nat
  commitTick : Nat
  revealTick : Nat
  iface : Nat
  timeoutMs : Nat
  replay : Bool
  shuffle : Bool
deriving DecidableEq

/-- The defaults. -/
def Options.default : Options where
  seeds := none
  arbSeed := none
  message := none
  out := none
  userSeed := List.replicate 55 0x61
  epoch := none
  commits := none
  badCommits := 0
  wrongDigest := 0
  revealBy := 0
  queryTick := 1000000
  commitTick := 1000004
  revealTick := 1000007
  iface := 0
  timeoutMs := 60000
  replay := false
  shuffle := false

/-- The argument `a` with the value `v`. -/
def Options.set (o : Options) (a v : CString) : Except Exit Options :=
  let (num, stop) := strtol v.val
  let isNum := stop == [] && v.val != []
  if a.val = ascii "--seeds" then .ok { o with seeds := some v }
  else if a.val = ascii "--arbitrator-seed" then .ok { o with arbSeed := some v }
  else if a.val = ascii "--message" then .ok { o with message := some v }
  else if a.val = ascii "--out" then .ok { o with out := some v }
  else if a.val = ascii "--user-seed" then
    if v.val.length ≠ 55 then .error (.die "--user-seed must be 55 chars")
    else .ok { o with userSeed := v.val }
  else if !isNum || num < 0 then .error (.badValue a v)
  else if a.val = ascii "--epoch" then .ok { o with epoch := some num.toNat }
  else if a.val = ascii "--commits" then .ok { o with commits := some num.toNat }
  else if a.val = ascii "--bad-commits" then .ok { o with badCommits := num.toNat }
  else if a.val = ascii "--wrong-digest" then .ok { o with wrongDigest := num.toNat }
  else if a.val = ascii "--reveal-by" then .ok { o with revealBy := num.toNat }
  else if a.val = ascii "--query-tick" then .ok { o with queryTick := num.toNat }
  else if a.val = ascii "--commit-tick" then .ok { o with commitTick := num.toNat }
  else if a.val = ascii "--reveal-tick" then .ok { o with revealTick := num.toNat }
  else if a.val = ascii "--interface" then .ok { o with iface := num.toNat }
  else if a.val = ascii "--timeout-ms" then .ok { o with timeoutMs := num.toNat }
  else .error (.unknownArgument a)

/-- The loop over the arguments. -/
def parseArgs : List CString → Options → Except Exit Options
  | [], o => .ok o
  | a :: rest, o =>
    if a.val = ascii "--replay-query" then parseArgs rest { o with replay := true }
    else if a.val = ascii "--shuffle" then parseArgs rest { o with shuffle := true }
    else
      match rest with
      | [] => .error (.needsValue a)
      | v :: rest => do parseArgs rest (← o.set a v)

/-! ## The checks -/

/-- Arguments that pass the checks. -/
structure Args where
  seeds : CString
  arbSeed : CString
  message : CString
  out : CString
  userSeed : Bytes
  epoch : Nat
  commits : Nat
  badCommits : Nat
  wrongDigest : Nat
  revealBy : Nat
  queryTick : Nat
  commitTick : Nat
  revealTick : Nat
  iface : Nat
  timeoutMs : Nat
  replay : Bool
  shuffle : Bool
  epoch_range : 1 ≤ epoch ∧ epoch ≤ 65535
  commits_le : commits ≤ numberOfComputors
  suffixes_le : badCommits ≤ commits ∧ wrongDigest ≤ commits
  revealBy_lt : revealBy < numberOfComputors
  ticks_le : queryTick ≤ 0xffffffff ∧ commitTick ≤ 0xffffffff ∧ revealTick ≤ 0xffffffff
  query_lt_commit : queryTick < commitTick
  message_range : 1 ≤ message.val.length ∧ message.val.length ≤ maxReply

/-- The checks on the arguments, in the order of the source. -/
def checkArgs (o : Options) : Except Exit Args := do
  let (some seeds, some arbSeed, some message, some out, some epoch, some commits) :=
    (o.seeds, o.arbSeed, o.message, o.out, o.epoch, o.commits) | throw .usage
  let ⟨epoch_range⟩ ← require (1 ≤ epoch ∧ epoch ≤ 65535) (.die "--epoch must be 1..65535")
  let ⟨commits_le⟩ ← require (commits ≤ numberOfComputors) (.die "--commits must be <= 676")
  let ⟨suffixes_le⟩ ← require (o.badCommits ≤ commits ∧ o.wrongDigest ≤ commits)
    (.die "--bad-commits/--wrong-digest exceed --commits")
  let ⟨revealBy_lt⟩ ← require (o.revealBy < numberOfComputors) (.die "--reveal-by must be < 676")
  let ⟨ticks_le⟩ ← require
    (o.queryTick ≤ 0xffffffff ∧ o.commitTick ≤ 0xffffffff ∧ o.revealTick ≤ 0xffffffff)
    (.die "tick exceeds u32")
  let ⟨query_lt_commit⟩ ← require (o.queryTick < o.commitTick)
    (.die "--commit-tick must be > --query-tick")
  let ⟨message_range⟩ ← require (1 ≤ message.val.length ∧ message.val.length ≤ maxReply)
    (.die "--message must be 1..1008 bytes")
  return { o with
    seeds, arbSeed, message, out, epoch, commits, epoch_range, commits_le, suffixes_le,
    revealBy_lt, ticks_le, query_lt_commit, message_range }

/-- The options that arguments are read from. -/
def Args.options (a : Args) : Options :=
  { a with
    seeds := some a.seeds, arbSeed := some a.arbSeed, message := some a.message, out := some a.out,
    epoch := some a.epoch, commits := some a.commits }

/-- No other check is made: whatever satisfies the fields of `Args` gets through. -/
theorem checkArgs_options (a : Args) : checkArgs a.options = .ok a := by
  unfold checkArgs Args.options
  dsimp only
  rw [require_of a.epoch_range, Rust.ok_bind, require_of a.commits_le, Rust.ok_bind,
    require_of a.suffixes_le, Rust.ok_bind, require_of a.revealBy_lt, Rust.ok_bind,
    require_of a.ticks_le, Rust.ok_bind, require_of a.query_lt_commit, Rust.ok_bind,
    require_of a.message_range, Rust.ok_bind]
  rfl

end ZkQuorum.GenFixture
