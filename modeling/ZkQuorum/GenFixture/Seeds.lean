import ZkQuorum.GenFixture.Args
import Mathlib.Data.List.DropRight

/-!
# Seed files (crypto/tools/gen_fixture.c)

`derive` and `read_seeds`. The reference functions behind them are a parameter
(`StockHost`). A seed file is its content; `fgetsLines` is what the calls of `fgets`
return on it, one after the other.

`readSeeds_eq_ok` says what a file that is accepted holds, and `readSeeds_seedFile` reads a
file with one seed a line.
-/

namespace ZkQuorum.GenFixture

open Guest

/-- The reference functions of `stock_host.h`. -/
structure StockHost where
  /-- the hash in `qubic_seed_to_subseed` -/
  kangarooTwelve : Bytes → ByteVec 32
  /-- the public key that `qubic_subseed_to_keys` computes -/
  publicKey : ByteVec 32 → ByteVec 32
  /-- `qubic_sign` -/
  sign : ByteVec 32 → ByteVec 32 → ByteVec 32 → ByteVec 64

/-- A lowercase letter. -/
def isLower (c : UInt8) : Bool := 0x61 ≤ c && c ≤ 0x7a

/-- `qubic_seed_to_subseed`. -/
def seedToSubseed (H : StockHost) (seed : Bytes) : Option (ByteVec 32) :=
  if seed.all isLower then some (H.kangarooTwelve (seed.map (· - 0x61))) else none

/-- The keys of a subseed. -/
def keyOf (H : StockHost) (sub : ByteVec 32) : Key where
  pub := H.publicKey sub
  sign := H.sign sub (H.publicKey sub)

/-- A seed with its keys. -/
structure SeedKey where
  seed : Bytes
  key : Key

/-- `derive`. -/
def derive (H : StockHost) (seed : Bytes) : Except Exit SeedKey :=
  if seed.length ≠ 55 then .error (.die "bad seed (need 55 a-z chars)")
  else
    match seedToSubseed H seed with
    | none => .error (.die "bad seed (need 55 a-z chars)")
    | some sub => .ok { seed, key := keyOf H sub }

/-- The strings that `fgets` with a buffer of 512 bytes returns, where `line` was read
already. -/
def fgetsLines (line : Bytes) : Bytes → List Bytes
  | [] => if line = [] then [] else [line]
  | c :: rest =>
    if c = 0x0a ∨ line.length = 510 then (line ++ [c]) :: fgetsLines [] rest
    else fgetsLines (line ++ [c]) rest

/-- `strlen` and the loop that strips the end of a line. -/
def stripLine (line : Bytes) : Bytes :=
  (line.takeWhile (· != 0)).rdropWhile fun c => c == 0x0a || c == 0x0d || c == 0x20

/-- The loop of `read_seeds`, with `n` seeds read already. -/
def readLines (H : StockHost) (path : CString) (max : Nat) :
    List Bytes → Nat → Except Exit (List SeedKey)
  | [], _ => .ok []
  | line :: rest, n =>
    let line := stripLine line
    if line = [] ∨ line.head? = some 0x23 then readLines H path max rest n
    else if n ≥ max then .error (.moreSeeds path max)
    else do
      let k ← derive H line
      let ks ← readLines H path max rest (n + 1)
      return k :: ks

/-- `read_seeds`. -/
def readSeeds (H : StockHost) (files : CString → Option Bytes) (path : CString) (max : Nat) :
    Except Exit (List SeedKey) :=
  match files path with
  | none => .error (.perror path)
  | some content => readLines H path max (fgetsLines [] content) 0

/-! ## What is read -/

section Read

variable {H : StockHost} {path : CString} {max : Nat}

/-- The key of a seed is that of some subseed. -/
theorem derive_eq_ok {seed : Bytes} {k : SeedKey} (h : derive H seed = .ok k) :
    k.seed = seed ∧ ∃ sub, k.key = keyOf H sub := by
  unfold derive at h
  split at h
  · cases h
  · split at h
    · cases h
    · rename_i sub _
      cases h
      exact ⟨rfl, sub, rfl⟩

theorem derive_of_lower {seed : Bytes} (hlen : seed.length = 55) (hlower : seed.all isLower) :
    derive H seed
      = .ok { seed, key := keyOf H (H.kangarooTwelve (seed.map (· - 0x61))) } := by
  rw [derive, if_neg (not_not.mpr hlen), seedToSubseed, if_pos hlower]

/-- Every key that is read is that of some subseed. -/
theorem readLines_eq_ok {lines : List Bytes} {n : Nat} {ks : List SeedKey}
    (h : readLines H path max lines n = .ok ks) : ∀ k ∈ ks, ∃ sub, k.key = keyOf H sub := by
  induction lines generalizing n ks with
  | nil =>
    cases h
    exact fun k hk => (nomatch hk)
  | cons line rest ih =>
    rw [readLines] at h
    split at h
    · exact ih h
    · split at h
      · cases h
      · obtain ⟨k, hk, h⟩ := Rust.bind_eq_ok.mp h
        obtain ⟨ks', hks, h⟩ := Rust.bind_eq_ok.mp h
        cases h
        intro k' hk'
        rcases List.mem_cons.mp hk' with rfl | hmem
        · exact (derive_eq_ok hk).2
        · exact ih hks k' hmem

theorem readSeeds_eq_ok {files : CString → Option Bytes} {ks : List SeedKey}
    (h : readSeeds H files path max = .ok ks) : ∀ k ∈ ks, ∃ sub, k.key = keyOf H sub := by
  unfold readSeeds at h
  split at h
  · cases h
  · exact readLines_eq_ok h

end Read

/-! ## A file with one seed a line -/

/-- A seed: 55 lowercase letters. -/
structure IsSeed (seed : Bytes) : Prop where
  length : seed.length = 55
  lower : ∀ c ∈ seed, isLower c = true

/-- The file with these seeds. -/
def seedFile (seeds : List Bytes) : Bytes := seeds.flatMap (· ++ [0x0a])

/-- A seed with the keys that `derive` finds. -/
def deriveSeed (H : StockHost) (seed : Bytes) : SeedKey where
  seed := seed
  key := keyOf H (H.kangarooTwelve (seed.map (· - 0x61)))

section Lines

variable {H : StockHost} {path : CString} {max : Nat}

theorem fgetsLines_line {seed : Bytes} (line rest : Bytes) (hlen : line.length + seed.length ≤ 510)
    (hseed : ∀ c ∈ seed, c ≠ 0x0a) :
    fgetsLines line (seed ++ 0x0a :: rest) = (line ++ seed ++ [0x0a]) :: fgetsLines [] rest := by
  induction seed generalizing line with
  | nil => rw [List.nil_append, fgetsLines, if_pos (.inl rfl), List.append_nil]
  | cons c seed ih =>
    rw [List.length_cons] at hlen
    have hc : ¬ (c = 0x0a ∨ line.length = 510) := by
      rintro (h | h)
      · exact hseed c List.mem_cons_self h
      · omega
    have hlen' : (line ++ [c]).length + seed.length ≤ 510 := by
      rw [List.length_append, List.length_singleton]
      omega
    rw [List.cons_append, fgetsLines, if_neg hc,
      ih _ hlen' fun d hd => hseed d (List.mem_cons_of_mem c hd), List.append_assoc line]
    rfl

theorem IsSeed.ne {seed : Bytes} (h : IsSeed seed) {b : UInt8} (hb : isLower b = false) :
    ∀ c ∈ seed, c ≠ b := by
  rintro c hc rfl
  rw [h.lower c hc] at hb
  cases hb

theorem fgetsLines_seedFile {seeds : List Bytes} (h : ∀ s ∈ seeds, IsSeed s) :
    fgetsLines [] (seedFile seeds) = seeds.map (· ++ [0x0a]) := by
  induction seeds with
  | nil => rfl
  | cons s seeds ih =>
    have hs := h s List.mem_cons_self
    have hlen : ([] : Bytes).length + s.length ≤ 510 := by
      rw [hs.length]
      decide
    rw [seedFile, List.flatMap_cons, List.append_assoc, List.singleton_append,
      fgetsLines_line [] _ hlen (hs.ne (by decide)), List.map_cons, List.nil_append]
    exact congrArg _ (ih fun t ht => h t (List.mem_cons_of_mem s ht))

/-- The strip takes the newline, and nothing of the seed. -/
theorem stripLine_seed {seed : Bytes} (h : IsSeed seed) : stripLine (seed ++ [0x0a]) = seed := by
  have hnul : ∀ c ∈ seed ++ [0x0a], (c != 0) = true := by
    intro c hc
    rw [bne_iff_ne]
    rcases List.mem_append.mp hc with hmem | hmem
    · exact h.ne (by decide) c hmem
    · rw [List.mem_singleton.mp hmem]
      decide
  rw [stripLine, List.takeWhile_eq_self_iff.mpr hnul, List.rdropWhile_concat_pos _ _ _ (by decide)]
  rw [List.rdropWhile_eq_self_iff]
  intro hne hlast
  have hmem := List.getLast_mem hne
  simp only [Bool.or_eq_true, beq_iff_eq] at hlast
  rcases hlast with (hc | hc) | hc
  · exact h.ne (by decide) _ hmem hc
  · exact h.ne (by decide) _ hmem hc
  · exact h.ne (by decide) _ hmem hc

theorem derive_seed {seed : Bytes} (h : IsSeed seed) : derive H seed = .ok (deriveSeed H seed) :=
  derive_of_lower h.length (List.all_eq_true.mpr h.lower)

theorem readLines_seeds {seeds : List Bytes} (h : ∀ s ∈ seeds, IsSeed s) {n : Nat}
    (hmax : n + seeds.length ≤ max) :
    readLines H path max (seeds.map (· ++ [0x0a])) n = .ok (seeds.map (deriveSeed H)) := by
  induction seeds generalizing n with
  | nil => rfl
  | cons s seeds ih =>
    have hs := h s List.mem_cons_self
    have hkeep : ¬ (s = [] ∨ s.head? = some 0x23) := by
      rintro (hnil | hhead)
      · have hlen := hs.length
        rw [hnil] at hlen
        cases hlen
      · exact hs.ne (by decide) _ (List.mem_of_head? hhead) rfl
    rw [List.length_cons] at hmax
    rw [List.map_cons, readLines, stripLine_seed hs, if_neg hkeep, if_neg (by omega),
      derive_seed hs, ih (fun t ht => h t (List.mem_cons_of_mem s ht)) (by omega)]
    rfl

/-- **A file with one seed a line is read as these seeds.** -/
theorem readSeeds_seedFile {files : CString → Option Bytes} {seeds : List Bytes}
    (h : ∀ s ∈ seeds, IsSeed s) (hfile : files path = some (seedFile seeds))
    (hmax : seeds.length ≤ max) :
    readSeeds H files path max = .ok (seeds.map (deriveSeed H)) := by
  unfold readSeeds
  rw [hfile]
  show readLines H path max (fgetsLines [] (seedFile seeds)) 0 = _
  rw [fgetsLines_seedFile h]
  exact readLines_seeds h (by rw [Nat.zero_add]; exact hmax)

end Lines

end ZkQuorum.GenFixture
