import ZkQuorum.Lib.Bytes

/-!
# Panicking computations over byte slices

A Rust function that may panic is modelled in `Rust α = Except Panic α`: it
either returns or stops with the panic that ended it. The slice operations are
checked, as Rust's are: `slice` and `copyFromSlice` panic out of range, `get`
returns `none`.

`Rust.bind_eq_ok` is the one inversion rule the proofs use: a sequence returns
iff each of its parts does.
-/

/-- How a Rust computation panicked. -/
inductive Panic where
  /-- `panic!`, `assert!` or `expect` with this text -/
  | message (text : String)
  /-- a slice range `start..stop` outside `0..len` -/
  | sliceIndex (start stop len : Nat)
  /-- an array index outside `0..len` -/
  | arrayIndex (index len : Nat)
  /-- `copy_from_slice` or an array conversion between different lengths -/
  | lengthMismatch (expected actual : Nat)
  /-- a read past the end of the input -/
  | endOfInput
deriving DecidableEq, Repr

/-- The result of a Rust computation that may panic. -/
abbrev Rust := Except Panic

namespace Rust

section Bind

variable {ε α β : Type}

@[simp] theorem pure_eq_ok (a : α) : (pure a : Except ε α) = .ok a := rfl

@[simp] theorem ok_bind (a : α) (f : α → Except ε β) : ((.ok a : Except ε α) >>= f) = f a := rfl

@[simp] theorem error_bind (e : ε) (f : α → Except ε β) :
    ((.error e : Except ε α) >>= f) = .error e := rfl

/-- A sequence returns iff both of its parts do. -/
theorem bind_eq_ok {x : Except ε α} {f : α → Except ε β} {b : β} :
    (x >>= f) = .ok b ↔ ∃ a, x = .ok a ∧ f a = .ok b := by
  cases x with
  | error e => simp
  | ok a => simp

end Bind

/-! ## Checks that find something -/

section Decides

variable {α : Type} {P : α → Prop}

/-- `x` does not panic, and returns a value iff the value satisfies `P`. -/
def Decides (x : Rust (Option α)) (P : α → Prop) : Prop :=
  ∃ r, x = .ok r ∧ ∀ a, r = some a ↔ P a

/-- Giving up is right when there is nothing to find. -/
theorem Decides.refuse (h : ∀ a, ¬ P a) : Decides (.ok none) P := by
  refine ⟨none, rfl, fun a => ?_⟩
  simp only [reduceCtorEq, false_iff]
  exact h a

/-- Returning the only value to be found. -/
theorem Decides.accept {a : α} (ha : P a) (h : ∀ b, P b → b = a) : Decides (.ok (some a)) P := by
  refine ⟨some a, rfl, fun b => ?_⟩
  constructor
  · intro hb
    cases hb
    exact ha
  · intro hb
    rw [h b hb]

/-- A guard that gives up must leave nothing to find; what follows it may assume
that it did not fire. -/
theorem Decides.guard {c : Prop} [Decidable c] {x : Rust (Option α)} (hc : c → ∀ a, ¬ P a)
    (h : ¬ c → Decides x P) : Decides (if c then .ok none else x) P := by
  by_cases hfires : c
  · rw [if_pos hfires]
    exact Decides.refuse (hc hfires)
  · rw [if_neg hfires]
    exact h hfires

end Decides

/-- `panic!(text)`. -/
def panicWith {α : Type} (text : String) : Rust α := .error (.message text)

/-- `assert!(c, text)`. -/
def assert (c : Bool) (text : String) : Rust Unit :=
  if c then .ok () else panicWith text

@[simp] theorem assert_true (text : String) : assert true text = .ok () := rfl

theorem assert_eq_ok {c : Bool} {text : String} {u : Unit} :
    assert c text = .ok u ↔ c = true := by
  cases c <;> simp [assert, panicWith]

/-- `o.expect(text)`. -/
def expect {α : Type} (o : Option α) (text : String) : Rust α :=
  match o with
  | some a => .ok a
  | none => panicWith text

@[simp] theorem expect_some {α : Type} (a : α) (text : String) :
    expect (some a) text = .ok a := rfl

theorem expect_eq_ok {α : Type} {o : Option α} {text : String} {a : α} :
    expect o text = .ok a ↔ o = some a := by
  cases o <;> simp [expect, panicWith]

/-- `s.get(i..j)`. -/
def get (s : Bytes) (i j : Nat) : Option Bytes :=
  if i ≤ j ∧ j ≤ s.length then some ((s.drop i).take (j - i)) else none

/-- `&s[i..j]`. -/
def slice (s : Bytes) (i j : Nat) : Rust Bytes :=
  match get s i j with
  | some t => .ok t
  | none => .error (.sliceIndex i j s.length)

theorem get_of_le {s : Bytes} {i j : Nat} (hij : i ≤ j) (hj : j ≤ s.length) :
    get s i j = some ((s.drop i).take (j - i)) := if_pos ⟨hij, hj⟩

theorem get_eq_none {s : Bytes} {i j : Nat} (h : j < i ∨ s.length < j) :
    get s i j = none := if_neg (by omega)

theorem slice_of_le {s : Bytes} {i j : Nat} (hij : i ≤ j) (hj : j ≤ s.length) :
    slice s i j = .ok ((s.drop i).take (j - i)) := by
  rw [slice, get_of_le hij hj]

theorem slice_eq_ok {s t : Bytes} {i j : Nat} :
    slice s i j = .ok t ↔ i ≤ j ∧ j ≤ s.length ∧ t = (s.drop i).take (j - i) := by
  by_cases h : i ≤ j ∧ j ≤ s.length
  · rw [slice_of_le h.1 h.2]
    simp [h, eq_comm]
  · rw [slice, get, if_neg h]
    simp only [reduceCtorEq, false_iff]
    exact fun hc => h ⟨hc.1, hc.2.1⟩

/-- `dst[i..j].copy_from_slice(src)`. -/
def copyFromSlice (dst : Bytes) (i j : Nat) (src : Bytes) : Rust Bytes := do
  let t ← slice dst i j
  if t.length = src.length then
    .ok (dst.take i ++ src ++ dst.drop j)
  else
    .error (.lengthMismatch t.length src.length)

theorem copyFromSlice_of_length {dst src : Bytes} {i j : Nat} (hij : i ≤ j)
    (hj : j ≤ dst.length) (hsrc : src.length = j - i) :
    copyFromSlice dst i j src = .ok (dst.take i ++ src ++ dst.drop j) := by
  have hlen : ((dst.drop i).take (j - i)).length = src.length := by
    rw [List.length_take, List.length_drop]
    omega
  rw [copyFromSlice, slice_of_le hij hj, ok_bind, if_pos hlen]

/-- Copying over the middle part replaces it. -/
theorem copyFromSlice_append {a b c src : Bytes} {i j : Nat} (hij : i ≤ j) (ha : a.length = i)
    (hb : b.length = j - i) (hsrc : src.length = j - i) :
    copyFromSlice (a ++ b ++ c) i j src = .ok (a ++ src ++ c) := by
  have hab : (a ++ b).length = j := by
    rw [List.length_append]
    omega
  rw [copyFromSlice_of_length hij (by rw [List.length_append]; omega) hsrc, List.drop_left' hab,
    List.append_assoc a b, List.take_left' ha]

/-- A conversion of a slice to a `[u8; n]`. -/
def toArray (n : Nat) (s : Bytes) : Rust (ByteVec n) :=
  if h : s.length = n then .ok ⟨s, h⟩ else .error (.lengthMismatch n s.length)

theorem toArray_of_length {n : Nat} {s : Bytes} (h : s.length = n) :
    toArray n s = .ok ⟨s, h⟩ := dif_pos h

theorem toArray_val {n : Nat} (v : ByteVec n) : toArray n v.val = .ok v := dif_pos v.property

/-! ## Integers and vectors -/

/-- `isize::MAX` on a 64-bit machine: no vector and no slice is longer. -/
def isizeMax : Nat := 2 ^ 63 - 1

/-- The bytes of a vector or of a slice on a 64-bit machine. -/
abbrev Buffer := { b : Bytes // b.length ≤ isizeMax }

/-- `a.checked_add(b)` of `usize`. -/
def checkedAdd (a b : Nat) : Option Nat := if a + b < 2 ^ 64 then some (a + b) else none

/-- `a - b` of `usize`. -/
def sub (a b : Nat) : Rust Nat :=
  if b ≤ a then .ok (a - b) else panicWith "attempt to subtract with overflow"

theorem sub_of_le {a b : Nat} (h : b ≤ a) : sub a b = .ok (a - b) := if_pos h

/-- A vector of `n` elements of `size` bytes is allocated. -/
def allocate (size n : Nat) : Rust Unit :=
  if size * n ≤ isizeMax then .ok () else panicWith "capacity overflow"

theorem allocate_of_le {size n : Nat} (h : size * n ≤ isizeMax) : allocate size n = .ok () :=
  if_pos h

/-- `isize::MAX` on a 32-bit machine: no vector there has more bytes. -/
def isizeMax32 : Nat := 2 ^ 31 - 1

/-- A vector of `n` bytes is allocated on a 32-bit machine. -/
def allocate32 (n : Nat) : Rust Unit :=
  if n ≤ isizeMax32 then .ok () else panicWith "capacity overflow"

theorem allocate32_bind {α : Type} (n : Nat) (f : Unit → Rust α) :
    (allocate32 n >>= f) = if n ≤ isizeMax32 then f () else panicWith "capacity overflow" := by
  rw [allocate32]
  split
  · rfl
  · rfl

/-- The vector that holds these bytes. -/
def buffer (b : Bytes) : Rust Buffer :=
  if h : b.length ≤ isizeMax then .ok ⟨b, h⟩ else panicWith "capacity overflow"

theorem buffer_of_le {b : Bytes} (h : b.length ≤ isizeMax) : buffer b = .ok ⟨b, h⟩ := dif_pos h

theorem buffer_of_lt {b : Bytes} (h : isizeMax < b.length) :
    buffer b = panicWith "capacity overflow" := dif_neg (Nat.not_le.mpr h)

/-! ## Arrays and chunks -/

/-- `xs[i]` of an array. -/
def arrayGet {α : Type} {n : Nat} (xs : Vector α n) (i : Nat) : Rust α :=
  if h : i < n then .ok xs[i] else .error (.arrayIndex i n)

/-- `xs[i] = a` of an array. -/
def arraySet {α : Type} {n : Nat} (xs : Vector α n) (i : Nat) (a : α) : Rust (Vector α n) :=
  if h : i < n then .ok (xs.set i a) else .error (.arrayIndex i n)

/-- `s.chunks_exact(n)`: the whole `n`-byte pieces of `s`, for `n` not 0. -/
def chunksExact (n : Nat) (s : Bytes) : List Bytes :=
  if _h : n = 0 ∨ s.length < n then []
  else s.take n :: chunksExact n (s.drop n)
termination_by s.length
decreasing_by
  rw [List.length_drop]
  omega

/-- The pieces start at the multiples of `n`. -/
theorem mem_chunksExact {n : Nat} (hn : 0 < n) {s c : Bytes} :
    c ∈ chunksExact n s ↔ ∃ k, (k + 1) * n ≤ s.length ∧ c = (s.drop (k * n)).take n := by
  induction hlen : s.length using Nat.strongRecOn generalizing s with
  | ind m ih =>
    subst hlen
    rw [chunksExact]
    split
    · rename_i hshort
      simp only [List.not_mem_nil, false_iff, not_exists, not_and]
      intro k hk
      have hge : n ≤ (k + 1) * n := Nat.le_mul_of_pos_left n (Nat.succ_pos k)
      omega
    · rename_i hlong
      have hdrop : (s.drop n).length < s.length := by
        rw [List.length_drop]
        omega
      rw [List.mem_cons, ih _ hdrop rfl]
      -- the first chunk is `k = 0`, the others are chunks of the rest
      constructor
      · rintro (rfl | ⟨k, hk, rfl⟩)
        · exact ⟨0, by omega, by simp⟩
        · rw [List.length_drop] at hk
          refine ⟨k + 1, ?_, ?_⟩
          · rw [Nat.add_mul (k + 1) 1 n, Nat.one_mul]
            omega
          · rw [List.drop_drop, Nat.add_mul k 1 n, Nat.one_mul, Nat.add_comm n]
      · rintro ⟨k, hk, rfl⟩
        cases k with
        | zero => exact Or.inl (by simp)
        | succ k =>
          rw [Nat.add_mul (k + 1) 1 n, Nat.one_mul] at hk
          refine Or.inr ⟨k, ?_, ?_⟩
          · rw [List.length_drop]
            omega
          · rw [List.drop_drop, Nat.add_mul k 1 n, Nat.one_mul, Nat.add_comm n]

end Rust

/-! ## Functions that return a `Result` -/

/-- A Rust function that returns `Result<_, String>`, or panics. -/
abbrev Fallible := ExceptT String Rust

namespace Fallible

variable {α β : Type}

theorem pure_inj {a b : α} : (pure a : Fallible α) = pure b ↔ a = b :=
  ⟨fun h => by cases h; rfl, fun h => h ▸ rfl⟩

/-- `if !c { return Err(e) }`. -/
def ensure (c : Bool) (e : String) : Fallible Unit := if c then pure () else throw e

@[simp] theorem ensure_true (e : String) : ensure true e = pure () := rfl

theorem ensure_eq_pure {c : Bool} {e : String} {u : Unit} : ensure c e = pure u ↔ c = true := by
  cases c
  · exact ⟨fun h => (nomatch h), fun h => (nomatch h)⟩
  · exact ⟨fun _ => rfl, fun _ => rfl⟩

/-- A sequence returns `Ok` iff both of its parts do. -/
theorem bind_eq_pure {x : Fallible α} {f : α → Fallible β} {b : β} :
    (x >>= f) = pure b ↔ ∃ a, x = pure a ∧ f a = pure b := by
  constructor
  · intro h
    match x with
    | .error p => cases h
    | .ok (.error e) => cases h
    | .ok (.ok a) => exact ⟨a, rfl, h⟩
  · rintro ⟨a, rfl, h⟩
    exact h

/-- The computation ends with `Ok` or `Err`, not with a panic. -/
def Returns (x : Fallible α) : Prop := ∃ r : Except String α, x.run = .ok r

theorem returns_pure (a : α) : Returns (pure a : Fallible α) := ⟨.ok a, rfl⟩

theorem returns_throw (e : String) : Returns (throw e : Fallible α) := ⟨.error e, rfl⟩

theorem returns_ensure (c : Bool) (e : String) : Returns (ensure c e) := by
  cases c
  · exact returns_throw e
  · exact returns_pure ()

@[simp] theorem lift_ok (a : α) : (liftM (Except.ok a : Rust α) : Fallible α) = pure a := rfl

theorem returns_lift (a : α) : Returns (liftM (Except.ok a : Rust α) : Fallible α) :=
  returns_pure a

theorem lift_eq_pure {x : Rust α} {a : α} :
    (liftM x : Fallible α) = pure a ↔ x = .ok a := by
  cases x with
  | error p => exact ⟨fun h => (nomatch h), fun h => (nomatch h)⟩
  | ok b =>
    constructor
    · intro h
      cases h
      rfl
    · rintro ⟨⟩
      rfl

/-- A sequence of computations that return returns. -/
theorem Returns.bind {x : Fallible α} {f : α → Fallible β} (hx : Returns x)
    (hf : ∀ a, x = pure a → Returns (f a)) : Returns (x >>= f) := by
  obtain ⟨r, hr⟩ := hx
  match x, r, hr with
  | _, .error e, rfl => exact returns_throw e
  | _, .ok a, rfl => exact hf a rfl

end Fallible
