import ZkQuorum.Identity.RoundTrip
import ZkQuorum.Lib.Text

/-!
# The file of signature vectors (crypto/tests/gen_vectors.cpp, host/src/bin/run_fixture.rs)

gen_vectors keeps a record when the verifier of the reference answers as the record expects, and
writes the records as lines of hex. `run_fixture --vectors` reads the lines back as records of 129
bytes. `hex::decode` is a parameter, which reads lower-case digits (`ReadsHex`).

- `genVectors_eq_ok`: what is written expects the answers of the reference;
- **`readRecords_vectorsFile`**: the host reads back every record that was written.
-/

namespace ZkQuorum.Vectors

open Rust Text Identity

/-! ## gen_vectors -/

/-- A vector. -/
structure Rec where
  expected : Int
  pub : ByteVec 32
  sig : ByteVec 64
  msg : ByteVec 32
  note : List Char

/-- A verifier that is called as `verify(publicKey, messageDigest, signature)`. -/
abbrev Verify := ByteVec 32 → ByteVec 32 → ByteVec 64 → Bool

/-- What a verifier answers, as an `int`. -/
def verdict (verify : Verify) (r : Rec) : Int := if verify r.pub r.msg r.sig then 1 else 0

/-- `add`: the program ends when the reference does not answer as expected. -/
def add (verify : Verify) (recs : List Rec) (r : Rec) : Except String (List Rec) :=
  let got := verdict verify r
  if got ≠ r.expected then
    .error s!"ORACLE MISMATCH '{String.ofList r.note}': expected {r.expected} got {got}"
  else .ok (recs ++ [r])

/-- A lower-case hex digit. -/
def hexChar (n : Nat) : Char := Char.ofNat (hexDigit n).toNat

/-- `hexs`. -/
def hexs (b : Bytes) : List Char :=
  b.flatMap fun c => [hexChar (c.toNat / 16), hexChar (c.toNat % 16)]

/-- `"%d %s %s %s %s"`. -/
def recordLine (r : Rec) : List Char :=
  (toString r.expected).toList ++ ' ' :: (hexs r.pub.val ++ ' ' :: (hexs r.sig.val
    ++ ' ' :: (hexs r.msg.val ++ ' ' :: r.note)))

/-- The first line. -/
def header : List Char :=
  "# expected pubHex sigHex digestHex note   (oracle: stock_qubic.c verify())".toList

/-- schnorrq_vectors.txt. -/
def vectorsFile (recs : List Rec) : List Char := unlines (header :: recs.map recordLine)

/-- gen_vectors on the vectors that it is given. -/
def genVectors (verify : Verify) (rs : List Rec) : Except String (List Char) := do
  let recs ← rs.foldlM (add verify) []
  return vectorsFile recs

/-! ## run_fixture -/

/-- What the host relies on in `hex::decode`: two lower-case digits are a byte. -/
structure ReadsHex (hexDecode : List Char → Option Bytes) : Prop where
  nil : hexDecode [] = some []
  cons : ∀ (hi lo : Fin 16) (rest : List Char) (out : Bytes), hexDecode rest = some out →
    hexDecode (hexChar hi :: hexChar lo :: rest) = some (UInt8.ofNat (16 * hi + lo) :: out)

section Host

variable (hexDecode : List Char → Option Bytes)

/-- The loop over `&f[1..4]`: `records.extend(hex::decode(h).unwrap())`. -/
def extend (records : Bytes) (h : List Char) : Rust Bytes := do
  let b ← expect (hexDecode h) "called Result::unwrap() on an Err value"
  return records ++ b

/-- `&f[1..4]`. -/
def hexFields (f : List (List Char)) : Rust (List (List Char)) :=
  if 4 ≤ f.length then .ok ((f.drop 1).take 3) else .error (.sliceIndex 1 4 f.length)

/-- The body of the loop over the lines. -/
def readLine (st : Bytes × UInt32) (line : List Char) : Rust (Bytes × UInt32) := do
  let (records, n) := st
  let f := splitWhitespace line
  let records ← (← hexFields f).foldlM (extend hexDecode) records
  let flag : UInt8 := if f.head? = some ['1'] then 1 else 0
  return (records ++ [flag], n + 1)

/-- The lines that are not empty and not comments. -/
def isRecordLine (line : List Char) : Bool := !line.isEmpty && line.head? != some '#'

/-- `run_vectors` up to the guest: the records and their number. -/
def readRecords (text : List Char) : Rust (Bytes × UInt32) :=
  ((lines text).filter isRecordLine).foldlM (readLine hexDecode) ([], 0)

end Host

/-- The 129 bytes of a vector. -/
def Rec.bytes (r : Rec) : Bytes :=
  r.pub.val ++ r.sig.val ++ r.msg.val ++ [if r.expected = 1 then 1 else 0]

/-! ## What is written -/

theorem add_eq_ok {verify : Verify} {recs out : List Rec} {r : Rec} :
    add verify recs r = .ok out ↔ verdict verify r = r.expected ∧ out = recs ++ [r] := by
  rw [add]
  split
  · rename_i hne
    constructor
    · intro h
      cases h
    · rintro ⟨heq, -⟩
      exact absurd heq hne
  · rename_i heq
    constructor
    · intro h
      cases h
      exact ⟨not_not.mp heq, rfl⟩
    · rintro ⟨-, rfl⟩
      rfl

theorem foldlM_add_eq_ok {verify : Verify} {rs recs out : List Rec} :
    rs.foldlM (add verify) recs = .ok out ↔
      (∀ r ∈ rs, verdict verify r = r.expected) ∧ out = recs ++ rs := by
  induction rs generalizing recs with
  | nil =>
    rw [List.foldlM_nil, pure_eq_ok, Except.ok.injEq, List.append_nil]
    constructor
    · rintro rfl
      exact ⟨fun r hr => absurd hr List.not_mem_nil, rfl⟩
    · exact fun h => h.2.symm
  | cons r rs ih =>
    rw [List.foldlM_cons, bind_eq_ok, List.forall_mem_cons]
    constructor
    · rintro ⟨recs', hadd, hrest⟩
      obtain ⟨hr, rfl⟩ := add_eq_ok.mp hadd
      obtain ⟨hrs, rfl⟩ := ih.mp hrest
      exact ⟨⟨hr, hrs⟩, List.append_assoc _ _ _⟩
    · rintro ⟨⟨hr, hrs⟩, rfl⟩
      exact ⟨recs ++ [r], add_eq_ok.mpr ⟨hr, rfl⟩,
        ih.mpr ⟨hrs, (List.append_assoc recs [r] rs).symm⟩⟩

/-- What gen_vectors wrote is its vectors, and each expects the answer of the reference. -/
theorem genVectors_eq_ok {verify : Verify} {rs : List Rec} {text : List Char} :
    genVectors verify rs = .ok text ↔
      (∀ r ∈ rs, verdict verify r = r.expected) ∧ text = vectorsFile rs := by
  rw [genVectors, bind_eq_ok]
  constructor
  · rintro ⟨recs, hfold, htext⟩
    obtain ⟨hrs, rfl⟩ := foldlM_add_eq_ok.mp hfold
    cases htext
    exact ⟨hrs, rfl⟩
  · rintro ⟨hrs, rfl⟩
    exact ⟨rs, foldlM_add_eq_ok.mpr ⟨hrs, rfl⟩, rfl⟩

theorem verdict_cases (verify : Verify) (r : Rec) :
    verdict verify r = 0 ∨ verdict verify r = 1 := by
  rw [verdict]
  split
  · exact .inr rfl
  · exact .inl rfl

/-! ## What is read back -/

/-- The digits that are written are words. -/
theorem isWhitespace_hexChar : ∀ n : Fin 16, isWhitespace (hexChar n) = false := by
  decide +kernel

theorem hexDecode_hexs {hexDecode : List Char → Option Bytes} (hhex : ReadsHex hexDecode)
    (b : Bytes) : hexDecode (hexs b) = some b := by
  induction b with
  | nil => exact hhex.nil
  | cons c b ih =>
    have hc := c.toNat_lt
    have hvalue : 16 * (c.toNat / 16) + c.toNat % 16 = c.toNat := Nat.div_add_mod c.toNat 16
    have hread := hhex.cons ⟨c.toNat / 16, by omega⟩ ⟨c.toNat % 16, by omega⟩ (hexs b) b ih
    simp only [hvalue, UInt8.ofNat_toNat] at hread
    exact hread

theorem isWord_hexs {b : Bytes} (h : b ≠ []) : IsWord (hexs b) := by
  constructor
  · intro hnil
    cases b with
    | nil => exact h rfl
    | cons c b => cases hnil
  · intro c hc
    obtain ⟨d, -, hmem⟩ := List.mem_flatMap.mp hc
    have hd := d.toNat_lt
    rcases List.mem_pair.mp hmem with rfl | rfl
    · exact isWhitespace_hexChar ⟨d.toNat / 16, by omega⟩
    · exact isWhitespace_hexChar ⟨d.toNat % 16, by omega⟩

theorem ByteVec.ne_nil {n : Nat} (v : ByteVec (n + 1)) : v.val ≠ [] := by
  intro hnil
  have hlen := v.property
  rw [hnil] at hlen
  cases hlen

/-- A vector that is written as a line: 0 or 1, and a note without blanks. -/
structure Rec.Writable (r : Rec) : Prop where
  expected : r.expected = 0 ∨ r.expected = 1
  note : ∀ c ∈ r.note, isWhitespace c = false

variable {hexDecode : List Char → Option Bytes}

namespace Rec.Writable

variable {r : Rec} (h : r.Writable)

include h

/-- The first field. -/
theorem digit : (toString r.expected).toList = [if r.expected = 1 then '1' else '0'] := by
  rcases h.expected with hr | hr
  · rw [hr]
    decide
  · rw [hr]
    decide

theorem isWord_digit : IsWord (toString r.expected).toList := by
  rw [h.digit]
  constructor
  · exact List.cons_ne_nil _ _
  · intro c hc
    obtain rfl := List.mem_singleton.mp hc
    split
    · decide
    · decide

theorem splitWhitespace_recordLine : splitWhitespace (recordLine r)
    = (toString r.expected).toList :: hexs r.pub.val :: hexs r.sig.val :: hexs r.msg.val
      :: splitWhitespace r.note := by
  rw [recordLine, splitWhitespace_cons h.isWord_digit,
    splitWhitespace_cons (isWord_hexs (ByteVec.ne_nil r.pub)),
    splitWhitespace_cons (isWord_hexs (ByteVec.ne_nil r.sig)),
    splitWhitespace_cons (isWord_hexs (ByteVec.ne_nil r.msg))]

/-- **The host reads the 129 bytes of the vector.** -/
theorem readLine_recordLine (hhex : ReadsHex hexDecode) (st : Bytes × UInt32) :
    readLine hexDecode st (recordLine r) = .ok (st.1 ++ r.bytes, st.2 + 1) := by
  obtain ⟨records, n⟩ := st
  have hflag : (if (some (toString r.expected).toList : Option (List Char)) = some ['1']
      then (1 : UInt8) else 0) = if r.expected = 1 then 1 else 0 := by
    rw [h.digit]
    rcases h.expected with hr | hr
    · rw [hr]
      rfl
    · rw [hr]
      rfl
  have hextend : ∀ (b records : Bytes),
      extend hexDecode records (hexs b) = .ok (records ++ b) := by
    intro b records
    rw [extend, hexDecode_hexs hhex]
    rfl
  have hfields : ∀ d a b c rest, hexFields (d :: a :: b :: c :: rest) = .ok [a, b, c] :=
    fun d a b c rest => if_pos (Nat.le_add_left 4 rest.length)
  simp only [readLine, h.splitWhitespace_recordLine, hfields, List.head?_cons, hflag, ok_bind,
    List.foldlM_cons, List.foldlM_nil, hextend, pure_eq_ok, Rec.bytes, List.append_assoc]

theorem isLine_recordLine : IsLine (recordLine r) := by
  have hnote : IsLine r.note := isLine_of_blankless h.note
  have hhexs : ∀ {n : Nat} (v : ByteVec (n + 1)), IsLine (hexs v.val) := fun v =>
    isLine_of_blankless (isWord_hexs (ByteVec.ne_nil v)).2
  exact (isLine_of_blankless h.isWord_digit.2).append_blank
    ((hhexs r.pub).append_blank ((hhexs r.sig).append_blank ((hhexs r.msg).append_blank hnote)))

theorem isRecordLine_recordLine : isRecordLine (recordLine r) = true := by
  rw [isRecordLine, recordLine, h.digit]
  split
  · rfl
  · rfl

end Rec.Writable

theorem isLine_header : IsLine header := by
  constructor
  · decide
  · decide

theorem foldlM_readLine (hhex : ReadsHex hexDecode) {rs : List Rec} (h : ∀ r ∈ rs, r.Writable)
    (st : Bytes × UInt32) : (rs.map recordLine).foldlM (readLine hexDecode) st
      = .ok (st.1 ++ rs.flatMap Rec.bytes, st.2 + UInt32.ofNat rs.length) := by
  induction rs generalizing st with
  | nil =>
    obtain ⟨records, n⟩ := st
    show Except.ok (records, n) = Except.ok (records ++ [], n + 0)
    rw [List.append_nil, UInt32.add_zero]
  | cons r rs ih =>
    obtain ⟨hr, hrs⟩ := List.forall_mem_cons.mp h
    have hcount : st.2 + 1 + UInt32.ofNat rs.length = st.2 + UInt32.ofNat (r :: rs).length := by
      rw [List.length_cons, UInt32.ofNat_add, UInt32.add_assoc, UInt32.add_comm 1]
      rfl
    rw [List.map_cons, List.foldlM_cons, hr.readLine_recordLine hhex, ok_bind, ih hrs, hcount,
      List.append_assoc, List.flatMap_cons]

/-- **The host reads back every vector that was written.** -/
theorem readRecords_vectorsFile (hhex : ReadsHex hexDecode) {rs : List Rec}
    (h : ∀ r ∈ rs, r.Writable) :
    readRecords hexDecode (vectorsFile rs)
      = .ok (rs.flatMap Rec.bytes, UInt32.ofNat rs.length) := by
  have hlines : lines (vectorsFile rs) = header :: rs.map recordLine := by
    apply lines_unlines
    intro line hline
    rcases List.mem_cons.mp hline with rfl | hline
    · exact isLine_header
    · obtain ⟨r, hr, rfl⟩ := List.mem_map.mp hline
      exact (h r hr).isLine_recordLine
  have hfilter : (header :: rs.map recordLine).filter isRecordLine = rs.map recordLine := by
    have hheader : ¬ isRecordLine header = true := by decide
    rw [List.filter_cons_of_neg hheader, List.filter_eq_self]
    intro line hline
    obtain ⟨r, hr, rfl⟩ := List.mem_map.mp hline
    exact (h r hr).isRecordLine_recordLine
  rw [readRecords, hlines, hfilter, foldlM_readLine hhex h]
  show Except.ok ([] ++ _, 0 + _) = _
  rw [List.nil_append, UInt32.zero_add]

end ZkQuorum.Vectors
