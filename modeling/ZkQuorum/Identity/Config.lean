import ZkQuorum.Identity.RoundTrip
import ZkQuorum.Lib.Text

/-!
# The configured arbitrator (methods/guest/identity.rs, methods/guest/build.rs)

The build script reads the arbitrator's identity from config/deploy.env, decodes it and passes the
key on in hex; the guest reads the hex at compile time. The texts of the errors of the file system
are left out.

- `configured_iff`: which lines name an identity;
- **`bakedKey_exact`**: the build script gets a key just when the first line that sets the variable
  spells the identity of one, and then this key is in the guest.
-/

namespace ZkQuorum.Identity

open Text

/-- The UTF-8 bytes of a text. -/
def utf8 (s : List Char) : Bytes := s.flatMap String.utf8EncodeChar

/-- The name that a line must start with. -/
def arbitratorKey : List Char := "ZKQ_ARBITRATOR_IDENTITY=".toList

/-- The errors of `arbitrator_from_config`. -/
inductive ConfigError where
  /-- "cannot read {path}: {e}" -/
  | cannotRead
  /-- "ZKQ_ARBITRATOR_IDENTITY missing in {path}" -/
  | missing
  /-- an error of `identity_to_pubkey` -/
  | identity (e : IdentityError)
deriving DecidableEq

/-- Not the start of a comment. -/
def notComment (c : Char) : Bool := c != '#'

/-- `line[KEY.len()..].split('#').next().unwrap().trim()`. -/
def configValue (line : List Char) : List Char :=
  trim ((line.drop arbitratorKey.length).takeWhile notComment)

/-- `arbitrator_from_config`, on the text of the file. -/
def arbitratorFromConfig (k12 : Bytes → ByteVec 3) (text : Option (List Char)) :
    Except ConfigError (Bytes × ByteVec 32) :=
  match text with
  | none => .error .cannotRead
  | some text =>
    match ((lines text).map trim).find? fun line => arbitratorKey.isPrefixOf line with
    | none => .error .missing
    | some line =>
      let id := utf8 (configValue line)
      match identityToPubkey k12 id with
      | .error e => .error (.identity e)
      | .ok pk => .ok (id, pk)

/-- `ARBITRATOR_PUBKEY` of the guest that is built with this file. -/
def bakedKey (k12 : Bytes → ByteVec 3) (text : Option (List Char)) :
    Except ConfigError (Rust (ByteVec 32)) := do
  let (_, pk) ← arbitratorFromConfig k12 text
  return Guest.hex32 (hex32 pk)

/-! ## Letters -/

/-- ASCII letters as characters. -/
def letters (id : Bytes) : List Char := id.map fun b => Char.ofNat b.toNat

theorem letter_spec : ∀ n : Fin 256, isAsciiUppercase (UInt8.ofNat n) = true →
    String.utf8EncodeChar (Char.ofNat n) = [UInt8.ofNat n] ∧
      isWhitespace (Char.ofNat n) = false ∧ Char.ofNat n ≠ '#' := by
  decide +kernel

theorem letter_of_uppercase {b : UInt8} (h : isAsciiUppercase b = true) :
    String.utf8EncodeChar (Char.ofNat b.toNat) = [b] ∧
      isWhitespace (Char.ofNat b.toNat) = false ∧ Char.ofNat b.toNat ≠ '#' := by
  have hspec := letter_spec ⟨b.toNat, b.toNat_lt⟩
  simp only [UInt8.ofNat_toNat] at hspec
  exact hspec h

theorem isAsciiUppercase_bounds {b : UInt8} (h : isAsciiUppercase b = true) : b.toNat ≤ 90 := by
  rw [isAsciiUppercase, Bool.and_eq_true, decide_eq_true_eq, decide_eq_true_eq] at h
  exact h.2

/-- A character whose encoding starts with a letter is the letter. -/
theorem eq_of_utf8EncodeChar {c : Char} {b : UInt8} {bs rest : Bytes}
    (hb : isAsciiUppercase b = true) (h : String.utf8EncodeChar c ++ rest = b :: bs) :
    c = Char.ofNat b.toNat ∧ rest = bs := by
  have hle := isAsciiUppercase_bounds hb
  simp only [String.utf8EncodeChar] at h
  -- the first byte of a longer encoding is 0xc0 or more
  split at h
  · rename_i hc
    obtain ⟨rfl, rfl⟩ := List.cons.inj h
    have hsmall : c.val.toNat < 256 := Nat.lt_of_le_of_lt hc (by decide)
    rw [UInt8.toNat_ofNat_of_lt' hsmall]
    exact ⟨(Char.ofNat_toNat c).symm, rfl⟩
  · split at h
    · obtain ⟨rfl, -⟩ := List.cons.inj h
      rw [UInt8.toNat_ofNat'] at hle
      omega
    · split at h
      · obtain ⟨rfl, -⟩ := List.cons.inj h
        rw [UInt8.toNat_ofNat'] at hle
        omega
      · obtain ⟨rfl, -⟩ := List.cons.inj h
        rw [UInt8.toNat_ofNat'] at hle
        omega

/-- **Letters are spelled by themselves only.** -/
theorem utf8_eq_iff {id : Bytes} (h : id.all isAsciiUppercase = true) {s : List Char} :
    utf8 s = id ↔ s = letters id := by
  induction id generalizing s with
  | nil =>
    cases s with
    | nil => exact iff_of_true rfl rfl
    | cons c s =>
      refine iff_of_false ?_ (List.cons_ne_nil c s)
      intro heq
      rw [utf8, List.flatMap_cons, List.append_eq_nil_iff] at heq
      exact String.utf8EncodeChar_ne_nil heq.1
  | cons b id ih =>
    rw [List.all_cons, Bool.and_eq_true] at h
    obtain ⟨hb, hid⟩ := h
    constructor
    · intro heq
      cases s with
      | nil => cases heq
      | cons c s =>
        rw [utf8, List.flatMap_cons] at heq
        obtain ⟨rfl, hrest⟩ := eq_of_utf8EncodeChar hb heq
        rw [(ih hid).mp hrest]
        rfl
    · rintro rfl
      have hrest := (ih hid).mpr rfl
      rw [letters, List.map_cons, utf8, List.flatMap_cons, (letter_of_uppercase hb).1]
      exact congrArg (b :: ·) hrest

theorem letters_spec {id : Bytes} (h : id.all isAsciiUppercase = true) :
    ∀ c ∈ letters id, isWhitespace c = false ∧ c ≠ '#' := by
  intro c hc
  obtain ⟨b, hb, rfl⟩ := List.mem_map.mp hc
  exact (letter_of_uppercase (List.all_eq_true.mp h b hb)).2

/-! ## Lines -/

/-- The line sets the variable to a word, with white space around it and a comment behind it. -/
def Sets (line word : List Char) : Prop :=
  ∃ a b c comment, line = a ++ (arbitratorKey ++ (b ++ (word ++ (c ++ comment)))) ∧
    Blank a ∧ Blank b ∧ Blank c ∧ (comment = [] ∨ ∃ t, comment = '#' :: t)

/-- The line starts with the name, when white space is left out. -/
def Names (line : List Char) : Prop := arbitratorKey.isPrefixOf (trim line) = true

/-- What is read in front of a comment. -/
theorem takeWhile_notComment {text comment : List Char} (h : '#' ∉ text)
    (hcomment : comment = [] ∨ ∃ t, comment = '#' :: t) :
    (text ++ comment).takeWhile notComment = text := by
  have htext : ∀ c ∈ text, notComment c = true := fun c hc =>
    bne_iff_ne.mpr fun heq => h (heq ▸ hc)
  rw [List.takeWhile_append_of_pos htext]
  rcases hcomment with rfl | ⟨t, rfl⟩
  · exact List.append_nil text
  · exact List.append_nil text

theorem blank_comment {text : List Char} (h : Blank text) : '#' ∉ text := by
  intro hmem
  have hblank : isWhitespace '#' = false := by decide
  rw [h _ hmem] at hblank
  cases hblank

theorem names_iff {line : List Char} : Names line ↔ ∃ rest, trim line = arbitratorKey ++ rest := by
  rw [Names, List.isPrefixOf_iff_prefix]
  constructor
  · rintro ⟨rest, h⟩
    exact ⟨rest, h.symm⟩
  · rintro ⟨rest, h⟩
    exact ⟨rest, h.symm⟩

theorem isWord_arbitratorKey : IsWord arbitratorKey := by
  constructor
  · decide
  · exact blankless_of_all (by decide)

/-- What is left behind a word when the line is trimmed. -/
theorem trimEnd_comment {c comment : List Char} (hc : Blank c)
    (hcomment : comment = [] ∨ ∃ t, comment = '#' :: t) :
    ∃ c' comment', trimEnd (c ++ comment) = c' ++ comment' ∧ Blank c' ∧
      (comment' = [] ∨ ∃ t, comment' = '#' :: t) := by
  rcases hcomment with rfl | ⟨t, rfl⟩
  · refine ⟨[], [], ?_, fun d hd => absurd hd List.not_mem_nil, .inl rfl⟩
    rw [List.append_nil, trimEnd_of_blank hc]
    rfl
  · exact ⟨c, '#' :: trimEnd t, trimEnd_append (by decide), hc, .inr ⟨_, rfl⟩⟩

/-- **A line that sets the variable to a word**, as the build script reads it. -/
theorem configured_iff {line word : List Char} (hword : IsWord word) (hcomment : '#' ∉ word) :
    Names line ∧ configValue (trim line) = word ↔ Sets line word := by
  rw [names_iff]
  constructor
  · rintro ⟨⟨rest, hrest⟩, hvalue⟩
    obtain ⟨a, z, hline, ha, hz⟩ := exists_trim line
    -- white space around the line, then around the value
    obtain ⟨b, c, hbody, hb, hc⟩ := exists_trim (rest.takeWhile notComment)
    rw [configValue, hrest, List.drop_left] at hvalue
    rw [hvalue] at hbody
    have hsplit := (List.takeWhile_append_dropWhile (p := notComment) (l := rest)).symm
    rw [hrest, hsplit, hbody] at hline
    simp only [List.append_assoc] at hline
    -- without a comment, the white space behind the word runs to the end of the line
    cases hdrop : rest.dropWhile notComment with
    | nil =>
      rw [hdrop, List.nil_append, ← List.append_nil z, ← List.append_assoc c] at hline
      refine ⟨a, b, c ++ z, [], hline, ha, hb, ?_, .inl rfl⟩
      intro d hd
      exact (List.mem_append.mp hd).elim (hc d) (hz d)
    | cons d t =>
      have hd : notComment d = false := by
        have hhead := List.head?_dropWhile_not notComment rest
        rw [hdrop] at hhead
        exact hhead
      obtain rfl : d = '#' := by
        rw [notComment, bne_eq_false_iff_eq] at hd
        exact hd
      rw [hdrop] at hline
      exact ⟨a, b, c, '#' :: (t ++ z), hline, ha, hb, hc, .inr ⟨_, rfl⟩⟩
  · rintro ⟨a, b, c, comment, rfl, ha, hb, hc, hend⟩
    obtain ⟨c', comment', htail, hc', hend'⟩ := trimEnd_comment hc hend
    have htrim : trim (a ++ (arbitratorKey ++ (b ++ (word ++ (c ++ comment)))))
        = arbitratorKey ++ (b ++ (word ++ (c' ++ comment'))) := by
      have hkey : trimEnd ([] ++ (arbitratorKey ++ (b ++ (word ++ (c ++ comment)))))
          = [] ++ (arbitratorKey ++ trimEnd (b ++ (word ++ (c ++ comment)))) :=
        trimEnd_word isWord_arbitratorKey
      rw [List.nil_append, List.nil_append, trimEnd_word hword, htail] at hkey
      rw [trim, trimStart_word ha isWord_arbitratorKey, hkey]
    refine ⟨⟨_, htrim⟩, ?_⟩
    -- the value is cut at the first `#`, which is the one of the comment
    have hfree : '#' ∉ b ++ (word ++ c') := by
      intro hmem
      rcases List.mem_append.mp hmem with hmem | hmem
      · exact blank_comment hb hmem
      · exact (List.mem_append.mp hmem).elim hcomment (blank_comment hc')
    rw [htrim, configValue, List.drop_left, ← List.append_assoc word, ← List.append_assoc b,
      takeWhile_notComment hfree hend', trim_word hb hword hc']

/-! ## What is baked -/

section Baked

variable {k12 : Bytes → ByteVec 3} {pk : ByteVec 32}

theorem arbitratorFromConfig_eq_ok {content : List Char} {id : Bytes} :
    arbitratorFromConfig k12 (some content) = .ok (id, pk) ↔
      ∃ before line after, lines content = before ++ line :: after ∧ (∀ l ∈ before, ¬ Names l) ∧
        Names line ∧ utf8 (configValue (trim line)) = id ∧ identityToPubkey k12 id = .ok pk := by
  rw [arbitratorFromConfig, List.find?_map]
  cases hfind : (lines content).find? ((fun line => arbitratorKey.isPrefixOf line) ∘ trim) with
  | none =>
    refine iff_of_false (fun h => nomatch h) ?_
    rintro ⟨before, line, after, hlines, -, hnames, -⟩
    refine List.find?_eq_none.mp hfind line ?_ hnames
    rw [hlines]
    exact List.mem_append_right before List.mem_cons_self
  | some line =>
    obtain ⟨hnames, before, after, hlines, hbefore⟩ := List.find?_eq_some_iff_append.mp hfind
    -- `find` stops at the first line that names the variable
    have hfirst : ∀ l ∈ before, ¬ Names l := by
      intro l hl hname
      have hnot := hbefore l hl
      rw [Bool.not_eq_true'] at hnot
      exact Bool.false_ne_true (hnot.symm.trans hname)
    constructor
    · intro h
      refine ⟨before, line, after, hlines, hfirst, hnames, ?_⟩
      simp only [Option.map_some] at h
      cases hid : identityToPubkey k12 (utf8 (configValue (trim line))) with
      | error e =>
        rw [hid] at h
        cases h
      | ok pk' =>
        rw [hid] at h
        cases h
        exact ⟨rfl, hid⟩
    · rintro ⟨before', line', after', hlines', hfirst', hnames', rfl, hid⟩
      have hfind' : (lines content).find? ((fun line => arbitratorKey.isPrefixOf line) ∘ trim)
          = some line' := by
        refine List.find?_eq_some_iff_append.mpr ⟨hnames', before', after', hlines', ?_⟩
        intro l hl
        rw [Bool.not_eq_true']
        exact Bool.not_eq_true _ ▸ hfirst' l hl
      cases hfind.symm.trans hfind'
      simp only [Option.map_some, hid]

/-- **What the build bakes into the guest**, for every text of the file: the build script gets a key
just when the first line that names the variable sets it to the identity of one, and then the guest
has this key. -/
theorem bakedKey_exact (k12 : Bytes → ByteVec 3) (text : Option (List Char))
    (baked : Rust (ByteVec 32)) : bakedKey k12 text = .ok baked ↔
      ∃ pk, baked = .ok pk ∧ ∃ content before line after, text = some content ∧
        lines content = before ++ line :: after ∧ (∀ l ∈ before, ¬ Names l) ∧
          Sets line (letters (pubkeyToIdentity k12 pk)) := by
  have hletters : ∀ pk, IsWord (letters (pubkeyToIdentity k12 pk)) ∧
      '#' ∉ letters (pubkeyToIdentity k12 pk) := by
    intro pk
    have hspec := letters_spec (pubkeyToIdentity_uppercase k12 pk)
    refine ⟨⟨?_, fun c hc => (hspec c hc).1⟩, fun hmem => (hspec _ hmem).2 rfl⟩
    intro hnil
    have hlen := length_pubkeyToIdentity k12 pk
    rw [List.map_eq_nil_iff.mp hnil] at hlen
    cases hlen
  cases text with
  | none =>
    refine iff_of_false (fun h => nomatch h) ?_
    rintro ⟨pk, -, content, before, line, after, htext, -⟩
    cases htext
  | some content =>
    rw [bakedKey, Rust.bind_eq_ok]
    constructor
    · rintro ⟨⟨id, pk⟩, hconfig, hbaked⟩
      obtain ⟨before, line, after, hlines, hfirst, hnames, hvalue, hid⟩ :=
        arbitratorFromConfig_eq_ok.mp hconfig
      -- only one spelling of a key is accepted
      have hkey := identityToPubkey_eq_ok.mp hid
      rw [hkey, utf8_eq_iff (pubkeyToIdentity_uppercase k12 pk)] at hvalue
      have hsets := (configured_iff (hletters pk).1 (hletters pk).2).mp ⟨hnames, hvalue⟩
      have hhex : Guest.hex32 (hex32 pk) = baked := Except.ok.inj hbaked
      exact ⟨pk, hhex.symm.trans (hex32_hex32 pk), content, before, line, after, rfl, hlines,
        hfirst, hsets⟩
    · rintro ⟨pk, rfl, content', before, line, after, htext, hlines, hfirst, hsets⟩
      cases htext
      obtain ⟨hnames, hvalue⟩ := (configured_iff (hletters pk).1 (hletters pk).2).mpr hsets
      rw [← utf8_eq_iff (pubkeyToIdentity_uppercase k12 pk)] at hvalue
      refine ⟨(pubkeyToIdentity k12 pk, pk), ?_, ?_⟩
      · exact arbitratorFromConfig_eq_ok.mpr ⟨before, line, after, hlines, hfirst, hnames, hvalue,
          identityToPubkey_eq_ok.mpr rfl⟩
      · exact congrArg Except.ok (hex32_hex32 pk)

end Baked

end ZkQuorum.Identity
