import Mathlib.Data.List.DropRight

/-!
# Lines and words of a text

The functions of a Rust `&str` that split a text, on the list of its characters: `lines`,
`split_whitespace` and `trim`. Lines that were ended by newlines come back (`lines_unlines`), and
so does a word before a blank (`splitWhitespace_cons`).
-/

namespace Text

/-- `char::is_whitespace`: the Unicode property White_Space. -/
def isWhitespace (c : Char) : Bool :=
  let n := c.toNat
  decide (9 ≤ n ∧ n ≤ 13) || n == 0x20 || n == 0x85 || n == 0xA0 || n == 0x1680
    || decide (0x2000 ≤ n ∧ n ≤ 0x200A) || n == 0x2028 || n == 0x2029 || n == 0x202F
    || n == 0x205F || n == 0x3000

/-! ## Lines -/

/-- A line without the carriage return of its `\r\n`. The line is given from its end. -/
def dropReturn : List Char → List Char
  | '\r' :: line => line
  | line => line

/-- The lines, when `line` was read of the first one, from its end. A last line without a newline
counts when it is not empty. -/
def linesFrom (line : List Char) : List Char → List (List Char)
  | [] => if line = [] then [] else [line.reverse]
  | c :: text =>
    if c = '\n' then (dropReturn line).reverse :: linesFrom [] text else linesFrom (c :: line) text

/-- `str::lines`. -/
def lines (text : List Char) : List (List Char) := linesFrom [] text

/-- The lines, each ended by a newline. -/
def unlines (ls : List (List Char)) : List Char := ls.flatMap fun line => line ++ ['\n']

/-- A line that `lines` gives back. -/
def IsLine (line : List Char) : Prop := '\n' ∉ line ∧ '\r' ∉ line

theorem dropReturn_of_not_mem {line : List Char} (h : '\r' ∉ line) : dropReturn line = line := by
  cases line with
  | nil => rfl
  | cons c line =>
    have hc : c ≠ '\r' := fun heq => h (heq ▸ List.mem_cons_self)
    rw [dropReturn]
    intro _ heq
    exact hc (List.cons.inj heq).1

theorem linesFrom_append {line rest : List Char} (h : '\n' ∉ line) (read : List Char) :
    linesFrom read (line ++ '\n' :: rest)
      = (dropReturn (line.reverse ++ read)).reverse :: linesFrom [] rest := by
  induction line generalizing read with
  | nil => rw [List.nil_append, linesFrom, if_pos rfl, List.reverse_nil, List.nil_append]
  | cons c line ih =>
    have hc : c ≠ '\n' := fun heq => h (heq ▸ List.mem_cons_self)
    have hline : '\n' ∉ line := fun hmem => h (List.mem_cons_of_mem c hmem)
    rw [List.cons_append, linesFrom, if_neg hc, ih hline, List.reverse_cons, List.append_assoc,
      List.singleton_append]

/-- **The lines of a text that was written line by line.** -/
theorem lines_unlines {ls : List (List Char)} (h : ∀ line ∈ ls, IsLine line) :
    lines (unlines ls) = ls := by
  induction ls with
  | nil => rfl
  | cons line ls ih =>
    obtain ⟨hnewline, hreturn⟩ := h line List.mem_cons_self
    have hrest := ih fun l hl => h l (List.mem_cons_of_mem line hl)
    rw [lines, unlines, List.flatMap_cons, List.append_assoc, List.singleton_append,
      linesFrom_append hnewline, List.append_nil,
      dropReturn_of_not_mem (fun hmem => hreturn (List.mem_reverse.mp hmem)), List.reverse_reverse]
    exact congrArg (line :: ·) hrest

/-! ## Words -/

/-- The words, when `word` was read of the first one, from its end. -/
def wordsFrom (word : List Char) : List Char → List (List Char)
  | [] => if word = [] then [] else [word.reverse]
  | c :: text =>
    if isWhitespace c then
      if word = [] then wordsFrom [] text else word.reverse :: wordsFrom [] text
    else wordsFrom (c :: word) text

/-- `str::split_whitespace`. -/
def splitWhitespace (text : List Char) : List (List Char) := wordsFrom [] text

/-- A word that `split_whitespace` gives back. -/
def IsWord (word : List Char) : Prop := word ≠ [] ∧ ∀ c ∈ word, isWhitespace c = false

/-- The test of a text without blanks. -/
theorem blankless_of_all {text : List Char} (h : (text.all fun c => !isWhitespace c) = true) :
    ∀ c ∈ text, isWhitespace c = false := by
  intro c hc
  have hsolid := List.all_eq_true.mp h c hc
  rw [Bool.not_eq_true'] at hsolid
  exact hsolid

theorem wordsFrom_append {word rest : List Char} (h : ∀ c ∈ word, isWhitespace c = false)
    (read : List Char) : wordsFrom read (word ++ rest) = wordsFrom (word.reverse ++ read) rest := by
  induction word generalizing read with
  | nil => rfl
  | cons c word ih =>
    have hc := h c List.mem_cons_self
    rw [List.cons_append, wordsFrom, hc, if_neg Bool.false_ne_true,
      ih fun d hd => h d (List.mem_cons_of_mem c hd), List.reverse_cons, List.append_assoc,
      List.singleton_append]

/-- **A word before a blank.** -/
theorem splitWhitespace_cons {word rest : List Char} (h : IsWord word) :
    splitWhitespace (word ++ ' ' :: rest) = word :: splitWhitespace rest := by
  have hblank : isWhitespace ' ' = true := by decide
  have hne : word.reverse ≠ [] := fun heq => h.1 (List.reverse_eq_nil_iff.mp heq)
  rw [splitWhitespace, wordsFrom_append h.2, List.append_nil, wordsFrom, if_pos hblank,
    if_neg hne, List.reverse_reverse, ← splitWhitespace]

/-- A text without blanks is on one line. -/
theorem isLine_of_blankless {text : List Char} (h : ∀ c ∈ text, isWhitespace c = false) :
    IsLine text := by
  constructor
  · intro hmem
    have hblank : isWhitespace '\n' = true := by decide
    rw [h _ hmem] at hblank
    cases hblank
  · intro hmem
    have hblank : isWhitespace '\r' = true := by decide
    rw [h _ hmem] at hblank
    cases hblank

/-- Two texts on one line, with a blank between them. -/
theorem IsLine.append_blank {a b : List Char} (ha : IsLine a) (hb : IsLine b) :
    IsLine (a ++ ' ' :: b) := by
  have hmem : ∀ c, c ≠ ' ' → c ∉ a → c ∉ b → c ∉ a ++ ' ' :: b := by
    intro c hblank hca hcb hc
    rcases List.mem_append.mp hc with hc | hc
    · exact hca hc
    · exact (List.mem_cons.mp hc).elim hblank hcb
  exact ⟨hmem _ (by decide) ha.1 hb.1, hmem _ (by decide) ha.2 hb.2⟩

/-! ## Trimmed texts -/

/-- `str::trim_start`. -/
def trimStart (text : List Char) : List Char := text.dropWhile isWhitespace

/-- `str::trim_end`. -/
def trimEnd (text : List Char) : List Char := text.rdropWhile isWhitespace

/-- `str::trim`. -/
def trim (text : List Char) : List Char := trimEnd (trimStart text)

/-- Nothing but white space. -/
def Blank (text : List Char) : Prop := ∀ c ∈ text, isWhitespace c = true

/-- What is left out by `trim`. -/
theorem exists_trim (text : List Char) :
    ∃ a z, text = a ++ (trim text ++ z) ∧ Blank a ∧ Blank z := by
  refine ⟨text.takeWhile isWhitespace, (trimStart text).rtakeWhile isWhitespace, ?_, ?_, ?_⟩
  · rw [trim, trimEnd, List.rdropWhile_append_rtakeWhile, trimStart,
      List.takeWhile_append_dropWhile]
  · intro c hc
    exact List.mem_takeWhile_imp hc
  · intro c hc
    exact List.mem_rtakeWhile_imp hc

theorem trimStart_append {a text : List Char} {c : Char} (ha : Blank a)
    (hc : isWhitespace c = false) : trimStart (a ++ c :: text) = c :: text := by
  have hneg : ¬ isWhitespace c = true := by
    rw [hc]
    exact Bool.false_ne_true
  rw [trimStart, List.dropWhile_append_of_pos ha, List.dropWhile_cons_of_neg hneg]

theorem dropWhile_append_cons {a text : List Char} {c : Char} (hc : isWhitespace c = false) :
    (a ++ c :: text).dropWhile isWhitespace = a.dropWhile isWhitespace ++ c :: text := by
  induction a with
  | nil =>
    have hneg : ¬ isWhitespace c = true := by
      rw [hc]
      exact Bool.false_ne_true
    exact List.dropWhile_cons_of_neg hneg
  | cons d a ih =>
    cases hd : isWhitespace d with
    | true =>
      rw [List.cons_append, List.dropWhile_cons_of_pos hd, List.dropWhile_cons_of_pos hd, ih]
    | false =>
      have hneg : ¬ isWhitespace d = true := by
        rw [hd]
        exact Bool.false_ne_true
      rw [List.cons_append, List.dropWhile_cons_of_neg hneg, List.dropWhile_cons_of_neg hneg]
      rfl

/-- Trimming stops at a character that is not white space. -/
theorem trimEnd_append {text z : List Char} {c : Char} (hc : isWhitespace c = false) :
    trimEnd (text ++ c :: z) = text ++ c :: trimEnd z := by
  rw [trimEnd, trimEnd, List.rdropWhile, List.rdropWhile, List.reverse_append, List.reverse_cons,
    List.append_assoc, List.singleton_append, dropWhile_append_cons hc, List.reverse_append,
    List.reverse_cons, List.reverse_reverse, List.append_assoc, List.singleton_append]

theorem trimEnd_of_blank {z : List Char} (hz : Blank z) : trimEnd z = [] :=
  List.rdropWhile_eq_nil_iff.mpr hz

/-- A word is not trimmed, nor is what is in front of it. -/
theorem trimEnd_word {text word z : List Char} (hword : IsWord word) :
    trimEnd (text ++ (word ++ z)) = text ++ (word ++ trimEnd z) := by
  obtain ⟨hne, hsolid⟩ := hword
  rcases List.eq_nil_or_concat word with hnil | ⟨init, d, hlast⟩
  · exact absurd hnil hne
  · rw [List.concat_eq_append] at hlast
    have hd : isWhitespace d = false := by
      apply hsolid
      rw [hlast]
      exact List.mem_append_right _ (List.mem_singleton_self d)
    -- the last character of the word ends the trimming
    rw [hlast, List.append_assoc, List.singleton_append, ← List.append_assoc, trimEnd_append hd,
      List.append_assoc, List.append_assoc, List.singleton_append]

theorem trimStart_word {a word z : List Char} (ha : Blank a) (hword : IsWord word) :
    trimStart (a ++ (word ++ z)) = word ++ z := by
  cases word with
  | nil => exact absurd rfl hword.1
  | cons c word => exact trimStart_append ha (hword.2 c List.mem_cons_self)

/-- A word between white space. -/
theorem trim_word {a word z : List Char} (ha : Blank a) (hword : IsWord word) (hz : Blank z) :
    trim (a ++ (word ++ z)) = word := by
  have hend : trimEnd ([] ++ (word ++ z)) = [] ++ (word ++ trimEnd z) := trimEnd_word hword
  rw [trim, trimStart_word ha hword, ← List.nil_append (word ++ z), hend, trimEnd_of_blank hz,
    List.append_nil, List.nil_append]

end Text
