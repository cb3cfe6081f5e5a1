import Mathlib.Data.List.DropRight

/-!
# Text: lines, blank lines, tokens and splits

String slices as lists of Unicode scalar values, with the operations of a line-oriented reader:
`lines`, `trim`, `splitAsciiWhitespace`, `splitOnce`, `stripPrefix` and `stripSuffix`, each
following the documented behaviour of the standard-library function of that name (`lines` cuts at
`\n` and drops one `\r` before it; `trim` removes Unicode white space; token splitting uses ASCII
white space only).

* `trim_append_append`: white space around a trimmed text is removed, and nothing else.
* `splitInclusive_append_cons`, `trimLineEnd_lf`, `trimLineEnd_crlf`: a terminated line is cut off
  whole and loses its terminator.
* `splitAsciiWhitespace_append_left`, `splitAsciiWhitespace_token`: white space before a token is
  skipped, and the token is split off whole.
* `splitOnce_append_cons`: the split is at the first separator; `split_intercalate`: parts without
  the separator are taken apart again.
-/

namespace Sakai.Lib

/-- A string slice, as its sequence of Unicode scalar values. -/
abbrev Str := List Char

/-- A text is hashed as a string. -/
instance : Hashable Str := ⟨fun s => hash (String.ofList s)⟩

/-! ## White space -/

/-- Unicode `White_Space`, the class `str::trim` removes. -/
def isWhitespace (c : Char) : Bool :=
  let n := c.toNat
  (9 ≤ n && n ≤ 13) || n == 0x20 || n == 0x85 || n == 0xA0 || n == 0x1680 ||
    (0x2000 ≤ n && n ≤ 0x200A) || n == 0x2028 || n == 0x2029 || n == 0x202F || n == 0x205F ||
    n == 0x3000

/-- ASCII white space: space, tab, line feed, form feed, carriage return. Vertical tab is not in
this class. -/
def isAsciiWhitespace (c : Char) : Bool :=
  c == ' ' || c == '\t' || c == '\n' || c == '\x0C' || c == '\r'

/-- ASCII white space is Unicode white space. -/
lemma isWhitespace_of_isAsciiWhitespace {c : Char} (h : isAsciiWhitespace c = true) :
    isWhitespace c = true := by
  simp only [isAsciiWhitespace, Bool.or_eq_true, beq_iff_eq] at h
  rcases h with (((rfl | rfl) | rfl) | rfl) | rfl <;> decide

/-- `str::trim`: leading and trailing Unicode white space removed. -/
def trim (s : Str) : Str := (s.dropWhile isWhitespace).rdropWhile isWhitespace

/-- `line.trim().is_empty()`. -/
def isBlank (line : Str) : Bool := (trim line).isEmpty

/-- Nothing is left exactly when there is white space only. -/
lemma trim_eq_nil_iff {s : Str} : trim s = [] ↔ ∀ c ∈ s, isWhitespace c = true := by
  unfold trim
  rw [List.rdropWhile_eq_nil_iff]
  constructor
  · intro h c hc
    rw [← List.takeWhile_append_dropWhile (p := isWhitespace) (l := s)] at hc
    rcases List.mem_append.mp hc with hc | hc
    · exact List.mem_takeWhile_imp hc
    · exact h c hc
  · intro h c hc
    exact h c ((List.dropWhile_sublist isWhitespace).subset hc)

/-- A line is blank exactly when it holds white space only. -/
lemma isBlank_iff {line : Str} : isBlank line = true ↔ ∀ c ∈ line, isWhitespace c = true := by
  unfold isBlank
  rw [List.isEmpty_iff, trim_eq_nil_iff]

/-- Neither end of the text is white space. -/
structure Trimmed (s : Str) : Prop where
  /-- The text does not start with white space. -/
  head : ∀ c ∈ s.head?, isWhitespace c = false
  /-- The text does not end with white space. -/
  last : ∀ c ∈ s.getLast?, isWhitespace c = false

/-- Being trimmed, as a test of both ends. -/
lemma trimmed_iff {s : Str} :
    Trimmed s ↔ (s.head?.all (!isWhitespace ·) && s.getLast?.all (!isWhitespace ·)) = true := by
  simp only [Bool.and_eq_true, Option.all_eq_true, Bool.not_eq_true']
  exact ⟨fun h => ⟨h.head, h.last⟩, fun h => ⟨h.1, h.2⟩⟩

instance (s : Str) : Decidable (Trimmed s) := decidable_of_iff _ trimmed_iff.symm

/-- A text without white space is trimmed. -/
lemma Trimmed.of_forall {s : Str} (h : ∀ c ∈ s, isWhitespace c = false) : Trimmed s :=
  ⟨fun c hc => h c (List.mem_of_head? hc), fun c hc => h c (List.mem_of_getLast? hc)⟩

/-- **White space around a trimmed text is removed, and nothing else.** -/
theorem trim_append_append {before s after : Str} (hbefore : ∀ c ∈ before, isWhitespace c = true)
    (hs : Trimmed s) (hafter : ∀ c ∈ after, isWhitespace c = true) :
    trim (before ++ (s ++ after)) = s := by
  have hleft : (before ++ (s ++ after)).dropWhile isWhitespace =
      (s ++ after).dropWhile isWhitespace := List.dropWhile_append_of_pos hbefore
  unfold trim
  rw [hleft]
  rcases s with _ | ⟨c, cs⟩
  · rw [List.nil_append, List.rdropWhile_eq_nil_iff]
    intro c hc
    exact hafter c ((List.dropWhile_sublist isWhitespace).subset hc)
  · have hc : isWhitespace c = false := hs.head c rfl
    have hkeep : ((c :: cs) ++ after).dropWhile isWhitespace = (c :: cs) ++ after := by
      rw [List.cons_append, List.dropWhile_cons_of_neg (by simp [hc])]
    have hright : ((c :: cs) ++ after).reverse.dropWhile isWhitespace =
        (c :: cs).reverse.dropWhile isWhitespace := by
      rw [List.reverse_append]
      exact List.dropWhile_append_of_pos fun d hd => hafter d (List.mem_reverse.mp hd)
    rw [hkeep, List.rdropWhile, hright, ← List.rdropWhile,
      List.rdropWhile_eq_self_iff]
    intro hne
    rw [hs.last _ (List.getLast?_eq_some_getLast hne)]
    exact Bool.false_ne_true

/-- What is left is a contiguous part of the text. -/
lemma infix_trim (s : Str) : trim s <:+: s := by
  unfold trim
  have hprefix := (List.rdropWhile_prefix isWhitespace (l := s.dropWhile isWhitespace))
  exact hprefix.isInfix.trans (List.dropWhile_suffix isWhitespace).isInfix

/-! ## Lines -/

/-- `str::split_inclusive`: the pieces of `s` cut after every `sep`. -/
def splitInclusive (sep : Char) : Str → List Str
  | [] => []
  | c :: cs =>
    if c = sep then [c] :: splitInclusive sep cs
    else match splitInclusive sep cs with
      | [] => [[c]]
      | piece :: rest => (c :: piece) :: rest

/-- One line ending removed: `\n`, and then one `\r` before it. -/
def trimLineEnd (line : Str) : Str :=
  match ['\n'].isSuffixOf? line with
  | none => line
  | some body => (['\r'].isSuffixOf? body).getD body

/-- `str::lines`. -/
def lines (s : Str) : List Str := (splitInclusive '\n' s).map trimLineEnd

/-- A piece ended by the separator is cut off whole. -/
lemma splitInclusive_append_cons {sep : Char} {l : Str} (hl : sep ∉ l) (rest : Str) :
    splitInclusive sep (l ++ sep :: rest) = (l ++ [sep]) :: splitInclusive sep rest := by
  induction l with
  | nil => simp [splitInclusive]
  | cons c cs ih =>
      have hc := List.ne_of_not_mem_cons hl
      have hcs := List.not_mem_of_not_mem_cons hl
      rw [List.cons_append, splitInclusive, if_neg (Ne.symm hc), ih hcs]
      rfl

/-- An unterminated last piece is one piece. -/
lemma splitInclusive_of_not_mem {sep : Char} {l : Str} (hl : sep ∉ l) (hne : l ≠ []) :
    splitInclusive sep l = [l] := by
  induction l with
  | nil => exact absurd rfl hne
  | cons c cs ih =>
      have hc := List.ne_of_not_mem_cons hl
      have hcs := List.not_mem_of_not_mem_cons hl
      rw [splitInclusive, if_neg (Ne.symm hc)]
      rcases cs with _ | ⟨d, ds⟩
      · rfl
      · rw [ih hcs (List.cons_ne_nil d ds)]

/-- A line without line feed is not shortened. -/
lemma trimLineEnd_of_not_mem {l : Str} (hl : '\n' ∉ l) : trimLineEnd l = l := by
  unfold trimLineEnd
  cases h : ['\n'].isSuffixOf? l with
  | none => rfl
  | some body =>
      rw [List.isSuffixOf?_eq_some_iff_append_eq] at h
      exact absurd (h ▸ List.mem_append_right body List.mem_cons_self) hl

/-- `\r\n` is removed as a whole. -/
lemma trimLineEnd_crlf (l : Str) : trimLineEnd (l ++ ['\r', '\n']) = l := by
  have hlf : ['\n'].isSuffixOf? (l ++ ['\r', '\n']) = some (l ++ ['\r']) := by
    rw [List.isSuffixOf?_eq_some_iff_append_eq]
    simp
  have hcr : ['\r'].isSuffixOf? (l ++ ['\r']) = some l := by
    rw [List.isSuffixOf?_eq_some_iff_append_eq]
  simp only [trimLineEnd, hlf, hcr, Option.getD_some]

/-- `\n` is removed, and nothing else when no `\r` precedes it. -/
lemma trimLineEnd_lf {l : Str} (hl : l.getLast? ≠ some '\r') : trimLineEnd (l ++ ['\n']) = l := by
  have hlf : ['\n'].isSuffixOf? (l ++ ['\n']) = some l := by
    rw [List.isSuffixOf?_eq_some_iff_append_eq]
  simp only [trimLineEnd, hlf]
  cases h : ['\r'].isSuffixOf? l with
  | none => rfl
  | some body =>
      rw [List.isSuffixOf?_eq_some_iff_append_eq] at h
      exact absurd (by simp [← h]) hl

/-! ## Splitting -/

/-- `str::split` at a character: the parts between its occurrences. -/
def split (sep : Char) (s : Str) : List Str := s.splitOn sep

/-- Parts without the separator are taken apart again. -/
lemma split_intercalate {sep : Char} {parts : List Str} (hparts : ∀ part ∈ parts, sep ∉ part)
    (hne : parts ≠ []) : split sep ([sep].intercalate parts) = parts :=
  List.splitOn_intercalate sep hparts hne

/-- The parts, with the separator between them, are the text. -/
lemma intercalate_split (sep : Char) (s : Str) : [sep].intercalate (split sep s) = s :=
  List.intercalate_splitOn sep

/-- A joined text consists of the separator and the characters of its parts. -/
lemma forall_mem_intercalate {sep : Char} {parts : List Str} {p : Char → Prop} (hsep : p sep)
    (hparts : ∀ part ∈ parts, ∀ c ∈ part, p c) : ∀ c ∈ [sep].intercalate parts, p c := by
  induction parts with
  | nil => simp
  | cons part parts ih =>
      have hpart := hparts part List.mem_cons_self
      rcases parts with _ | ⟨part', parts⟩
      · rwa [List.intercalate_singleton]
      · have hrest := ih fun q hq => hparts q (List.mem_cons_of_mem part hq)
        intro c hc
        rw [List.intercalate_cons_cons, List.mem_append, List.mem_append,
          List.mem_singleton] at hc
        rcases hc with (hc | rfl) | hc
        · exact hpart c hc
        · exact hsep
        · exact hrest c hc

/-! ## Tokens -/

/-- `str::split_ascii_whitespace`: the maximal runs without ASCII white space. -/
def splitAsciiWhitespace (s : Str) : List Str := (s.splitOnP isAsciiWhitespace).filter (· ≠ [])

/-- `str::split_once` at a character: what is before and after its first occurrence. -/
def splitOnce (sep : Char) : Str → Option (Str × Str)
  | [] => none
  | c :: cs => if c = sep then some ([], cs) else (splitOnce sep cs).map fun p => (c :: p.1, p.2)

/-- The split is at the first separator, whatever follows it. -/
lemma splitOnce_append_cons {sep : Char} {a : Str} (ha : sep ∉ a) (b : Str) :
    splitOnce sep (a ++ sep :: b) = some (a, b) := by
  induction a with
  | nil => simp [splitOnce]
  | cons c cs ih =>
      have hc := List.ne_of_not_mem_cons ha
      have hcs := List.not_mem_of_not_mem_cons ha
      rw [List.cons_append, splitOnce, if_neg (Ne.symm hc), ih hcs]
      rfl

/-- A split takes the text apart at a separator that does not occur before. -/
lemma splitOnce_eq_some_iff {sep : Char} {s : Str} {p : Str × Str} :
    splitOnce sep s = some p ↔ s = p.1 ++ sep :: p.2 ∧ sep ∉ p.1 := by
  constructor
  · intro h
    induction s generalizing p with
    | nil => cases h
    | cons c cs ih =>
        rw [splitOnce] at h
        by_cases hc : c = sep
        · rw [if_pos hc] at h
          cases h
          exact ⟨by rw [hc]; rfl, by simp⟩
        · rw [if_neg hc, Option.map_eq_some_iff] at h
          obtain ⟨q, hq, rfl⟩ := h
          obtain ⟨rfl, hsep⟩ := ih hq
          exact ⟨rfl, by simp [hsep, Ne.symm hc]⟩
  · rintro ⟨rfl, hsep⟩
    exact splitOnce_append_cons hsep p.2

/-- There is no split exactly when there is no separator. -/
lemma splitOnce_eq_none_iff {sep : Char} {s : Str} : splitOnce sep s = none ↔ sep ∉ s := by
  constructor
  · intro h hmem
    obtain ⟨a, b, rfl, ha⟩ := List.eq_append_cons_of_mem hmem
    rw [splitOnce_append_cons ha] at h
    cases h
  · intro h
    rw [Option.eq_none_iff_forall_ne_some]
    intro p hp
    apply h
    rw [(splitOnce_eq_some_iff.mp hp).1]
    simp

/-- `str::strip_prefix`: what follows the prefix. -/
def stripPrefix (start s : Str) : Option Str := start.isPrefixOf? s

/-- `str::strip_suffix`: what precedes the suffix. -/
def stripSuffix (ending s : Str) : Option Str := ending.isSuffixOf? s

/-- A prefix is stripped exactly from the texts that start with it. -/
lemma stripPrefix_eq_some_iff {start s rest : Str} :
    stripPrefix start s = some rest ↔ start ++ rest = s :=
  List.isPrefixOf?_eq_some_iff_append_eq

/-- A suffix is stripped exactly from the texts that end with it. -/
lemma stripSuffix_eq_some_iff {ending s rest : Str} :
    stripSuffix ending s = some rest ↔ rest ++ ending = s :=
  List.isSuffixOf?_eq_some_iff_append_eq

/-- A suffix can be stripped exactly when the text ends with it. -/
lemma isSome_stripSuffix (ending s : Str) :
    (stripSuffix ending s).isSome = ending.isSuffixOf s := by
  rw [Bool.eq_iff_iff, Option.isSome_iff_exists, List.isSuffixOf_iff_suffix]
  exact exists_congr fun rest => stripSuffix_eq_some_iff

/-- `str::split_once` at a text: what is before and after its first occurrence. -/
def splitOnceAt (pattern : Str) : Str → Option (Str × Str)
  | [] => (stripPrefix pattern []).map fun rest => ([], rest)
  | c :: cs =>
    match stripPrefix pattern (c :: cs) with
    | some rest => some ([], rest)
    | none => (splitOnceAt pattern cs).map fun p => (c :: p.1, p.2)

/-- A split takes the text apart at the pattern. -/
lemma eq_of_splitOnceAt {pattern s : Str} {p : Str × Str} (h : splitOnceAt pattern s = some p) :
    s = p.1 ++ (pattern ++ p.2) := by
  induction s generalizing p with
  | nil =>
      obtain ⟨rest, hrest, rfl⟩ := Option.map_eq_some_iff.mp h
      exact (stripPrefix_eq_some_iff.mp hrest).symm
  | cons c cs ih =>
      rw [splitOnceAt] at h
      split at h
      · next rest hrest =>
        cases h
        exact (stripPrefix_eq_some_iff.mp hrest).symm
      · obtain ⟨q, hq, rfl⟩ := Option.map_eq_some_iff.mp h
        rw [ih hq, List.cons_append]

/-- The split is at the first occurrence, when the pattern starts with a character that does not
occur before. -/
lemma splitOnceAt_append {c : Char} {pattern a : Str} (ha : c ∉ a) (b : Str) :
    splitOnceAt (c :: pattern) (a ++ (c :: pattern ++ b)) = some (a, b) := by
  induction a with
  | nil =>
      have hprefix : stripPrefix (c :: pattern) (c :: pattern ++ b) = some b :=
        stripPrefix_eq_some_iff.mpr rfl
      rw [List.nil_append, List.cons_append, splitOnceAt, ← List.cons_append, hprefix]
  | cons d ds ih =>
      have hd := List.ne_of_not_mem_cons ha
      have hds := List.not_mem_of_not_mem_cons ha
      have hprefix : stripPrefix (c :: pattern) (d :: (ds ++ (c :: pattern ++ b))) = none := by
        rw [Option.eq_none_iff_forall_ne_some]
        intro rest hrest
        have happend := stripPrefix_eq_some_iff.mp hrest
        exact hd (List.cons_eq_cons.mp happend).1
      rw [List.cons_append, splitOnceAt, hprefix, ih hds]
      rfl

/-- What a token is: not empty, no ASCII white space inside. -/
structure IsToken (tok : Str) : Prop where
  /-- A token is not empty. -/
  ne_nil : tok ≠ []
  /-- A token contains no ASCII white space. -/
  solid : ∀ c ∈ tok, isAsciiWhitespace c = false

/-- Leading white space does not change the tokens. -/
lemma splitAsciiWhitespace_append_left {ws : Str} (hws : ∀ c ∈ ws, isAsciiWhitespace c = true)
    (s : Str) : splitAsciiWhitespace (ws ++ s) = splitAsciiWhitespace s := by
  induction ws with
  | nil => rfl
  | cons c cs ih =>
      have hc := hws c List.mem_cons_self
      rw [← ih fun d hd => hws d (List.mem_cons_of_mem c hd)]
      simp [splitAsciiWhitespace, List.splitOnP_cons_eq_if_modifyHead, hc]

/-- A character that is no white space belongs to a token. -/
lemma splitAsciiWhitespace_ne_nil {s : Str} {c : Char} (hc : c ∈ s)
    (hws : isAsciiWhitespace c = false) : splitAsciiWhitespace s ≠ [] := by
  have hpiece : ∃ piece ∈ s.splitOnP isAsciiWhitespace, piece ≠ [] := by
    induction s with
    | nil => cases hc
    | cons d ds ih =>
        rw [List.splitOnP_cons_eq_if_modifyHead]
        by_cases hd : isAsciiWhitespace d = true
        · rw [if_pos hd]
          have hcd : c ∈ ds := by
            rcases List.mem_cons.mp hc with rfl | h
            · rw [hws] at hd
              cases hd
            · exact h
          obtain ⟨piece, hmem, hne⟩ := ih hcd
          exact ⟨piece, List.mem_cons_of_mem _ hmem, hne⟩
        · rw [if_neg hd]
          rcases hsplit : ds.splitOnP isAsciiWhitespace with _ | ⟨piece, pieces⟩
          · exact absurd hsplit (List.splitOnP_ne_nil _ _)
          · exact ⟨d :: piece, List.mem_cons_self, List.cons_ne_nil d piece⟩
  obtain ⟨piece, hmem, hne⟩ := hpiece
  intro hnil
  have hin : piece ∈ splitAsciiWhitespace s :=
    List.mem_filter.mpr ⟨hmem, decide_eq_true hne⟩
  rw [hnil] at hin
  cases hin

/-- A token followed by white space, or by nothing, is split off whole. -/
lemma splitAsciiWhitespace_token {tok : Str} (htok : IsToken tok) {rest : Str}
    (hrest : ∀ c ∈ rest.head?, isAsciiWhitespace c = true) :
    splitAsciiWhitespace (tok ++ rest) = tok :: splitAsciiWhitespace rest := by
  rcases rest with _ | ⟨w, rest⟩
  · have h := List.splitOnP_eq_singleton htok.solid
    rw [List.append_nil]
    simp [splitAsciiWhitespace, h, htok.ne_nil]
  · have hw : isAsciiWhitespace w = true := hrest w rfl
    have h := List.splitOnP_append_cons_of_forall_mem htok.solid w hw rest
    simp [splitAsciiWhitespace, h, List.splitOnP_cons_eq_if_modifyHead, hw, htok.ne_nil]

end Sakai.Lib
