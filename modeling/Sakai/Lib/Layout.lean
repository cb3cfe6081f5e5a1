import Mathlib.Data.List.Forall2
import Sakai.Lib.Text

/-!
# Layout: what a text shows

* **Layout.** `Spaced toks line` says that `line` shows the tokens `toks` with arbitrary ASCII
  white space around and between them; `Lined ls text` that `text` consists of the lines `ls`,
  each ended by `\n` or `\r\n`, the last terminator being optional; `Layout rows text` that the
  non-blank lines of `text` show the rows `rows`, blank lines interleaved anywhere.
* **Reading a layout back** (`splitAsciiWhitespace_of_spaced`, `lines_of_lined`,
  `rows_of_layout`): the reader's operations recover exactly what was laid out.
* **Printing** (`layout_unlines`): the plain printing of rows, one space between tokens and one
  line feed after each line, is one of their layouts.
* **Key/value lines** (`pairsOf_of_layout`): the pairs of a text whose lines have two tokens.
-/

namespace Sakai.Lib

/-! ## Layout -/

/-- `Spaced toks line`: the line shows the tokens, in order, with any ASCII white space before,
between and after them. -/
inductive Spaced : List Str → Str → Prop
  | nil {ws : Str} : (∀ c ∈ ws, isAsciiWhitespace c = true) → Spaced [] ws
  | cons {ws tok rest : Str} {toks : List Str} :
      (∀ c ∈ ws, isAsciiWhitespace c = true) → IsToken tok →
      (∀ c ∈ rest.head?, isAsciiWhitespace c = true) → Spaced toks rest →
      Spaced (tok :: toks) (ws ++ (tok ++ rest))

/-- `Lined ls text`: the text consists of the lines `ls`, each ended by `\n` or by `\r\n`; the
last one may be unterminated. -/
inductive Lined : List Str → Str → Prop
  | nil : Lined [] []
  | last {l : Str} : '\n' ∉ l → l ≠ [] → Lined [l] l
  | lf {l text : Str} {ls : List Str} :
      '\n' ∉ l → l.getLast? ≠ some '\r' → Lined ls text → Lined (l :: ls) (l ++ '\n' :: text)
  | crlf {l text : Str} {ls : List Str} :
      '\n' ∉ l → Lined ls text → Lined (l :: ls) (l ++ '\r' :: '\n' :: text)

/-- `Rowed rows ls`: the lines show the rows, in order, with blank lines interleaved anywhere. -/
inductive Rowed : List (List Str) → List Str → Prop
  | nil : Rowed [] []
  | blank {l : Str} {rows : List (List Str)} {ls : List Str} :
      isBlank l = true → Rowed rows ls → Rowed rows (l :: ls)
  | row {l : Str} {toks : List Str} {rows : List (List Str)} {ls : List Str} :
      isBlank l = false → Spaced toks l → Rowed rows ls → Rowed (toks :: rows) (l :: ls)

/-- `Layout rows text`: the non-blank lines of the text show the rows, in order. -/
def Layout (rows : List (List Str)) (text : Str) : Prop := ∃ ls, Lined ls text ∧ Rowed rows ls

/-- The lines of a text that are not blank. -/
def nonBlankLines (text : Str) : List Str := (lines text).filter fun line => !isBlank line

/-- The tokens of the non-blank lines of a text. -/
def rowsOf (text : Str) : List (List Str) := (nonBlankLines text).map splitAsciiWhitespace

/-- Splitting a line into tokens undoes its layout. -/
theorem splitAsciiWhitespace_of_spaced {toks : List Str} {line : Str} (h : Spaced toks line) :
    splitAsciiWhitespace line = toks := by
  induction h with
  | @nil ws hws =>
      have h := splitAsciiWhitespace_append_left hws []
      rw [List.append_nil] at h
      rw [h]
      rfl
  | cons hws htok hrest _ ih =>
      rw [splitAsciiWhitespace_append_left hws, splitAsciiWhitespace_token htok hrest, ih]

/-- Splitting a text into lines undoes its layout. -/
theorem lines_of_lined {ls : List Str} {text : Str} (h : Lined ls text) : lines text = ls := by
  induction h with
  | nil => rfl
  | last hl hne => simp [lines, splitInclusive_of_not_mem hl hne, trimLineEnd_of_not_mem hl]
  | lf hl hcr _ ih =>
      rw [lines, splitInclusive_append_cons hl, List.map_cons, trimLineEnd_lf hcr]
      exact congrArg _ ih
  | @crlf l text ls hl _ ih =>
      have hl' : '\n' ∉ l ++ ['\r'] := by simp [hl]
      have hsplit := splitInclusive_append_cons hl' text
      rw [List.append_assoc, List.singleton_append] at hsplit
      rw [lines, hsplit, List.map_cons, List.append_assoc, List.singleton_append,
        trimLineEnd_crlf]
      exact congrArg _ ih

/-- The rows of a text undo its layout. -/
theorem rows_of_layout {rows : List (List Str)} {text : Str} (h : Layout rows text) :
    rowsOf text = rows := by
  obtain ⟨ls, hlined, hrowed⟩ := h
  unfold rowsOf nonBlankLines
  rw [lines_of_lined hlined]
  clear hlined
  induction hrowed with
  | nil => rfl
  | blank hb _ ih => rw [List.filter_cons_of_neg (by simp [hb]), ih]
  | row hb hs _ ih =>
      rw [List.filter_cons_of_pos (by simp [hb]), List.map_cons, ih,
        splitAsciiWhitespace_of_spaced hs]

/-- **The lines that are not blank show the rows**, one a row and in order. -/
theorem nonBlankLines_of_layout {rows : List (List Str)} {text : Str} (h : Layout rows text) :
    List.Forall₂ Spaced rows (nonBlankLines text) := by
  obtain ⟨ls, hlined, hrowed⟩ := h
  unfold nonBlankLines
  rw [lines_of_lined hlined]
  clear hlined
  induction hrowed with
  | nil => exact List.Forall₂.nil
  | blank hb _ ih => rwa [List.filter_cons_of_neg (by simp [hb])]
  | row hb hs _ ih =>
      rw [List.filter_cons_of_pos (by simp [hb])]
      exact List.Forall₂.cons hs ih

/-- A line with one token is the token among white space. -/
lemma Spaced.trim {tok line : Str} (h : Spaced [tok] line) (htok : Trimmed tok) :
    Lib.trim line = tok := by
  obtain _ | ⟨hws, -, -, ⟨hafter⟩⟩ := h
  exact trim_append_append (fun c hc => isWhitespace_of_isAsciiWhitespace (hws c hc)) htok
    fun c hc => isWhitespace_of_isAsciiWhitespace (hafter c hc)

/-- A line that is not blank shows a token. -/
lemma ne_nil_of_mem_rowsOf {text : Str} {row : List Str} (h : row ∈ rowsOf text) : row ≠ [] := by
  obtain ⟨line, hline, rfl⟩ := List.mem_map.mp h
  have hblank : isBlank line ≠ true := by simpa using (List.mem_filter.mp hline).2
  rw [Ne, isBlank_iff] at hblank
  push Not at hblank
  obtain ⟨c, hc, hvisible⟩ := hblank
  apply splitAsciiWhitespace_ne_nil hc
  rw [← Bool.not_eq_true]
  exact fun hws => hvisible (isWhitespace_of_isAsciiWhitespace hws)

/-! ## Printing -/

/-- The tokens of a row with one space after each but the last. -/
def unwords : List Str → Str
  | [] => []
  | [tok] => tok
  | tok :: tok' :: toks => tok ++ ' ' :: unwords (tok' :: toks)

/-- The rows, one a line, each line ended by a line feed. -/
def unlines : List (List Str) → Str
  | [] => []
  | row :: rows => unwords row ++ '\n' :: unlines rows

/-- A token, as a test of its characters. -/
lemma isToken_iff {tok : Str} :
    IsToken tok ↔ (!tok.isEmpty && tok.all (!isAsciiWhitespace ·)) = true := by
  rw [Bool.and_eq_true, Bool.not_eq_true', List.isEmpty_eq_false_iff, List.all_eq_true]
  simp only [Bool.not_eq_true']
  exact ⟨fun h => ⟨h.ne_nil, h.solid⟩, fun h => ⟨h.1, h.2⟩⟩

instance (tok : Str) : Decidable (IsToken tok) := decidable_of_iff _ isToken_iff.symm

/-- A row that can be printed: tokens, of which one is visible. -/
def Printable (row : List Str) : Prop :=
  (∀ tok ∈ row, IsToken tok) ∧ isBlank (unwords row) = false

instance (row : List Str) : Decidable (Printable row) :=
  inferInstanceAs (Decidable ((∀ tok ∈ row, IsToken tok) ∧ isBlank (unwords row) = false))

/-- White space may be added before a line. -/
lemma Spaced.cons_space {toks : List Str} {line : Str} {c : Char}
    (hc : isAsciiWhitespace c = true) (h : Spaced toks line) : Spaced toks (c :: line) := by
  have hcons : ∀ {ws : Str}, (∀ d ∈ ws, isAsciiWhitespace d = true) →
      ∀ d ∈ c :: ws, isAsciiWhitespace d = true := by
    intro ws hws d hd
    rcases List.mem_cons.mp hd with rfl | hd
    · exact hc
    · exact hws d hd
  cases h with
  | nil hws => exact Spaced.nil (hcons hws)
  | cons hws htok hrest hs => exact Spaced.cons (hcons hws) htok hrest hs

/-- A printed row shows its tokens. -/
lemma spaced_unwords {row : List Str} (h : ∀ tok ∈ row, IsToken tok) :
    Spaced row (unwords row) := by
  have hnil : ∀ c ∈ ([] : Str), isAsciiWhitespace c = true := by simp
  induction row with
  | nil => exact Spaced.nil hnil
  | cons tok toks ih =>
      have htok := h tok List.mem_cons_self
      have htoks := ih fun t ht => h t (List.mem_cons_of_mem tok ht)
      rcases toks with _ | ⟨tok', toks⟩
      · have hs : Spaced [tok] ([] ++ (tok ++ [])) := Spaced.cons hnil htok (by simp) htoks
        rwa [List.nil_append, List.append_nil] at hs
      · refine Spaced.cons hnil htok (fun c hc => ?_) (htoks.cons_space (c := ' ') rfl)
        cases hc
        rfl

/-- A printed row holds neither line feeds nor carriage returns. -/
lemma not_mem_unwords {row : List Str} (h : ∀ tok ∈ row, IsToken tok) {c : Char}
    (hc : isAsciiWhitespace c = true) (hspace : c ≠ ' ') : c ∉ unwords row := by
  induction row with
  | nil => simp [unwords]
  | cons tok toks ih =>
      have htok : c ∉ tok := by
        intro hmem
        rw [(h tok List.mem_cons_self).solid c hmem] at hc
        cases hc
      have htoks := ih fun t ht => h t (List.mem_cons_of_mem tok ht)
      rcases toks with _ | ⟨tok', toks⟩
      · exact htok
      · rw [unwords]
        simp only [List.mem_append, List.mem_cons, not_or]
        exact ⟨htok, hspace, htoks⟩

/-- **The plain printing of rows is one of their layouts.** -/
theorem layout_unlines {rows : List (List Str)} (h : ∀ row ∈ rows, Printable row) :
    Layout rows (unlines rows) := by
  induction rows with
  | nil => exact ⟨[], Lined.nil, Rowed.nil⟩
  | cons row rows ih =>
      obtain ⟨ls, hlined, hrowed⟩ := ih fun r hr => h r (List.mem_cons_of_mem row hr)
      obtain ⟨htoks, hblank⟩ := h row List.mem_cons_self
      have hlf := not_mem_unwords htoks (c := '\n') (by decide) (by decide)
      have hcr := not_mem_unwords htoks (c := '\r') (by decide) (by decide)
      refine ⟨unwords row :: ls, Lined.lf hlf (fun hlast => ?_) hlined,
        Rowed.row hblank (spaced_unwords htoks) hrowed⟩
      exact hcr (List.mem_of_getLast? hlast)

/-! ## Key/value lines -/

/-- The row of a key/value pair. -/
def pairRow (e : Str × Str) : List Str := [e.1, e.2]

/-- Every non-blank line has exactly two tokens. -/
def TwoTokens (text : Str) : Prop := ∀ row ∈ rowsOf text, row.length = 2

instance (text : Str) : Decidable (TwoTokens text) :=
  inferInstanceAs (Decidable (∀ row ∈ rowsOf text, row.length = 2))

/-- The pair a row of two tokens stands for. -/
def rowPair? : List Str → Option (Str × Str)
  | [key, value] => some (key, value)
  | _ => none

/-- The pairs of a text's two-token lines, in order. -/
def pairsOf (text : Str) : List (Str × Str) := (rowsOf text).filterMap rowPair?

/-- Some non-blank line starts with the key. -/
def Occurs (text key : Str) : Prop := ∃ row ∈ rowsOf text, row.head? = some key

instance (text key : Str) : Decidable (Occurs text key) :=
  inferInstanceAs (Decidable (∃ row ∈ rowsOf text, row.head? = some key))

/-- The rows of a key/value text are the rows of its pairs. -/
lemma rowsOf_eq_map_pairRow {text : Str} (h : TwoTokens text) :
    rowsOf text = (pairsOf text).map pairRow := by
  unfold TwoTokens at h
  unfold pairsOf
  generalize rowsOf text = rows at h
  induction rows with
  | nil => rfl
  | cons row rows ih =>
      obtain ⟨key, value, rfl⟩ := List.length_eq_two.mp (h row List.mem_cons_self)
      have hpair : rowPair? [key, value] = some (key, value) := rfl
      rw [List.filterMap_cons_some hpair, List.map_cons, pairRow,
        ← ih fun r hr => h r (List.mem_cons_of_mem _ hr)]

/-- A text whose rows are those of `entries` is a key/value text with these pairs. -/
lemma pairsOf_of_rowsOf {text : Str} {entries : List (Str × Str)}
    (h : rowsOf text = entries.map pairRow) : TwoTokens text ∧ pairsOf text = entries := by
  unfold TwoTokens pairsOf
  rw [h]
  constructor
  · intro row hrow
    obtain ⟨e, -, rfl⟩ := List.mem_map.mp hrow
    rfl
  · rw [List.filterMap_map]
    exact List.filterMap_some

/-- **Laid-out pairs are read back.** -/
theorem pairsOf_of_layout {text : Str} {entries : List (Str × Str)}
    (h : Layout (entries.map pairRow) text) : TwoTokens text ∧ pairsOf text = entries :=
  pairsOf_of_rowsOf (rows_of_layout h)

/-! ## Lines of a key and tokens -/

/-- The row of a key and the tokens after it. -/
def keyedRow (e : Str × List Str) : List Str := e.1 :: e.2

/-- The key and the tokens after it. -/
def rowKeyed? : List Str → Option (Str × List Str)
  | [] => none
  | key :: tokens => some (key, tokens)

/-- The first token of each non-blank line, with the tokens after it. -/
def keyedRowsOf (text : Str) : List (Str × List Str) := (rowsOf text).filterMap rowKeyed?

/-- The rows of a text are those of its keys and tokens. -/
lemma rowsOf_eq_map_keyedRow (text : Str) : rowsOf text = (keyedRowsOf text).map keyedRow := by
  have hrows : ∀ rows : List (List Str), (∀ row ∈ rows, row ≠ []) →
      rows = (rows.filterMap rowKeyed?).map keyedRow := by
    intro rows h
    induction rows with
    | nil => rfl
    | cons row rows ih =>
        rcases row with _ | ⟨key, tokens⟩
        · exact absurd rfl (h [] List.mem_cons_self)
        · have htail := ih fun r hr => h r (List.mem_cons_of_mem _ hr)
          rw [List.filterMap_cons_some
            (show rowKeyed? (key :: tokens) = some (key, tokens) from rfl), List.map_cons, ← htail]
          rfl
  exact hrows (rowsOf text) fun row hrow => ne_nil_of_mem_rowsOf hrow

/-- **Laid-out keys and tokens are read back.** -/
theorem keyedRowsOf_of_layout {text : Str} {rows : List (Str × List Str)}
    (h : Layout (rows.map keyedRow) text) : keyedRowsOf text = rows := by
  unfold keyedRowsOf
  rw [rows_of_layout h, List.filterMap_map]
  exact List.filterMap_some

end Sakai.Lib
