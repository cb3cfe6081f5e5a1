import Sakai.Lib.Layout

/-!
# Fragments: what a text is taken apart into

Everything that the operations of a line-oriented reader return is a contiguous part of the text
that they are given: pieces, lines, tokens, the two sides of a split, and what follows a prefix
(`<:+:` of `List`).

* `infix_of_mem_nonBlankLines`, `infix_of_mem_tokens`: the lines of a text and their tokens.
* `infix_of_splitOnce`, `infix_of_stripPrefix`: the parts of a token.
-/

namespace Sakai.Lib

variable {s : Str}

/-! ## Pieces -/

/-- The first piece starts the text, and every other one is a part of it. -/
lemma splitOnP_fragments (p : Char → Bool) (s : Str) :
    ∃ first rest, s.splitOnP p = first :: rest ∧ first <+: s ∧ ∀ piece ∈ rest, piece <:+: s := by
  induction s with
  | nil => exact ⟨[], [], List.splitOnP_nil, List.prefix_rfl, by simp⟩
  | cons c cs ih =>
      obtain ⟨first, rest, hsplit, hfirst, hrest⟩ := ih
      have htail : cs <:+: c :: cs := (List.suffix_cons c cs).isInfix
      rw [List.splitOnP_cons_eq_if_modifyHead, hsplit]
      by_cases hc : p c = true
      · rw [if_pos hc]
        refine ⟨[], first :: rest, rfl, List.nil_prefix, fun piece hpiece => ?_⟩
        rcases List.mem_cons.mp hpiece with rfl | hpiece
        · exact hfirst.isInfix.trans htail
        · exact (hrest piece hpiece).trans htail
      · rw [if_neg hc]
        refine ⟨c :: first, rest, rfl, List.prefix_cons_inj c |>.mpr hfirst, fun piece hpiece => ?_⟩
        exact (hrest piece hpiece).trans htail

/-- A piece is a part of the text. -/
lemma infix_of_mem_splitOnP {p : Char → Bool} {piece : Str} (h : piece ∈ s.splitOnP p) :
    piece <:+: s := by
  obtain ⟨first, rest, hsplit, hfirst, hrest⟩ := splitOnP_fragments p s
  rw [hsplit] at h
  rcases List.mem_cons.mp h with rfl | h
  · exact hfirst.isInfix
  · exact hrest piece h

/-- A part between separators is a part of the text. -/
lemma infix_of_mem_split {sep : Char} {part : Str} (h : part ∈ split sep s) : part <:+: s := by
  unfold split at h
  rw [List.splitOn_eq_splitOnP] at h
  exact infix_of_mem_splitOnP h

/-- A token is a part of the line. -/
lemma infix_of_mem_splitAsciiWhitespace {token : Str} (h : token ∈ splitAsciiWhitespace s) :
    token <:+: s :=
  infix_of_mem_splitOnP (List.mem_of_mem_filter h)

/-! ## Lines -/

/-- The pieces of a text make it up. -/
lemma flatten_splitInclusive (sep : Char) (s : Str) : (splitInclusive sep s).flatten = s := by
  induction s with
  | nil => rfl
  | cons c cs ih =>
      rw [splitInclusive]
      split_ifs
      · rw [List.flatten_cons, ih, List.singleton_append]
      · rcases hsplit : splitInclusive sep cs with _ | ⟨piece, rest⟩
        · rw [hsplit] at ih
          rw [← ih]
          rfl
        · rw [hsplit, List.flatten_cons] at ih
          rw [List.flatten_cons, List.cons_append, ih]

/-- What is left of a line without its ending starts the line. -/
lemma prefix_trimLineEnd (line : Str) : trimLineEnd line <+: line := by
  unfold trimLineEnd
  rcases hlf : ['\n'].isSuffixOf? line with _ | body
  · exact List.prefix_rfl
  · rw [List.isSuffixOf?_eq_some_iff_append_eq] at hlf
    have hbody : body <+: line := ⟨['\n'], hlf⟩
    show (['\r'].isSuffixOf? body).getD body <+: line
    rcases hcr : ['\r'].isSuffixOf? body with _ | shorter
    · exact hbody
    · rw [List.isSuffixOf?_eq_some_iff_append_eq] at hcr
      have hshorter : shorter <+: body := ⟨['\r'], hcr⟩
      exact hshorter.trans hbody

/-- A line is a part of the text. -/
lemma infix_of_mem_lines {line : Str} (h : line ∈ lines s) : line <:+: s := by
  unfold lines at h
  obtain ⟨piece, hpiece, rfl⟩ := List.mem_map.mp h
  have hinfix := List.infix_of_mem_flatten hpiece
  rw [flatten_splitInclusive] at hinfix
  exact (prefix_trimLineEnd piece).isInfix.trans hinfix

/-- A line that is not blank is a part of the text. -/
lemma infix_of_mem_nonBlankLines {line : Str} (h : line ∈ nonBlankLines s) : line <:+: s :=
  infix_of_mem_lines (List.mem_of_mem_filter h)

/-- A token of a line that is not blank is a part of the text. -/
lemma infix_of_mem_tokens {line : Str} {tokens : List Str} (hline : line ∈ nonBlankLines s)
    (htokens : splitAsciiWhitespace line = tokens) : ∀ token ∈ tokens, token <:+: s := by
  intro token htoken
  rw [← htokens] at htoken
  exact (infix_of_mem_splitAsciiWhitespace htoken).trans (infix_of_mem_nonBlankLines hline)

/-! ## Parts of a token -/

/-- The two sides of a split are parts of the text. -/
lemma infix_of_splitOnce {sep : Char} {e : Str × Str} (h : splitOnce sep s = some e) :
    e.1 <:+: s ∧ e.2 <:+: s := by
  obtain ⟨rfl, -⟩ := splitOnce_eq_some_iff.mp h
  have hright : e.2 <:+ e.1 ++ sep :: e.2 :=
    (List.suffix_cons sep e.2).trans (List.suffix_append e.1 (sep :: e.2))
  exact ⟨(List.prefix_append e.1 _).isInfix, hright.isInfix⟩

/-- What follows a prefix is a part of the text. -/
lemma infix_of_stripPrefix {start rest : Str} (h : stripPrefix start s = some rest) :
    rest <:+: s := by
  rw [← stripPrefix_eq_some_iff.mp h]
  exact (List.suffix_append start rest).isInfix

end Sakai.Lib
