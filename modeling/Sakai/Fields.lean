import Mathlib.Data.Fin.Tuple.Basic
import Mathlib.Data.List.OfFn
import Sakai.Encoding

/-!
# Files of a fixed number of fields

A file that is one line of fields is parsed by `Parser::parse` with one `next_field` call a field
(`Parser.nextFields`), each field with its own encoding, type and label.

* `fields_parse`: for any number of fields, which texts are accepted, which error the others give,
  and that white space does not matter otherwise.
* `Scalar.fromStr_eq_ok_iff`: the files of one field.
-/

namespace Sakai

open Lib

namespace Parser

variable {E : Type}

/-! ## Fields in order -/

/-- The fields of a line, decoded in order, each with its encoding and its label.
Source: the closures given to `Parser::parse`, one `Parser::next_field` call a field. -/
def nextFields : (n : ℕ) → (U T : Fin n → Type) → [∀ i, ParseCgroup (U i) (T i) E] →
    (Fin n → String) → ParserM E ((i : Fin n) → T i)
  | 0, _, _, _, _ => return fun i => i.elim0
  | n + 1, U, T, _, field => do
    let value ← nextField (U 0) (field 0)
    let values ← nextFields n (fun i => U i.succ) (fun i => T i.succ) fun i => field i.succ
    return Fin.cons value values

/-- The field is decoded from its token. -/
def Accepts {n : ℕ} (U T : Fin n → Type) [∀ i, ParseCgroup (U i) (T i) E] (tokens : List Str)
    (i : Fin n) : Prop :=
  ∃ token, ∃ v : T i, tokens[i.val]? = some token ∧ parseCgroup (U i) token = .ok v

/-- A field is rejected: there is no token for it, or the token is invalid. -/
def Rejects {n : ℕ} (U T : Fin n → Type) [∀ i, ParseCgroup (U i) (T i) E] (raw : Str)
    (field : Fin n → String) (tokens : List Str) (i : Fin n) (e : ParseError E) : Prop :=
  (tokens[i.val]? = none ∧ e = .missing raw (field i)) ∨
  ∃ token source, tokens[i.val]? = some token ∧
    (parseCgroup (U i) token : Except E (T i)) = .error source ∧
    e = .invalid raw (field i) token source

/-- The first field is rejected without a token, or with an invalid one. -/
lemma nextField_eq_error_iff {U T : Type} [ParseCgroup U T E] {field : String} {raw : Str}
    {tokens : List Str} {e : ParseError E} :
    (nextField U field : ParserM E T) ⟨raw, tokens⟩ = .error e ↔
      (tokens[0]? = none ∧ e = .missing raw field) ∨
      ∃ token source, tokens[0]? = some token ∧
        (parseCgroup U token : Except E T) = .error source ∧
        e = .invalid raw field token source := by
  unfold nextField nextRawField parseField
  rcases tokens with _ | ⟨token, rest⟩
  · simp only [bind_eq_error, Except.error.injEq, reduceCtorEq, false_and, exists_false, or_false,
      List.getElem?_nil, true_and]
    exact eq_comm
  · simp only [ok_bind, bind_eq_error, mapError_eq_error, pure_ne_error, and_false, exists_false,
      or_false, List.getElem?_cons_zero, reduceCtorEq, false_and, false_or, Option.some.injEq,
      exists_and_left, exists_eq_left']
    exact exists_congr fun source => and_congr_right fun _ => eq_comm

/-- The first field is decoded, and then the others. -/
lemma nextFields_succ_eq_ok_iff {n : ℕ} {U T : Fin (n + 1) → Type}
    [∀ i, ParseCgroup (U i) (T i) E] {field : Fin (n + 1) → String} {parser parser' : Parser}
    {v : (i : Fin (n + 1)) → T i} :
    nextFields (n + 1) U T field parser = .ok (v, parser') ↔
      ∃ next, nextField (U 0) (field 0) parser = .ok (v 0, next) ∧
        nextFields n (fun i => U i.succ) (fun i => T i.succ) (fun i => field i.succ) next =
          .ok ((fun i => v i.succ), parser') := by
  constructor
  · intro h
    obtain ⟨⟨value, next⟩, hvalue, h⟩ := bind_eq_ok.mp h
    obtain ⟨⟨values, last⟩, hvalues, h⟩ := bind_eq_ok.mp h
    cases h
    exact ⟨next, hvalue, hvalues⟩
  · intro h
    obtain ⟨next, hvalue, hvalues⟩ := h
    have hcons : Fin.cons (v 0) (fun i => v i.succ) = v := Fin.cons_self_tail v
    refine bind_eq_ok.mpr ⟨(v 0, next), hvalue, bind_eq_ok.mpr ⟨_, hvalues, ?_⟩⟩
    exact congrArg (fun w => Except.ok (w, parser')) hcons

/-- The first field is not decoded, or one of the others is not. -/
lemma nextFields_succ_eq_error_iff {n : ℕ} {U T : Fin (n + 1) → Type}
    [∀ i, ParseCgroup (U i) (T i) E] {field : Fin (n + 1) → String} {parser : Parser}
    {e : ParseError E} :
    nextFields (n + 1) U T field parser = .error e ↔
      (nextField (U 0) (field 0) : ParserM E (T 0)) parser = .error e ∨
      ∃ (value : T 0) (next : Parser), nextField (U 0) (field 0) parser = .ok (value, next) ∧
        nextFields n (fun i => U i.succ) (fun i => T i.succ) (fun i => field i.succ) next =
          .error e := by
  constructor
  · intro h
    obtain h | ⟨⟨value, next⟩, hvalue, h⟩ := bind_eq_error.mp h
    · exact Or.inl h
    · obtain h | ⟨_, -, h⟩ := bind_eq_error.mp h
      · exact Or.inr ⟨value, next, hvalue, h⟩
      · exact absurd h pure_ne_error
  · intro h
    obtain h | ⟨value, next, hvalue, h⟩ := h
    · exact bind_eq_error.mpr (Or.inl h)
    · exact bind_eq_error.mpr (Or.inr ⟨_, hvalue, bind_eq_error.mpr (Or.inl h)⟩)

/-- **Fields are decoded** exactly when each has a token that is accepted. -/
lemma nextFields_eq_ok_iff {n : ℕ} {U T : Fin n → Type} [∀ i, ParseCgroup (U i) (T i) E]
    {field : Fin n → String} {parser parser' : Parser} {v : (i : Fin n) → T i} :
    nextFields n U T field parser = .ok (v, parser') ↔
      ∃ token : Fin n → Str, parser.fields = List.ofFn token ++ parser'.fields ∧
        parser'.raw = parser.raw ∧ ∀ i, parseCgroup (U i) (token i) = .ok (v i) := by
  induction n generalizing parser with
  | zero =>
      have hv : v = fun i => i.elim0 := funext fun i => i.elim0
      obtain ⟨raw, tokens⟩ := parser
      obtain ⟨raw', tokens'⟩ := parser'
      show (pure ((fun i => i.elim0), _) : Except (ParseError E) (((i : Fin 0) → T i) × Parser)) =
        _ ↔ _
      rw [pure_eq_ok, hv]
      simp [and_comm, eq_comm]
  | succ n ih =>
      rw [nextFields_succ_eq_ok_iff]
      simp only [nextField_eq_ok_iff, ih, List.ofFn_succ]
      constructor
      · intro h
        obtain ⟨next, ⟨token, hfields, hraw, hv⟩, tokens, hnext, hraw', hvs⟩ := h
        refine ⟨Fin.cons token tokens, ?_, hraw'.trans hraw, ?_⟩
        · rw [hfields, hnext]
          rfl
        · exact Fin.cases hv hvs
      · intro h
        obtain ⟨token, hfields, hraw, hv⟩ := h
        refine ⟨⟨parser.raw, List.ofFn (fun i : Fin n => token i.succ) ++ parser'.fields⟩,
          ⟨token 0, hfields, rfl, hv 0⟩, fun i => token i.succ, rfl, hraw, fun i => hv i.succ⟩

/-- After the first token, the fields are those of the other tokens. -/
lemma forall_lt_succ_accepts {n : ℕ} {U T : Fin (n + 1) → Type}
    [∀ i, ParseCgroup (U i) (T i) E] {token : Str} {rest : List Str} {i : Fin n} :
    (∀ j < i.succ, Accepts U T (token :: rest) j) ↔
      Accepts U T (token :: rest) 0 ∧
        ∀ j < i, Accepts (fun i => U i.succ) (fun i => T i.succ) rest j := by
  rw [Fin.forall_fin_succ]
  simp only [Fin.succ_pos, forall_const, Fin.succ_lt_succ_iff]
  exact Iff.rfl

/-- **Fields are not decoded** exactly when one of them is rejected after all in front of it were
accepted. -/
lemma nextFields_eq_error_iff {n : ℕ} {U T : Fin n → Type} [∀ i, ParseCgroup (U i) (T i) E]
    {field : Fin n → String} {raw : Str} {tokens : List Str} {e : ParseError E} :
    nextFields n U T field ⟨raw, tokens⟩ = .error e ↔
      ∃ i, (∀ j < i, Accepts U T tokens j) ∧ Rejects U T raw field tokens i e := by
  induction n generalizing tokens with
  | zero =>
      constructor
      · exact fun h => absurd h pure_ne_error
      · exact fun h => h.choose.elim0
  | succ n ih =>
      rw [nextFields_succ_eq_error_iff, nextField_eq_error_iff]
      constructor
      · intro h
        obtain h | ⟨value, ⟨raw', rest⟩, hvalue, h⟩ := h
        · exact ⟨0, fun j hj => absurd hj (Fin.not_lt_zero j), h⟩
        · obtain ⟨token, htokens, hraw, hparse⟩ := nextField_eq_ok_iff.mp hvalue
          obtain rfl : tokens = token :: rest := htokens
          obtain rfl : raw' = raw := hraw
          obtain ⟨i, haccepts, hrejects⟩ := ih.mp h
          exact ⟨i.succ, forall_lt_succ_accepts.mpr ⟨⟨token, value, rfl, hparse⟩, haccepts⟩,
            hrejects⟩
      · intro h
        obtain ⟨i, haccepts, hrejects⟩ := h
        induction i using Fin.cases with
        | zero => exact Or.inl hrejects
        | succ i =>
            obtain ⟨token, value, htoken, hparse⟩ := haccepts 0 (Fin.succ_pos i)
            rcases tokens with _ | ⟨first, rest⟩
            · cases htoken
            · obtain rfl : first = token := Option.some.inj htoken
              obtain ⟨-, haccepts⟩ := forall_lt_succ_accepts.mp haccepts
              refine Or.inr ⟨value, ⟨raw, rest⟩, ?_, ih.mpr ⟨i, haccepts, hrejects⟩⟩
              exact nextField_eq_ok_iff.mpr ⟨first, rfl, rfl, hparse⟩

/-! ## A file of fields -/

/-- A line is rejected when its fields are, or when one is left. -/
lemma parseLine_eq_error_iff {T : Type} {raw line : Str} {f : ParserM E T} {e : ParseError E} :
    parseLine raw line f = .error e ↔
      f (new raw line) = .error e ∨
      ∃ (v : T) (parser : Parser), f (new raw line) = .ok (v, parser) ∧ parser.fields ≠ [] ∧
        e = .excess parser.raw := by
  have hfinish : ∀ parser : Parser, finish (E := E) parser = .error e ↔
      parser.fields ≠ [] ∧ e = .excess parser.raw := by
    intro parser
    obtain ⟨raw, _ | ⟨token, rest⟩⟩ := parser
    · simp [finish]
    · simp [finish, eq_comm]
  unfold parseLine
  simp only [bind_eq_error, pure_ne_error, and_false, exists_false, or_false, hfinish,
    Prod.exists]

section file

variable {n : ℕ} {U T : Fin n → Type} [∀ i, ParseCgroup (U i) (T i) E] {field : Fin n → String}
  {raw : Str}

/-- Tokens in front of others are those of the fields. -/
lemma getElem?_ofFn_append (token : Fin n → Str) (rest : List Str) (i : Fin n) :
    (List.ofFn token ++ rest)[i.val]? = some (token i) := by
  rw [List.getElem?_append_left (by simp)]
  simp

/-- Fields that are all accepted have tokens in front of the others. -/
lemma exists_ofFn_append {tokens : List Str} (h : ∀ i, Accepts U T tokens i) :
    ∃ (token : Fin n → Str) (v : (i : Fin n) → T i),
      tokens = List.ofFn token ++ tokens.drop n ∧
        ∀ i, parseCgroup (U i) (token i) = .ok (v i) := by
  choose token v htoken hparse using h
  refine ⟨token, v, ?_, hparse⟩
  have htake : tokens.take n = List.ofFn token := by
    apply List.ext_getElem?
    intro i
    by_cases hi : i < n
    · rw [List.getElem?_take_of_lt hi, htoken ⟨i, hi⟩]
      simp [hi]
    · rw [List.getElem?_eq_none (by rw [List.length_take]; omega),
        List.getElem?_eq_none (by rw [List.length_ofFn]; omega)]
  rw [← htake, List.take_append_drop]

/-- **A file of fields is accepted** exactly when it has a token for each, and all are. -/
lemma parse_nextFields_eq_ok_iff {v : (i : Fin n) → T i} :
    parse raw (nextFields n U T field) = .ok v ↔
      ∃ token : Fin n → Str, splitAsciiWhitespace raw = List.ofFn token ∧
        ∀ i, parseCgroup (U i) (token i) = .ok (v i) := by
  unfold parse
  rw [parseLine_eq_ok_iff]
  simp only [nextFields_eq_ok_iff]
  constructor
  · intro h
    obtain ⟨parser, ⟨token, htokens, -, hparse⟩, hnil⟩ := h
    rw [hnil, List.append_nil] at htokens
    exact ⟨token, htokens, hparse⟩
  · intro h
    obtain ⟨token, htokens, hparse⟩ := h
    exact ⟨⟨raw, []⟩, ⟨token, htokens.trans (List.append_nil _).symm, rfl, hparse⟩, rfl⟩

/-- **A file of fields is rejected** for its first field that is rejected, or else for a token in
excess. -/
lemma parse_nextFields_eq_error_iff {e : ParseError E} :
    parse raw (nextFields n U T field) = .error e ↔
      (∃ i, (∀ j < i, Accepts U T (splitAsciiWhitespace raw) j) ∧
        Rejects U T raw field (splitAsciiWhitespace raw) i e) ∨
      ((∀ i, Accepts U T (splitAsciiWhitespace raw) i) ∧
        n < (splitAsciiWhitespace raw).length ∧ e = .excess raw) := by
  unfold parse
  rw [parseLine_eq_error_iff]
  refine or_congr nextFields_eq_error_iff ?_
  simp only [nextFields_eq_ok_iff]
  constructor
  · intro h
    obtain ⟨v, parser, ⟨token, htokens, hraw, hparse⟩, hne, rfl⟩ := h
    have htokens : splitAsciiWhitespace raw = List.ofFn token ++ parser.fields := htokens
    have hraw : parser.raw = raw := hraw
    rw [htokens, hraw]
    refine ⟨fun i => ⟨token i, v i, getElem?_ofFn_append token _ i, hparse i⟩, ?_, rfl⟩
    have hpos := List.length_pos_iff.mpr hne
    rw [List.length_append, List.length_ofFn]
    omega
  · intro h
    obtain ⟨haccepts, hlt, rfl⟩ := h
    obtain ⟨token, v, htokens, hparse⟩ := exists_ofFn_append haccepts
    refine ⟨v, ⟨raw, (splitAsciiWhitespace raw).drop n⟩, ⟨token, htokens, rfl, hparse⟩, ?_, rfl⟩
    exact List.ne_nil_of_length_pos (by rw [List.length_drop]; omega)

/-- After accepted fields, a field without token is the first one beyond the tokens. -/
lemma getElem?_eq_none_iff_of_accepts {tokens : List Str} {i : Fin n}
    (h : ∀ j < i, Accepts U T tokens j) : tokens[i.val]? = none ↔ tokens.length = i.val := by
  rw [List.getElem?_eq_none_iff]
  refine ⟨fun hle => le_antisymm hle ?_, le_of_eq⟩
  by_contra hlt
  -- The field at the end of the tokens has a token, as it is in front of `i`.
  obtain ⟨token, -, htoken, -⟩ := h ⟨tokens.length, by omega⟩ (not_le.mp hlt)
  rw [List.getElem?_eq_none (le_refl _)] at htoken
  cases htoken

/-- **The failure of a file**, by the kind of the field that decides it. -/
lemma parse_nextFields_eq_error_cases {e : ParseError E} :
    parse raw (nextFields n U T field) = .error e ↔
      (∃ i token source, (∀ j < i, Accepts U T (splitAsciiWhitespace raw) j) ∧
        (splitAsciiWhitespace raw)[i.val]? = some token ∧
        (parseCgroup (U i) token : Except E (T i)) = .error source ∧
        e = .invalid raw (field i) token source) ∨
      (∃ i : Fin n, (∀ j < i, Accepts U T (splitAsciiWhitespace raw) j) ∧
        (splitAsciiWhitespace raw).length = i.val ∧ e = .missing raw (field i)) ∨
      ((∀ i, Accepts U T (splitAsciiWhitespace raw) i) ∧
        n < (splitAsciiWhitespace raw).length ∧ e = .excess raw) := by
  rw [parse_nextFields_eq_error_iff, ← or_assoc]
  refine or_congr_left ?_
  rw [← exists_or]
  refine exists_congr fun i => ?_
  simp only [exists_and_left, ← and_or_left]
  refine and_congr_right fun haccepts => ?_
  unfold Rejects
  rw [getElem?_eq_none_iff_of_accepts haccepts, or_comm]
  simp only [exists_and_left]

end file

end Parser

/-- Files of any number of fields, with any encodings, types and labels. A file is accepted exactly
when it has as many tokens as fields, each accepted as the value of its field. Otherwise the first
field whose token is invalid decides the error, as long as there is a token for each field before
it; then the first field without token; and then a token in excess. Up to the input that an error
retains, the result does not depend on the white space around and between the tokens. -/
theorem fields_parse {E : Type} (n : ℕ) (U T : Fin n → Type) [∀ i, ParseCgroup (U i) (T i) E]
    (field : Fin n → String) (raw : Str) :
    (∀ v, Parser.parse raw (Parser.nextFields n U T field) = .ok v ↔
      ∃ token : Fin n → Str, splitAsciiWhitespace raw = List.ofFn token ∧
        ∀ i, parseCgroup (U i) (token i) = .ok (v i)) ∧
    (∀ e, Parser.parse raw (Parser.nextFields n U T field) = .error e ↔
      (∃ i token source, (∀ j < i, Parser.Accepts U T (splitAsciiWhitespace raw) j) ∧
        (splitAsciiWhitespace raw)[i.val]? = some token ∧
        (parseCgroup (U i) token : Except E (T i)) = .error source ∧
        e = .invalid raw (field i) token source) ∨
      (∃ i : Fin n, (∀ j < i, Parser.Accepts U T (splitAsciiWhitespace raw) j) ∧
        (splitAsciiWhitespace raw).length = i.val ∧ e = .missing raw (field i)) ∨
      ((∀ i, Parser.Accepts U T (splitAsciiWhitespace raw) i) ∧
        n < (splitAsciiWhitespace raw).length ∧ e = .excess raw)) ∧
    ∀ tokens raw', Spaced tokens raw → Spaced tokens raw' →
      outcome (Parser.parse raw (Parser.nextFields n U T field)) =
        outcome (Parser.parse raw' (Parser.nextFields n U T field)) := by
  refine ⟨fun v => Parser.parse_nextFields_eq_ok_iff,
    fun e => Parser.parse_nextFields_eq_error_cases, ?_⟩
  intro tokens raw' hraw hraw'
  have hsame : splitAsciiWhitespace raw' = splitAsciiWhitespace raw := by
    rw [splitAsciiWhitespace_of_spaced hraw, splitAsciiWhitespace_of_spaced hraw']
  rcases hparse : Parser.parse raw (Parser.nextFields n U T field) with e | v
  · have herror := Parser.parse_nextFields_eq_error_cases.mp hparse
    rw [← hsame] at herror
    obtain ⟨i, token, source, haccepts, htoken, hsource, rfl⟩ | ⟨i, haccepts, hlength, rfl⟩ |
      ⟨haccepts, hlength, rfl⟩ := herror
    · rw [Parser.parse_nextFields_eq_error_cases.mpr
        (Or.inl ⟨i, token, source, haccepts, htoken, hsource, rfl⟩)]
      rfl
    · rw [Parser.parse_nextFields_eq_error_cases.mpr
        (Or.inr (Or.inl ⟨i, haccepts, hlength, rfl⟩))]
      rfl
    · rw [Parser.parse_nextFields_eq_error_cases.mpr (Or.inr (Or.inr ⟨haccepts, hlength, rfl⟩))]
      rfl
  · have hok := Parser.parse_nextFields_eq_ok_iff.mp hparse
    rw [← hsame] at hok
    rw [Parser.parse_nextFields_eq_ok_iff.mpr hok]

/-- Two counts are read alike from two lines and from one. -/
theorem fields_parse_spaced :
    outcome (Parser.parse "1 2".toList
        (Parser.nextFields 2 (fun _ => ParseCount) (fun _ => Count) fun _ => "count")) =
      outcome (Parser.parse "\t1\n2 ".toList
        (Parser.nextFields 2 (fun _ => ParseCount) (fun _ => Count) fun _ => "count")) := by
  have hone : Spaced ["1".toList, "2".toList] "1 2".toList := spaced_unwords (by decide)
  have htwo : Spaced ["1".toList, "2".toList]
      ("\t".toList ++ ("1".toList ++ ("\n".toList ++ ("2".toList ++ " ".toList)))) :=
    .cons (List.all_eq_true.mp rfl) (by decide) (by rintro c ⟨⟩; rfl)
      (.cons (List.all_eq_true.mp rfl) (by decide) (by rintro c ⟨⟩; rfl)
        (.nil (List.all_eq_true.mp rfl)))
  exact (fields_parse 2 (fun _ => ParseCount) (fun _ => Count) (fun _ => "count") _).2.2 _ _ hone
    htwo

/-- The error of a text retains the text: two spellings of no token give two errors. -/
theorem fields_parse_retains :
    ¬ ∀ tokens raw raw', Spaced tokens raw → Spaced tokens raw' →
      (Parser.parse raw (Parser.nextFields 1 (fun _ => ParseCount) (fun _ => Count)
        fun _ => "value") : Parsed (Fin 1 → Count)) =
      Parser.parse raw' (Parser.nextFields 1 (fun _ => ParseCount) (fun _ => Count)
        fun _ => "value") := by
  intro h
  have hempty : Spaced [] [] := Spaced.nil (by simp)
  have hspace : Spaced [] [' '] := Spaced.nil fun c hc => by rw [List.mem_singleton.mp hc]; rfl
  have hsame := h [] [] [' '] hempty hspace
  have hraw : (.error (.missing [] "value") : Parsed (Fin 1 → Count)) =
      .error (.missing [' '] "value") := hsame
  cases hraw

/-! ## Files of one field -/

namespace Parser

variable {T U E : Type} [ParseCgroup U T E] {raw : Str} {field : String}

/-- Parses exactly one typed value with its diagnostic field name.
Source: `parse/mod.rs`, `Parser::single`. -/
def single (U : Type) [ParseCgroup U T E] (raw : Str) (field : String) :
    Except (ParseError E) T :=
  parse raw (nextField U field)

/-- A single field is one of one. -/
lemma nextFields_one (parser : Parser) :
    nextFields 1 (fun _ => U) (fun _ => T) (fun _ => field) parser =
      (nextField U field parser : Except (ParseError E) (T × Parser)).map
        fun p => (fun _ => p.1, p.2) := by
  show ((nextField U field parser : Except (ParseError E) (T × Parser)) >>= _) = _
  rcases (nextField U field parser : Except (ParseError E) (T × Parser)) with e | ⟨value, next⟩
  · rfl
  · have hcons : (Fin.cons value (fun i => i.elim0) : Fin 1 → T) = fun _ => value := by
      funext i
      exact Fin.cases rfl (fun j => j.elim0) i
    exact congrArg (fun values => Except.ok (values, next)) hcons

/-- A file of a single field is one of one. -/
lemma single_eq_nextFields :
    (single U raw field : Except (ParseError E) T) =
      (parse raw (nextFields 1 (fun _ => U) (fun _ => T) fun _ => field)).map fun v => v 0 := by
  unfold single parse parseLine
  rw [nextFields_one]
  rcases (nextField U field (new raw raw) : Except (ParseError E) (T × Parser)) with e | ⟨v, next⟩
  · rfl
  · show (finish next >>= fun _ => .ok v) = (finish next >>= fun _ => .ok fun _ => v).map _
    cases (finish next : Except (ParseError E) (Unit × Parser)) <;> rfl

/-- **A file of one field** is one token that is accepted. -/
theorem single_eq_ok_iff {v : T} :
    single U raw field = .ok v ↔
      ∃ token, splitAsciiWhitespace raw = [token] ∧ parseCgroup U token = .ok v := by
  rw [single_eq_nextFields, map_eq_ok]
  simp only [parse_nextFields_eq_ok_iff]
  constructor
  · intro h
    obtain ⟨w, ⟨token, htokens, hparse⟩, rfl⟩ := h
    exact ⟨token 0, by simpa using htokens, hparse 0⟩
  · intro h
    obtain ⟨token, htokens, hparse⟩ := h
    exact ⟨fun _ => v, ⟨fun _ => token, by simpa using htokens, fun _ => hparse⟩, rfl⟩

end Parser

/-- The diagnostic label of a scalar interface.
Source: `scalar.rs`, `Interface`. -/
class Interface (I : Type) where
  /-- The label. -/
  FIELD : String

/-- A typed scalar snapshot, distinguished by its interface marker.
Source: `scalar.rs`, `Scalar`. -/
structure Scalar (T I : Type) where
  /-- The value in its declared units. -/
  value : T
  deriving DecidableEq, Repr

/-- The encoding of a scalar's value.
Source: `scalar.rs`, `ScalarValue`. -/
class ScalarValue (T : Type) where
  /-- The encoding marker. -/
  Encoding : Type

instance : ScalarValue Bool := ⟨ParseBoolean⟩
instance : ScalarValue Bytes := ⟨ParseBytes⟩
instance : ScalarValue Count := ⟨ParseCount⟩
instance : ScalarValue Time := ⟨ParseMicroseconds⟩
instance {T : Type} [ScalarValue T] : ScalarValue (MaxOr T) := ⟨ScalarValue.Encoding T⟩

namespace Scalar

variable {T I : Type} [ScalarValue T] [ParseCgroup (ScalarValue.Encoding T) T ParseValueError]
  [Interface I]

/-- Source: `scalar.rs`, `Scalar::from_str`. -/
def fromStr (contents : Str) : Parsed (Scalar T I) :=
  (Parser.single (ScalarValue.Encoding T) contents (Interface.FIELD I)).map Scalar.mk

/-- **A scalar is one token** in the encoding of its type, whatever the interface. -/
theorem fromStr_eq_ok_iff {contents : Str} {scalar : Scalar T I} :
    fromStr contents = .ok scalar ↔
      ∃ token, splitAsciiWhitespace contents = [token] ∧
        parseCgroup (ScalarValue.Encoding T) token = .ok scalar.value := by
  unfold fromStr
  rw [map_eq_ok]
  simp only [Parser.single_eq_ok_iff]
  constructor
  · intro h
    obtain ⟨v, hv, rfl⟩ := h
    exact hv
  · exact fun h => ⟨scalar.value, h, rfl⟩

end Scalar

end Sakai
