import Sakai.Lib.Fragment
import Sakai.Nested

/-!
# What a failed reader retains: the rules

An error of a reader keeps the input when it retains the complete text and reports no value that is
not a contiguous part of it. `Retains raw q x` says that the errors of `x` keep the input `raw` and
its values have the property `q`, so that a reader is followed step by step by the rules of `Ends`.

* **Errors** (`retains_missing`, `retains_excess`, `retains_invalid`, `retains_parseField`): what
  the constructors of an error keep.
* **Parsers** (`ParserM.Keeps`, `retains_parseLine`): a parser over a part of the text hands out
  parts of the text, and fails with errors that keep it.
* **Fields** (`KeyedFields.Within`): keyed fields whose keys and values are parts of the text;
  `retains_parse`, `retains_new` and `retains_assignments` establish it, and
  `KeyedFields.Within.required` and `.optional` use it.
-/

namespace Sakai

open Lib

variable {E T : Type} {raw : Str}

/-! ## Errors -/

namespace ParseError

/-- The error retains the complete input, and a value it reports is a part of it. -/
structure Keeps (raw : Str) (error : ParseError E) : Prop where
  /-- The complete input is retained. -/
  raw_eq : error.raw = raw
  /-- A reported value is a contiguous part of the input. -/
  infix_raw : ∀ value, error.value? = some value → value <:+: raw

end ParseError

/-- The errors keep the input, and the values have the property. -/
abbrev Retains (raw : Str) (q : T → Prop) (x : Except (ParseError E) T) : Prop :=
  Ends (ParseError.Keeps raw) q x

section errors

variable {q : T → Prop}

/-- A missing field keeps the input. -/
lemma retains_missing (name : String) :
    Retains raw q (.error (.missing raw name) : Except (ParseError E) T) :=
  ends_error ⟨rfl, by simp [ParseError.missing, ParseError.value?]⟩

/-- An excess field keeps the input. -/
lemma retains_excess : Retains raw q (.error (.excess raw) : Except (ParseError E) T) :=
  ends_error ⟨rfl, by simp [ParseError.excess, ParseError.value?]⟩

/-- An error that reports a part of the input keeps it. -/
lemma keeps_invalid {value : Str} (h : value <:+: raw) (field : String) (source : E) :
    (ParseError.invalid raw field value source).Keeps raw := by
  refine ⟨rfl, fun reported hreported => ?_⟩
  cases hreported
  exact h

/-- An invalid field keeps the input. -/
lemma retains_invalid {value : Str} (h : value <:+: raw) (field : String) (source : E) :
    Retains raw q (.error (.invalid raw field value source) : Except (ParseError E) T) :=
  ends_error (keeps_invalid h field source)

/-- A text that is decoded keeps the input, whatever the error of the decoder. -/
lemma retains_mapError {E' : Type} {value : Str} (h : value <:+: raw) (field : String)
    (x : Except E' T) (source : E' → E) :
    Retains raw (fun _ => True) (x.mapError fun error => .invalid raw field value (source error)) :=
  ends_mapError fun error => keeps_invalid h field (source error)

/-- A decoded field keeps the input. -/
lemma retains_parseField {U : Type} [ParseCgroup U T E] {value : Str} (h : value <:+: raw)
    (field : String) :
    Retains raw (fun _ => True) (parseField U raw field value : Except (ParseError E) T) :=
  retains_mapError h field (parseCgroup U value) id

end errors

/-- A pair of parts of the input. -/
def Parts (raw : Str) (e : Str × Str) : Prop := e.1 <:+: raw ∧ e.2 <:+: raw

/-- Results that keep the input keep it in sequence. -/
lemma retains_mapM {A : Type} {as : List A} {f : A → Except (ParseError E) T}
    (h : ∀ a ∈ as, Retains raw (fun _ => True) (f a)) :
    Retains raw (fun _ => True) ((as.map f).mapM id) := by
  have hresults : ∀ r ∈ as.map f, Retains raw (fun _ => True) r := by
    intro r hr
    obtain ⟨a, ha, rfl⟩ := List.mem_map.mp hr
    exact h a ha
  exact (ends_mapM_id hresults).mono fun _ _ => trivial

/-- Pairs that keep the input keep it when they are collected. -/
lemma retains_collect {A K V : Type} [Ord K] {as : List A}
    {f : A → Except (ParseError E) (K × V)}
    (h : ∀ a ∈ as, Retains raw (fun _ => True) (f a)) :
    Retains raw (fun _ => True) (collect (as.map f)) := by
  unfold collect
  exact (retains_mapM h).map fun _ _ => trivial

/-! ## Parsers -/

/-- The parser records the complete input, and the tokens left are parts of it. -/
structure Parser.Within (raw : Str) (parser : Parser) : Prop where
  /-- The complete input is recorded. -/
  raw_eq : parser.raw = raw
  /-- A token is a part of the input. -/
  infix_raw : ∀ token ∈ parser.fields, token <:+: raw

/-- From a parser over the input, the errors keep the input, and otherwise such a parser is left
with a value that has the property. -/
def ParserM.Keeps (raw : Str) (q : T → Prop) (f : ParserM E T) : Prop :=
  ∀ parser : Parser, parser.Within raw →
    Retains raw (fun r : T × Parser => q r.1 ∧ r.2.Within raw) (f parser)

namespace Parser

/-- A parser over a part of the input. -/
lemma within_new {line : Str} (h : line <:+: raw) : (new raw line).Within raw :=
  ⟨rfl, fun _ htoken => (infix_of_mem_splitAsciiWhitespace htoken).trans h⟩

/-- A computation without effect keeps the input. -/
lemma keeps_pure {q : T → Prop} {v : T} (h : q v) : ParserM.Keeps raw q (pure v : ParserM E T) :=
  fun _ hparser => ends_ok ⟨h, hparser⟩

/-- **Sequences** keep the input when their steps do. -/
lemma keeps_bind {T' : Type} {q : T → Prop} {r : T' → Prop} {f : ParserM E T}
    {g : T → ParserM E T'} (hf : ParserM.Keeps raw q f)
    (hg : ∀ v, q v → ParserM.Keeps raw r (g v)) : ParserM.Keeps raw r (f >>= g) :=
  fun parser hparser => (hf parser hparser).bind fun v hv => hg v.1 hv.1 v.2 hv.2

/-- A raw field is a part of the input. -/
lemma keeps_nextRawField (field : String) :
    ParserM.Keeps (E := E) raw (fun token => token <:+: raw) (nextRawField field) := by
  rintro ⟨_, tokens⟩ ⟨rfl, htokens⟩
  rcases tokens with _ | ⟨token, rest⟩
  · exact retains_missing field
  · refine ends_ok ⟨htokens token List.mem_cons_self, rfl, fun t ht => ?_⟩
    exact htokens t (List.mem_cons_of_mem token ht)

/-- A decoded field keeps the input. -/
lemma keeps_nextField {U : Type} [ParseCgroup U T E] (field : String) :
    ParserM.Keeps raw (fun _ : T => True) (nextField U field) := by
  intro parser hparser
  refine (keeps_nextRawField field parser hparser).bind fun v hv => ?_
  obtain ⟨value, parser'⟩ := v
  obtain ⟨hvalue, hparser'⟩ := hv
  rw [← hparser'.raw_eq] at hvalue ⊢
  exact (retains_parseField hvalue field).bind fun w _ => ends_ok ⟨trivial, rfl, by
    rw [hparser'.raw_eq]
    exact hparser'.infix_raw⟩

/-- **A line** that is a part of the input is parsed as its fields are. -/
lemma retains_parseLine {line : Str} (hline : line <:+: raw) {q : T → Prop} {f : ParserM E T}
    (hf : ParserM.Keeps raw q f) : Retains raw q (parseLine raw line f) := by
  refine (hf (new raw line) (within_new hline)).bind fun v hv => ?_
  obtain ⟨value, parser⟩ := v
  obtain ⟨hvalue, rfl, -⟩ := hv
  rcases parser with ⟨_, _ | ⟨token, rest⟩⟩
  · exact ends_ok hvalue
  · exact retains_excess

/-- A key/value line is a pair of parts of the input. -/
lemma keeps_keyValue (valueField : Str → String) :
    ParserM.Keeps (E := E) raw (Parts raw) (keyValue valueField) := by
  refine keeps_bind (keeps_nextRawField "key") fun key hkey => ?_
  refine keeps_bind (keeps_nextRawField (valueField key)) fun value hvalue => ?_
  exact keeps_pure ⟨hkey, hvalue⟩

end Parser

/-! ## Keyed fields -/

namespace KeyedFields

/-- The fields record the complete input, and their keys and values are parts of it. -/
structure Within (raw : Str) (fields : KeyedFields) : Prop where
  /-- The complete input is recorded. -/
  raw_eq : fields.raw = raw
  /-- Keys and values are parts of the input. -/
  parts : ∀ key value, fields.values[key]? = some value → Parts raw (key, value)

/-- **Collected pairs** of parts of the input are fields within it. -/
lemma retains_new {fields : List (Except (ParseError E) (Str × Str))}
    (h : ∀ r ∈ fields, Retains raw (Parts raw) r) : Retains raw (Within raw) (new raw fields) := by
  unfold new
  apply (ends_collect h).map
  intro values hvalues
  obtain ⟨entries, rfl, hparts⟩ := hvalues
  refine ⟨rfl, fun key value hget => ?_⟩
  rw [getElem?_ofList] at hget
  exact hparts _ (mem_of_lastValue hget)

/-- **The fields of a key/value file** are fields within it. -/
lemma retains_parse (raw : Str) (valueField : Str → String) :
    Retains (E := E) raw (Within raw) (parse raw valueField) := by
  apply retains_new
  intro r hr
  obtain ⟨line, hline, rfl⟩ := List.mem_map.mp hr
  exact Parser.retains_parseLine (infix_of_mem_nonBlankLines hline)
    (Parser.keeps_keyValue valueField)

/-- An assignment is a pair of parts of its token. -/
lemma retains_assignment {token : Str} (h : token <:+: raw) :
    Retains raw (Parts raw) (assignment raw token) := by
  unfold assignment
  rcases hsplit : splitOnce '=' token with _ | e
  · exact retains_invalid h "value" ParseValueError.outOfRange
  · obtain ⟨hkey, hvalue⟩ := infix_of_splitOnce hsplit
    exact ends_ok ⟨hkey.trans h, hvalue.trans h⟩

/-- **The assignments of a line** are fields within the input. -/
lemma retains_assignments {tokens : List Str} (h : ∀ token ∈ tokens, token <:+: raw) :
    Retains raw (Within raw) (new raw (tokens.map (assignment raw))) := by
  apply retains_new
  intro r hr
  obtain ⟨token, htoken, rfl⟩ := List.mem_map.mp hr
  exact retains_assignment (h token htoken)

namespace Within

variable {U : Type} [ParseCgroup U T E] {fields : KeyedFields} (h : fields.Within raw)

include h

/-- A required field keeps the input. -/
lemma required (field : String) :
    Retains raw (fun _ => True) (fields.required U field : Except (ParseError E) T) := by
  obtain ⟨rfl, hparts⟩ := h
  unfold KeyedFields.required
  rcases hget : fields.values[field.toList]? with _ | value
  · exact retains_missing field
  · exact retains_parseField (hparts _ value hget).2 field

/-- An optional field keeps the input. -/
lemma optional (field : String) :
    Retains raw (fun _ => True) (fields.optional U field : Except (ParseError E) (Option T)) := by
  obtain ⟨rfl, hparts⟩ := h
  unfold KeyedFields.optional
  rcases hget : fields.values[field.toList]? with _ | value
  · exact ends_ok trivial
  · exact (retains_parseField (hparts _ value hget).2 field).map fun _ _ => trivial

omit [ParseCgroup U T E]

/-- The pairs are parts of the input. -/
lemma iter {e : Str × Str} (he : e ∈ fields.iter) : Parts raw e :=
  h.parts e.1 e.2 (Std.ExtTreeMap.mem_toList_iff_getElem?_eq_some.mp he)

/-- Selected pairs are parts of the input when the names are parts of their keys. -/
lemma selected {select : Str → Option Str}
    (hselect : ∀ key name, select key = some name → name <:+: key) {e : Str × Str}
    (he : e ∈ fields.selected select) : Parts raw e := by
  obtain ⟨key, hget, hname⟩ := mem_selected.mp he
  obtain ⟨hkey, hvalue⟩ := h.parts key e.2 hget
  exact ⟨(hselect key e.1 hname).trans hkey, hvalue⟩

end Within

end KeyedFields

end Sakai
