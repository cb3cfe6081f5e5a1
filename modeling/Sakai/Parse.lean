import Sakai.Error
import Sakai.Unit
import Sakai.Lib.Keyed
import Sakai.Lib.Layout

/-!
# Parsing one interface file

`ParseCgroup U T` says how a value of type `T` is decoded from the text of a field in the encoding
`U`; `Parser` takes the tokens of one line in turn; `KeyedFields` holds the key/value pairs of a
file or of a line, a later pair replacing an earlier one.

* **Keyed lines** (`KeyedFields.parse_eq_ok_iff`): a file is accepted exactly when each non-blank
  line has two tokens, and then holds the last value of each key.
* **Fields** (`required_eq_ok_iff`, `optional_eq_ok_iff`): what a typed lookup accepts; an absent
  optional field is not an error.
* **Congruence** (`outcome_required_congr`, `outcome_optional_congr`): up to the retained input, a
  lookup depends on the value of its key only.
* **Encodings** (`parseCount_eq_ok_iff`, `parseMicroseconds_eq_ok_iff`, ...): the texts that each
  encoding accepts, with their values.
-/

namespace Sakai

open Lib

variable {E T : Type}

/-- The result of a reader. -/
abbrev Parsed (T : Type) := Except (ParseError ParseValueError) T

/-! ## Decoding a field -/

/-- How a field of type `T` is decoded under the encoding marker `U`.
Source: `parse/mod.rs`, `ParseCgroup`. -/
class ParseCgroup (U T : Type) (E : outParam Type) where
  /-- Decodes the text of a field. -/
  parseCgroup : Str → Except E T

export ParseCgroup (parseCgroup)

/-- Decodes a field and attaches its source context to an error.
Source: `parse/mod.rs`, `ParseCgroup::parse_field`. -/
def parseField (U : Type) [ParseCgroup U T E] (raw : Str) (field : String) (value : Str) :
    Except (ParseError E) T :=
  (parseCgroup U value).mapError fun source => .invalid raw field value source

/-- A field is accepted exactly when its text is. -/
@[simp] lemma parseField_eq_ok {U : Type} [ParseCgroup U T E] {raw value : Str} {field : String}
    {v : T} : parseField U raw field value = .ok v ↔ parseCgroup U value = .ok v :=
  mapError_eq_ok

/-- The retained input is the only trace of it in a field's error. -/
lemma outcome_parseField {U : Type} [ParseCgroup U T E] (raw₁ raw₂ value : Str) (field : String) :
    outcome (parseField U raw₁ field value : Except (ParseError E) T) =
      outcome (parseField U raw₂ field value) := by
  unfold parseField
  cases (parseCgroup U value : Except E T) <;> rfl

/-! ## The tokens of a line -/

/-- A parser for the fields of one line, with the complete file for errors.
Source: `parse/mod.rs`, `Parser`. -/
structure Parser where
  /-- The complete file. -/
  raw : Str
  /-- The tokens left on the line. -/
  fields : List Str

/-- A computation that takes tokens from a parser. -/
abbrev ParserM (E T : Type) := StateT Parser (Except (ParseError E)) T

namespace Parser

/-- A parser for `fields` that records `raw` in errors.
Source: `parse/mod.rs`, `Parser::new`. -/
def new (raw fields : Str) : Parser := ⟨raw, splitAsciiWhitespace fields⟩

/-- The next field, uninterpreted.
Source: `parse/mod.rs`, `Parser::next_raw_field`. -/
def nextRawField (field : String) : ParserM E Str := fun parser =>
  match parser.fields with
  | [] => .error (.missing parser.raw field)
  | token :: rest => .ok (token, { parser with fields := rest })

/-- The next field, decoded.
Source: `parse/mod.rs`, `Parser::next_field`. -/
def nextField (U : Type) [ParseCgroup U T E] (field : String) : ParserM E T := fun parser => do
  let (value, parser) ← nextRawField field parser
  return (← parseField U parser.raw field value, parser)

/-- Fails if a field remains.
Source: `parse/mod.rs`, `Parser::finish`. -/
def finish : ParserM E Unit := fun parser =>
  match parser.fields with
  | [] => .ok ((), parser)
  | _ :: _ => .error (.excess parser.raw)

/-- Parses one line, rejecting fields left after `f` succeeds.
Source: `parse/mod.rs`, `Parser::parse_line`. -/
def parseLine (raw line : Str) (f : ParserM E T) : Except (ParseError E) T := do
  let (value, parser) ← f (new raw line)
  let _ ← finish parser
  return value

/-- Parses a whole file as one line.
Source: `parse/mod.rs`, `Parser::parse`. -/
def parse (raw : Str) (f : ParserM E T) : Except (ParseError E) T := parseLine raw raw f

/-- A decoded field takes one token. -/
lemma nextField_eq_ok_iff {U : Type} [ParseCgroup U T E] {field : String} {parser parser' : Parser}
    {v : T} :
    nextField U field parser = .ok (v, parser') ↔
      ∃ token, parser.fields = token :: parser'.fields ∧ parser'.raw = parser.raw ∧
        parseCgroup U token = .ok v := by
  obtain ⟨raw, tokens⟩ := parser
  obtain ⟨raw', tokens'⟩ := parser'
  unfold nextField nextRawField
  rcases tokens with _ | ⟨token, rest⟩
  · simp
  · simp only [ok_bind, bind_eq_ok, parseField_eq_ok, pure_eq_ok, Prod.mk.injEq, Parser.mk.injEq,
      List.cons.injEq]
    constructor
    · rintro ⟨w, hw, rfl, rfl, rfl⟩
      exact ⟨token, ⟨rfl, rfl⟩, rfl, hw⟩
    · rintro ⟨_, ⟨rfl, rfl⟩, rfl, hv⟩
      exact ⟨v, hv, rfl, rfl, rfl⟩

/-- **A line is accepted** when its fields are and none is left. -/
lemma parseLine_eq_ok_iff {raw line : Str} {f : ParserM E T} {v : T} :
    parseLine raw line f = .ok v ↔
      ∃ parser : Parser, f (new raw line) = .ok (v, parser) ∧ parser.fields = [] := by
  have hfinish : ∀ parser : Parser, ∀ r,
      finish (E := E) parser = .ok r ↔ parser.fields = [] ∧ r = ((), parser) := by
    rintro ⟨raw, _ | ⟨token, rest⟩⟩ r
    · simp [finish, eq_comm]
    · simp [finish]
  unfold parseLine
  simp only [bind_eq_ok, hfinish, pure_eq_ok]
  constructor
  · rintro ⟨⟨_, parser⟩, hf, _, ⟨hnil, -⟩, rfl⟩
    exact ⟨parser, hf, hnil⟩
  · rintro ⟨parser, hf, hnil⟩
    exact ⟨(v, parser), hf, _, ⟨hnil, rfl⟩, rfl⟩

/-- A key and its value, whose label in errors depends on the key.
Source: `parse/mod.rs`, the closure of `KeyedFields::parse`. -/
def keyValue (valueField : Str → String) : ParserM E (Str × Str) := do
  let key ← nextRawField "key"
  return (key, ← nextRawField (valueField key))

/-- What a key/value line is parsed to, by its tokens. -/
lemma parseLine_keyValue (raw line : Str) (valueField : Str → String) :
    parseLine raw line (keyValue (E := E) valueField) =
      match splitAsciiWhitespace line with
      | [] => .error (.missing raw "key")
      | [key] => .error (.missing raw (valueField key))
      | [key, value] => .ok (key, value)
      | _ => .error (.excess raw) := by
  unfold parseLine keyValue new
  rcases splitAsciiWhitespace line with _ | ⟨key, _ | ⟨value, _ | ⟨x, xs⟩⟩⟩ <;> rfl

/-- A key/value line is accepted exactly when it has two tokens. -/
lemma parseLine_keyValue_eq_ok_iff {raw line : Str} {valueField : Str → String} {e : Str × Str} :
    parseLine raw line (keyValue (E := E) valueField) = .ok e ↔
      splitAsciiWhitespace line = pairRow e := by
  rw [parseLine_keyValue]
  obtain ⟨k, v⟩ := e
  rcases splitAsciiWhitespace line with _ | ⟨key, _ | ⟨value, _ | ⟨x, xs⟩⟩⟩ <;>
    simp [pairRow]

end Parser

/-! ## Keyed values -/

/-- Keyed values with the complete source file for field errors.
Source: `parse/mod.rs`, `KeyedFields`. -/
structure KeyedFields where
  /-- The complete file. -/
  raw : Str
  /-- The last value of each key. -/
  values : BTreeMap Str Str

namespace KeyedFields

/-- Collects pairs, a later pair replacing an earlier one with its key.
Source: `parse/mod.rs`, `KeyedFields::new`. -/
def new (raw : Str) (fields : List (Except E (Str × Str))) : Except E KeyedFields :=
  (collect fields).map fun values => ⟨raw, values⟩

/-- Reads checked key/value lines.
Source: `parse/mod.rs`, `KeyedFields::parse`. -/
def parse (raw : Str) (valueField : Str → String) : Except (ParseError E) KeyedFields :=
  new raw ((nonBlankLines raw).map fun line =>
    Parser.parseLine raw line (Parser.keyValue valueField))

/-- Whether one of the keys is present.
Source: `parse/mod.rs`, `KeyedFields::contains_any`. -/
def containsAny (self : KeyedFields) (fields : List String) : Bool :=
  fields.any fun field => self.values.contains field.toList

/-- The pairs in key order.
Source: `parse/mod.rs`, `KeyedFields::iter`. -/
def iter (self : KeyedFields) : List (Str × Str) := self.values.toList

/-- The values under the keys that `select` accepts, with the names it makes of them.
Source: `core/state.rs` and `misc.rs`, the `filter_map` over `KeyedFields::iter`. -/
def selected (self : KeyedFields) (select : Str → Option Str) : List (Str × Str) :=
  self.iter.filterMap fun e => (select e.1).map fun name => (name, e.2)

/-- The typed value of a key that must be present.
Source: `parse/mod.rs`, `KeyedFields::required`. -/
def required (self : KeyedFields) (U : Type) [ParseCgroup U T E] (field : String) :
    Except (ParseError E) T :=
  match self.values[field.toList]? with
  | none => .error (.missing self.raw field)
  | some value => parseField U self.raw field value

/-- The typed value of a key, if it is present.
Source: `parse/mod.rs`, `KeyedFields::optional`. -/
def optional (self : KeyedFields) (U : Type) [ParseCgroup U T E] (field : String) :
    Except (ParseError E) (Option T) :=
  match self.values[field.toList]? with
  | none => .ok none
  | some value => (parseField U self.raw field value).map some

/-! ### What is read -/

/-- Collected pairs are read exactly when each result is a pair. -/
lemma new_eq_ok_iff {raw : Str} {fields : List (Except E (Str × Str))} {self : KeyedFields} :
    new raw fields = .ok self ↔
      ∃ entries : List (Str × Str), fields = entries.map .ok ∧
        self = ⟨raw, Std.ExtTreeMap.ofList entries compare⟩ := by
  rw [new, map_eq_ok]
  simp only [collect_eq_ok_iff]
  constructor
  · rintro ⟨-, ⟨entries, h, rfl⟩, rfl⟩
    exact ⟨entries, h, rfl⟩
  · rintro ⟨entries, h, rfl⟩
    exact ⟨_, ⟨entries, h, rfl⟩, rfl⟩

/-- **Keyed lines**: a file is accepted exactly when every non-blank line has two tokens, and it
then holds the last value of each key. -/
theorem parse_eq_ok_iff {raw : Str} {valueField : Str → String} {self : KeyedFields} :
    parse (E := E) raw valueField = .ok self ↔
      TwoTokens raw ∧ self = ⟨raw, Std.ExtTreeMap.ofList (pairsOf raw) compare⟩ := by
  have hlines : ∀ (lines : List Str) (entries : List (Str × Str)),
      lines.map (fun line => Parser.parseLine raw line (Parser.keyValue (E := E) valueField)) =
        entries.map .ok ↔ lines.map splitAsciiWhitespace = entries.map pairRow := by
    intro lines
    induction lines with
    | nil => intro entries; cases entries <;> simp
    | cons line lines ih =>
        intro entries
        rcases entries with _ | ⟨e, entries⟩
        · simp
        · simp only [List.map_cons, List.cons.injEq, Parser.parseLine_keyValue_eq_ok_iff, ih]
  rw [parse, new_eq_ok_iff]
  simp only [hlines]
  constructor
  · rintro ⟨entries, h, rfl⟩
    obtain ⟨htwo, hpairs⟩ := pairsOf_of_rowsOf h
    exact ⟨htwo, by rw [hpairs]⟩
  · rintro ⟨htwo, rfl⟩
    exact ⟨pairsOf raw, rowsOf_eq_map_pairRow htwo, rfl⟩

/-- The fields of a key/value text. -/
def ofText (raw : Str) : KeyedFields := ⟨raw, Std.ExtTreeMap.ofList (pairsOf raw) compare⟩

/-- A reader of keyed lines succeeds exactly when the text is a key/value text and the reader of
its fields succeeds. -/
lemma parse_bind_eq_ok {raw : Str} {valueField : Str → String}
    {fromFields : KeyedFields → Except (ParseError E) T} {v : T} :
    parse raw valueField >>= fromFields = .ok v ↔
      TwoTokens raw ∧ fromFields (ofText raw) = .ok v := by
  rw [bind_eq_ok]
  constructor
  · rintro ⟨self, hself, h⟩
    obtain ⟨htwo, rfl⟩ := parse_eq_ok_iff.mp hself
    exact ⟨htwo, h⟩
  · rintro ⟨htwo, h⟩
    exact ⟨ofText raw, parse_eq_ok_iff.mpr ⟨htwo, rfl⟩, h⟩

/-- A key/value text is accepted. -/
lemma parse_of_twoTokens {raw : Str} (h : TwoTokens raw) (valueField : Str → String) :
    parse (E := E) raw valueField = .ok (ofText raw) :=
  parse_eq_ok_iff.mpr ⟨h, rfl⟩

/-- The fields of a text hold the last value of each key. -/
lemma ofText_values (raw key : Str) :
    (ofText raw).values[key]? = lastValue key (pairsOf raw) :=
  getElem?_ofList (pairsOf raw) key

/-! ### What a lookup accepts -/

section lookup

variable {U : Type} [ParseCgroup U T E] {self : KeyedFields} {field : String}

/-- A required field is read exactly when it is present and its value is accepted. -/
lemma required_eq_ok_iff {v : T} :
    self.required U field = .ok v ↔
      ∃ value, self.values[field.toList]? = some value ∧ parseCgroup U value = .ok v := by
  unfold required
  cases self.values[field.toList]? <;> simp

/-- An optional field is read exactly when it is absent, or present with an accepted value. -/
lemma optional_eq_ok_iff {o : Option T} :
    self.optional U field = .ok o ↔
      (self.values[field.toList]? = none ∧ o = none) ∨
      ∃ value v, self.values[field.toList]? = some value ∧ parseCgroup U value = .ok v ∧
        o = some v := by
  unfold optional
  cases self.values[field.toList]? with
  | none => simp only [Except.ok.injEq, true_and, reduceCtorEq, false_and, exists_false, or_false,
      eq_comm]
  | some value => simp [map_eq_ok, eq_comm (a := o)]

/-- A required field whose text encodes `v` is read as `v`. -/
lemma required_of_encoded {value : Str} {v : T} (hget : self.values[field.toList]? = some value)
    (henc : parseCgroup U value = .ok v) : self.required U field = .ok v :=
  required_eq_ok_iff.mpr ⟨value, hget, henc⟩

/-- An optional field is read back from its printed value, and is absent when it is not printed. -/
lemma optional_of_encoded {enc : T → Str} {o : Option T}
    (hget : self.values[field.toList]? = o.map enc)
    (henc : ∀ v, o = some v → parseCgroup U (enc v) = .ok v) :
    self.optional U field = .ok o := by
  cases o with
  | none => exact optional_eq_ok_iff.mpr (Or.inl ⟨hget, rfl⟩)
  | some v => exact optional_eq_ok_iff.mpr (Or.inr ⟨enc v, v, hget, henc v rfl, rfl⟩)

/-- Some key of a list is present exactly when one of them has a value. -/
lemma containsAny_eq_true_iff {fields : List String} :
    self.containsAny fields = true ↔ ∃ field ∈ fields, self.values[field.toList]? ≠ none := by
  unfold containsAny
  rw [List.any_eq_true]
  refine exists_congr fun field => and_congr_right fun _ => ?_
  rw [Std.ExtTreeMap.contains_eq_isSome_getElem?, ← Option.isSome_iff_ne_none]

/-- None of the named keys is present when none of them has a value. -/
lemma containsAny_map_eq_false {F : Type} {fields : List F} {name : F → String}
    (h : ∀ f ∈ fields, self.values[(name f).toList]? = none) :
    self.containsAny (fields.map name) = false := by
  rw [← Bool.not_eq_true, containsAny_eq_true_iff]
  intro hsome
  obtain ⟨key, hkey, hne⟩ := hsome
  obtain ⟨f, hf, rfl⟩ := List.mem_map.mp hkey
  exact hne (h f hf)

end lookup

/-! ### Selected values -/

section selected

variable {self : KeyedFields} {select : Str → Option Str}

/-- The selected values are those of the selected keys. -/
lemma selected_eq_filterMap (self : KeyedFields) (select : Str → Option Str) :
    self.selected select = (self.iter.filter fun e => (select e.1).isSome).filterMap
      fun e => (select e.1).map fun name => (name, e.2) := by
  unfold selected
  rw [List.filterMap_filter]
  apply List.filterMap_congr
  intro e _
  cases select e.1 <;> rfl

/-- A value is selected under the name made of its key. -/
lemma mem_selected {name value : Str} :
    (name, value) ∈ self.selected select ↔
      ∃ key, self.values[key]? = some value ∧ select key = some name := by
  unfold selected iter
  simp only [List.mem_filterMap, Option.map_eq_some_iff, Prod.mk.injEq]
  constructor
  · rintro ⟨⟨key, value⟩, hmem, name, hname, rfl, rfl⟩
    exact ⟨key, Std.ExtTreeMap.mem_toList_iff_getElem?_eq_some.mp hmem, hname⟩
  · rintro ⟨key, hget, hname⟩
    exact ⟨(key, value), Std.ExtTreeMap.mem_toList_iff_getElem?_eq_some.mpr hget, name, hname, rfl,
      rfl⟩

/-- No name is selected twice, when different keys have different names. -/
lemma nodup_selected
    (hselect : ∀ key key' name, select key = some name → select key' = some name → key = key') :
    ((self.selected select).map Prod.fst).Nodup := by
  have hnames : (self.selected select).map Prod.fst =
      (self.iter.map Prod.fst).filterMap select := by
    unfold selected
    rw [List.map_filterMap, List.filterMap_map]
    apply List.filterMap_congr
    intro e _
    rw [Option.map_map, Function.comp_apply]
    exact Option.map_id'
  rw [hnames]
  exact List.Nodup.filterMap (fun key key' name h h' => hselect key key' name h h')
    (nodup_keys_toList self.values)

end selected

/-! ### What a lookup depends on -/

section congruence

variable {U : Type} [ParseCgroup U T E] {f₁ f₂ : KeyedFields} {field : String}

/-- Up to the retained input, a required field depends on the value of its key only. -/
lemma outcome_required_congr (h : f₁.values[field.toList]? = f₂.values[field.toList]?) :
    outcome (f₁.required U field : Except (ParseError E) T) = outcome (f₂.required U field) := by
  unfold required
  rw [h]
  cases f₂.values[field.toList]? with
  | none => rfl
  | some value => exact outcome_parseField f₁.raw f₂.raw value field

/-- Up to the retained input, an optional field depends on the value of its key only. -/
lemma outcome_optional_congr (h : f₁.values[field.toList]? = f₂.values[field.toList]?) :
    outcome (f₁.optional U field : Except (ParseError E) (Option T)) =
      outcome (f₂.optional U field) := by
  unfold optional
  rw [h]
  cases f₂.values[field.toList]? with
  | none => rfl
  | some value =>
      show outcome ((parseField U f₁.raw field value).map some) =
        outcome ((parseField U f₂.raw field value).map some)
      rw [outcome_map, outcome_map, outcome_parseField f₁.raw f₂.raw]

/-- The selected values depend on the values of the selected keys only. -/
lemma selected_congr {select : Str → Option Str}
    (h : ∀ key, (select key).isSome = true → f₁.values[key]? = f₂.values[key]?) :
    f₁.selected select = f₂.selected select := by
  rw [selected_eq_filterMap, selected_eq_filterMap]
  exact congrArg _ (filter_toList_congr h)

/-- Presence depends on the values of the listed keys only. -/
lemma containsAny_congr {fields : List String}
    (h : ∀ field ∈ fields, f₁.values[field.toList]? = f₂.values[field.toList]?) :
    f₁.containsAny fields = f₂.containsAny fields := by
  rw [Bool.eq_iff_iff, containsAny_eq_true_iff, containsAny_eq_true_iff]
  refine exists_congr fun field => and_congr_right fun hfield => ?_
  rw [h field hfield]

end congruence

end KeyedFields

end Sakai
