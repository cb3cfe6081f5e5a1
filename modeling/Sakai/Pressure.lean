import Sakai.Flat
import Sakai.Nested

/-!
# Pressure stall information

The `*.pressure` files: one line a kind, `some` or `full`, with four values as tokens `key=value`.
Lines of any other kind and tokens of any other key are skipped. How a percentage is converted to a
`Ratio` is a parameter, the instance of `ParsePercent`.

* `PressureLine.Reads tokens line`: what the tokens of a line mean; `readTokens_eq_ok_iff` says that
  they are read as such.
* `parsePressureLines_eq_ok_iff`: a file is accepted exactly when every line of a known kind is, and
  then holds the last line of each kind.
* `outcome_parsePressureLines`: lines of other kinds and tokens of other keys have no effect.
* `pressure_lines_by_kind`: what the two readers accept, and what they return.
-/

namespace Sakai

open Lib NamedEnum

variable {Ratio : Type}

/-! ## Lines -/

/-- A marker for percentages.
Source: `parse/mod.rs`, `ParsePercent`. -/
structure ParsePercent

/-- The rolling averages and the cumulative stall time of one line.
Source: `pressure.rs`, `PressureLine`. -/
structure PressureLine (Ratio : Type) where
  /-- The average over 10 seconds. -/
  avg10 : Ratio
  /-- The average over 60 seconds. -/
  avg60 : Ratio
  /-- The average over 300 seconds. -/
  avg300 : Ratio
  /-- The cumulative stall time. -/
  total : Time
  deriving DecidableEq, Repr

/-- The kind of a line.
Source: `pressure.rs`, `PressureKind`. -/
inductive PressureKind
  | some
  | full
  deriving DecidableEq, Repr

instance : NamedEnum PressureKind where
  all := [.some, .full]
  name
    | .some => "some"
    | .full => "full"
  mem_all := by intro kind; cases kind <;> decide
  nodup_names := by decide

/-- The keys of a line.
Source: `pressure.rs`, `PressureField`. -/
inductive PressureField
  | avg10
  | avg60
  | avg300
  | total
  deriving DecidableEq, Repr

/-- The printed name of a key. -/
def PressureField.name : PressureField → String
  | avg10 => "avg10"
  | avg60 => "avg60"
  | avg300 => "avg300"
  | total => "total"

instance : NamedEnum PressureField where
  all := [.avg10, .avg60, .avg300, .total]
  name := PressureField.name
  mem_all := by intro f; cases f <;> decide
  nodup_names := by decide

namespace PressureKind

/-- A token after the kind; one with an unknown key is skipped.
Source: `pressure.rs`, the `filter_map` closure of `PressureKind::parse`. -/
def parseToken (raw token : Str) : Option (Parsed (Str × Str)) :=
  match splitOnce '=' token with
  | .some (key, value) => (fromStr? (F := PressureField) key).map fun _ => .ok (key, value)
  | .none => .some (.error (.invalid raw "value" token .outOfRange))

/-- The kind and the fields of the tokens of a line; a line of an unknown kind is skipped.
Source: `pressure.rs`, `PressureKind::parse`. -/
def parseRow (raw : Str) : List Str → Parsed (Option (PressureKind × KeyedFields))
  | [] => .error (.missing raw "kind")
  | kind :: tokens =>
    match fromStr? kind with
    | .none => .ok .none
    | .some kind => do
      let fields ← KeyedFields.new raw (tokens.filterMap (parseToken raw))
      return .some (kind, fields)

/-- Source: `pressure.rs`, `PressureKind::parse`. -/
def parse (raw line : Str) : Parsed (Option (PressureKind × KeyedFields)) :=
  parseRow raw (splitAsciiWhitespace line)

end PressureKind

/-- `Result::transpose`. -/
def transpose {E T : Type} : Except E (Option T) → Option (Except E T)
  | .ok none => none
  | .ok (some v) => some (.ok v)
  | .error e => some (.error e)

section readers

variable [ParseCgroup ParsePercent Ratio ParseValueError]

/-- Source: `pressure.rs`, `PressureLine::from_fields`. -/
def PressureLine.fromFields (fields : KeyedFields) : Parsed (PressureLine Ratio) := do
  return {
    avg10 := ← fields.required ParsePercent PressureField.avg10.name
    avg60 := ← fields.required ParsePercent PressureField.avg60.name
    avg300 := ← fields.required ParsePercent PressureField.avg300.name
    total := ← fields.required ParseMicroseconds PressureField.total.name }

/-- The lines of a file that are not blank, collected by kind.
Source: `pressure.rs`, `parse_lines`. -/
def parsePressureLines (contents : Str) : Parsed (BTreeMap PressureKind (PressureLine Ratio)) :=
  collect (((nonBlankLines contents).filterMap fun line =>
      transpose (PressureKind.parse contents line)).map fun result => do
    let (kind, fields) ← result
    return (kind, ← PressureLine.fromFields fields))

/-- Pressure stall information.
Source: `pressure.rs`, `Pressure`. -/
structure Pressure (Ratio : Type) where
  /-- Pressure with some task stalled. -/
  some : PressureLine Ratio
  /-- Pressure with all tasks stalled, when reported. -/
  full : Option (PressureLine Ratio)

/-- Interrupt pressure.
Source: `pressure.rs`, `IrqPressure`. -/
structure IrqPressure (Ratio : Type) where
  /-- Pressure with all tasks stalled. -/
  full : PressureLine Ratio

/-- The line of a kind that must be present.
Source: `pressure.rs`, the `ok_or_else` of `Pressure::from_str` and `IrqPressure::from_str`. -/
def requiredLine (contents : Str) (lines : BTreeMap PressureKind (PressureLine Ratio))
    (kind : PressureKind) : Parsed (PressureLine Ratio) :=
  match lines[kind]? with
  | some line => .ok line
  | none => .error (.missing contents (NamedEnum.name kind))

/-- Source: `pressure.rs`, `Pressure::from_str`. -/
def Pressure.fromStr (contents : Str) : Parsed (Pressure Ratio) := do
  let lines ← parsePressureLines contents
  return { some := ← requiredLine contents lines .some, full := lines[PressureKind.full]? }

/-- Source: `pressure.rs`, `IrqPressure::from_str`. -/
def IrqPressure.fromStr (contents : Str) : Parsed (IrqPressure Ratio) := do
  let lines ← parsePressureLines contents
  return { full := ← requiredLine contents lines .full }

/-! ## What a line means -/

/-- The last value of the key among the tokens is converted to `v`. -/
def ShowsValue {T : Type} (U : Type) [ParseCgroup U T ParseValueError] (tokens : List Str)
    (f : PressureField) (v : T) : Prop :=
  ∃ value, lastValue (key f) (pairsOfTokens tokens) = some value ∧ parseCgroup U value = .ok v

/-- The tokens of a line mean `line`: each holds a `=`, and the last values of the four keys are
converted to the values of the line. -/
structure PressureLine.Reads (tokens : List Str) (line : PressureLine Ratio) : Prop where
  /-- Each token holds a `=`. -/
  assigns : ∀ token ∈ tokens, '=' ∈ token
  /-- The value of `avg10`. -/
  avg10 : ShowsValue ParsePercent tokens .avg10 line.avg10
  /-- The value of `avg60`. -/
  avg60 : ShowsValue ParsePercent tokens .avg60 line.avg60
  /-- The value of `avg300`. -/
  avg300 : ShowsValue ParsePercent tokens .avg300 line.avg300
  /-- The value of `total`. -/
  total : ShowsValue ParseMicroseconds tokens .total line.total

/-- The line of the tokens after a kind. -/
def readTokens (raw : Str) (tokens : List Str) : Parsed (PressureLine Ratio) := do
  let fields ← KeyedFields.new raw (tokens.filterMap (PressureKind.parseToken raw))
  PressureLine.fromFields fields

/-- The pairs of the tokens with a known key. -/
def knownPairs (tokens : List Str) : List (Str × Str) :=
  (pairsOfTokens tokens).filter fun e => (fromStr? (F := PressureField) e.1).isSome

/-- A token without `=` is an error. -/
lemma mem_of_map_ok {raw : Str} {tokens : List Str} {entries : List (Str × Str)}
    (h : tokens.filterMap (PressureKind.parseToken raw) = entries.map .ok) :
    ∀ token ∈ tokens, '=' ∈ token := by
  intro token htoken
  by_contra hno
  have herror : PressureKind.parseToken raw token =
      some (.error (.invalid raw "value" token .outOfRange)) := by
    rw [PressureKind.parseToken, splitOnce_eq_none_iff.mpr hno]
  have hmem := List.mem_filterMap.mpr ⟨token, htoken, herror⟩
  rw [h] at hmem
  obtain ⟨_, -, hok⟩ := List.mem_map.mp hmem
  cases hok

/-- Tokens that hold a `=` are the pairs with a known key. -/
lemma filterMap_parseToken (raw : Str) {tokens : List Str} (h : ∀ token ∈ tokens, '=' ∈ token) :
    tokens.filterMap (PressureKind.parseToken raw) = (knownPairs tokens).map .ok := by
  induction tokens with
  | nil => rfl
  | cons token tokens ih =>
      have htail := ih fun t ht => h t (List.mem_cons_of_mem token ht)
      have hsplit : splitOnce '=' token ≠ none := by
        rw [Ne, splitOnce_eq_none_iff, not_not]
        exact h token List.mem_cons_self
      obtain ⟨⟨key, value⟩, hpair⟩ := Option.ne_none_iff_exists'.mp hsplit
      unfold knownPairs pairsOfTokens at *
      rw [List.filterMap_cons_some hpair]
      cases hkey : fromStr? (F := PressureField) key with
      | none =>
          have hskip : PressureKind.parseToken raw token = none := by
            simp only [PressureKind.parseToken, hpair, hkey, Option.map_none]
          rw [List.filterMap_cons_none hskip, List.filter_cons_of_neg (by simp [hkey]), htail]
      | some f =>
          have hread : PressureKind.parseToken raw token = some (.ok (key, value)) := by
            simp only [PressureKind.parseToken, hpair, hkey, Option.map_some]
          rw [List.filterMap_cons_some hread, List.filter_cons_of_pos (by simp [hkey]),
            List.map_cons, htail]

/-- The fields of the tokens hold the last value of each known key. -/
lemma lastValue_knownPairs (tokens : List Str) (f : PressureField) :
    lastValue (key f) (knownPairs tokens) = lastValue (key f) (pairsOfTokens tokens) :=
  lastValue_filter (p := fun name => (fromStr? (F := PressureField) name).isSome)
    (by rw [fromStr?_key]; rfl) (pairsOfTokens tokens)

/-- What the fields of a line accept. -/
lemma PressureLine.fromFields_eq_ok_iff {fields : KeyedFields} {line : PressureLine Ratio} :
    fromFields fields = .ok line ↔
      fields.required ParsePercent PressureField.avg10.name = .ok line.avg10 ∧
      fields.required ParsePercent PressureField.avg60.name = .ok line.avg60 ∧
      fields.required ParsePercent PressureField.avg300.name = .ok line.avg300 ∧
      fields.required ParseMicroseconds PressureField.total.name = .ok line.total := by
  unfold fromFields
  simp only [bind_eq_ok, pure_eq_ok]
  constructor
  · rintro ⟨_, h₁, _, h₂, _, h₃, _, h₄, rfl⟩
    exact ⟨h₁, h₂, h₃, h₄⟩
  · rintro ⟨h₁, h₂, h₃, h₄⟩
    exact ⟨_, h₁, _, h₂, _, h₃, _, h₄, rfl⟩

/-- A field of the known pairs is the last value of its key among the tokens. -/
lemma required_knownPairs_iff {T U : Type} [ParseCgroup U T ParseValueError] {raw : Str}
    {tokens : List Str} {f : PressureField} {v : T} :
    (KeyedFields.ofPairs raw (knownPairs tokens)).required U f.name = .ok v ↔
      ShowsValue U tokens f v := by
  rw [KeyedFields.required_eq_ok_iff]
  show (∃ value, (KeyedFields.ofPairs raw (knownPairs tokens)).values[key f]? = some value ∧ _) ↔ _
  rw [KeyedFields.ofPairs_values, lastValue_knownPairs]
  rfl

/-- **The tokens of a line are read as what they mean.** -/
theorem readTokens_eq_ok_iff {raw : Str} {tokens : List Str} {line : PressureLine Ratio} :
    readTokens raw tokens = .ok line ↔ PressureLine.Reads tokens line := by
  unfold readTokens
  simp only [bind_eq_ok, KeyedFields.new_eq_ok_iff]
  constructor
  · rintro ⟨_, ⟨entries, hentries, rfl⟩, hline⟩
    have hassigns := mem_of_map_ok hentries
    rw [filterMap_parseToken raw hassigns] at hentries
    obtain rfl := List.map_injective_iff.mpr (fun _ _ => Except.ok.inj) hentries
    obtain ⟨h₁, h₂, h₃, h₄⟩ := PressureLine.fromFields_eq_ok_iff.mp hline
    exact ⟨hassigns, required_knownPairs_iff.mp h₁, required_knownPairs_iff.mp h₂,
      required_knownPairs_iff.mp h₃, required_knownPairs_iff.mp h₄⟩
  · intro h
    refine ⟨_, ⟨_, filterMap_parseToken raw h.assigns, rfl⟩,
      PressureLine.fromFields_eq_ok_iff.mpr ⟨?_, ?_, ?_, ?_⟩⟩
    · exact required_knownPairs_iff.mpr h.avg10
    · exact required_knownPairs_iff.mpr h.avg60
    · exact required_knownPairs_iff.mpr h.avg300
    · exact required_knownPairs_iff.mpr h.total

/-! ## The lines of a file -/

/-- A row of a known kind is parsed as its tokens are; any other row is skipped. -/
lemma transpose_parseRow (raw : Str) (row : Str × List Str) :
    (transpose (PressureKind.parseRow raw (keyedRow row))).map (fun result => do
        let (kind, fields) ← result
        return (kind, ← PressureLine.fromFields fields)) =
      (knownRow (readTokens raw) row :
        Option (Parsed (PressureKind × PressureLine Ratio))) := by
  obtain ⟨name, tokens⟩ := row
  unfold keyedRow PressureKind.parseRow knownRow readTokens
  rcases hkind : fromStr? (F := PressureKind) name with _ | kind
  · simp only [hkind]
    rfl
  · rcases hnew : KeyedFields.new raw (tokens.filterMap (PressureKind.parseToken raw))
      with e | fields
    · simp only [hkind, hnew]
      rfl
    · simp only [hkind, hnew, ok_bind]
      show some ((PressureLine.fromFields fields).bind fun line => .ok (kind, line)) =
        some ((PressureLine.fromFields fields).map fun line => (kind, line))
      rcases (PressureLine.fromFields fields : Parsed (PressureLine Ratio)) with e | line <;> rfl

/-- The lines of a file are its rows of a known kind. -/
lemma parsePressureLines_eq (contents : Str) :
    (parsePressureLines contents : Parsed (BTreeMap PressureKind (PressureLine Ratio))) =
      collect (knownRows (readTokens contents) (keyedRowsOf contents)) := by
  have hrows : (nonBlankLines contents).filterMap
      (fun line => transpose (PressureKind.parse contents line)) =
        (keyedRowsOf contents).filterMap
          fun row => transpose (PressureKind.parseRow contents (keyedRow row)) := by
    have hsplit := congrArg
      (List.filterMap fun row => transpose (PressureKind.parseRow contents row))
      (rowsOf_eq_map_keyedRow contents)
    rw [rowsOf, List.filterMap_map, List.filterMap_map] at hsplit
    exact hsplit
  unfold parsePressureLines knownRows
  rw [hrows, List.map_filterMap]
  refine congrArg collect (List.filterMap_congr fun row _ => ?_)
  exact transpose_parseRow contents row

/-- **The lines of a file are read exactly when each line of a known kind is**; the map holds what
the last line of each kind means. -/
theorem parsePressureLines_eq_ok_iff {contents : Str}
    {m : BTreeMap PressureKind (PressureLine Ratio)} :
    parsePressureLines contents = .ok m ↔
      (∀ (kind : PressureKind) tokens, (key kind, tokens) ∈ keyedRowsOf contents →
        ∃ line : PressureLine Ratio, line.Reads tokens) ∧
      ∀ kind : PressureKind, m[kind]? = (lastValue (key kind) (keyedRowsOf contents)).bind
        fun tokens => (readTokens contents tokens).toOption := by
  rw [parsePressureLines_eq, collect_knownRows_eq_ok_iff]
  simp only [readTokens_eq_ok_iff]

/-! ## The two readers -/

/-- The tokens of the last line of a kind mean `line`. -/
def LastReads (contents : Str) (kind : PressureKind) (line : PressureLine Ratio) : Prop :=
  ∃ tokens, lastValue (key kind) (keyedRowsOf contents) = some tokens ∧ line.Reads tokens

/-- Some line of the kind occurs. -/
def HasKind (contents : Str) (kind : PressureKind) : Prop :=
  ∃ tokens, (key kind, tokens) ∈ keyedRowsOf contents

/-- Every line of a known kind means something. -/
def LinesRead (Ratio : Type) [ParseCgroup ParsePercent Ratio ParseValueError]
    (contents : Str) : Prop :=
  ∀ (kind : PressureKind) tokens, (key kind, tokens) ∈ keyedRowsOf contents →
    ∃ line : PressureLine Ratio, line.Reads tokens

/-- A kind has a last line exactly when it occurs. -/
lemma hasKind_iff {contents : Str} {kind : PressureKind} :
    HasKind contents kind ↔ lastValue (key kind) (keyedRowsOf contents) ≠ none := by
  rw [Ne, lastValue_eq_none_iff]
  push Not
  constructor
  · rintro ⟨tokens, hrow⟩
    exact ⟨_, hrow, rfl⟩
  · rintro ⟨⟨name, tokens⟩, hrow, rfl⟩
    exact ⟨tokens, hrow⟩

section lines

variable {contents : Str} {m : BTreeMap PressureKind (PressureLine Ratio)}
  (h : parsePressureLines contents = .ok m)

include h

/-- The map holds a line exactly when the last line of its kind means it. -/
lemma getElem?_lines_eq_some_iff {kind : PressureKind} {line : PressureLine Ratio} :
    m[kind]? = some line ↔ LastReads contents kind line := by
  rw [(parsePressureLines_eq_ok_iff.mp h).2 kind, Option.bind_eq_some_iff]
  refine exists_congr fun tokens => and_congr_right fun _ => ?_
  have hline : line.Reads tokens ↔ readTokens contents tokens = .ok line :=
    readTokens_eq_ok_iff.symm
  rw [hline]
  rcases (readTokens contents tokens : Parsed (PressureLine Ratio)) with e | line' <;>
    simp [Except.toOption]

/-- The map holds no line exactly when the kind does not occur. -/
lemma getElem?_lines_eq_none_iff {kind : PressureKind} :
    m[kind]? = none ↔ ¬ HasKind contents kind := by
  obtain ⟨hread, hget⟩ := parsePressureLines_eq_ok_iff.mp h
  rw [hget kind, hasKind_iff, not_not]
  constructor
  · intro hnone
    rcases hlast : lastValue (key kind) (keyedRowsOf contents) with _ | tokens
    · rfl
    · obtain ⟨line, hline⟩ := hread kind tokens (mem_of_lastValue hlast)
      rw [hlast, Option.bind_some, readTokens_eq_ok_iff.mpr hline] at hnone
      cases hnone
  · intro hnone
    rw [hnone]
    rfl

/-- The line that must be present is read exactly when the map holds it. -/
lemma requiredLine_eq_ok_iff {kind : PressureKind} {line : PressureLine Ratio} :
    requiredLine contents m kind = .ok line ↔ LastReads contents kind line := by
  rw [← getElem?_lines_eq_some_iff h]
  unfold requiredLine
  cases m[kind]? <;> simp

end lines

/-- **What the readers accept**: a line of the kind they require, and only readable lines of the two
kinds. -/
lemma exists_requiredLine_iff {contents : Str} {kind : PressureKind} :
    (∃ m line, parsePressureLines contents = .ok m ∧
      (requiredLine contents m kind : Parsed (PressureLine Ratio)) = .ok line) ↔
      HasKind contents kind ∧ LinesRead Ratio contents := by
  constructor
  · rintro ⟨m, line, hlines, hline⟩
    have hsome := (getElem?_lines_eq_some_iff hlines).mpr
      ((requiredLine_eq_ok_iff hlines).mp hline)
    refine ⟨?_, (parsePressureLines_eq_ok_iff.mp hlines).1⟩
    by_contra hno
    rw [(getElem?_lines_eq_none_iff hlines).mpr hno] at hsome
    cases hsome
  · rintro ⟨hkind, hread⟩
    have hparsed : ∀ (kind : PressureKind) tokens, (key kind, tokens) ∈ keyedRowsOf contents →
        ∃ line : PressureLine Ratio, readTokens contents tokens = .ok line := by
      intro kind tokens hrow
      obtain ⟨line, hline⟩ := hread kind tokens hrow
      exact ⟨line, readTokens_eq_ok_iff.mpr hline⟩
    obtain ⟨entries, hentries⟩ := exists_knownRows_iff.mpr hparsed
    have hlines := collect_eq_ok_iff.mpr ⟨entries, hentries, rfl⟩
    rw [← parsePressureLines_eq] at hlines
    rcases hget : (Std.ExtTreeMap.ofList entries compare)[kind]? with _ | line
    · exact absurd hkind ((getElem?_lines_eq_none_iff hlines).mp hget)
    · exact ⟨_, line, hlines, (requiredLine_eq_ok_iff hlines).mpr
        ((getElem?_lines_eq_some_iff hlines).mp hget)⟩

/-! ### What has no effect -/

/-- A token whose key is not one of a line's. -/
def isSkipped (token : Str) : Bool :=
  (splitOnce '=' token).any fun e => (fromStr? (F := PressureField) e.1).isNone

/-- The rows of a text of the two kinds, without their skipped tokens. -/
def essentialRows (contents : Str) : List (Str × List Str) :=
  ((keyedRowsOf contents).filter fun row => (fromStr? (F := PressureKind) row.1).isSome).map
    fun row => (row.1, row.2.filter fun token => !isSkipped token)

/-- Skipped tokens do not matter. -/
lemma filterMap_parseToken_filter (raw : Str) (tokens : List Str) :
    (tokens.filter fun token => !isSkipped token).filterMap (PressureKind.parseToken raw) =
      tokens.filterMap (PressureKind.parseToken raw) := by
  rw [List.filterMap_filter]
  apply List.filterMap_congr
  intro token _
  unfold isSkipped PressureKind.parseToken
  rcases splitOnce '=' token with _ | ⟨name, value⟩
  · rfl
  · rcases hname : fromStr? (F := PressureField) name with _ | f <;> simp [hname]

/-- Lines of other kinds and skipped tokens do not matter. -/
lemma knownRows_essentialRows (raw contents : Str) :
    (knownRows (readTokens raw) (essentialRows contents) :
        List (Parsed (PressureKind × PressureLine Ratio))) =
      knownRows (readTokens raw) (keyedRowsOf contents) := by
  unfold knownRows essentialRows
  rw [List.filterMap_map, List.filterMap_filter]
  apply List.filterMap_congr
  intro row _
  unfold knownRow readTokens
  rcases hkind : fromStr? (F := PressureKind) row.1 with _ | kind
  · rfl
  · simp only [Option.isSome_some, if_true, Function.comp_apply, hkind,
      filterMap_parseToken_filter]

/-- Up to the retained input, a line depends on its values only. -/
lemma PressureLine.outcome_fromFields (raw₁ raw₂ : Str) (values : BTreeMap Str Str) :
    outcome (fromFields ⟨raw₁, values⟩ : Parsed (PressureLine Ratio)) =
      outcome (fromFields ⟨raw₂, values⟩) := by
  unfold fromFields
  refine outcome_bind_congr (KeyedFields.outcome_required_congr rfl) fun avg10 => ?_
  refine outcome_bind_congr (KeyedFields.outcome_required_congr rfl) fun avg60 => ?_
  refine outcome_bind_congr (KeyedFields.outcome_required_congr rfl) fun avg300 => ?_
  exact outcome_bind_congr (KeyedFields.outcome_required_congr rfl) fun total => rfl

/-- Up to the retained input, the tokens of a line are read the same in every file. -/
lemma outcome_readTokens (raw₁ raw₂ : Str) (tokens : List Str) :
    outcome (readTokens raw₁ tokens : Parsed (PressureLine Ratio)) =
      outcome (readTokens raw₂ tokens) := by
  have hread : ∀ raw, (readTokens raw tokens : Parsed (PressureLine Ratio)) =
      collect (tokens.filterMap (PressureKind.parseToken raw)) >>=
        fun values => PressureLine.fromFields ⟨raw, values⟩ := by
    intro raw
    unfold readTokens KeyedFields.new
    cases collect (tokens.filterMap (PressureKind.parseToken raw)) <;> rfl
  rw [hread, hread]
  refine outcome_bind_congr ?_ (PressureLine.outcome_fromFields raw₁ raw₂)
  unfold outcome
  rw [collect_mapError, collect_mapError, List.map_filterMap, List.map_filterMap]
  refine congrArg collect (List.filterMap_congr fun token _ => ?_)
  unfold PressureKind.parseToken
  rcases splitOnce '=' token with _ | ⟨name, value⟩
  · rfl
  · cases fromStr? (F := PressureField) name <;> rfl

/-- **What has no effect**: up to the retained input, the lines of a file depend on its essential
rows only. -/
lemma outcome_parsePressureLines {contents₁ contents₂ : Str}
    (h : essentialRows contents₁ = essentialRows contents₂) :
    outcome (parsePressureLines contents₁ :
        Parsed (BTreeMap PressureKind (PressureLine Ratio))) =
      outcome (parsePressureLines contents₂) := by
  rw [parsePressureLines_eq, parsePressureLines_eq, ← knownRows_essentialRows,
    ← knownRows_essentialRows, h]
  unfold outcome knownRows
  rw [collect_mapError, collect_mapError, List.map_filterMap, List.map_filterMap]
  refine congrArg collect (List.filterMap_congr fun row _ => ?_)
  unfold knownRow
  rcases fromStr? (F := PressureKind) row.1 with _ | kind
  · rfl
  · have hline : outcome (readTokens contents₁ row.2 : Parsed (PressureLine Ratio)) =
        outcome (readTokens contents₂ row.2) := outcome_readTokens contents₁ contents₂ row.2
    have hrow := congrArg (fun x => some (x.map fun line => (kind, line))) hline
    simp only [← outcome_map] at hrow
    exact hrow

omit [ParseCgroup ParsePercent Ratio ParseValueError] in
/-- Up to the retained input, the required line depends on the lines only. -/
lemma outcome_requiredLine (contents₁ contents₂ : Str)
    (m : BTreeMap PressureKind (PressureLine Ratio)) (kind : PressureKind) :
    outcome (requiredLine contents₁ m kind) = outcome (requiredLine contents₂ m kind) := by
  unfold requiredLine
  cases m[kind]? <;> rfl

/-- What a pressure file accepts: its lines, with one of the kind `some`. -/
lemma Pressure.fromStr_eq_ok_iff {contents : Str} {p : Pressure Ratio} :
    Pressure.fromStr contents = .ok p ↔
      ∃ m, parsePressureLines contents = .ok m ∧ requiredLine contents m .some = .ok p.some ∧
        m[PressureKind.full]? = p.full := by
  unfold Pressure.fromStr
  simp only [bind_eq_ok, pure_eq_ok]
  constructor
  · rintro ⟨m, hm, line, hline, rfl⟩
    exact ⟨m, hm, hline, rfl⟩
  · rintro ⟨m, hm, hline, hfull⟩
    exact ⟨m, hm, p.some, hline, by rw [hfull]⟩

/-- What an interrupt pressure file accepts: its lines, with one of the kind `full`. -/
lemma IrqPressure.fromStr_eq_ok_iff {contents : Str} {q : IrqPressure Ratio} :
    IrqPressure.fromStr contents = .ok q ↔
      ∃ m, parsePressureLines contents = .ok m ∧ requiredLine contents m .full = .ok q.full := by
  unfold IrqPressure.fromStr
  simp only [bind_eq_ok, pure_eq_ok]
  constructor
  · rintro ⟨m, hm, line, hline, rfl⟩
    exact ⟨m, hm, hline⟩
  · rintro ⟨m, hm, hline⟩
    exact ⟨m, hm, q.full, hline, rfl⟩

/-- The `full` line of a pressure file is the last one. -/
lemma Pressure.full_eq_some_iff {contents : Str} {p : Pressure Ratio}
    (h : Pressure.fromStr contents = .ok p) {line : PressureLine Ratio} :
    p.full = .some line ↔ LastReads contents .full line := by
  obtain ⟨m, hm, -, hfull⟩ := Pressure.fromStr_eq_ok_iff.mp h
  rw [← hfull, getElem?_lines_eq_some_iff hm]

/-- The `full` line of an interrupt pressure file is the last one. -/
lemma IrqPressure.lastReads_full {contents : Str} {q : IrqPressure Ratio}
    (h : IrqPressure.fromStr contents = .ok q) : LastReads contents .full q.full := by
  obtain ⟨m, hm, hline⟩ := IrqPressure.fromStr_eq_ok_iff.mp h
  exact (requiredLine_eq_ok_iff hm).mp hline

/-- **Each line is treated by its kind.** `Pressure` accepts a text exactly when some line is of the
kind `some` and every line of the two kinds means something; it holds the last line of each kind.
`IrqPressure` requires the kind `full` instead, and returns the same `full` line. Lines of other
kinds and tokens of other keys have no effect. -/
theorem pressure_lines_by_kind (contents : Str) :
    ((∃ p : Pressure Ratio, Pressure.fromStr contents = .ok p) ↔
      HasKind contents .some ∧ LinesRead Ratio contents) ∧
    ((∃ q : IrqPressure Ratio, IrqPressure.fromStr contents = .ok q) ↔
      HasKind contents .full ∧ LinesRead Ratio contents) ∧
    (∀ p : Pressure Ratio, Pressure.fromStr contents = .ok p →
      LastReads contents .some p.some ∧
      (∀ line, p.full = some line ↔ LastReads contents .full line) ∧
      (p.full = none ↔ ¬ HasKind contents .full)) ∧
    (∀ q : IrqPressure Ratio, IrqPressure.fromStr contents = .ok q →
      LastReads contents .full q.full) ∧
    (∀ (p : Pressure Ratio) (q : IrqPressure Ratio), Pressure.fromStr contents = .ok p →
      IrqPressure.fromStr contents = .ok q → p.full = some q.full) ∧
    ∀ contents', essentialRows contents' = essentialRows contents →
      outcome (Pressure.fromStr contents' : Parsed (Pressure Ratio)) =
        outcome (Pressure.fromStr contents) ∧
      outcome (IrqPressure.fromStr contents' : Parsed (IrqPressure Ratio)) =
        outcome (IrqPressure.fromStr contents) := by
  refine ⟨?_, ?_, ?_, fun q hq => IrqPressure.lastReads_full hq, ?_, ?_⟩
  · rw [← exists_requiredLine_iff]
    constructor
    · rintro ⟨p, hp⟩
      obtain ⟨m, hm, hline, -⟩ := Pressure.fromStr_eq_ok_iff.mp hp
      exact ⟨m, p.some, hm, hline⟩
    · rintro ⟨m, line, hm, hline⟩
      exact ⟨⟨line, m[PressureKind.full]?⟩, Pressure.fromStr_eq_ok_iff.mpr ⟨m, hm, hline, rfl⟩⟩
  · rw [← exists_requiredLine_iff]
    constructor
    · rintro ⟨q, hq⟩
      obtain ⟨m, hm, hline⟩ := IrqPressure.fromStr_eq_ok_iff.mp hq
      exact ⟨m, q.full, hm, hline⟩
    · rintro ⟨m, line, hm, hline⟩
      exact ⟨⟨line⟩, IrqPressure.fromStr_eq_ok_iff.mpr ⟨m, hm, hline⟩⟩
  · intro p hp
    obtain ⟨m, hm, hline, hfull⟩ := Pressure.fromStr_eq_ok_iff.mp hp
    refine ⟨(requiredLine_eq_ok_iff hm).mp hline, fun line => Pressure.full_eq_some_iff hp, ?_⟩
    rw [← hfull, getElem?_lines_eq_none_iff hm]
  · intro p q hp hq
    exact (Pressure.full_eq_some_iff hp).mpr (IrqPressure.lastReads_full hq)
  · intro contents' h
    have hlines : outcome (parsePressureLines contents' :
        Parsed (BTreeMap PressureKind (PressureLine Ratio))) =
          outcome (parsePressureLines contents) := outcome_parsePressureLines h
    unfold Pressure.fromStr IrqPressure.fromStr
    constructor
    · apply outcome_bind_congr hlines
      intro m
      exact outcome_bind_congr (outcome_requiredLine contents' contents m .some) fun line => rfl
    · apply outcome_bind_congr hlines
      intro m
      exact outcome_bind_congr (outcome_requiredLine contents' contents m .full) fun line => rfl

end readers

/-! ## A text of both kinds -/

/-- Percentages with two decimals, as the kernel prints them. -/
structure Hundredths where
  /-- The number of hundredths. -/
  value : ℕ
  deriving DecidableEq, Repr

namespace Hundredths

/-- A number with two decimals. -/
def parse (text : Str) : Except FloatErrorKind ℕ :=
  match splitOnce '.' text with
  | some (whole, fraction) =>
    match parseU64 whole, parseU64 fraction with
    | .ok whole, .ok hundredths =>
      if fraction.length = 2 then .ok (100 * whole.toNat + hundredths.toNat) else .error .invalid
    | _, _ => .error .invalid
  | none => .error .invalid

/-- A number from 0 to 100. -/
instance : ParseCgroup ParsePercent Hundredths ParseValueError where
  parseCgroup value := do
    let hundredths ← (parse value).mapError .float
    if hundredths ≤ 10000 then return ⟨hundredths⟩ else .error .outOfRange

end Hundredths

/-- A line of one kind and two of the other one, among a line of no kind. -/
def twoFullLines : Str :=
  ("some avg10=0.12 avg60=0.00 avg300=0.00 total=7\n" ++
    "full avg10=0.10 avg60=0.00 avg300=0.00 total=5\n" ++ "later x\n" ++
    "full avg10=0.05 new=1 avg60=0.00 avg300=0.00 total=6\n").toList

/-- Both readers take the last line of the second kind. -/
theorem pressure_lines_by_kind_last :
    ∃ (p : Pressure Hundredths) (q : IrqPressure Hundredths),
      Pressure.fromStr twoFullLines = .ok p ∧ IrqPressure.fromStr twoFullLines = .ok q ∧
        p.full = some q.full ∧ LastReads twoFullLines .full q.full := by
  obtain ⟨-, -, -, hlast, hfull, -⟩ := @pressure_lines_by_kind Hundredths _ twoFullLines
  have hsome : ∀ {T : Type} {x : Parsed T}, x.toOption.isSome = true → ∃ v, x = .ok v := by
    rintro T (error | v) h
    · cases h
    · exact ⟨v, rfl⟩
  obtain ⟨p, hp⟩ := hsome (x := (Pressure.fromStr twoFullLines : Parsed (Pressure Hundredths)))
    (by decide +kernel)
  obtain ⟨q, hq⟩ := hsome
    (x := (IrqPressure.fromStr twoFullLines : Parsed (IrqPressure Hundredths))) (by decide +kernel)
  exact ⟨p, q, hp, hq, hfull p q hp hq, hlast q hq⟩

end Sakai
