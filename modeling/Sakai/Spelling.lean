import Sakai.Hugetlb.NumaStat
import Sakai.Io.Weight
import Sakai.Memory.NumaStat

/-!
# Numeric keys with several spellings

A device or a memory node can be spelled in several ways (`8:0`, `08:0`). `Device.parse_lines` and
`MemoryNumaStat::parse_nodes` parse the keys first, so that the last line or token of an object
wins. `IoWeight` and `HugetlbNumaStat` collect the lines by spelling first: the last line of the
greatest spelling wins.

* `Device.lastRowWins_of_parseLines`, `MemoryNumaStat.lastRowWins_of_parseNodes`: the last row of an
  object wins.
* `last_spelling_wins`: exactly when it does in the other two readers.
-/

namespace Sakai

open Lib

variable {T U : Type}

/-! ## Keys parsed first -/

/-- What the tokens after a device are read as.
Source: `io/mod.rs`, the closure over the lines of `Device::parse_lines`. -/
def Device.ReadsFields (raw : Str) (parse : KeyedFields → Parsed T) (tokens : List Str) (v : T) :
    Prop :=
  tokens ≠ [] ∧ ∃ fields, KeyedFields.new raw (tokens.map (assignment raw)) = .ok fields ∧
    parse fields = .ok v

/-- How the lines of devices are converted. -/
lemma Device.converts (raw : Str) (parse : KeyedFields → Parsed T)
    (rows : List (Str × List Str)) :
    Converts Device.Names (Device.ReadsFields raw parse)
      (fun row => some (Device.parseRow raw parse (keyedRow row))) rows := by
  constructor
  · intro row _ hrow
    cases hrow
  · rintro ⟨name, tokens⟩ - device v
    unfold keyedRow Device.parseRow Device.ReadsFields
    simp only [Option.some.injEq, bind_eq_ok, Device.parse_eq_ok_iff]
    rcases tokens with _ | ⟨token, tokens⟩
    · simp
    · simp only [bind_eq_ok, pure_eq_ok, Prod.mk.injEq]
      constructor
      · rintro ⟨_, hnames, fields, hfields, _, hv, rfl, rfl⟩
        exact ⟨hnames, List.cons_ne_nil token tokens, fields, hfields, hv⟩
      · rintro ⟨hnames, -, fields, hfields, hv⟩
        exact ⟨device, hnames, fields, hfields, v, hv, rfl, rfl⟩

/-- **The last line of each device wins**, when devices are parsed first. -/
theorem Device.lastRowWins_of_parseLines {raw : Str} {parse : KeyedFields → Parsed T}
    {m : BTreeMap Device T} (h : Device.parseLines raw parse = .ok m) :
    LastRowWins Device.Names (Device.ReadsFields raw parse) (keyedRowsOf raw) m := by
  rw [Device.parseLines_eq, rowsOf_eq_map_keyedRow, List.map_map, ← List.filterMap_eq_map] at h
  exact lastRowWins_of_collect (Device.converts raw parse _) h

namespace MemoryNumaStat

variable [ParseCgroup U T ParseValueError] {raw : Str} {field : String} {tokens : List Str}

/-- The text of a node holds no `=`. -/
lemma not_mem_node {digits : Str} {n : ℕ} (h : IsNumeral digits n) : '=' ∉ 'N' :: digits := by
  rw [List.mem_cons, not_or]
  exact ⟨by decide, h.not_mem (by decide) (by decide)⟩

/-- Tokens of nodes are converted as their pairs are. -/
lemma map_parseNode {entries : List (UInt32 × T)}
    (h : tokens.map (parseNode U raw field) = entries.map .ok) :
    (pairsOfTokens tokens).filterMap (fun e => some (parseNode U raw field (assign e))) =
      entries.map .ok := by
  rw [← h]
  unfold pairsOfTokens
  rw [List.filterMap_filterMap, ← List.filterMap_eq_map]
  apply List.filterMap_congr
  intro token htoken
  obtain ⟨e, -, he⟩ := exists_value_of_mem h htoken
  obtain ⟨digits, value, rfl, hdigits, -⟩ := parseNode_eq_ok.mp he
  have hsplit : splitOnce '=' ('N' :: (digits ++ '=' :: value)) = some ('N' :: digits, value) :=
    splitOnce_append_cons (not_mem_node hdigits) value
  rw [hsplit]
  rfl

/-- How the tokens of nodes are converted. -/
lemma converts :
    Converts NamesNode (ReadsAs (T := T) U) (fun e => some (parseNode U raw field (assign e)))
      (pairsOfTokens tokens) := by
  constructor
  · intro e _ he
    cases he
  · intro e he node v
    obtain ⟨token, -, hsplit⟩ := List.mem_filterMap.mp he
    obtain ⟨-, hplain⟩ := splitOnce_eq_some_iff.mp hsplit
    rw [Option.some.injEq, parseNode_eq_ok]
    constructor
    · rintro ⟨digits, value, htext, hdigits, hv⟩
      have heq : e = ('N' :: digits, value) := assign_inj hplain (not_mem_node hdigits) htext
      rw [heq]
      exact ⟨⟨digits, rfl, hdigits⟩, hv⟩
    · rintro ⟨⟨digits, hkey, hdigits⟩, hv⟩
      exact ⟨digits, e.2, by rw [assign, hkey]; rfl, hdigits, hv⟩

/-- **The last token of each node wins**, when nodes are parsed first. -/
theorem lastRowWins_of_parseNodes {nodes : BTreeMap UInt32 T}
    (h : parseNodes U raw field tokens = .ok nodes) :
    LastRowWins NamesNode (ReadsAs U) (pairsOfTokens tokens) nodes := by
  obtain ⟨-, entries, hentries, rfl⟩ := parseNodes_eq_ok_iff.mp h
  exact lastRowWins_of_collect converts
    (collect_eq_ok_iff.mpr ⟨entries, map_parseNode hentries, rfl⟩)

end MemoryNumaStat

/-! ## Keys collected first -/

/-- **The last spelling wins exactly when the spellings agree.** In `io.weight` the last line of
each device wins exactly when it has the number of the last line with the device's greatest
spelling, and likewise the last token of each node in `hugetlb.<size>.numa_stat`. The readers that
parse the keys first let the last line or token of each object win on every text. -/
theorem last_spelling_wins (contents : Str) :
    (∀ weights, IoWeight.fromStr contents = .ok weights →
      (LastRowWins Device.Names (ReadsAs ParseWeight) (pairsOf contents) weights.devices ↔
        SpellingsAgree Device.Names (ReadsAs (T := Weight) ParseWeight) (pairsOf contents))) ∧
    (∀ stat, HugetlbNumaStat.fromStr contents = .ok stat →
      (LastRowWins NamesNode (ReadsAs ParseBytes) (HugetlbNumaStat.tokenPairs contents)
          stat.nodes ↔
        SpellingsAgree NamesNode (ReadsAs (T := Bytes) ParseBytes)
          (HugetlbNumaStat.tokenPairs contents))) ∧
    (∀ (T : Type) (parse : KeyedFields → Parsed T) (m : BTreeMap Device T),
      Device.parseLines contents parse = .ok m →
      LastRowWins Device.Names (Device.ReadsFields contents parse) (keyedRowsOf contents) m) ∧
    ∀ (U T : Type) [ParseCgroup U T ParseValueError] (field : String) (tokens : List Str)
      (nodes : BTreeMap UInt32 T), MemoryNumaStat.parseNodes U contents field tokens = .ok nodes →
      LastRowWins NamesNode (ReadsAs U) (pairsOfTokens tokens) nodes := by
  refine ⟨fun weights h => ?_, fun stat h => ?_,
    fun T parse m h => Device.lastRowWins_of_parseLines h,
    fun U T _ field tokens nodes h => MemoryNumaStat.lastRowWins_of_parseNodes h⟩
  · exact lastRowWins_iff (IoWeight.converts contents _) (IoWeight.collect_of_fromStr h).2
  · exact lastRowWins_iff (HugetlbNumaStat.converts contents _)
      (HugetlbNumaStat.collect_of_fromStr h)

/-- The last token of a node is read, however the node is spelled. -/
theorem last_spelling_wins_token :
    LastRowWins NamesNode (ReadsAs (T := Bytes) ParseBytes)
      (pairsOfTokens ["N0=1".toList, "N00=2".toList])
      (Std.ExtTreeMap.ofList [(0, ⟨2⟩)] compare) :=
  (last_spelling_wins []).2.2.2 ParseBytes Bytes "anon" _ _ (by rfl)

/-- Two lines of the device `8:0`, the later one with the lesser spelling. -/
def respelledWeights : Str := "default 100\n8:0 200\n08:0 50".toList

/-- Two tokens of the node 1, the later one with the lesser spelling. -/
def respelledNodes : Str := "total=0 N1=5 N01=7".toList

/-- The earlier line and the earlier token win when their spellings are greater. -/
theorem greater_spelling_wins :
    (∃ weights, IoWeight.fromStr respelledWeights = .ok weights ∧
      weights.devices[(⟨8, 0⟩ : Device)]? = some ⟨200, by decide, by decide⟩ ∧
      IsLast (Device.Names · ⟨8, 0⟩) (pairsOf respelledWeights) ("08:0".toList, "50".toList) ∧
      ¬ LastRowWins Device.Names (ReadsAs ParseWeight) (pairsOf respelledWeights)
        weights.devices) ∧
    ∃ stat, HugetlbNumaStat.fromStr respelledNodes = .ok stat ∧
      stat.nodes[(1 : UInt32)]? = some ⟨5⟩ ∧
      IsLast (NamesNode · 1) (HugetlbNumaStat.tokenPairs respelledNodes)
        ("N01".toList, "7".toList) ∧
      ¬ LastRowWins NamesNode (ReadsAs ParseBytes) (HugetlbNumaStat.tokenPairs respelledNodes)
        stat.nodes := by
  have hdevice : Device.Names "08:0".toList ⟨8, 0⟩ :=
    (Device.parse_eq_ok_iff : Device.parse [] _ = .ok _ ↔ _).mp rfl
  have hline : IsLast (Device.Names · ⟨8, 0⟩) (pairsOf respelledWeights)
      ("08:0".toList, "50".toList) :=
    ⟨[("default".toList, "100".toList), ("8:0".toList, "200".toList)], [], rfl, hdevice, by simp⟩
  have hnode : NamesNode "N01".toList 1 := ⟨"01".toList, rfl, Or.inl (by decide)⟩
  have htoken : IsLast (NamesNode · 1) (HugetlbNumaStat.tokenPairs respelledNodes)
      ("N01".toList, "7".toList) :=
    ⟨[("total".toList, "0".toList), ("N1".toList, "5".toList)], [], rfl, hnode, by simp⟩
  refine ⟨⟨_, rfl, rfl, hline, fun hwins => ?_⟩, ⟨_, rfl, rfl, htoken, fun hwins => ?_⟩⟩
  · obtain ⟨e, he, hread⟩ := hwins ⟨8, 0⟩ ⟨200, by decide, by decide⟩ rfl
    obtain rfl := hline.unique he
    revert hread
    decide
  · obtain ⟨e, he, hread⟩ := hwins 1 ⟨5⟩ rfl
    obtain rfl := htoken.unique he
    revert hread
    decide

end Sakai
