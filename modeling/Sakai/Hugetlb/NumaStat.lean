import Sakai.Nested
import Sakai.Lib.Spelling

/-!
# `hugetlb.<size>.numa_stat`

One total and the usage of each memory node, as tokens `total=<bytes>` and `N<id>=<bytes>`. The
tokens are collected by key before the keys are parsed as nodes.

* `HugetlbNumaStat.collect_of_fromStr`: the nodes are collected from the last values of the keys.
* `HugetlbNumaStat.converts`: how they are converted.
-/

namespace Sakai

open Lib

/-- The key names the memory node: `N` and a numeral. -/
def NamesNode (key : Str) (node : UInt32) : Prop :=
  ∃ digits, key = 'N' :: digits ∧ IsNumeral digits node.toNat

/-- A snapshot of `hugetlb.<size>.numa_stat`.
Source: `hugetlb.rs`, `HugetlbNumaStat`. -/
structure HugetlbNumaStat where
  /-- The usage of all nodes. -/
  total : Bytes
  /-- The usage of each node. -/
  nodes : BTreeMap UInt32 Bytes

namespace HugetlbNumaStat

/-- The key of a node, with the text after `N`, and its value.
Source: `hugetlb.rs`, the `filter_map` closure of `HugetlbNumaStat::from_str`. -/
def nodeOf? (e : Str × Str) : Option (Str × Str × Str) :=
  (stripPrefix ['N'] e.1).map fun node => (e.1, node, e.2)

/-- The usage of a node.
Source: `hugetlb.rs`, the `map` closure of `HugetlbNumaStat::from_str`. -/
def nodeUsage (contents : Str) : Str × Str × Str → Parsed (UInt32 × Bytes)
  | (key, node, value) => do
    let node ← (parseU32 node).mapError fun error => .invalid contents "node" key (.integer error)
    return (node, ← parseField ParseBytes contents "usage" value)

/-- Source: `hugetlb.rs`, `HugetlbNumaStat::from_str`. -/
def fromStr (contents : Str) : Parsed HugetlbNumaStat := do
  let fields ← KeyedFields.new contents
    ((splitAsciiWhitespace contents).map (assignment contents))
  let total ← fields.required ParseBytes "total"
  let nodes ← collect ((fields.iter.filterMap nodeOf?).map (nodeUsage contents))
  return { total, nodes }

/-- The pairs of the tokens of a text. -/
def tokenPairs (contents : Str) : List (Str × Str) :=
  pairsOfTokens (splitAsciiWhitespace contents)

/-- The nodes of a text are collected from its pairs, each key with its last value. -/
lemma collect_of_fromStr {contents : Str} {stat : HugetlbNumaStat}
    (h : fromStr contents = .ok stat) :
    collect ((Std.ExtTreeMap.ofList (tokenPairs contents) compare).toList.filterMap fun e =>
      (nodeOf? e).map (nodeUsage contents)) = .ok stat.nodes := by
  unfold fromStr at h
  simp only [bind_eq_ok, KeyedFields.new_assignment_eq_ok_iff, pure_eq_ok] at h
  obtain ⟨_, ⟨pairs, hplain, htokens, rfl⟩, total, -, nodes, hnodes, rfl⟩ := h
  have hpairs : tokenPairs contents = pairs := by
    unfold tokenPairs
    rw [htokens, pairsOfTokens_assign hplain]
  rw [List.map_filterMap] at hnodes
  rw [hpairs]
  exact hnodes

/-- How the pairs are converted to the usage of nodes. -/
lemma converts (contents : Str) (rows : List (Str × Str)) :
    Converts NamesNode (ReadsAs ParseBytes)
      (fun e => (nodeOf? e).map (nodeUsage contents)) rows := by
  constructor
  · rintro ⟨key, value⟩ - he node ⟨digits, rfl, -⟩
    have hstrip : stripPrefix ['N'] ('N' :: digits) = some digits :=
      stripPrefix_eq_some_iff.mpr rfl
    unfold nodeOf? at he
    rw [hstrip] at he
    cases he
  · rintro ⟨key, value⟩ - node usage
    unfold nodeOf? nodeUsage
    constructor
    · intro h
      simp only [Option.map_map, Option.map_eq_some_iff, Function.comp_apply, bind_eq_ok,
        mapError_eq_ok, parseU32_eq_ok_iff, parseField_eq_ok, pure_eq_ok, Prod.mk.injEq] at h
      obtain ⟨digits, hstrip, _, hnode, _, husage, rfl, rfl⟩ := h
      exact ⟨⟨digits, (stripPrefix_eq_some_iff.mp hstrip).symm, hnode⟩, husage⟩
    · rintro ⟨⟨digits, rfl, hnode⟩, husage⟩
      have hstrip : stripPrefix ['N'] ('N' :: digits) = some digits :=
        stripPrefix_eq_some_iff.mpr rfl
      simp only [hstrip, Option.map_some, Option.some.injEq,
        bind_eq_ok, mapError_eq_ok, parseU32_eq_ok_iff, parseField_eq_ok, pure_eq_ok]
      exact ⟨node, hnode, usage, husage, rfl⟩

end HugetlbNumaStat

end Sakai
