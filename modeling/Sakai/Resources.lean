import Sakai.Flat

/-!
# `pids.events`, `hugetlb.<size>.events` and `misc.events`

The event readers of the resource controllers. The first two have one required counter. The third
takes a counter from every key that ends in `.max`, named by what precedes the suffix, in key
order; an empty name is an error. All three obey the last-value law.
-/

namespace Sakai

open Lib

/-! ## One counter -/

/-- Process-number limit events.
Source: `pids.rs`, `PidsEvents`. -/
structure PidsEvents where
  /-- Times the process limit was hit. -/
  max : Count
  deriving DecidableEq, Repr

/-- Huge-page limit events.
Source: `hugetlb.rs`, `HugetlbEvents`. -/
structure HugetlbEvents where
  /-- Allocation failures caused by the limit. -/
  max : Count
  deriving DecidableEq, Repr

/-- A file with the one required counter `max`. -/
def parseMaxEvents {T : Type} (new : Count → T) (contents : Str) : Parsed T := do
  let fields ← KeyedFields.parse contents fun _ => "value"
  return new (← fields.required ParseCount "max")

/-- Source: `pids.rs`, `PidsEvents::from_str`. -/
def PidsEvents.fromStr : Str → Parsed PidsEvents := parseMaxEvents PidsEvents.mk

/-- Source: `hugetlb.rs`, `HugetlbEvents::from_str`. -/
def HugetlbEvents.fromStr : Str → Parsed HugetlbEvents := parseMaxEvents HugetlbEvents.mk

/-- The last-value law of a file with one counter. -/
lemma parseMaxEvents_lastValueLaw {T : Type} (new : Count → T) :
    LastValueLaw (Named ["max"]) (parseMaxEvents new) :=
  LastValueLaw.of_fields fun _ _ h =>
    outcome_bind_congr (KeyedFields.outcome_required_congr (h _ (named List.mem_cons_self)))
      fun _ => rfl

/-! ## Counters named by a suffix -/

/-- Miscellaneous-resource limit events, by resource.
Source: `misc.rs`, `MiscEvents`. -/
structure MiscEvents where
  /-- Failures at the limit of each resource. -/
  resources : BTreeMap Str Count

namespace MiscEvents

/-- The counter of one resource.
Source: `misc.rs`, the `map` closure of `MiscEvents::from_str`. -/
def resource (raw : Str) (e : Str × Str) : Parsed (Str × Count) := do
  if e.1.isEmpty then
    .error (.invalid raw "resource" ".max".toList .outOfRange)
  else return (e.1, ← parseField ParseCount raw "max" e.2)

/-- Source: `misc.rs`, `MiscEvents::from_str`. -/
def fromStr (raw : Str) : Parsed MiscEvents := do
  let fields ← KeyedFields.parse raw fun _ => "value"
  let resources ← collect ((fields.selected (stripSuffix ".max".toList)).map (resource raw))
  return { resources }

/-- The keys of the misc event files: those that end in `.max`. -/
def IsKey (key : Str) : Prop := ∃ name, key = name ++ ".max".toList

/-- The last-value law of the misc event files. -/
lemma lastValueLaw : LastValueLaw IsKey fromStr := by
  apply LastValueLaw.of_agree
  intro t₁ t₂ h₁ h₂ hagree
  have hresource : ∀ e, outcome (resource t₁ e) = outcome (resource t₂ e) := by
    intro e
    unfold resource
    split_ifs
    · rfl
    · exact outcome_bind_congr (outcome_parseField t₁ t₂ e.2 "max") fun _ => rfl
  have hselected : (KeyedFields.ofText t₁).selected (stripSuffix ".max".toList) =
      (KeyedFields.ofText t₂).selected (stripSuffix ".max".toList) := by
    apply KeyedFields.selected_congr
    intro key hkey
    obtain ⟨name, hname⟩ := Option.isSome_iff_exists.mp hkey
    exact hagree key ⟨name, (stripSuffix_eq_some_iff.mp hname).symm⟩
  unfold fromStr
  rw [KeyedFields.parse_of_twoTokens h₁, KeyedFields.parse_of_twoTokens h₂, ok_bind, ok_bind,
    hselected]
  refine outcome_bind_congr ?_ fun _ => rfl
  unfold outcome
  rw [collect_mapError, collect_mapError, List.map_map, List.map_map]
  exact congrArg collect (List.map_congr_left fun e _ => hresource e)

end MiscEvents

end Sakai
