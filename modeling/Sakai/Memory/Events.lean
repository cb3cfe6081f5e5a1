import Sakai.Flat

/-!
# `memory.events` and `memory.swap.events`

The event counters of the memory controller: required counters, and optional ones that older
kernels do not report. Both readers obey the last-value law.
-/

namespace Sakai

open Lib

/-! ## `memory.events` -/

/-- Event counts shared by the hierarchical and local memory event files.
Source: `memory/events.rs`, `MemoryEventCounts`. -/
structure MemoryEventCounts where
  /-- Reclaims despite usage below the effective low boundary. -/
  low : Count
  /-- Throttling and direct reclaim after crossing the high boundary. -/
  high : Count
  /-- Attempts to cross the max boundary. -/
  max : Count
  /-- Allocations about to fail at the memory limit. -/
  oom : Count
  /-- Processes killed by any OOM killer. -/
  oomKill : Count
  /-- Group OOM kills, when reported. -/
  oomGroupKill : Option Count
  /-- Network socket throttling events, when reported. -/
  sockThrottled : Option Count
  deriving DecidableEq, Repr

namespace MemoryEventCounts

/-- Source: `memory/events.rs`, `MemoryEventCounts::from_str`. -/
def fromStr (contents : Str) : Parsed MemoryEventCounts := do
  let fields ← KeyedFields.parse contents fun _ => "value"
  return {
    low := ← fields.required ParseCount "low"
    high := ← fields.required ParseCount "high"
    max := ← fields.required ParseCount "max"
    oom := ← fields.required ParseCount "oom"
    oomKill := ← fields.required ParseCount "oom_kill"
    oomGroupKill := ← fields.optional ParseCount "oom_group_kill"
    sockThrottled := ← fields.optional ParseCount "sock_throttled" }

/-- The keys of the memory event files. -/
def keys : List String :=
  ["low", "high", "max", "oom", "oom_kill", "oom_group_kill", "sock_throttled"]

/-- The last-value law of the memory event files. -/
lemma lastValueLaw : LastValueLaw (Named keys) fromStr := by
  apply LastValueLaw.of_fields
  intro f₁ f₂ h
  refine outcome_bind_congr
    (KeyedFields.outcome_required_congr (h _ (named (by simp [keys])))) fun low => ?_
  refine outcome_bind_congr
    (KeyedFields.outcome_required_congr (h _ (named (by simp [keys])))) fun high => ?_
  refine outcome_bind_congr
    (KeyedFields.outcome_required_congr (h _ (named (by simp [keys])))) fun max => ?_
  refine outcome_bind_congr
    (KeyedFields.outcome_required_congr (h _ (named (by simp [keys])))) fun oom => ?_
  refine outcome_bind_congr
    (KeyedFields.outcome_required_congr (h _ (named (by simp [keys])))) fun oomKill => ?_
  refine outcome_bind_congr
    (KeyedFields.outcome_optional_congr (h _ (named (by simp [keys])))) fun oomGroupKill => ?_
  exact outcome_bind_congr
    (KeyedFields.outcome_optional_congr (h _ (named (by simp [keys])))) fun sockThrottled => rfl

end MemoryEventCounts

/-! ## `memory.swap.events` -/

/-- Swap event counters.
Source: `memory/swap.rs`, `SwapEvents`. -/
structure SwapEvents where
  /-- Times swap usage exceeded the high threshold, when reported. -/
  high : Option Count
  /-- Times a swap allocation failed at the max boundary. -/
  max : Count
  /-- Swap allocation failures. -/
  fail : Count
  deriving DecidableEq, Repr

namespace SwapEvents

/-- The label of a value: its key, for the known keys.
Source: `memory/swap.rs`, the closure of `SwapEvents::from_str`. -/
def valueField (key : Str) : String :=
  if key = "high".toList then "high"
  else if key = "max".toList then "max"
  else if key = "fail".toList then "fail"
  else "value"

/-- Source: `memory/swap.rs`, `SwapEvents::from_str`. -/
def fromStr (contents : Str) : Parsed SwapEvents := do
  let fields ← KeyedFields.parse contents valueField
  return {
    high := ← fields.optional ParseCount "high"
    max := ← fields.required ParseCount "max"
    fail := ← fields.required ParseCount "fail" }

/-- The keys of the swap event file. -/
def keys : List String := ["high", "max", "fail"]

/-- The last-value law of the swap event file. -/
lemma lastValueLaw : LastValueLaw (Named keys) fromStr := by
  apply LastValueLaw.of_fields
  intro f₁ f₂ h
  refine outcome_bind_congr
    (KeyedFields.outcome_optional_congr (h _ (named (by simp [keys])))) fun high => ?_
  refine outcome_bind_congr
    (KeyedFields.outcome_required_congr (h _ (named (by simp [keys])))) fun max => ?_
  exact outcome_bind_congr
    (KeyedFields.outcome_required_congr (h _ (named (by simp [keys])))) fun fail => rfl

end SwapEvents

end Sakai
