import Sakai.Io.Device
import Sakai.Lib.Spelling

/-!
# `io.weight`

A `default` line and one line for each device with a weight of its own. The lines are collected by
key before the keys are parsed as devices.

* `Weight`: a weight is within its range.
* `IoWeight.collect_of_fromStr`: the devices are collected from the last values of the keys.
* `IoWeight.converts`: how they are converted.
-/

namespace Sakai

open Lib

/-- An I/O scheduling weight, 1 through 10,000.
Source: `io/weight.rs`, `Weight`. -/
structure Weight where
  /-- The weight. -/
  value : UInt16
  /-- It is at least 1. -/
  pos : 1 ≤ value
  /-- It is at most 10,000. -/
  le : value ≤ 10000
  deriving DecidableEq, Repr

/-- A weight out of range is rejected.
Source: `io/weight.rs`, the `validate` of `Weight`. -/
def Weight.tryNew (value : UInt16) : Option Weight :=
  if h : 1 ≤ value ∧ value ≤ 10000 then some ⟨value, h.1, h.2⟩ else none

/-- A marker for weights.
Source: `io/weight.rs`, `ParseWeight`. -/
structure ParseWeight

instance : ParseCgroup ParseWeight Weight ParseValueError where
  parseCgroup value := do
    match Weight.tryNew (← integer (parseU16 value)) with
    | some weight => return weight
    | none => .error .outOfRange

/-- A snapshot of `io.weight`.
Source: `io/weight.rs`, `IoWeight`. -/
structure IoWeight where
  /-- The default weight. -/
  default : Weight
  /-- The weights of devices. -/
  devices : BTreeMap Device Weight

namespace IoWeight

/-- The weight of a device.
Source: `io/weight.rs`, the `map` closure of `IoWeight::from_str`. -/
def deviceWeight (contents : Str) (e : Str × Str) : Parsed (Device × Weight) := do
  let device ← Device.parse contents e.1
  return (device, ← parseField ParseWeight contents "weight" e.2)

/-- Source: `io/weight.rs`, `IoWeight::from_str`. -/
def fromStr (contents : Str) : Parsed IoWeight := do
  let fields ← KeyedFields.parse contents fun _ => "weight"
  let default ← fields.required ParseWeight "default"
  let devices ← collect ((fields.iter.filter fun e => e.1 ≠ "default".toList).map
    (deviceWeight contents))
  return { default, devices }

/-- The devices of a text are collected from its pairs, each key with its last value. -/
lemma collect_of_fromStr {contents : Str} {w : IoWeight} (h : fromStr contents = .ok w) :
    TwoTokens contents ∧
      collect ((Std.ExtTreeMap.ofList (pairsOf contents) compare).toList.filterMap fun e =>
        if e.1 ≠ "default".toList then some (deviceWeight contents e) else none) =
          .ok w.devices := by
  obtain ⟨htwo, hfields⟩ := KeyedFields.parse_bind_eq_ok.mp h
  simp only [bind_eq_ok, pure_eq_ok] at hfields
  obtain ⟨default, -, devices, hdevices, rfl⟩ := hfields
  rw [← List.filterMap_eq_map, List.filterMap_filter] at hdevices
  refine ⟨htwo, ?_⟩
  rw [← hdevices]
  refine congrArg collect (List.filterMap_congr fun e _ => ?_)
  simp only [decide_eq_true_eq]
  rfl

/-- The token `default` names no device. -/
lemma not_names_default (device : Device) : ¬ Device.Names "default".toList device := by
  intro h
  have hparse : Device.parse [] "default".toList = .ok device := Device.parse_eq_ok_iff.mpr h
  cases hparse

/-- How the pairs are converted to the weights of devices. -/
lemma converts (contents : Str) (rows : List (Str × Str)) :
    Converts Device.Names (ReadsAs ParseWeight)
      (fun e => if e.1 ≠ "default".toList then some (deviceWeight contents e) else none) rows := by
  constructor
  · intro e _ he device hnames
    split_ifs at he with hdefault
    rw [not_not.mp hdefault] at hnames
    exact not_names_default device hnames
  · intro e _ device weight
    unfold deviceWeight
    constructor
    · intro h
      split_ifs at h with hdefault
      simp only [Option.some.injEq, bind_eq_ok, Device.parse_eq_ok_iff, parseField_eq_ok,
        pure_eq_ok, Prod.mk.injEq] at h
      obtain ⟨_, hdevice, _, hweight, rfl, rfl⟩ := h
      exact ⟨hdevice, hweight⟩
    · rintro ⟨hdevice, hweight⟩
      have hdefault : e.1 ≠ "default".toList := by
        intro heq
        rw [heq] at hdevice
        exact not_names_default device hdevice
      rw [if_pos hdefault, Option.some.injEq]
      simp only [bind_eq_ok, Device.parse_eq_ok_iff, parseField_eq_ok, pure_eq_ok]
      exact ⟨_, hdevice, _, hweight, rfl⟩

end IoWeight

end Sakai
