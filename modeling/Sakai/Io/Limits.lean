import Sakai.Io.Device

/-!
# `io.max` and `io.latency`

Per-device limits in operations and bytes per second, and per-device latency targets in
microseconds.

* `IoMax.fromStr_of_renders`: every rendering of device limits is read as exactly these limits.
* `IoLatency.fromStr_of_renders`: likewise for targets of whole microseconds.
-/

namespace Sakai

open Lib

/-! ## Limits -/

/-- A marker for bandwidths in bytes per second.
Source: `io/max.rs`, `ParseBandwidth`. -/
structure ParseBandwidth

instance : ParseCgroup ParseBandwidth BytesPerSecond ParseValueError :=
  ⟨parseQuantity BytesPerSecond.mk⟩

/-- A marker for rates in operations per second.
Source: `io/max.rs`, `ParseIops`. -/
structure ParseIops

instance : ParseCgroup ParseIops OperationsPerSecond ParseValueError :=
  ⟨parseQuantity OperationsPerSecond.mk⟩

/-- Read and write bandwidth and IOPS limits for a block device.
Source: `io/max.rs`, `IoDeviceMax`. -/
structure IoDeviceMax where
  /-- Read bandwidth. -/
  readBandwidth : MaxOr BytesPerSecond
  /-- Write bandwidth. -/
  writeBandwidth : MaxOr BytesPerSecond
  /-- Read operations. -/
  readIops : MaxOr OperationsPerSecond
  /-- Write operations. -/
  writeIops : MaxOr OperationsPerSecond
  deriving DecidableEq, Repr

/-- Source: `io/max.rs`, `IoDeviceMax::from_fields`. -/
def IoDeviceMax.fromFields (fields : KeyedFields) : Parsed IoDeviceMax := do
  let readBandwidth ← fields.required ParseBandwidth "rbps"
  let writeBandwidth ← fields.required ParseBandwidth "wbps"
  let readIops ← fields.required ParseIops "riops"
  let writeIops ← fields.required ParseIops "wiops"
  return ⟨readBandwidth, writeBandwidth, readIops, writeIops⟩

/-- A configuration snapshot of per-device limits.
Source: `io/max.rs`, `IoMax`. -/
structure IoMax where
  /-- The limits of each device. -/
  devices : BTreeMap Device IoDeviceMax

/-- Source: `io/max.rs`, `IoMax::from_str`. -/
def IoMax.fromStr (contents : Str) : Parsed IoMax := do
  return ⟨← Device.parseLines contents IoDeviceMax.fromFields⟩

/-- The keys of an `io.max` line. -/
inductive IoMaxField
  | rbps
  | wbps
  | riops
  | wiops
  deriving DecidableEq, Repr

/-- The printed name of a key. -/
def IoMaxField.name : IoMaxField → String
  | rbps => "rbps"
  | wbps => "wbps"
  | riops => "riops"
  | wiops => "wiops"

instance : NamedEnum IoMaxField where
  all := [.rbps, .wbps, .riops, .wiops]
  name := IoMaxField.name
  mem_all := by intro f; cases f <;> decide
  nodup_names := by decide

namespace IoDeviceMax

/-- The printed value of each key. -/
def encode (limits : IoDeviceMax) : IoMaxField → Option Str
  | .rbps => some (limits.readBandwidth.encode fun q => decimal q.value.toNat)
  | .wbps => some (limits.writeBandwidth.encode fun q => decimal q.value.toNat)
  | .riops => some (limits.readIops.encode fun q => decimal q.value.toNat)
  | .wiops => some (limits.writeIops.encode fun q => decimal q.value.toNat)

/-- A printed bandwidth limit is read back. -/
lemma parseBandwidth_encode (m : MaxOr BytesPerSecond) :
    parseCgroup ParseBandwidth (m.encode fun q => decimal q.value.toNat) = .ok m :=
  parseMaxOr_encode (fun _ => decimal_ne_max _)
    (fun q => parseQuantity_decimal BytesPerSecond.mk q.value) m

/-- A printed IOPS limit is read back. -/
lemma parseIops_encode (m : MaxOr OperationsPerSecond) :
    parseCgroup ParseIops (m.encode fun q => decimal q.value.toNat) = .ok m :=
  parseMaxOr_encode (fun _ => decimal_ne_max _)
    (fun q => parseQuantity_decimal OperationsPerSecond.mk q.value) m

/-- Limits are read back from the fields that show them. -/
lemma fromFields_of_encoded {limits : IoDeviceMax} {fields : KeyedFields}
    (hget : ∀ f : IoMaxField, fields.values[NamedEnum.key f]? = limits.encode f) :
    fromFields fields = .ok limits := by
  have hrbps : fields.required ParseBandwidth "rbps" = .ok limits.readBandwidth :=
    KeyedFields.required_of_encoded (hget .rbps) (parseBandwidth_encode _)
  have hwbps : fields.required ParseBandwidth "wbps" = .ok limits.writeBandwidth :=
    KeyedFields.required_of_encoded (hget .wbps) (parseBandwidth_encode _)
  have hriops : fields.required ParseIops "riops" = .ok limits.readIops :=
    KeyedFields.required_of_encoded (hget .riops) (parseIops_encode _)
  have hwiops : fields.required ParseIops "wiops" = .ok limits.writeIops :=
    KeyedFields.required_of_encoded (hget .wiops) (parseIops_encode _)
  unfold fromFields
  rw [hrbps, ok_bind, hwbps, ok_bind, hriops, ok_bind, hwiops]
  rfl

end IoDeviceMax

/-- **Every rendering of device limits is read back.** -/
lemma IoMax.fromStr_of_renders {devices : BTreeMap Device IoDeviceMax} {text : Str}
    (h : Device.Renders IoDeviceMax.encode devices text) : fromStr text = .ok ⟨devices⟩ := by
  have hlines : Device.parseLines text IoDeviceMax.fromFields = .ok devices :=
    Device.parseLines_of_renders h (fun _ _ _ => ⟨.rbps, Option.some_ne_none _⟩)
      fun _ _ _ _ hget => IoDeviceMax.fromFields_of_encoded hget
  unfold fromStr
  rw [hlines]
  rfl

/-! ## Latency targets -/

/-- A configuration snapshot of per-device latency targets.
Source: `io/latency.rs`, `IoLatency`. -/
structure IoLatency where
  /-- The target of each device. -/
  devices : BTreeMap Device NonZeroTime

/-- Source: `io/latency.rs`, `IoLatency::from_str`. -/
def IoLatency.fromStr (contents : Str) : Parsed IoLatency := do
  return ⟨← Device.parseLines contents fun fields =>
    fields.required ParseNonZeroMicroseconds "target"⟩

/-- The key of an `io.latency` line. -/
inductive IoLatencyField
  | target
  deriving DecidableEq, Repr

instance : NamedEnum IoLatencyField where
  all := [.target]
  name _ := "target"
  mem_all := by intro f; cases f; decide
  nodup_names := by decide

namespace IoLatency

/-- The printed value of the key: the target in microseconds. -/
def encode (target : NonZeroTime) : IoLatencyField → Option Str
  | .target => some (decimal target.time.micros)

/-- **Every rendering of whole microseconds is read back.** -/
lemma fromStr_of_renders {devices : BTreeMap Device NonZeroTime} {text : Str}
    (hwhole : ∀ (d : Device) target, devices[d]? = some target → target.time.WholeMicros)
    (h : Device.Renders encode devices text) : fromStr text = .ok ⟨devices⟩ := by
  have hlines : Device.parseLines text
      (fun fields => fields.required ParseNonZeroMicroseconds "target") = .ok devices := by
    refine Device.parseLines_of_renders h
      (fun _ _ _ => ⟨.target, Option.some_ne_none _⟩) fun d target fields hd hget => ?_
    exact KeyedFields.required_of_encoded (hget .target)
      (parseNonZeroMicroseconds_decimal (hwhole d target hd))
  unfold fromStr
  rw [hlines]
  rfl

end IoLatency

end Sakai
