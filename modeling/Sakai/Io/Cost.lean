import Sakai.Io.Stat
import Sakai.Lib.FirstLast
import Sakai.Pressure

/-!
# `io.cost.qos` and `io.cost.model`

Per-device parameters of the cost controller. All fields of a line are required. Percentages are
`f64` numbers in a range of their encoding; the numbers are a parameter, a `FloatRatio`.

* `parsePercentBetween_eq_ok_iff`: which tokens are percentages of a range.
* `IoCostQos.fromStr_of_renders`, `IoCostModel.fromStr_of_renders`: every rendering of parameters is
  read as exactly these parameters.
* `IoCostQos.inBounds_of_fromStr`, `IoStat.bounded_costVrate`: no accepted percentage is out of its
  range.
-/

namespace Sakai

open Lib

/-! ## Percentages -/

/-- The ratios, with the `f64` numbers that they are made of. -/
class FloatRatio (Ratio : Type) where
  /-- `f64`. -/
  F64 : Type
  /-- `str::parse`. -/
  parse : Str → Except FloatErrorKind F64
  /-- `f64::is_finite`. -/
  isFinite : F64 → Bool
  /-- `>=` a literal. -/
  atLeast : F64 → ℕ → Bool
  /-- `<=` a literal. -/
  atMost : F64 → ℕ → Bool
  /-- `Ratio::new::<percent>`. -/
  percent : F64 → Ratio

section percentages

variable {Ratio : Type} [FloatRatio Ratio]

/-- The number is finite and in the range.
Source: the `validate` of `Percent`, `CostPercent` and `ScalingPercent`. -/
def InRange (lower : ℕ) (upper : Option ℕ) (x : FloatRatio.F64 Ratio) : Prop :=
  FloatRatio.isFinite x = true ∧ FloatRatio.atLeast x lower = true ∧
    ∀ u ∈ upper, FloatRatio.atMost x u = true

instance (lower : ℕ) (upper : Option ℕ) (x : FloatRatio.F64 Ratio) :
    Decidable (InRange lower upper x) :=
  inferInstanceAs (Decidable (_ ∧ _ ∧ ∀ u ∈ upper, FloatRatio.atMost x u = true))

/-- A percentage in a range. -/
def parsePercentBetween (lower : ℕ) (upper : Option ℕ) (value : Str) :
    Except ParseValueError Ratio := do
  let x : FloatRatio.F64 Ratio ← (FloatRatio.parse value).mapError .float
  if InRange lower upper x then return FloatRatio.percent x else .error .outOfRange

/-- Source: `parse/mod.rs`, `ParsePercent`. -/
instance : ParseCgroup ParsePercent Ratio ParseValueError := ⟨parsePercentBetween 0 (some 100)⟩

/-- Source: `io/stat.rs`, `ParseCostPercent`. -/
instance : ParseCgroup ParseCostPercent Ratio ParseValueError := ⟨parsePercentBetween 0 none⟩

/-- A marker for scaling percentages.
Source: `io/cost.rs`, `ParseScalingPercent`. -/
structure ParseScalingPercent

/-- Source: `io/cost.rs`, `ParseScalingPercent`. -/
instance : ParseCgroup ParseScalingPercent Ratio ParseValueError :=
  ⟨parsePercentBetween 1 (some 10000)⟩

/-- **A percentage is accepted** exactly when it is a number in the range. -/
lemma parsePercentBetween_eq_ok_iff {lower : ℕ} {upper : Option ℕ} {value : Str} {r : Ratio} :
    parsePercentBetween lower upper value = .ok r ↔
      ∃ x : FloatRatio.F64 Ratio, FloatRatio.parse value = .ok x ∧ InRange lower upper x ∧
        FloatRatio.percent x = r := by
  unfold parsePercentBetween
  simp only [bind_eq_ok, mapError_eq_ok]
  refine exists_congr fun x => and_congr_right fun _ => ?_
  by_cases hrange : InRange lower upper x
  · simp [hrange]
  · simp [hrange]

/-- The ratio is a percentage in the range. -/
def Bounded (lower : ℕ) (upper : Option ℕ) (r : Ratio) : Prop :=
  ∃ x : FloatRatio.F64 Ratio, InRange lower upper x ∧ FloatRatio.percent x = r

/-- What is accepted is in the range. -/
lemma bounded_of_parse {lower : ℕ} {upper : Option ℕ} {value : Str} {r : Ratio}
    (h : parsePercentBetween lower upper value = .ok r) : Bounded lower upper r := by
  obtain ⟨x, -, hrange, hr⟩ := parsePercentBetween_eq_ok_iff.mp h
  exact ⟨x, hrange, hr⟩

end percentages

/-! ## Lines -/

/-- The value of a device is read from the fields of a line. -/
lemma Device.exists_fields_of_parseLines {T : Type} {raw : Str} {parse : KeyedFields → Parsed T}
    {devices : BTreeMap Device T} (h : parseLines raw parse = .ok devices) {d : Device} {v : T}
    (hd : devices[d]? = some v) : ∃ fields, parse fields = .ok v := by
  obtain ⟨line, -, hline⟩ := (getElem?_of_collect_map h).mp hd
  rcases htokens : splitAsciiWhitespace line with _ | ⟨token, _ | ⟨t, ts⟩⟩
  · rw [htokens] at hline
    cases hline
  · rw [htokens, parseRow, bind_eq_ok] at hline
    obtain ⟨device, -, hmissing⟩ := hline
    cases hmissing
  · rw [htokens, parseRow] at hline
    simp only [bind_eq_ok, pure_eq_ok, Prod.mk.injEq] at hline
    obtain ⟨-, -, fields, -, w, hfields, -, rfl⟩ := hline
    exact ⟨fields, hfields⟩

/-! ## Names -/

/-- Who controls the parameters.
Source: `io/cost.rs`, `IoCostControl`. -/
inductive IoCostControl
  | auto
  | user
  deriving DecidableEq, Repr

instance : NamedEnum IoCostControl where
  all := [.auto, .user]
  name
    | .auto => "auto"
    | .user => "user"
  mem_all := by intro f; cases f <;> decide
  nodup_names := by decide

/-- The model of the costs.
Source: `io/cost.rs`, `IoCostModelName`. -/
inductive IoCostModelName
  | linear
  deriving DecidableEq, Repr

instance : NamedEnum IoCostModelName where
  all := [.linear]
  name _ := "linear"
  mem_all := by intro f; cases f; decide
  nodup_names := by decide

section names

variable {F : Type} [DecidableEq F] [NamedEnum F]

/-- A name, or a value out of range. -/
def parseName (value : Str) : Except ParseValueError F :=
  match NamedEnum.fromStr? value with
  | some f => .ok f
  | none => .error .outOfRange

/-- A name is read back. -/
lemma parseName_key (f : F) : parseName (NamedEnum.key f) = .ok f := by
  unfold parseName
  rw [NamedEnum.fromStr?_key]

end names

/-- Source: `io/cost.rs`, `IoCostControl::parse_cgroup`. -/
instance : ParseCgroup IoCostControl IoCostControl ParseValueError := ⟨parseName⟩

/-- Source: `io/cost.rs`, `IoCostModelName::parse_cgroup`. -/
instance : ParseCgroup IoCostModelName IoCostModelName ParseValueError := ⟨parseName⟩

/-! ## Quality of service -/

/-- The enablement, the latency targets and the bounds of the scaling of a device.
Source: `io/cost.rs`, `IoDeviceCostQos`. -/
structure IoDeviceCostQos (Ratio : Type) where
  /-- The controller is enabled. -/
  enabled : Bool
  /-- Who controls the parameters. -/
  control : IoCostControl
  /-- The percentile of read latencies. -/
  readPercentile : Ratio
  /-- The threshold of read latencies. -/
  readLatency : Time
  /-- The percentile of write latencies. -/
  writePercentile : Ratio
  /-- The threshold of write latencies. -/
  writeLatency : Time
  /-- The least scaling. -/
  minScaling : Ratio
  /-- The greatest scaling. -/
  maxScaling : Ratio

/-- A snapshot of the parameters of each device.
Source: `io/cost.rs`, `IoCostQos`. -/
structure IoCostQos (Ratio : Type) where
  /-- The parameters of each device. -/
  devices : BTreeMap Device (IoDeviceCostQos Ratio)

/-- The keys of an `io.cost.qos` line. -/
inductive IoCostQosField
  | enable
  | ctrl
  | rpct
  | rlat
  | wpct
  | wlat
  | min
  | max
  deriving DecidableEq, Repr

/-- The printed name of a key. -/
def IoCostQosField.name : IoCostQosField → String
  | enable => "enable"
  | ctrl => "ctrl"
  | rpct => "rpct"
  | rlat => "rlat"
  | wpct => "wpct"
  | wlat => "wlat"
  | min => "min"
  | max => "max"

instance : NamedEnum IoCostQosField where
  all := [.enable, .ctrl, .rpct, .rlat, .wpct, .wlat, .min, .max]
  name := IoCostQosField.name
  mem_all := by intro f; cases f <;> decide
  nodup_names := by decide

section qos

variable {Ratio : Type}

namespace IoDeviceCostQos

/-- The printed value of each key, for a way to print percentages. -/
def encode (print : Ratio → Str) (qos : IoDeviceCostQos Ratio) : IoCostQosField → Option Str
  | .enable => some (decimal qos.enabled.toNat)
  | .ctrl => some (NamedEnum.key qos.control)
  | .rpct => some (print qos.readPercentile)
  | .rlat => some (decimal qos.readLatency.micros)
  | .wpct => some (print qos.writePercentile)
  | .wlat => some (decimal qos.writeLatency.micros)
  | .min => some (print qos.minScaling)
  | .max => some (print qos.maxScaling)

variable [FloatRatio Ratio]

/-- Source: `io/cost.rs`, `IoDeviceCostQos::from_fields`. -/
def fromFields (fields : KeyedFields) : Parsed (IoDeviceCostQos Ratio) := do
  let enabled ← fields.required ParseBoolean "enable"
  let control ← fields.required IoCostControl "ctrl"
  let readPercentile ← fields.required ParsePercent "rpct"
  let readLatency ← fields.required ParseMicroseconds "rlat"
  let writePercentile ← fields.required ParsePercent "wpct"
  let writeLatency ← fields.required ParseMicroseconds "wlat"
  let minScaling ← fields.required ParseScalingPercent "min"
  let maxScaling ← fields.required ParseScalingPercent "max"
  return ⟨enabled, control, readPercentile, readLatency, writePercentile, writeLatency, minScaling,
    maxScaling⟩

/-- What a line accepts, field by field. -/
lemma fromFields_eq_ok_iff {fields : KeyedFields} {qos : IoDeviceCostQos Ratio} :
    fromFields fields = .ok qos ↔
      fields.required ParseBoolean "enable" = .ok qos.enabled ∧
      fields.required IoCostControl "ctrl" = .ok qos.control ∧
      fields.required ParsePercent "rpct" = .ok qos.readPercentile ∧
      fields.required ParseMicroseconds "rlat" = .ok qos.readLatency ∧
      fields.required ParsePercent "wpct" = .ok qos.writePercentile ∧
      fields.required ParseMicroseconds "wlat" = .ok qos.writeLatency ∧
      fields.required ParseScalingPercent "min" = .ok qos.minScaling ∧
      fields.required ParseScalingPercent "max" = .ok qos.maxScaling := by
  unfold fromFields
  simp only [bind_eq_ok, pure_eq_ok]
  constructor
  · rintro ⟨_, h₁, _, h₂, _, h₃, _, h₄, _, h₅, _, h₆, _, h₇, _, h₈, rfl⟩
    exact ⟨h₁, h₂, h₃, h₄, h₅, h₆, h₇, h₈⟩
  · rintro ⟨h₁, h₂, h₃, h₄, h₅, h₆, h₇, h₈⟩
    exact ⟨_, h₁, _, h₂, _, h₃, _, h₄, _, h₅, _, h₆, _, h₇, _, h₈, rfl⟩

/-- The times are whole microseconds, and the printed percentages are read back. -/
structure Printable (print : Ratio → Str) (qos : IoDeviceCostQos Ratio) : Prop where
  /-- `rlat` is in microseconds. -/
  readLatency : qos.readLatency.WholeMicros
  /-- `wlat` is in microseconds. -/
  writeLatency : qos.writeLatency.WholeMicros
  /-- `rpct` is a percentage. -/
  readPercentile : ReadsAs ParsePercent (print qos.readPercentile) qos.readPercentile
  /-- `wpct` is a percentage. -/
  writePercentile : ReadsAs ParsePercent (print qos.writePercentile) qos.writePercentile
  /-- `min` is a scaling percentage. -/
  minScaling : ReadsAs ParseScalingPercent (print qos.minScaling) qos.minScaling
  /-- `max` is a scaling percentage. -/
  maxScaling : ReadsAs ParseScalingPercent (print qos.maxScaling) qos.maxScaling

/-- The percentages are in the ranges of their encodings. -/
structure InBounds (qos : IoDeviceCostQos Ratio) : Prop where
  /-- From 0 to 100. -/
  readPercentile : Bounded 0 (some 100) qos.readPercentile
  /-- From 0 to 100. -/
  writePercentile : Bounded 0 (some 100) qos.writePercentile
  /-- From 1 to 10000. -/
  minScaling : Bounded 1 (some 10000) qos.minScaling
  /-- From 1 to 10000. -/
  maxScaling : Bounded 1 (some 10000) qos.maxScaling

/-- **A line is read back from the fields that show it.** -/
theorem fromFields_of_encoded {print : Ratio → Str} {qos : IoDeviceCostQos Ratio}
    {fields : KeyedFields} (hprint : qos.Printable print)
    (hget : ∀ f : IoCostQosField, fields.values[NamedEnum.key f]? = qos.encode print f) :
    fromFields fields = .ok qos := by
  have henable : parseCgroup ParseBoolean (decimal qos.enabled.toNat) = .ok qos.enabled := by
    cases qos.enabled <;> rfl
  exact fromFields_eq_ok_iff.mpr
    ⟨KeyedFields.required_of_encoded (hget .enable) henable,
      KeyedFields.required_of_encoded (hget .ctrl) (parseName_key _),
      KeyedFields.required_of_encoded (hget .rpct) hprint.readPercentile,
      KeyedFields.required_of_encoded (hget .rlat) (parseMicroseconds_decimal hprint.readLatency),
      KeyedFields.required_of_encoded (hget .wpct) hprint.writePercentile,
      KeyedFields.required_of_encoded (hget .wlat) (parseMicroseconds_decimal hprint.writeLatency),
      KeyedFields.required_of_encoded (hget .min) hprint.minScaling,
      KeyedFields.required_of_encoded (hget .max) hprint.maxScaling⟩

/-- **No accepted line is out of bounds.** -/
lemma inBounds_of_fromFields {fields : KeyedFields} {qos : IoDeviceCostQos Ratio}
    (h : fromFields fields = .ok qos) : qos.InBounds := by
  have hbounded : ∀ {U : Type} [ParseCgroup U Ratio ParseValueError] {lower : ℕ}
      {upper : Option ℕ} {field : String} {r : Ratio},
      (∀ value, parseCgroup U value = .ok r → Bounded lower upper r) →
      fields.required U field = .ok r → Bounded lower upper r := by
    intro U _ lower upper field r hparse hrequired
    obtain ⟨value, -, hvalue⟩ := KeyedFields.required_eq_ok_iff.mp hrequired
    exact hparse value hvalue
  obtain ⟨-, -, hrpct, -, hwpct, -, hmin, hmax⟩ := fromFields_eq_ok_iff.mp h
  exact ⟨hbounded (fun _ => bounded_of_parse) hrpct, hbounded (fun _ => bounded_of_parse) hwpct,
    hbounded (fun _ => bounded_of_parse) hmin, hbounded (fun _ => bounded_of_parse) hmax⟩

end IoDeviceCostQos

namespace IoCostQos

variable [FloatRatio Ratio]

/-- Source: `io/cost.rs`, `IoCostQos::from_str`. -/
def fromStr (contents : Str) : Parsed (IoCostQos Ratio) := do
  return ⟨← Device.parseLines contents IoDeviceCostQos.fromFields⟩

/-- **Every rendering of parameters is read back.** -/
lemma fromStr_of_renders {print : Ratio → Str}
    {devices : BTreeMap Device (IoDeviceCostQos Ratio)} {text : Str}
    (hprint : ∀ (d : Device) qos, devices[d]? = some qos → qos.Printable print)
    (h : Device.Renders (IoDeviceCostQos.encode print) devices text) :
    fromStr text = .ok ⟨devices⟩ := by
  have hlines : Device.parseLines text IoDeviceCostQos.fromFields = .ok devices :=
    Device.parseLines_of_renders h (fun _ _ _ => ⟨.enable, Option.some_ne_none _⟩)
      fun d qos _ hd hget => IoDeviceCostQos.fromFields_of_encoded (hprint d qos hd) hget
  unfold fromStr
  rw [hlines]
  rfl

/-- **No accepted parameters are out of range.** -/
lemma inBounds_of_fromStr {text : Str} {parsed : IoCostQos Ratio}
    (h : fromStr text = .ok parsed) {d : Device} {qos : IoDeviceCostQos Ratio}
    (hd : parsed.devices[d]? = some qos) : qos.InBounds := by
  unfold fromStr at h
  obtain ⟨devices, hdevices, hparsed⟩ := bind_eq_ok.mp h
  rw [pure_eq_ok] at hparsed
  subst hparsed
  obtain ⟨fields, hfields⟩ := Device.exists_fields_of_parseLines hdevices hd
  exact IoDeviceCostQos.inBounds_of_fromFields hfields

end IoCostQos

end qos

/-! ## Rates in `io.stat` -/

/-- **No accepted rate is out of range.** -/
lemma IoStat.bounded_costVrate {Ratio : Type} [FloatRatio Ratio] {text : Str}
    {parsed : IoStat Ratio} (h : fromStr text = .ok parsed) {d : Device}
    {stat : IoDeviceStat Ratio} (hd : parsed.devices[d]? = some stat) {r : Ratio}
    (hr : stat.costVrate = some r) : Bounded 0 none r := by
  unfold fromStr at h
  obtain ⟨devices, hdevices, hparsed⟩ := bind_eq_ok.mp h
  rw [pure_eq_ok] at hparsed
  subst hparsed
  obtain ⟨fields, hfields⟩ := Device.exists_fields_of_parseLines hdevices hd
  obtain ⟨-, -, -, -, -, -, -, -, -, -, -, -, -, -, -, -, -, hvrate⟩ :=
    IoDeviceStat.fromFields_eq_ok_iff.mp hfields
  rw [hr] at hvrate
  rcases KeyedFields.optional_eq_ok_iff.mp hvrate with ⟨-, hnone⟩ | ⟨value, v, -, hvalue, hsome⟩
  · cases hnone
  · cases hsome
    exact bounded_of_parse hvalue

/-! ## The model -/

/-- The rates of the cost model of a device.
Source: `io/cost.rs`, `IoDeviceCostModel`. -/
structure IoDeviceCostModel where
  /-- Who controls the parameters. -/
  control : IoCostControl
  /-- The model. -/
  model : IoCostModelName
  /-- Sequential reads. -/
  readBandwidth : BytesPerSecond
  /-- Sequential read operations. -/
  readSequentialIops : OperationsPerSecond
  /-- Random read operations. -/
  readRandomIops : OperationsPerSecond
  /-- Sequential writes. -/
  writeBandwidth : BytesPerSecond
  /-- Sequential write operations. -/
  writeSequentialIops : OperationsPerSecond
  /-- Random write operations. -/
  writeRandomIops : OperationsPerSecond
  deriving DecidableEq, Repr

/-- A snapshot of the model of each device.
Source: `io/cost.rs`, `IoCostModel`. -/
structure IoCostModel where
  /-- The model of each device. -/
  devices : BTreeMap Device IoDeviceCostModel

/-- The keys of an `io.cost.model` line. -/
inductive IoCostModelField
  | ctrl
  | model
  | rbps
  | rseqiops
  | rrandiops
  | wbps
  | wseqiops
  | wrandiops
  deriving DecidableEq, Repr

/-- The printed name of a key. -/
def IoCostModelField.name : IoCostModelField → String
  | ctrl => "ctrl"
  | model => "model"
  | rbps => "rbps"
  | rseqiops => "rseqiops"
  | rrandiops => "rrandiops"
  | wbps => "wbps"
  | wseqiops => "wseqiops"
  | wrandiops => "wrandiops"

instance : NamedEnum IoCostModelField where
  all := [.ctrl, .model, .rbps, .rseqiops, .rrandiops, .wbps, .wseqiops, .wrandiops]
  name := IoCostModelField.name
  mem_all := by intro f; cases f <;> decide
  nodup_names := by decide

namespace IoDeviceCostModel

/-- Source: `io/cost.rs`, `IoDeviceCostModel::from_fields`. -/
def fromFields (fields : KeyedFields) : Parsed IoDeviceCostModel := do
  let control ← fields.required IoCostControl "ctrl"
  let model ← fields.required IoCostModelName "model"
  let readBandwidth ← fields.required ParseBandwidth "rbps"
  let readSequentialIops ← fields.required ParseIops "rseqiops"
  let readRandomIops ← fields.required ParseIops "rrandiops"
  let writeBandwidth ← fields.required ParseBandwidth "wbps"
  let writeSequentialIops ← fields.required ParseIops "wseqiops"
  let writeRandomIops ← fields.required ParseIops "wrandiops"
  return ⟨control, model, readBandwidth, readSequentialIops, readRandomIops, writeBandwidth,
    writeSequentialIops, writeRandomIops⟩

/-- The printed value of each key. -/
def encode (costs : IoDeviceCostModel) : IoCostModelField → Option Str
  | .ctrl => some (NamedEnum.key costs.control)
  | .model => some (NamedEnum.key costs.model)
  | .rbps => some (decimal costs.readBandwidth.value.toNat)
  | .rseqiops => some (decimal costs.readSequentialIops.value.toNat)
  | .rrandiops => some (decimal costs.readRandomIops.value.toNat)
  | .wbps => some (decimal costs.writeBandwidth.value.toNat)
  | .wseqiops => some (decimal costs.writeSequentialIops.value.toNat)
  | .wrandiops => some (decimal costs.writeRandomIops.value.toNat)

/-- **A line is read back from the fields that show it.** -/
theorem fromFields_of_encoded {costs : IoDeviceCostModel} {fields : KeyedFields}
    (hget : ∀ f : IoCostModelField, fields.values[NamedEnum.key f]? = costs.encode f) :
    fromFields fields = .ok costs := by
  have hbandwidth : ∀ q : BytesPerSecond,
      parseCgroup ParseBandwidth (decimal q.value.toNat) = .ok q :=
    fun q => parseQuantity_decimal BytesPerSecond.mk q.value
  have hiops : ∀ q : OperationsPerSecond, parseCgroup ParseIops (decimal q.value.toNat) = .ok q :=
    fun q => parseQuantity_decimal OperationsPerSecond.mk q.value
  unfold fromFields
  simp only [bind_eq_ok, pure_eq_ok]
  exact ⟨_, KeyedFields.required_of_encoded (hget .ctrl) (parseName_key _),
    _, KeyedFields.required_of_encoded (hget .model) (parseName_key _),
    _, KeyedFields.required_of_encoded (hget .rbps) (hbandwidth _),
    _, KeyedFields.required_of_encoded (hget .rseqiops) (hiops _),
    _, KeyedFields.required_of_encoded (hget .rrandiops) (hiops _),
    _, KeyedFields.required_of_encoded (hget .wbps) (hbandwidth _),
    _, KeyedFields.required_of_encoded (hget .wseqiops) (hiops _),
    _, KeyedFields.required_of_encoded (hget .wrandiops) (hiops _), rfl⟩

end IoDeviceCostModel

/-- Source: `io/cost.rs`, `IoCostModel::from_str`. -/
def IoCostModel.fromStr (contents : Str) : Parsed IoCostModel := do
  return ⟨← Device.parseLines contents IoDeviceCostModel.fromFields⟩

/-- **Every rendering of models is read back.** -/
lemma IoCostModel.fromStr_of_renders {devices : BTreeMap Device IoDeviceCostModel} {text : Str}
    (h : Device.Renders IoDeviceCostModel.encode devices text) : fromStr text = .ok ⟨devices⟩ := by
  have hlines : Device.parseLines text IoDeviceCostModel.fromFields = .ok devices :=
    Device.parseLines_of_renders h (fun _ _ _ => ⟨.ctrl, Option.some_ne_none _⟩)
      fun _ _ _ _ hget => IoDeviceCostModel.fromFields_of_encoded hget
  unfold fromStr
  rw [hlines]
  rfl

/-- **The cost files are decoded to exactly what was encoded**, whatever the order of devices and
tokens and whatever tokens of other keys stand between them: models of any rates, and parameters of
whole microseconds, for any `f64` numbers and any way to print percentages that is read back. No
accepted file holds a percentage out of its range, nor does `io.stat`. -/
theorem io_cost_decodes :
    (∀ (devices : BTreeMap Device IoDeviceCostModel) text,
      Device.Renders IoDeviceCostModel.encode devices text →
      IoCostModel.fromStr text = .ok ⟨devices⟩) ∧
    ∀ (Ratio : Type) [FloatRatio Ratio],
      (∀ (print : Ratio → Str) (devices : BTreeMap Device (IoDeviceCostQos Ratio)) text,
        (∀ (d : Device) qos, devices[d]? = some qos → qos.Printable print) →
        Device.Renders (IoDeviceCostQos.encode print) devices text →
        IoCostQos.fromStr text = .ok ⟨devices⟩) ∧
      (∀ text (parsed : IoCostQos Ratio), IoCostQos.fromStr text = .ok parsed →
        ∀ (d : Device) qos, parsed.devices[d]? = some qos → qos.InBounds) ∧
      ∀ text (parsed : IoStat Ratio), IoStat.fromStr text = .ok parsed →
        ∀ (d : Device) stat r, parsed.devices[d]? = some stat → stat.costVrate = some r →
          Bounded 0 none r :=
  ⟨fun _ _ h => IoCostModel.fromStr_of_renders h, fun _ _ =>
    ⟨fun _ _ _ hprint h => IoCostQos.fromStr_of_renders hprint h,
      fun _ _ h _ _ hd => IoCostQos.inBounds_of_fromStr h hd,
      fun _ _ h _ _ _ hd hr => IoStat.bounded_costVrate h hd hr⟩⟩

namespace Hundredths

/-- The printed form. -/
def print (ratio : Hundredths) : Str :=
  decimal (ratio.value / 100) ++ '.' ::
    (decimal (ratio.value / 10 % 10) ++ decimal (ratio.value % 10))

instance : FloatRatio Hundredths where
  F64 := ℕ
  parse := parse
  isFinite _ := true
  atLeast x lower := decide (100 * lower ≤ x)
  atMost x upper := decide (x ≤ 100 * upper)
  percent x := ⟨x⟩

end Hundredths

/-- The parameters of a device. -/
def oneQos : List (Device × IoDeviceCostQos Hundredths) :=
  [(⟨8, 16⟩, ⟨true, .user, ⟨9500⟩, ⟨75000000⟩, ⟨9500⟩, ⟨150000000⟩, ⟨5000⟩, ⟨15000⟩⟩)]

/-- Their line. -/
def oneQosRow : List (Device × List (Str × Str)) :=
  [(⟨8, 16⟩, [("enable".toList, "1".toList), ("ctrl".toList, "user".toList),
      ("rpct".toList, "95.00".toList), ("rlat".toList, "75000".toList),
      ("wpct".toList, "95.00".toList), ("wlat".toList, "150000".toList),
      ("min".toList, "50.00".toList), ("max".toList, "150.00".toList)])]

/-- The parameters are read back, and are in their ranges. -/
theorem io_cost_decodes_listing :
    IoCostQos.fromStr (unlines (oneQosRow.map Device.row)) =
      .ok ⟨Std.ExtTreeMap.ofList oneQos compare⟩ ∧
    ∀ (d : Device) qos, (Std.ExtTreeMap.ofList oneQos compare)[d]? = some qos →
      qos.InBounds := by
  obtain ⟨hrenders, hbounds, -⟩ := io_cost_decodes.2 Hundredths
  have hread : IoCostQos.fromStr (unlines (oneQosRow.map Device.row)) =
      .ok ⟨Std.ExtTreeMap.ofList oneQos compare⟩ := by
    refine hrenders Hundredths.print _ _ (of_getElem?_ofList ?_) ⟨oneQosRow,
      listsMap_ofList (by decide) ?_, layout_unlines (by decide +kernel)⟩
    · intro e he
      obtain rfl := List.mem_singleton.mp he
      exact ⟨by decide, by decide, rfl, rfl, rfl, rfl⟩
    · exact .cons (by decide) .nil
  exact ⟨hread, hbounds _ _ hread⟩

end Sakai
