import Sakai.Io.Limits

/-!
# `io.stat`

Up to eighteen optional counters a device, in four encodings: plain numbers, `max` or a number,
the signed delay indicator, and times in nanoseconds, microseconds or milliseconds. How
`cost.vrate` is converted to a `Ratio` is a parameter, the instance of `ParseCostPercent`.

* `IoDeviceStat.fromFields_of_encoded`: a row is read back from the fields that show it, an absent
  field as `none`.
* `IoStat.fromStr_of_renders`: every rendering of device counters is read as exactly these.
* `nested_io_decodes`: the three device files are decoded to what was encoded.
-/

namespace Sakai

open Lib

/-! ## Encodings -/

/-- The kernel's signed `use_delay` indicator.
Source: `io/stat.rs`, `DelayUsage`. -/
structure DelayUsage where
  /-- The indicator. -/
  value : Int32
  /-- It is at least `-1`. -/
  ge : -1 ≤ value.toInt
  deriving DecidableEq, Repr

namespace DelayUsage

/-- Source: `io/stat.rs`, the validation of `DelayUsage`. -/
def tryNew (value : Int32) : Option DelayUsage :=
  if h : -1 ≤ value.toInt then some ⟨value, h⟩ else none

instance : ParseCgroup DelayUsage DelayUsage ParseValueError where
  parseCgroup value := do
    match tryNew (← integer (parseI32 value)) with
    | some usage => return usage
    | none => .error .outOfRange

/-- A printed indicator is read back. -/
lemma parse_decimalInt (usage : DelayUsage) :
    parseCgroup DelayUsage (decimalInt usage.value.toInt) = .ok usage := by
  have hnew : tryNew usage.value = some usage := dif_pos usage.ge
  show (do
    match tryNew (← integer (parseI32 (decimalInt usage.value.toInt))) with
    | some usage => return usage
    | none => .error .outOfRange) = Except.ok usage
  rw [integer_eq_ok.mpr (parseI32_decimalInt usage.value), ok_bind, hnew]
  rfl

end DelayUsage

/-- A marker for times in nanoseconds.
Source: `io/stat.rs`, `ParseNanoseconds`. -/
structure ParseNanoseconds

instance : ParseCgroup ParseNanoseconds Time ParseValueError := ⟨parseQuantity Time.mk⟩

/-- A marker for times in milliseconds.
Source: `io/stat.rs`, `ParseMilliseconds`. -/
structure ParseMilliseconds

/-- Source: `io/stat.rs`, `ParseMilliseconds::NANOSECONDS_PER_MILLISECOND`. -/
def ParseMilliseconds.NANOSECONDS_PER_MILLISECOND : UInt64 := 1000000

instance : ParseCgroup ParseMilliseconds Time ParseValueError :=
  ⟨parseScaled ParseMilliseconds.NANOSECONDS_PER_MILLISECOND⟩

/-- A marker for the percentage of `cost.vrate`.
Source: `io/stat.rs`, `ParseCostPercent`. -/
structure ParseCostPercent

/-- The number of whole milliseconds in a time. -/
def Time.millis (t : Time) : ℕ := t.value.toNat / 1000000

/-- The time is a whole number of milliseconds. -/
def Time.WholeMillis (t : Time) : Prop := t.value.toNat % 1000000 = 0

instance (t : Time) : Decidable t.WholeMillis :=
  inferInstanceAs (Decidable (t.value.toNat % 1000000 = 0))

/-- A whole number of milliseconds is read back from its decimal form. -/
lemma parseMilliseconds_decimal {t : Time} (h : t.WholeMillis) :
    parseCgroup ParseMilliseconds (decimal t.millis) = .ok t := by
  apply parseScaled_decimal (k := ParseMilliseconds.NANOSECONDS_PER_MILLISECOND) (by decide)
  have hscale : ParseMilliseconds.NANOSECONDS_PER_MILLISECOND.toNat = 1000000 := rfl
  rw [hscale]
  unfold Time.millis
  unfold Time.WholeMillis at h
  omega

/-! ## Counters -/

/-- The counters of one block device; one that was not reported is `none`.
Source: `io/stat.rs`, `IoDeviceStat`. -/
structure IoDeviceStat (Ratio : Type) where
  /-- Bytes read. -/
  readBytes : Option Bytes
  /-- Bytes written. -/
  writeBytes : Option Bytes
  /-- Bytes discarded. -/
  discardBytes : Option Bytes
  /-- Read operations. -/
  readOperations : Option Count
  /-- Write operations. -/
  writeOperations : Option Count
  /-- Discard operations. -/
  discardOperations : Option Count
  /-- The delay-control indicator. -/
  delayUsage : Option DelayUsage
  /-- The current artificial delay. -/
  delay : Option Time
  /-- The current queue-depth limit. -/
  depth : Option (MaxOr Count)
  /-- The moving average latency. -/
  averageLatency : Option Time
  /-- The sampling window. -/
  latencyWindow : Option Time
  /-- I/Os that missed their target in the window. -/
  missed : Option Count
  /-- I/Os accounted in the window. -/
  total : Option Count
  /-- Modelled I/O usage. -/
  costUsage : Option Time
  /-- Time waiting for I/O cost. -/
  costWait : Option Time
  /-- Time in I/O cost debt. -/
  costIndebt : Option Time
  /-- I/O cost delay time. -/
  costIndelay : Option Time
  /-- The virtual-time rate of the device. -/
  costVrate : Option Ratio
  deriving DecidableEq, Repr

/-- A snapshot of per-device counters.
Source: `io/stat.rs`, `IoStat`. -/
structure IoStat (Ratio : Type) where
  /-- The counters of each device. -/
  devices : BTreeMap Device (IoDeviceStat Ratio)

/-- The keys of an `io.stat` line. -/
inductive IoStatField
  | rbytes
  | wbytes
  | dbytes
  | rios
  | wios
  | dios
  | useDelay
  | delayNsec
  | depth
  | avgLat
  | win
  | missed
  | total
  | costUsage
  | costWait
  | costIndebt
  | costIndelay
  | costVrate
  deriving DecidableEq, Repr

namespace IoStatField

/-- The printed name of a key. -/
def name : IoStatField → String
  | rbytes => "rbytes"
  | wbytes => "wbytes"
  | dbytes => "dbytes"
  | rios => "rios"
  | wios => "wios"
  | dios => "dios"
  | useDelay => "use_delay"
  | delayNsec => "delay_nsec"
  | depth => "depth"
  | avgLat => "avg_lat"
  | win => "win"
  | missed => "missed"
  | total => "total"
  | costUsage => "cost.usage"
  | costWait => "cost.wait"
  | costIndebt => "cost.indebt"
  | costIndelay => "cost.indelay"
  | costVrate => "cost.vrate"

instance : NamedEnum IoStatField where
  all := [rbytes, wbytes, dbytes, rios, wios, dios, useDelay, delayNsec, depth, avgLat, win,
    missed, total, costUsage, costWait, costIndebt, costIndelay, costVrate]
  name := name
  mem_all := by intro f; cases f <;> decide
  nodup_names := by decide

end IoStatField

section stat

variable {Ratio : Type}

namespace IoDeviceStat

/-- No counter is reported.
Source: `io/stat.rs`, the derived `Default` of `IoDeviceStat`. -/
def empty : IoDeviceStat Ratio :=
  ⟨none, none, none, none, none, none, none, none, none, none, none, none, none, none, none, none,
    none, none⟩

/-- The printed value of each key; the text of a rate is not modelled. -/
def encode (stat : IoDeviceStat Ratio) : IoStatField → Option Str
  | .rbytes => stat.readBytes.map fun q => decimal q.value.toNat
  | .wbytes => stat.writeBytes.map fun q => decimal q.value.toNat
  | .dbytes => stat.discardBytes.map fun q => decimal q.value.toNat
  | .rios => stat.readOperations.map fun q => decimal q.value.toNat
  | .wios => stat.writeOperations.map fun q => decimal q.value.toNat
  | .dios => stat.discardOperations.map fun q => decimal q.value.toNat
  | .useDelay => stat.delayUsage.map fun usage => decimalInt usage.value.toInt
  | .delayNsec => stat.delay.map fun t => decimal t.value.toNat
  | .depth => stat.depth.map fun m => m.encode fun q => decimal q.value.toNat
  | .avgLat => stat.averageLatency.map fun t => decimal t.micros
  | .win => stat.latencyWindow.map fun t => decimal t.millis
  | .missed => stat.missed.map fun q => decimal q.value.toNat
  | .total => stat.total.map fun q => decimal q.value.toNat
  | .costUsage => stat.costUsage.map fun t => decimal t.micros
  | .costWait => stat.costWait.map fun t => decimal t.micros
  | .costIndebt => stat.costIndebt.map fun t => decimal t.micros
  | .costIndelay => stat.costIndelay.map fun t => decimal t.micros
  | .costVrate => none

/-- Each time is a whole number of the unit it is printed in, and no rate is reported. -/
structure Printable (stat : IoDeviceStat Ratio) : Prop where
  /-- `avg_lat` is in microseconds. -/
  averageLatency : ∀ t, stat.averageLatency = some t → t.WholeMicros
  /-- `win` is in milliseconds. -/
  latencyWindow : ∀ t, stat.latencyWindow = some t → t.WholeMillis
  /-- `cost.usage` is in microseconds. -/
  costUsage : ∀ t, stat.costUsage = some t → t.WholeMicros
  /-- `cost.wait` is in microseconds. -/
  costWait : ∀ t, stat.costWait = some t → t.WholeMicros
  /-- `cost.indebt` is in microseconds. -/
  costIndebt : ∀ t, stat.costIndebt = some t → t.WholeMicros
  /-- `cost.indelay` is in microseconds. -/
  costIndelay : ∀ t, stat.costIndelay = some t → t.WholeMicros
  /-- There is no `cost.vrate`. -/
  costVrate : stat.costVrate = none

/-- A row without a printed field is empty. -/
lemma eq_empty {stat : IoDeviceStat Ratio} (hvrate : stat.costVrate = none)
    (h : ∀ f, stat.encode f = none) : stat = empty := by
  cases stat
  simp only [empty, IoDeviceStat.mk.injEq]
  exact ⟨Option.map_eq_none_iff.mp (h .rbytes), Option.map_eq_none_iff.mp (h .wbytes),
    Option.map_eq_none_iff.mp (h .dbytes), Option.map_eq_none_iff.mp (h .rios),
    Option.map_eq_none_iff.mp (h .wios), Option.map_eq_none_iff.mp (h .dios),
    Option.map_eq_none_iff.mp (h .useDelay), Option.map_eq_none_iff.mp (h .delayNsec),
    Option.map_eq_none_iff.mp (h .depth), Option.map_eq_none_iff.mp (h .avgLat),
    Option.map_eq_none_iff.mp (h .win), Option.map_eq_none_iff.mp (h .missed),
    Option.map_eq_none_iff.mp (h .total), Option.map_eq_none_iff.mp (h .costUsage),
    Option.map_eq_none_iff.mp (h .costWait), Option.map_eq_none_iff.mp (h .costIndebt),
    Option.map_eq_none_iff.mp (h .costIndelay), hvrate⟩

variable [ParseCgroup ParseCostPercent Ratio ParseValueError]

/-- Source: `io/stat.rs`, `IoDeviceStat::from_fields`. -/
def fromFields (fields : KeyedFields) : Parsed (IoDeviceStat Ratio) := do
  let readBytes ← fields.optional ParseBytes "rbytes"
  let writeBytes ← fields.optional ParseBytes "wbytes"
  let discardBytes ← fields.optional ParseBytes "dbytes"
  let readOperations ← fields.optional ParseCount "rios"
  let writeOperations ← fields.optional ParseCount "wios"
  let discardOperations ← fields.optional ParseCount "dios"
  let delayUsage ← fields.optional DelayUsage "use_delay"
  let delay ← fields.optional ParseNanoseconds "delay_nsec"
  let depth ← fields.optional ParseCount "depth"
  let averageLatency ← fields.optional ParseMicroseconds "avg_lat"
  let latencyWindow ← fields.optional ParseMilliseconds "win"
  let missed ← fields.optional ParseCount "missed"
  let total ← fields.optional ParseCount "total"
  let costUsage ← fields.optional ParseMicroseconds "cost.usage"
  let costWait ← fields.optional ParseMicroseconds "cost.wait"
  let costIndebt ← fields.optional ParseMicroseconds "cost.indebt"
  let costIndelay ← fields.optional ParseMicroseconds "cost.indelay"
  let costVrate ← fields.optional ParseCostPercent "cost.vrate"
  return ⟨readBytes, writeBytes, discardBytes, readOperations, writeOperations,
    discardOperations, delayUsage, delay, depth, averageLatency, latencyWindow, missed, total,
    costUsage, costWait, costIndebt, costIndelay, costVrate⟩

/-- What a row accepts, field by field. -/
lemma fromFields_eq_ok_iff {fields : KeyedFields} {stat : IoDeviceStat Ratio} :
    fromFields fields = .ok stat ↔
      fields.optional ParseBytes "rbytes" = .ok stat.readBytes ∧
      fields.optional ParseBytes "wbytes" = .ok stat.writeBytes ∧
      fields.optional ParseBytes "dbytes" = .ok stat.discardBytes ∧
      fields.optional ParseCount "rios" = .ok stat.readOperations ∧
      fields.optional ParseCount "wios" = .ok stat.writeOperations ∧
      fields.optional ParseCount "dios" = .ok stat.discardOperations ∧
      fields.optional DelayUsage "use_delay" = .ok stat.delayUsage ∧
      fields.optional ParseNanoseconds "delay_nsec" = .ok stat.delay ∧
      fields.optional ParseCount "depth" = .ok stat.depth ∧
      fields.optional ParseMicroseconds "avg_lat" = .ok stat.averageLatency ∧
      fields.optional ParseMilliseconds "win" = .ok stat.latencyWindow ∧
      fields.optional ParseCount "missed" = .ok stat.missed ∧
      fields.optional ParseCount "total" = .ok stat.total ∧
      fields.optional ParseMicroseconds "cost.usage" = .ok stat.costUsage ∧
      fields.optional ParseMicroseconds "cost.wait" = .ok stat.costWait ∧
      fields.optional ParseMicroseconds "cost.indebt" = .ok stat.costIndebt ∧
      fields.optional ParseMicroseconds "cost.indelay" = .ok stat.costIndelay ∧
      fields.optional ParseCostPercent "cost.vrate" = .ok stat.costVrate := by
  unfold fromFields
  simp only [bind_eq_ok, pure_eq_ok]
  constructor
  · rintro ⟨_, h₁, _, h₂, _, h₃, _, h₄, _, h₅, _, h₆, _, h₇, _, h₈, _, h₉, _, h₁₀, _, h₁₁, _, h₁₂,
      _, h₁₃, _, h₁₄, _, h₁₅, _, h₁₆, _, h₁₇, _, h₁₈, rfl⟩
    exact ⟨h₁, h₂, h₃, h₄, h₅, h₆, h₇, h₈, h₉, h₁₀, h₁₁, h₁₂, h₁₃, h₁₄, h₁₅, h₁₆, h₁₇, h₁₈⟩
  · rintro ⟨h₁, h₂, h₃, h₄, h₅, h₆, h₇, h₈, h₉, h₁₀, h₁₁, h₁₂, h₁₃, h₁₄, h₁₅, h₁₆, h₁₇, h₁₈⟩
    exact ⟨_, h₁, _, h₂, _, h₃, _, h₄, _, h₅, _, h₆, _, h₇, _, h₈, _, h₉, _, h₁₀, _, h₁₁, _, h₁₂,
      _, h₁₃, _, h₁₄, _, h₁₅, _, h₁₆, _, h₁₇, _, h₁₈, rfl⟩

section encoded

variable {fields : KeyedFields} {field : String}

/-- An optional count is read back. -/
lemma optional_count {o : Option Count}
    (hget : fields.values[field.toList]? = o.map fun q => decimal q.value.toNat) :
    fields.optional ParseCount field = .ok o :=
  KeyedFields.optional_of_encoded hget fun q _ => parseQuantity_decimal Count.mk q.value

/-- An optional amount is read back. -/
lemma optional_bytes {o : Option Bytes}
    (hget : fields.values[field.toList]? = o.map fun q => decimal q.value.toNat) :
    fields.optional ParseBytes field = .ok o :=
  KeyedFields.optional_of_encoded hget fun q _ => parseQuantity_decimal Bytes.mk q.value

/-- **A row is read back from the fields that show it.** -/
theorem fromFields_of_encoded {stat : IoDeviceStat Ratio} (hprint : stat.Printable)
    (hget : ∀ f : IoStatField, fields.values[NamedEnum.key f]? = stat.encode f) :
    fromFields fields = .ok stat := by
  have hdepth : fields.optional ParseCount "depth" = .ok stat.depth :=
    KeyedFields.optional_of_encoded (hget .depth) fun m _ =>
      parseMaxOr_encode (fun _ => decimal_ne_max _)
        (fun q => parseQuantity_decimal Count.mk q.value) m
  exact fromFields_eq_ok_iff.mpr
    ⟨optional_bytes (hget .rbytes), optional_bytes (hget .wbytes), optional_bytes (hget .dbytes),
      optional_count (hget .rios), optional_count (hget .wios), optional_count (hget .dios),
      KeyedFields.optional_of_encoded (hget .useDelay) fun usage _ => usage.parse_decimalInt,
      KeyedFields.optional_of_encoded (hget .delayNsec) fun t _ =>
        parseQuantity_decimal Time.mk t.value,
      hdepth, KeyedFields.optional_micros (hget .avgLat) hprint.averageLatency,
      KeyedFields.optional_of_encoded (hget .win) fun t ht =>
        parseMilliseconds_decimal (hprint.latencyWindow t ht),
      optional_count (hget .missed), optional_count (hget .total),
      KeyedFields.optional_micros (hget .costUsage) hprint.costUsage,
      KeyedFields.optional_micros (hget .costWait) hprint.costWait,
      KeyedFields.optional_micros (hget .costIndebt) hprint.costIndebt,
      KeyedFields.optional_micros (hget .costIndelay) hprint.costIndelay,
      KeyedFields.optional_eq_ok_iff.mpr (Or.inl ⟨hget .costVrate, hprint.costVrate⟩)⟩

end encoded

end IoDeviceStat

namespace IoStat

variable [ParseCgroup ParseCostPercent Ratio ParseValueError]

/-- Source: `io/stat.rs`, `IoStat::from_str`. -/
def fromStr (contents : Str) : Parsed (IoStat Ratio) := do
  return ⟨← Device.parseLines contents IoDeviceStat.fromFields⟩

/-- **Every rendering of device counters is read back.** -/
lemma fromStr_of_renders {devices : BTreeMap Device (IoDeviceStat Ratio)} {text : Str}
    (hprint : ∀ (d : Device) stat, devices[d]? = some stat → stat.Printable)
    (hne : ∀ (d : Device) stat, devices[d]? = some stat → stat ≠ IoDeviceStat.empty)
    (h : Device.Renders IoDeviceStat.encode devices text) : fromStr text = .ok ⟨devices⟩ := by
  have hlines : Device.parseLines text IoDeviceStat.fromFields = .ok devices := by
    refine Device.parseLines_of_renders h (fun d stat hd => ?_) fun d stat fields hd hget =>
      IoDeviceStat.fromFields_of_encoded (hprint d stat hd) hget
    by_contra hnone
    push Not at hnone
    exact hne d stat hd (IoDeviceStat.eq_empty (hprint d stat hd).costVrate hnone)
  unfold fromStr
  rw [hlines]
  rfl

end IoStat

end stat

/-- **The device files are decoded to exactly what was encoded**: limits, latency targets of whole
microseconds, and counters without a rate in rows that report something, whatever the order of
devices and tokens and whatever tokens of other keys stand between them. -/
theorem nested_io_decodes :
    (∀ (devices : BTreeMap Device IoDeviceMax) text,
      Device.Renders IoDeviceMax.encode devices text → IoMax.fromStr text = .ok ⟨devices⟩) ∧
    (∀ (devices : BTreeMap Device NonZeroTime) text,
      (∀ (d : Device) target, devices[d]? = some target → target.time.WholeMicros) →
      Device.Renders IoLatency.encode devices text → IoLatency.fromStr text = .ok ⟨devices⟩) ∧
    ∀ (Ratio : Type) [ParseCgroup ParseCostPercent Ratio ParseValueError]
      (devices : BTreeMap Device (IoDeviceStat Ratio)) text,
      (∀ (d : Device) stat, devices[d]? = some stat → stat.Printable) →
      (∀ (d : Device) stat, devices[d]? = some stat → stat ≠ IoDeviceStat.empty) →
      Device.Renders IoDeviceStat.encode devices text → IoStat.fromStr text = .ok ⟨devices⟩ :=
  ⟨fun _ _ h => IoMax.fromStr_of_renders h,
    fun _ _ hwhole h => IoLatency.fromStr_of_renders hwhole h,
    fun _ _ _ _ hprint hne h => IoStat.fromStr_of_renders hprint hne h⟩

/-- The limits of two devices. -/
def twoLimits : List (Device × IoDeviceMax) :=
  [(⟨8, 16⟩, ⟨.value ⟨2097152⟩, .max, .max, .value ⟨120⟩⟩), (⟨8, 0⟩, ⟨.max, .max, .max, .max⟩)]

/-- Their lines, with tokens in any order, and one of an unknown key. -/
def twoLimitRows : List (Device × List (Str × Str)) :=
  [(⟨8, 16⟩, [("wiops".toList, "120".toList), ("rbps".toList, "2097152".toList),
      ("future".toList, "a=b".toList), ("wbps".toList, "max".toList),
      ("riops".toList, "max".toList)]),
    (⟨8, 0⟩, [("rbps".toList, "max".toList), ("wbps".toList, "max".toList),
      ("riops".toList, "max".toList), ("wiops".toList, "max".toList)])]

/-- A target of 75 milliseconds. -/
def oneTarget : List (Device × NonZeroTime) := [(⟨8, 16⟩, ⟨⟨75000000⟩, by decide⟩)]

/-- Its line. -/
def oneTargetRow : List (Device × List (Str × Str)) :=
  [(⟨8, 16⟩, [("future".toList, []), ("target".toList, "75000".toList)])]

/-- Some counters of a device, one of them negative. -/
def oneStat (Ratio : Type) : List (Device × IoDeviceStat Ratio) :=
  [(⟨8, 0⟩, { IoDeviceStat.empty with
    readBytes := some ⟨180224⟩, delayUsage := some ⟨-1, by decide⟩, depth := some .max,
    averageLatency := some ⟨5000⟩, latencyWindow := some ⟨100000000⟩ })]

/-- Their line. -/
def oneStatRow : List (Device × List (Str × Str)) :=
  [(⟨8, 0⟩, [("win".toList, "100".toList), ("use_delay".toList, "-1".toList),
    ("depth".toList, "max".toList), ("avg_lat".toList, "5".toList),
    ("rbytes".toList, "180224".toList)])]

/-- Limits, a target and counters are read back from these lines. -/
theorem nested_io_decodes_listing :
    IoMax.fromStr (unlines (twoLimitRows.map Device.row)) =
      .ok ⟨Std.ExtTreeMap.ofList twoLimits compare⟩ ∧
    IoLatency.fromStr (unlines (oneTargetRow.map Device.row)) =
      .ok ⟨Std.ExtTreeMap.ofList oneTarget compare⟩ ∧
    ∀ (Ratio : Type) [ParseCgroup ParseCostPercent Ratio ParseValueError],
      IoStat.fromStr (unlines (oneStatRow.map Device.row)) =
        .ok ⟨Std.ExtTreeMap.ofList (oneStat Ratio) compare⟩ := by
  refine ⟨nested_io_decodes.1 _ _ ⟨twoLimitRows, listsMap_ofList (by decide) ?_,
      layout_unlines (by decide +kernel)⟩,
    nested_io_decodes.2.1 _ _ (of_getElem?_ofList (by decide)) ⟨oneTargetRow,
      listsMap_ofList (by decide) ?_, layout_unlines (by decide +kernel)⟩,
    fun Ratio _ => nested_io_decodes.2.2 Ratio _ _ (of_getElem?_ofList ?_)
      (of_getElem?_ofList ?_) ⟨oneStatRow, listsMap_ofList ?_ ?_,
        layout_unlines (by decide +kernel)⟩⟩
  · exact .cons (by decide) (.cons (by decide) .nil)
  · exact .cons (by decide) .nil
  · rintro e he
    obtain rfl := List.mem_singleton.mp he
    exact ⟨by rintro t ⟨⟩; decide, by rintro t ⟨⟩; decide, nofun, nofun, nofun, nofun, rfl⟩
  · rintro e he h
    obtain rfl := List.mem_singleton.mp he
    cases h
  · exact List.nodup_singleton _
  · exact .cons ⟨rfl, by decide, of_decide_eq_true rfl⟩ .nil

end Sakai
