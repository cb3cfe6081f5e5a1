import Sakai.Flat

/-!
# `cpu.stat`: usage, bandwidth and burst counters

The readers of `cpu/stat.rs`. Usage times are always present; the bandwidth counters form a group
that is read when any of its five keys is present, and the burst counters a group inside it.

* `parseBandwidthCount_eq_ok_iff`: a counter is an unsigned numeral, or a minus sign and digits of
  at most `2 ^ 31`, standing for the unsigned 32-bit value with the same bit pattern.
* `CpuTimeStat.fromFields_eq_ok_iff`, `CpuBandwidthStat.fromFields_eq_ok_iff`,
  `CpuBurstStat.fromFields_eq_ok_iff`: what each group reader accepts, field by field.
* `CpuStat.fromFields_congr` and its siblings: up to the retained input, a reader depends on the
  values of its own keys only.
-/

namespace Sakai

open Lib

/-! ## Fields -/

/-- The keys of `cpu.stat`.
Source: `cpu/stat.rs`, `CpuStatField`. -/
inductive CpuStatField
  | usageUsec
  | userUsec
  | systemUsec
  | niceUsec
  | forceIdleUsec
  | nrPeriods
  | nrThrottled
  | throttledUsec
  | nrBursts
  | burstUsec
  deriving DecidableEq, Repr

namespace CpuStatField

/-- The printed name of a key. -/
def name : CpuStatField → String
  | usageUsec => "usage_usec"
  | userUsec => "user_usec"
  | systemUsec => "system_usec"
  | niceUsec => "nice_usec"
  | forceIdleUsec => "core_sched.force_idle_usec"
  | nrPeriods => "nr_periods"
  | nrThrottled => "nr_throttled"
  | throttledUsec => "throttled_usec"
  | nrBursts => "nr_bursts"
  | burstUsec => "burst_usec"

instance : NamedEnum CpuStatField where
  all := [usageUsec, userUsec, systemUsec, niceUsec, forceIdleUsec, nrPeriods, nrThrottled,
    throttledUsec, nrBursts, burstUsec]
  name := name
  mem_all := by intro f; cases f <;> decide
  nodup_names := by decide

/-- The keyed fields of a `cpu.stat` text; a known key labels its own value.
Source: `cpu/stat.rs`, `CpuStatField::fields`. -/
def fields (raw : Str) : Parsed KeyedFields :=
  KeyedFields.parse raw fun key => ((NamedEnum.fromStr? key).map name).getD "value"

/-- Source: `cpu/stat.rs`, `CpuStatField::bandwidth_fields`. -/
def bandwidthFields : List CpuStatField :=
  [nrPeriods, nrThrottled, throttledUsec, nrBursts, burstUsec]

/-- Source: `cpu/stat.rs`, `CpuStatField::bandwidth_burst_fields`. -/
def bandwidthBurstFields : List CpuStatField := [nrBursts, burstUsec]

end CpuStatField

open CpuStatField

/-! ## Bandwidth counters -/

/-- A marker for bandwidth counters.
Source: `cpu/stat.rs`, `ParseBandwidthCount`. -/
structure ParseBandwidthCount

/-- The wrapped signed form is reinterpreted as unsigned.
Source: `cpu/stat.rs`, `ParseBandwidthCount::parse_cgroup`. -/
def parseBandwidthCount (value : Str) : Except ParseValueError Count :=
  if value.head? = some '-' then
    (integer (parseI32 value)).map fun v => ⟨v.toUInt32.toUInt64⟩
  else (integer (parseU64 value)).map Count.mk

instance : ParseCgroup ParseBandwidthCount Count ParseValueError := ⟨parseBandwidthCount⟩

/-- No numeral starts with a minus sign. -/
lemma not_isNumeral_minus {ds : Str} {n : ℕ} : ¬ IsNumeral ('-' :: ds) n := by
  rintro (h | ⟨ds', h, -⟩)
  · exact absurd h.head_isDigit (by decide)
  · cases h

/-- The unsigned value with the bit pattern of a negative 32-bit integer. -/
lemma toNat_toUInt32_ofInt_neg (n : ℕ) :
    (Int32.ofInt (-(n : ℤ))).toUInt32.toUInt64.toNat = (-(n : ℤ) % 2 ^ 32).toNat := by
  have h : (BitVec.ofInt 32 (-(n : ℤ))).toNat = (-(n : ℤ) % ((2 ^ 32 : ℕ) : ℤ)).toNat :=
    BitVec.toNat_ofInt _
  exact h

/-- After a minus sign, a counter is the bit pattern of a negative 32-bit integer. -/
lemma parseBandwidthCount_minus_eq_ok_iff {ds : Str} {c : Count} :
    parseBandwidthCount ('-' :: ds) = .ok c ↔
      ∃ n, IsDigits ds n ∧ n ≤ 2 ^ 31 ∧ c.value.toNat = (-(n : ℤ) % 2 ^ 32).toNat := by
  unfold parseBandwidthCount
  rw [if_pos List.head?_cons, map_eq_ok]
  simp only [integer_eq_ok, parseI32, map_eq_ok]
  constructor
  · rintro ⟨v, ⟨i, hi, rfl⟩, rfl⟩
    obtain ⟨n, rfl, hn, hle⟩ := parseSigned_minus_eq_ok_iff.mp hi
    exact ⟨n, hn, hle, toNat_toUInt32_ofInt_neg n⟩
  · rintro ⟨n, hn, hle, hc⟩
    refine ⟨Int32.ofInt (-(n : ℤ)),
      ⟨-(n : ℤ), parseSigned_minus_eq_ok_iff.mpr ⟨n, rfl, hn, hle⟩, rfl⟩, ?_⟩
    have hval : (Int32.ofInt (-(n : ℤ))).toUInt32.toUInt64 = c.value :=
      UInt64.toNat_inj.mp (by rw [toNat_toUInt32_ofInt_neg, hc])
    rw [hval]

/-- Without a minus sign, a counter is an unsigned numeral. -/
lemma parseBandwidthCount_of_head_ne {value : Str} (h : value.head? ≠ some '-') {c : Count} :
    parseBandwidthCount value = .ok c ↔ IsNumeral value c.value.toNat := by
  unfold parseBandwidthCount
  rw [if_neg h, map_eq_ok]
  simp only [integer_eq_ok, parseU64_eq_ok_iff]
  constructor
  · rintro ⟨v, hv, rfl⟩
    exact hv
  · intro hv
    exact ⟨c.value, hv, rfl⟩

/-- What a bandwidth counter's text means: an unsigned numeral, or the signed form of a 32-bit
pattern. -/
def IsCounter (value : Str) (c : Count) : Prop :=
  IsNumeral value c.value.toNat ∨
  ∃ ds n, value = '-' :: ds ∧ IsDigits ds n ∧ n ≤ 2 ^ 31 ∧
    c.value.toNat = (-(n : ℤ) % 2 ^ 32).toNat

/-- **A bandwidth counter is accepted exactly with its meaning.** -/
theorem parseBandwidthCount_eq_ok_iff {value : Str} {c : Count} :
    parseCgroup ParseBandwidthCount value = .ok c ↔ IsCounter value c := by
  show parseBandwidthCount value = .ok c ↔ _
  unfold IsCounter
  by_cases h : value.head? = some '-'
  · obtain ⟨ds, rfl⟩ : ∃ ds, value = '-' :: ds := by
      rcases value with _ | ⟨x, ds⟩
      · cases h
      · rw [List.head?_cons, Option.some.injEq] at h
        exact ⟨ds, by rw [h]⟩
    rw [parseBandwidthCount_minus_eq_ok_iff]
    constructor
    · rintro ⟨n, hn⟩
      exact Or.inr ⟨ds, n, rfl, hn⟩
    · rintro (hnum | ⟨ds', n, hds, hn⟩)
      · exact absurd hnum not_isNumeral_minus
      · cases hds
        exact ⟨n, hn⟩
  · rw [parseBandwidthCount_of_head_ne h]
    constructor
    · exact Or.inl
    · rintro (hnum | ⟨ds, n, rfl, -⟩)
      · exact hnum
      · exact absurd List.head?_cons h

/-- The two ways a counter is printed. -/
inductive CounterForm
  | unsigned
  | signed
  deriving DecidableEq, Repr

/-- A counter as its unsigned decimal, or as the signed 32-bit integer with its low 32 bits. -/
def Count.print (c : Count) : CounterForm → Str
  | .unsigned => decimal c.value.toNat
  | .signed => decimalInt c.value.toUInt32.toInt32.toInt

/-- The signed 32-bit integer with the bits of a 32-bit counter. -/
lemma toInt_toInt32_of_lt {v : UInt64} (h : v.toNat < 2 ^ 32) :
    v.toUInt32.toInt32.toInt =
      if v.toNat < 2 ^ 31 then (v.toNat : ℤ) else (v.toNat : ℤ) - 2 ^ 32 := by
  have hnat : v.toUInt32.toBitVec.toNat = v.toNat % 2 ^ 32 := UInt64.toNat_toUInt32 v
  have hbv : v.toUInt32.toInt32.toInt = v.toUInt32.toBitVec.toInt := rfl
  rw [hbv, BitVec.toInt_eq_toNat_cond, hnat, Nat.mod_eq_of_lt h]
  split_ifs <;> omega

/-- A printed counter means itself, the signed form while the counter is a 32-bit value. -/
lemma isCounter_print {c : Count} {form : CounterForm}
    (h : form = .signed → c.value.toNat < 2 ^ 32) : IsCounter (c.print form) c := by
  cases form with
  | unsigned => exact Or.inl (isNumeral_decimal _)
  | signed =>
      have hlt := h rfl
      unfold Count.print
      rw [toInt_toInt32_of_lt hlt]
      by_cases hsmall : c.value.toNat < 2 ^ 31
      · left
        rw [if_pos hsmall, decimalInt, if_pos (by omega), Int.toNat_natCast]
        exact isNumeral_decimal _
      · right
        rw [if_neg hsmall, decimalInt, if_neg (by omega)]
        exact ⟨_, _, rfl, isDigits_decimal _, by omega, by omega⟩

/-! ## Groups -/

/-- A group of fields, read when one of its keys is present.
Source: `cpu/stat.rs`, the `contains_any` branches of `CpuStat::from_str` and
`CpuBandwidthStat::from_fields`. -/
def optionalGroup {T : Type} (names : List String) (fromFields : KeyedFields → Parsed T)
    (fields : KeyedFields) : Parsed (Option T) :=
  if fields.containsAny names then (fromFields fields).map some else .ok none

section group

variable {T : Type} {names : List String} {fromFields : KeyedFields → Parsed T}

/-- A group is absent when no key is present, and read in full otherwise. -/
lemma optionalGroup_eq_ok_iff {fields : KeyedFields} {o : Option T} :
    optionalGroup names fromFields fields = .ok o ↔
      (fields.containsAny names = false ∧ o = none) ∨
      (fields.containsAny names = true ∧ ∃ stat, fromFields fields = .ok stat ∧ o = some stat) := by
  unfold optionalGroup
  cases fields.containsAny names with
  | false => simp [eq_comm]
  | true => simp [map_eq_ok, eq_comm (a := o)]

/-- A group depends on its keys as its reader does. -/
lemma outcome_optionalGroup_congr {f₁ f₂ : KeyedFields}
    (h : KeyedFields.AgreeOn (Named names) f₁ f₂)
    (hfields : outcome (fromFields f₁) = outcome (fromFields f₂)) :
    outcome (optionalGroup names fromFields f₁) = outcome (optionalGroup names fromFields f₂) := by
  unfold optionalGroup
  rw [KeyedFields.containsAny_congr fun field hfield => h _ (named hfield)]
  split_ifs
  · rw [outcome_map, outcome_map, hfields]
  · rfl

end group

/-! ## Usage times -/

/-- CPU usage times.
Source: `cpu/stat.rs`, `CpuTimeStat`. -/
structure CpuTimeStat where
  /-- Total CPU time. -/
  usage : Time
  /-- Time in user mode. -/
  user : Time
  /-- Time in kernel mode. -/
  system : Time
  /-- User time of positively niced tasks, when reported. -/
  nice : Option Time
  /-- Time forced idle by core scheduling, when reported. -/
  forceIdle : Option Time
  deriving DecidableEq, Repr

namespace CpuTimeStat

/-- Source: `cpu/stat.rs`, `CpuTimeStat::from_fields`. -/
def fromFields (fields : KeyedFields) : Parsed CpuTimeStat := do
  return {
    usage := ← fields.required ParseMicroseconds usageUsec.name
    user := ← fields.required ParseMicroseconds userUsec.name
    system := ← fields.required ParseMicroseconds systemUsec.name
    nice := ← fields.optional ParseMicroseconds niceUsec.name
    forceIdle := ← fields.optional ParseMicroseconds forceIdleUsec.name }

/-- Source: `cpu/stat.rs`, `CpuTimeStat::from_str`. -/
def fromStr (contents : Str) : Parsed CpuTimeStat := do
  fromFields (← CpuStatField.fields contents)

/-- The keys of the usage times. -/
def keys : List String :=
  [usageUsec.name, userUsec.name, systemUsec.name, niceUsec.name, forceIdleUsec.name]

/-- What the usage times accept, field by field. -/
lemma fromFields_eq_ok_iff {fields : KeyedFields} {stat : CpuTimeStat} :
    fromFields fields = .ok stat ↔
      fields.required ParseMicroseconds usageUsec.name = .ok stat.usage ∧
      fields.required ParseMicroseconds userUsec.name = .ok stat.user ∧
      fields.required ParseMicroseconds systemUsec.name = .ok stat.system ∧
      fields.optional ParseMicroseconds niceUsec.name = .ok stat.nice ∧
      fields.optional ParseMicroseconds forceIdleUsec.name = .ok stat.forceIdle := by
  unfold fromFields
  simp only [bind_eq_ok, pure_eq_ok]
  constructor
  · rintro ⟨usage, husage, user, huser, system, hsystem, nice, hnice, idle, hidle, rfl⟩
    exact ⟨husage, huser, hsystem, hnice, hidle⟩
  · rintro ⟨husage, huser, hsystem, hnice, hidle⟩
    exact ⟨_, husage, _, huser, _, hsystem, _, hnice, _, hidle, rfl⟩

/-- Up to the retained input, the usage times depend on the values of their keys only. -/
lemma fromFields_congr {f₁ f₂ : KeyedFields} (h : KeyedFields.AgreeOn (Named keys) f₁ f₂) :
    outcome (fromFields f₁) = outcome (fromFields f₂) := by
  unfold fromFields
  refine outcome_bind_congr
    (KeyedFields.outcome_required_congr (h _ (named (by simp [keys])))) fun usage => ?_
  refine outcome_bind_congr
    (KeyedFields.outcome_required_congr (h _ (named (by simp [keys])))) fun user => ?_
  refine outcome_bind_congr
    (KeyedFields.outcome_required_congr (h _ (named (by simp [keys])))) fun system => ?_
  refine outcome_bind_congr
    (KeyedFields.outcome_optional_congr (h _ (named (by simp [keys])))) fun nice => ?_
  exact outcome_bind_congr
    (KeyedFields.outcome_optional_congr (h _ (named (by simp [keys])))) fun idle => rfl

/-- The last-value law of the usage times. -/
lemma lastValueLaw : LastValueLaw (Named keys) fromStr :=
  LastValueLaw.of_fields fun _ _ => fromFields_congr

end CpuTimeStat

/-! ## Burst counters -/

/-- CPU burst counters.
Source: `cpu/stat.rs`, `CpuBurstStat`. -/
structure CpuBurstStat where
  /-- Periods in which a burst occurred. -/
  nrBursts : Count
  /-- CPU time above quota during bursts. -/
  burst : Time
  deriving DecidableEq, Repr

namespace CpuBurstStat

/-- Source: `cpu/stat.rs`, `CpuBurstStat::from_fields`. -/
def fromFields (fields : KeyedFields) : Parsed CpuBurstStat := do
  return {
    nrBursts := ← fields.required ParseBandwidthCount CpuStatField.nrBursts.name
    burst := ← fields.required ParseMicroseconds burstUsec.name }

/-- Source: `cpu/stat.rs`, `CpuBurstStat::from_str`. -/
def fromStr (contents : Str) : Parsed CpuBurstStat := do
  fromFields (← CpuStatField.fields contents)

/-- The keys of the burst counters. -/
def keys : List String := bandwidthBurstFields.map name

/-- What the burst counters accept, field by field. -/
lemma fromFields_eq_ok_iff {fields : KeyedFields} {stat : CpuBurstStat} :
    fromFields fields = .ok stat ↔
      fields.required ParseBandwidthCount CpuStatField.nrBursts.name = .ok stat.nrBursts ∧
      fields.required ParseMicroseconds burstUsec.name = .ok stat.burst := by
  unfold fromFields
  simp only [bind_eq_ok, pure_eq_ok]
  constructor
  · rintro ⟨nr, hnr, burst, hburst, rfl⟩
    exact ⟨hnr, hburst⟩
  · rintro ⟨hnr, hburst⟩
    exact ⟨_, hnr, _, hburst, rfl⟩

/-- Up to the retained input, the burst counters depend on the values of their keys only. -/
lemma fromFields_congr {f₁ f₂ : KeyedFields} (h : KeyedFields.AgreeOn (Named keys) f₁ f₂) :
    outcome (fromFields f₁) = outcome (fromFields f₂) := by
  unfold fromFields
  refine outcome_bind_congr (KeyedFields.outcome_required_congr
    (h _ (named (by simp [keys, bandwidthBurstFields])))) fun nr => ?_
  exact outcome_bind_congr (KeyedFields.outcome_required_congr
    (h _ (named (by simp [keys, bandwidthBurstFields])))) fun burst => rfl

/-- The last-value law of the burst counters. -/
lemma lastValueLaw : LastValueLaw (Named keys) fromStr :=
  LastValueLaw.of_fields fun _ _ => fromFields_congr

end CpuBurstStat

/-! ## Bandwidth counters -/

/-- CPU bandwidth counters.
Source: `cpu/stat.rs`, `CpuBandwidthStat`. -/
structure CpuBandwidthStat where
  /-- Elapsed enforcement periods. -/
  nrPeriods : Count
  /-- Periods in which the cgroup was throttled. -/
  nrThrottled : Count
  /-- Time for which the cgroup was throttled. -/
  throttled : Time
  /-- Burst counters, when reported. -/
  burst : Option CpuBurstStat
  deriving DecidableEq, Repr

namespace CpuBandwidthStat

/-- Source: `cpu/stat.rs`, `CpuBandwidthStat::from_fields`. -/
def fromFields (fields : KeyedFields) : Parsed CpuBandwidthStat := do
  let burst ← optionalGroup (bandwidthBurstFields.map name) CpuBurstStat.fromFields fields
  return {
    nrPeriods := ← fields.required ParseBandwidthCount CpuStatField.nrPeriods.name
    nrThrottled := ← fields.required ParseBandwidthCount CpuStatField.nrThrottled.name
    throttled := ← fields.required ParseMicroseconds throttledUsec.name
    burst }

/-- Source: `cpu/stat.rs`, `CpuBandwidthStat::from_str`. -/
def fromStr (contents : Str) : Parsed CpuBandwidthStat := do
  fromFields (← CpuStatField.fields contents)

/-- The keys of the bandwidth counters, bursts included. -/
def keys : List String := bandwidthFields.map name

/-- The burst keys are among the bandwidth keys. -/
lemma named_of_burst {key : Str} (h : Named CpuBurstStat.keys key) : Named keys key := by
  obtain ⟨name, hname, rfl⟩ := h
  apply named
  simp only [CpuBurstStat.keys, bandwidthBurstFields, List.map_cons, List.map_nil,
    List.mem_cons] at hname
  rcases hname with rfl | rfl | hname
  · simp [keys, bandwidthFields]
  · simp [keys, bandwidthFields]
  · cases hname

/-- What the bandwidth counters accept, field by field. -/
lemma fromFields_eq_ok_iff {fields : KeyedFields} {stat : CpuBandwidthStat} :
    fromFields fields = .ok stat ↔
      optionalGroup CpuBurstStat.keys CpuBurstStat.fromFields fields = .ok stat.burst ∧
      fields.required ParseBandwidthCount CpuStatField.nrPeriods.name = .ok stat.nrPeriods ∧
      fields.required ParseBandwidthCount CpuStatField.nrThrottled.name = .ok stat.nrThrottled ∧
      fields.required ParseMicroseconds throttledUsec.name = .ok stat.throttled := by
  unfold fromFields
  simp only [bind_eq_ok, pure_eq_ok]
  constructor
  · rintro ⟨burst, hburst, periods, hperiods, nr, hnr, throttled, hthrottled, rfl⟩
    exact ⟨hburst, hperiods, hnr, hthrottled⟩
  · rintro ⟨hburst, hperiods, hnr, hthrottled⟩
    exact ⟨_, hburst, _, hperiods, _, hnr, _, hthrottled, rfl⟩

/-- Up to the retained input, the bandwidth counters depend on the values of their keys only. -/
lemma fromFields_congr {f₁ f₂ : KeyedFields} (h : KeyedFields.AgreeOn (Named keys) f₁ f₂) :
    outcome (fromFields f₁) = outcome (fromFields f₂) := by
  unfold fromFields
  have hburst : KeyedFields.AgreeOn (Named CpuBurstStat.keys) f₁ f₂ :=
    h.mono fun key => named_of_burst
  refine outcome_bind_congr
    (outcome_optionalGroup_congr hburst (CpuBurstStat.fromFields_congr hburst)) fun burst => ?_
  refine outcome_bind_congr (KeyedFields.outcome_required_congr
    (h _ (named (by simp [keys, bandwidthFields])))) fun periods => ?_
  refine outcome_bind_congr (KeyedFields.outcome_required_congr
    (h _ (named (by simp [keys, bandwidthFields])))) fun nr => ?_
  exact outcome_bind_congr (KeyedFields.outcome_required_congr
    (h _ (named (by simp [keys, bandwidthFields])))) fun throttled => rfl

/-- The last-value law of the bandwidth counters. -/
lemma lastValueLaw : LastValueLaw (Named keys) fromStr :=
  LastValueLaw.of_fields fun _ _ => fromFields_congr

end CpuBandwidthStat

/-! ## The whole file -/

/-- CPU usage counters from `cpu.stat`.
Source: `cpu/stat.rs`, `CpuStat`. -/
structure CpuStat where
  /-- Usage times. -/
  time : CpuTimeStat
  /-- Bandwidth counters, when reported. -/
  bandwidth : Option CpuBandwidthStat
  deriving DecidableEq, Repr

namespace CpuStat

/-- The two parts of the file, from its fields.
Source: `cpu/stat.rs`, `CpuStat::from_str`. -/
def fromFields (fields : KeyedFields) : Parsed CpuStat := do
  return {
    time := ← CpuTimeStat.fromFields fields
    bandwidth := ←
      optionalGroup (bandwidthFields.map name) CpuBandwidthStat.fromFields fields }

/-- Source: `cpu/stat.rs`, `CpuStat::from_str`. -/
def fromStr (contents : Str) : Parsed CpuStat := do
  fromFields (← CpuStatField.fields contents)

/-- The keys of `cpu.stat`. -/
def keys : List String := CpuTimeStat.keys ++ CpuBandwidthStat.keys

/-- What the file accepts, part by part. -/
lemma fromFields_eq_ok_iff {fields : KeyedFields} {stat : CpuStat} :
    fromFields fields = .ok stat ↔
      CpuTimeStat.fromFields fields = .ok stat.time ∧
      optionalGroup CpuBandwidthStat.keys CpuBandwidthStat.fromFields fields =
        .ok stat.bandwidth := by
  unfold fromFields
  simp only [bind_eq_ok, pure_eq_ok]
  constructor
  · rintro ⟨time, htime, bandwidth, hbandwidth, rfl⟩
    exact ⟨htime, hbandwidth⟩
  · rintro ⟨htime, hbandwidth⟩
    exact ⟨_, htime, _, hbandwidth, rfl⟩

/-- Up to the retained input, the file depends on the values of its keys only. -/
lemma fromFields_congr {f₁ f₂ : KeyedFields} (h : KeyedFields.AgreeOn (Named keys) f₁ f₂) :
    outcome (fromFields f₁) = outcome (fromFields f₂) := by
  have htime : KeyedFields.AgreeOn (Named CpuTimeStat.keys) f₁ f₂ :=
    h.mono fun key ⟨name, hname, hkey⟩ => ⟨name, List.mem_append_left _ hname, hkey⟩
  have hbandwidth : KeyedFields.AgreeOn (Named CpuBandwidthStat.keys) f₁ f₂ :=
    h.mono fun key ⟨name, hname, hkey⟩ => ⟨name, List.mem_append_right _ hname, hkey⟩
  unfold fromFields
  refine outcome_bind_congr (CpuTimeStat.fromFields_congr htime) fun time => ?_
  exact outcome_bind_congr (outcome_optionalGroup_congr hbandwidth
    (CpuBandwidthStat.fromFields_congr hbandwidth)) fun bandwidth => rfl

/-- The last-value law of `cpu.stat`. -/
lemma lastValueLaw : LastValueLaw (Named keys) fromStr :=
  LastValueLaw.of_fields fun _ _ => fromFields_congr

end CpuStat

/-! ## Local throttling -/

/-- Runqueue throttling in `cpu.stat.local`.
Source: `cpu/stat.rs`, `CpuStatLocal`. -/
structure CpuStatLocal where
  /-- Throttling of the cgroup's own runqueues, when reported. -/
  throttled : Option Time
  deriving DecidableEq, Repr

namespace CpuStatLocal

/-- Source: `cpu/stat.rs`, `CpuStatLocal::from_str`. -/
def fromStr (contents : Str) : Parsed CpuStatLocal := do
  let fields ← CpuStatField.fields contents
  return { throttled := ← fields.optional ParseMicroseconds "throttled_usec" }

/-- The only key of `cpu.stat.local`. -/
def keys : List String := ["throttled_usec"]

/-- The last-value law of `cpu.stat.local`. -/
lemma lastValueLaw : LastValueLaw (Named keys) fromStr :=
  LastValueLaw.of_fields fun _ _ h =>
    outcome_bind_congr (KeyedFields.outcome_optional_congr (h _ (named List.mem_cons_self)))
      fun _ => rfl

end CpuStatLocal

end Sakai
