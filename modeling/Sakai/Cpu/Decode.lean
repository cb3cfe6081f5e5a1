import Sakai.Cpu.Stat

/-!
# `cpu.stat`: decoding undoes the kernel's encoding

* `CpuStat.encode stat form` is what the kernel prints for each key of a snapshot: times in whole
  microseconds, and each bandwidth counter in its own `form`, unsigned or as the signed 32-bit
  integer with the same bits. A field that is not reported has no line.
* `CpuStat.Renders stat form text` says that `text` shows these lines, in any order, among blank
  lines and lines of unknown keys.
* `cpu_stat_decodes`: every rendering is parsed to exactly its snapshot. Unsigned counters may
  take any 64-bit value; signed ones must be 32-bit values, and a negative counter below
  `-2 ^ 31` is rejected.
-/

namespace Sakai

open Lib CpuStatField

/-! ## Rendering -/

/-- The fields of a text that shows a record hold the record's values. -/
lemma values_of_shows {F : Type} [DecidableEq F] [NamedEnum F] {enc : F → Option Str}
    {entries : List (Str × Str)} {text : Str} (hshows : NamedEnum.Shows enc entries)
    (hlayout : Layout (entries.map pairRow) text) (f : F) :
    (KeyedFields.ofText text).values[NamedEnum.key f]? = enc f := by
  rw [KeyedFields.ofText_values, (pairsOf_of_layout hlayout).2]
  exact NamedEnum.lastValue_of_shows hshows f

namespace CpuStat

/-- The printed value of each key. -/
def encode (stat : CpuStat) (form : CpuStatField → CounterForm) : CpuStatField → Option Str
  | usageUsec => some (decimal stat.time.usage.micros)
  | userUsec => some (decimal stat.time.user.micros)
  | systemUsec => some (decimal stat.time.system.micros)
  | niceUsec => stat.time.nice.map fun t => decimal t.micros
  | forceIdleUsec => stat.time.forceIdle.map fun t => decimal t.micros
  | nrPeriods => stat.bandwidth.map fun b => b.nrPeriods.print (form nrPeriods)
  | nrThrottled => stat.bandwidth.map fun b => b.nrThrottled.print (form nrThrottled)
  | throttledUsec => stat.bandwidth.map fun b => decimal b.throttled.micros
  | nrBursts => (stat.bandwidth.bind CpuBandwidthStat.burst).map
      fun u => u.nrBursts.print (form nrBursts)
  | burstUsec => (stat.bandwidth.bind CpuBandwidthStat.burst).map fun u => decimal u.burst.micros

/-- The text shows the snapshot: its lines in any order, with blank lines and lines of unknown
keys interleaved. -/
def Renders (stat : CpuStat) (form : CpuStatField → CounterForm) (text : Str) : Prop :=
  ∃ entries, NamedEnum.Shows (stat.encode form) entries ∧ Layout (entries.map pairRow) text

/-- The times of the snapshot are whole microseconds. -/
structure WholeMicros (stat : CpuStat) : Prop where
  /-- Total CPU time. -/
  usage : stat.time.usage.WholeMicros
  /-- User time. -/
  user : stat.time.user.WholeMicros
  /-- Kernel time. -/
  system : stat.time.system.WholeMicros
  /-- Niced time, when reported. -/
  nice : ∀ t, stat.time.nice = some t → t.WholeMicros
  /-- Forced-idle time, when reported. -/
  forceIdle : ∀ t, stat.time.forceIdle = some t → t.WholeMicros
  /-- Throttled time, when reported. -/
  throttled : ∀ b, stat.bandwidth = some b → b.throttled.WholeMicros
  /-- Burst time, when reported. -/
  burst : ∀ b u, stat.bandwidth = some b → b.burst = some u → u.burst.WholeMicros

/-- The counters printed in signed form are 32-bit values. -/
structure Fits (stat : CpuStat) (form : CpuStatField → CounterForm) : Prop where
  /-- The period counter. -/
  nrPeriods : ∀ b, stat.bandwidth = some b → form nrPeriods = .signed →
    b.nrPeriods.value.toNat < 2 ^ 32
  /-- The throttling counter. -/
  nrThrottled : ∀ b, stat.bandwidth = some b → form nrThrottled = .signed →
    b.nrThrottled.value.toNat < 2 ^ 32
  /-- The burst counter. -/
  nrBursts : ∀ b u, stat.bandwidth = some b → b.burst = some u → form nrBursts = .signed →
    u.nrBursts.value.toNat < 2 ^ 32

/-! ## Decoding -/

section decode

variable {stat : CpuStat} {form : CpuStatField → CounterForm} {fields : KeyedFields}

/-- The usage times are read back. -/
lemma time_of_encoded
    (hget : ∀ f : CpuStatField, fields.values[f.name.toList]? = stat.encode form f)
    (hwhole : stat.WholeMicros) : CpuTimeStat.fromFields fields = .ok stat.time :=
  CpuTimeStat.fromFields_eq_ok_iff.mpr
    ⟨KeyedFields.required_of_encoded (hget usageUsec) (parseMicroseconds_decimal hwhole.usage),
      KeyedFields.required_of_encoded (hget userUsec) (parseMicroseconds_decimal hwhole.user),
      KeyedFields.required_of_encoded (hget systemUsec) (parseMicroseconds_decimal hwhole.system),
      KeyedFields.optional_micros (hget niceUsec) hwhole.nice,
      KeyedFields.optional_micros (hget forceIdleUsec) hwhole.forceIdle⟩

/-- A printed counter is read back. -/
lemma required_counter {c : Count} {f : CpuStatField}
    (hget : fields.values[f.name.toList]? = some (c.print (form f)))
    (hfits : form f = .signed → c.value.toNat < 2 ^ 32) :
    fields.required ParseBandwidthCount f.name = .ok c :=
  KeyedFields.required_of_encoded hget (parseBandwidthCount_eq_ok_iff.mpr (isCounter_print hfits))

/-- The burst group is read back. -/
lemma burst_of_encoded
    (hget : ∀ f : CpuStatField, fields.values[f.name.toList]? = stat.encode form f)
    (hwhole : stat.WholeMicros) (hfits : stat.Fits form) {b : CpuBandwidthStat}
    (hb : stat.bandwidth = some b) :
    optionalGroup CpuBurstStat.keys CpuBurstStat.fromFields fields = .ok b.burst := by
  rw [optionalGroup_eq_ok_iff]
  rcases hu : b.burst with _ | u
  · left
    refine ⟨KeyedFields.containsAny_map_eq_false fun f hf => ?_, rfl⟩
    simp only [bandwidthBurstFields, List.mem_cons, List.not_mem_nil, or_false] at hf
    rw [hget]
    rcases hf with rfl | rfl <;> simp [encode, hb, hu]
  · right
    have hnr := hget CpuStatField.nrBursts
    have hburst := hget burstUsec
    simp only [encode, hb, hu, Option.bind_some, Option.map_some] at hnr hburst
    refine ⟨?_, u, CpuBurstStat.fromFields_eq_ok_iff.mpr
      ⟨required_counter hnr (hfits.nrBursts b u hb hu),
        KeyedFields.required_of_encoded hburst
          (parseMicroseconds_decimal (hwhole.burst b u hb hu))⟩, rfl⟩
    exact KeyedFields.containsAny_eq_true_iff.mpr
      ⟨_, List.mem_cons_self, by rw [hnr]; exact Option.some_ne_none _⟩

/-- The bandwidth group is read back. -/
lemma bandwidth_of_encoded
    (hget : ∀ f : CpuStatField, fields.values[f.name.toList]? = stat.encode form f)
    (hwhole : stat.WholeMicros) (hfits : stat.Fits form) :
    optionalGroup CpuBandwidthStat.keys CpuBandwidthStat.fromFields fields =
      .ok stat.bandwidth := by
  rw [optionalGroup_eq_ok_iff]
  rcases hb : stat.bandwidth with _ | b
  · left
    refine ⟨KeyedFields.containsAny_map_eq_false fun f hf => ?_, rfl⟩
    simp only [bandwidthFields, List.mem_cons, List.not_mem_nil, or_false] at hf
    rw [hget]
    rcases hf with rfl | rfl | rfl | rfl | rfl <;> simp [encode, hb]
  · right
    have hperiods := hget CpuStatField.nrPeriods
    have hnr := hget CpuStatField.nrThrottled
    have hthrottled := hget throttledUsec
    simp only [encode, hb, Option.map_some] at hperiods hnr hthrottled
    refine ⟨?_, b, CpuBandwidthStat.fromFields_eq_ok_iff.mpr
      ⟨burst_of_encoded hget hwhole hfits hb, required_counter hperiods (hfits.nrPeriods b hb),
        required_counter hnr (hfits.nrThrottled b hb),
        KeyedFields.required_of_encoded hthrottled
          (parseMicroseconds_decimal (hwhole.throttled b hb))⟩, rfl⟩
    exact KeyedFields.containsAny_eq_true_iff.mpr
      ⟨_, List.mem_cons_self, by rw [hperiods]; exact Option.some_ne_none _⟩

/-- **Every rendering is read back.** -/
lemma fromStr_of_renders {text : Str} (hwhole : stat.WholeMicros) (hfits : stat.Fits form)
    (hrenders : stat.Renders form text) : fromStr text = .ok stat := by
  obtain ⟨entries, hshows, hlayout⟩ := hrenders
  have hget : ∀ f : CpuStatField,
      (KeyedFields.ofText text).values[f.name.toList]? = stat.encode form f :=
    values_of_shows hshows hlayout
  exact KeyedFields.parse_bind_eq_ok.mpr ⟨(pairsOf_of_layout hlayout).1,
    fromFields_eq_ok_iff.mpr
      ⟨time_of_encoded hget hwhole, bandwidth_of_encoded hget hwhole hfits⟩⟩

end decode

/-! ## Out of range -/

/-- The keys of the bandwidth counters. -/
def counterFields : List CpuStatField := [nrPeriods, nrThrottled, nrBursts]

/-- A counter below `-2 ^ 31` has no meaning. -/
lemma not_isCounter_of_lt {ds : Str} {n : ℕ} (hds : IsDigits ds n) (hn : 2 ^ 31 < n) (c : Count) :
    ¬ IsCounter ('-' :: ds) c := by
  rintro (hnum | ⟨ds', m, heq, hm, hle, -⟩)
  · exact not_isNumeral_minus hnum
  · cases heq
    rw [← hds.value, hm.value] at hn
    omega

/-- A key whose last line carries no counter is not read as one. -/
lemma required_ne_ok {text ds : Str} {n : ℕ} {f : CpuStatField}
    (hlast : lastValue f.name.toList (pairsOf text) = some ('-' :: ds)) (hds : IsDigits ds n)
    (hn : 2 ^ 31 < n) (c : Count) :
    (KeyedFields.ofText text).required ParseBandwidthCount f.name ≠ .ok c := by
  intro h
  obtain ⟨value, hvalue, hc⟩ := KeyedFields.required_eq_ok_iff.mp h
  rw [KeyedFields.ofText_values, hlast] at hvalue
  cases hvalue
  exact not_isCounter_of_lt hds hn c (parseBandwidthCount_eq_ok_iff.mp hc)

/-- A group one of whose keys is present is not read as absent. -/
lemma exists_of_optionalGroup {T : Type} {group : List CpuStatField}
    {fromFields : KeyedFields → Parsed T} {fields : KeyedFields} {o : Option T} {f : CpuStatField}
    (ho : optionalGroup (group.map name) fromFields fields = .ok o) (hf : f ∈ group)
    (hpresent : fields.values[f.name.toList]? ≠ none) :
    ∃ stat, fromFields fields = .ok stat := by
  rcases optionalGroup_eq_ok_iff.mp ho with ⟨hnone, -⟩ | ⟨-, stat, hstat, -⟩
  · rw [← Bool.not_eq_true, KeyedFields.containsAny_eq_true_iff] at hnone
    exact absurd ⟨f.name, List.mem_map_of_mem hf, hpresent⟩ hnone
  · exact ⟨stat, hstat⟩

/-- **A negative counter below `-2 ^ 31` is rejected.** -/
lemma not_ok_of_counter_lt {text ds : Str} {n : ℕ} {f : CpuStatField} (hf : f ∈ counterFields)
    (hlast : lastValue f.name.toList (pairsOf text) = some ('-' :: ds)) (hds : IsDigits ds n)
    (hn : 2 ^ 31 < n) (stat : CpuStat) : fromStr text ≠ .ok stat := by
  intro h
  obtain ⟨-, hfields⟩ := KeyedFields.parse_bind_eq_ok.mp h
  obtain ⟨-, hgroup⟩ := fromFields_eq_ok_iff.mp hfields
  have hne := required_ne_ok hlast hds hn
  have hpresent : (KeyedFields.ofText text).values[f.name.toList]? ≠ none := by
    rw [KeyedFields.ofText_values, hlast]
    exact Option.some_ne_none _
  have hmem : f ∈ bandwidthFields := by
    simp only [counterFields, List.mem_cons, List.not_mem_nil, or_false] at hf
    rcases hf with rfl | rfl | rfl <;> decide
  obtain ⟨b, hb⟩ := exists_of_optionalGroup hgroup hmem hpresent
  obtain ⟨hburst, hperiods, hnr, -⟩ := CpuBandwidthStat.fromFields_eq_ok_iff.mp hb
  simp only [counterFields, List.mem_cons, List.not_mem_nil, or_false] at hf
  rcases hf with rfl | rfl | rfl
  · exact hne _ hperiods
  · exact hne _ hnr
  · obtain ⟨u, hu⟩ := exists_of_optionalGroup hburst (List.mem_cons_self) hpresent
    exact hne _ (CpuBurstStat.fromFields_eq_ok_iff.mp hu).1

end CpuStat

/-- **Decoding undoes the kernel's encoding of `cpu.stat`**, wrapped counters included, and a
counter below the signed range is rejected. -/
theorem cpu_stat_decodes :
    (∀ (stat : CpuStat) (form : CpuStatField → CounterForm) (text : Str),
      stat.WholeMicros → stat.Fits form → stat.Renders form text →
      CpuStat.fromStr text = .ok stat) ∧
    (∀ (text : Str) (f : CpuStatField) (ds : Str) (n : ℕ), f ∈ CpuStat.counterFields →
      lastValue f.name.toList (pairsOf text) = some ('-' :: ds) → IsDigits ds n → 2 ^ 31 < n →
      ∀ stat, CpuStat.fromStr text ≠ .ok stat) :=
  ⟨fun _ _ _ hwhole hfits hrenders => CpuStat.fromStr_of_renders hwhole hfits hrenders,
    fun _ _ _ _ hf hlast hds hn => CpuStat.not_ok_of_counter_lt hf hlast hds hn⟩

/-- A snapshot with a wrapped period counter and no burst counters. -/
def wrappedStat : CpuStat where
  time := ⟨⟨3000⟩, ⟨2000⟩, ⟨1000⟩, none, some ⟨0⟩⟩
  bandwidth := some ⟨⟨4294967295⟩, ⟨7⟩, ⟨5000⟩, none⟩

/-- Its lines, the period counter in signed form, with a line of an unknown key. -/
def wrappedEntries : List (Str × Str) :=
  [("nr_periods".toList, "-1".toList), ("future".toList, "nope".toList),
    ("system_usec".toList, "1".toList), ("user_usec".toList, "2".toList),
    ("usage_usec".toList, "3".toList), ("throttled_usec".toList, "5".toList),
    ("core_sched.force_idle_usec".toList, "0".toList), ("nr_throttled".toList, "7".toList)]

/-- The wrapped counter is read back, and one below the signed range is rejected. -/
theorem cpu_stat_decodes_wrapped :
    CpuStat.fromStr (unlines (wrappedEntries.map pairRow)) = .ok wrappedStat ∧
    ∀ stat, CpuStat.fromStr "nr_periods -2147483649\n".toList ≠ .ok stat :=
  ⟨cpu_stat_decodes.1 wrappedStat (fun f => if f = nrPeriods then .signed else .unsigned) _
      ⟨by decide, by decide, by decide, by decide, by decide, by decide, by rintro b u ⟨⟩ ⟨⟩⟩
      ⟨by rintro b ⟨⟩; decide, by rintro b ⟨⟩; decide, by rintro b u ⟨⟩ ⟨⟩⟩
      ⟨wrappedEntries, by decide, layout_unlines (by decide)⟩,
    cpu_stat_decodes.2 _ nrPeriods "2147483649".toList 2147483649 (by decide) (by decide)
      (by decide) (by decide)⟩

end Sakai
