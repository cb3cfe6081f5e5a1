import Sakai.Cpu.Stat

/-!
# `cpu.stat`: the groups are all-or-nothing

The four readers of one text agree.

* `CpuStat.exists_ok_iff`: the file is read exactly when its usage times are, and its bandwidth
  counters are or none of their keys occurs.
* `CpuBandwidthStat.exists_ok_iff`: the bandwidth counters are read exactly when the text consists
  of key/value lines, the three base counters are present and valid, and the burst counters are
  read or neither of their keys occurs.
* `CpuStat.parts_of_ok`, `CpuBandwidthStat.parts_of_ok`: the parts are what the separate readers
  return, and a group is absent only when none of its keys occurs.
* `CpuStat.occurs_of_ok`: a file that is read has none of a group's keys or all that the group
  requires.
-/

namespace Sakai

open Lib CpuStatField

/-- The last line of the key carries a bandwidth counter. -/
def HasCounter (text : Str) (f : CpuStatField) : Prop :=
  ∃ value c, lastValue f.name.toList (pairsOf text) = some value ∧ IsCounter value c

/-- The last line of the key carries a time in microseconds. -/
def HasMicros (text : Str) (f : CpuStatField) : Prop :=
  ∃ value t, lastValue f.name.toList (pairsOf text) = some value ∧ IsMicros value t

/-- The three base counters of the bandwidth group are present and valid. -/
def BaseValid (text : Str) : Prop :=
  HasCounter text nrPeriods ∧ HasCounter text nrThrottled ∧ HasMicros text throttledUsec

/-- The keys that the bandwidth group requires. -/
def baseFields : List CpuStatField := [nrPeriods, nrThrottled, throttledUsec]

/-- A required bandwidth counter is read exactly when the key's last line carries one. -/
lemma exists_required_counter_iff {text : Str} {f : CpuStatField} :
    (∃ c : Count, (KeyedFields.ofText text).required ParseBandwidthCount f.name = .ok c) ↔
      HasCounter text f := by
  unfold HasCounter
  simp only [KeyedFields.required_eq_ok_iff, KeyedFields.ofText_values,
    parseBandwidthCount_eq_ok_iff]
  exact exists_comm

/-- A required time is read exactly when the key's last line carries one. -/
lemma exists_required_micros_iff {text : Str} {f : CpuStatField} :
    (∃ t : Time, (KeyedFields.ofText text).required ParseMicroseconds f.name = .ok t) ↔
      HasMicros text f := by
  unfold HasMicros
  simp only [KeyedFields.required_eq_ok_iff, KeyedFields.ofText_values,
    parseMicroseconds_eq_ok_iff]
  exact exists_comm

/-- A required key of a key/value text that is read occurs in it. -/
lemma occurs_of_required {U T : Type} [ParseCgroup U T ParseValueError] {text : Str}
    {f : CpuStatField} {v : T} (h : TwoTokens text)
    (hv : (KeyedFields.ofText text).required U f.name = .ok v) : Occurs text f.name.toList := by
  obtain ⟨value, hvalue, -⟩ := KeyedFields.required_eq_ok_iff.mp hv
  rw [occurs_iff h, hvalue]
  exact Option.some_ne_none value

/-- An optional group of a key/value text: absent when none of its keys occurs, and what its
reader returns otherwise. -/
lemma optionalGroup_ofText_eq_ok_iff {T : Type} {text : Str} {group : List CpuStatField}
    {fromFields : KeyedFields → Parsed T} {o : Option T} (h : TwoTokens text) :
    optionalGroup (group.map name) fromFields (KeyedFields.ofText text) = .ok o ↔
      ((∀ f ∈ group, ¬ Occurs text f.name.toList) ∧ o = none) ∨
      ((∃ f ∈ group, Occurs text f.name.toList) ∧
        ∃ stat, fromFields (KeyedFields.ofText text) = .ok stat ∧ o = some stat) := by
  rw [optionalGroup_eq_ok_iff, containsAny_eq_false_iff h, containsAny_iff h]
  simp only [List.mem_map, exists_exists_and_eq_and, forall_exists_index, and_imp,
    forall_apply_eq_imp_iff₂]

/-- A group whose reader needs one of its keys is read exactly when no key occurs or the reader
succeeds. -/
lemma exists_optionalGroup_iff {T : Type} {text : Str} {group : List CpuStatField}
    {fromFields : KeyedFields → Parsed T} (h : TwoTokens text)
    (hneeds : ∀ stat, fromFields (KeyedFields.ofText text) = .ok stat →
      ∃ f ∈ group, Occurs text f.name.toList) :
    (∃ o, optionalGroup (group.map name) fromFields (KeyedFields.ofText text) = .ok o) ↔
      (∀ f ∈ group, ¬ Occurs text f.name.toList) ∨
        ∃ stat, fromFields (KeyedFields.ofText text) = .ok stat := by
  simp only [optionalGroup_ofText_eq_ok_iff h]
  constructor
  · rintro ⟨o, ⟨hnone, -⟩ | ⟨-, stat, hstat, -⟩⟩
    · exact Or.inl hnone
    · exact Or.inr ⟨stat, hstat⟩
  · rintro (hnone | ⟨stat, hstat⟩)
    · exact ⟨none, Or.inl ⟨hnone, rfl⟩⟩
    · exact ⟨some stat, Or.inr ⟨hneeds stat hstat, stat, hstat, rfl⟩⟩

/-- A group that is read is what its reader returns, and absent exactly when no key occurs. -/
lemma optionalGroup_parts {T : Type} {text : Str} {group : List CpuStatField}
    {fromFields : KeyedFields → Parsed T} {o : Option T} (h : TwoTokens text)
    (ho : optionalGroup (group.map name) fromFields (KeyedFields.ofText text) = .ok o) :
    (∀ stat, o = some stat → fromFields (KeyedFields.ofText text) = .ok stat) ∧
    (o = none ↔ ∀ f ∈ group, ¬ Occurs text f.name.toList) := by
  rcases (optionalGroup_ofText_eq_ok_iff h).mp ho with
    ⟨hnone, rfl⟩ | ⟨⟨f, hf, hoccurs⟩, stat, hstat, rfl⟩
  · refine ⟨fun stat hstat => ?_, fun _ => hnone, fun _ => rfl⟩
    cases hstat
  · refine ⟨fun stat' hstat' => ?_, fun hnone => ?_, fun hall => ?_⟩
    · cases hstat'
      exact hstat
    · cases hnone
    · exact absurd hoccurs (hall f hf)

/-! ## Burst counters -/

/-- The burst counters of a text that is read occur in it. -/
lemma CpuBurstStat.occurs_of_ok {text : Str} {stat : CpuBurstStat}
    (h : CpuBurstStat.fromStr text = .ok stat) :
    ∀ f ∈ bandwidthBurstFields, Occurs text f.name.toList := by
  obtain ⟨htwo, hfields⟩ := KeyedFields.parse_bind_eq_ok.mp h
  obtain ⟨hnr, hburst⟩ := CpuBurstStat.fromFields_eq_ok_iff.mp hfields
  intro f hf
  simp only [bandwidthBurstFields, List.mem_cons, List.not_mem_nil, or_false] at hf
  rcases hf with rfl | rfl
  · exact occurs_of_required htwo hnr
  · exact occurs_of_required htwo hburst

/-! ## Bandwidth counters -/

namespace CpuBandwidthStat

/-- The base counters of a text that is read occur in it. -/
lemma occurs_of_ok {text : Str} {stat : CpuBandwidthStat} (h : fromStr text = .ok stat) :
    ∀ f ∈ baseFields, Occurs text f.name.toList := by
  obtain ⟨htwo, hfields⟩ := KeyedFields.parse_bind_eq_ok.mp h
  obtain ⟨-, hperiods, hnr, hthrottled⟩ := fromFields_eq_ok_iff.mp hfields
  intro f hf
  simp only [baseFields, List.mem_cons, List.not_mem_nil, or_false] at hf
  rcases hf with rfl | rfl | rfl
  · exact occurs_of_required htwo hperiods
  · exact occurs_of_required htwo hnr
  · exact occurs_of_required htwo hthrottled

/-- **When the bandwidth counters are read.** -/
lemma exists_ok_iff (text : Str) :
    (∃ stat, fromStr text = .ok stat) ↔
      TwoTokens text ∧ BaseValid text ∧
      ((∀ f ∈ bandwidthBurstFields, ¬ Occurs text f.name.toList) ∨
        ∃ burst, CpuBurstStat.fromStr text = .ok burst) := by
  have hparse : ∀ stat, fromStr text = .ok stat ↔
      TwoTokens text ∧ fromFields (KeyedFields.ofText text) = .ok stat :=
    fun _ => KeyedFields.parse_bind_eq_ok
  have hburst : ∀ burst, CpuBurstStat.fromStr text = .ok burst ↔
      TwoTokens text ∧ CpuBurstStat.fromFields (KeyedFields.ofText text) = .ok burst :=
    fun _ => KeyedFields.parse_bind_eq_ok
  by_cases htwo : TwoTokens text
  · have hneeds : ∀ burst, CpuBurstStat.fromFields (KeyedFields.ofText text) = .ok burst →
        ∃ f ∈ bandwidthBurstFields, Occurs text f.name.toList := by
      intro burst hb
      have hoccurs := CpuBurstStat.occurs_of_ok ((hburst burst).mpr ⟨htwo, hb⟩)
      exact ⟨nrBursts, List.mem_cons_self, hoccurs nrBursts List.mem_cons_self⟩
    simp only [hparse, hburst, htwo, true_and, BaseValid, ← exists_required_counter_iff,
      ← exists_required_micros_iff]
    rw [← exists_optionalGroup_iff htwo hneeds]
    constructor
    · rintro ⟨stat, h⟩
      obtain ⟨hgroup, hperiods, hnr, hthrottled⟩ := fromFields_eq_ok_iff.mp h
      exact ⟨⟨⟨_, hperiods⟩, ⟨_, hnr⟩, ⟨_, hthrottled⟩⟩, ⟨_, hgroup⟩⟩
    · rintro ⟨⟨⟨periods, hperiods⟩, ⟨nr, hnr⟩, ⟨throttled, hthrottled⟩⟩, ⟨group, hgroup⟩⟩
      exact ⟨⟨periods, nr, throttled, group⟩,
        fromFields_eq_ok_iff.mpr ⟨hgroup, hperiods, hnr, hthrottled⟩⟩
  · simp only [hparse, htwo, false_and, exists_false]

/-- **The burst part** is what the burst reader returns, and absent exactly when neither key
occurs. -/
lemma parts_of_ok {text : Str} {stat : CpuBandwidthStat} (h : fromStr text = .ok stat) :
    (∀ burst, stat.burst = some burst → CpuBurstStat.fromStr text = .ok burst) ∧
    (stat.burst = none ↔ ∀ f ∈ bandwidthBurstFields, ¬ Occurs text f.name.toList) := by
  obtain ⟨htwo, hfields⟩ := KeyedFields.parse_bind_eq_ok.mp h
  obtain ⟨hgroup, -⟩ := fromFields_eq_ok_iff.mp hfields
  obtain ⟨hburst, hnone⟩ := optionalGroup_parts htwo hgroup
  exact ⟨fun burst hb => KeyedFields.parse_bind_eq_ok.mpr ⟨htwo, hburst burst hb⟩, hnone⟩

/-- **The burst group is all-or-nothing**: a text with one burst key and not the other is
rejected. -/
lemma not_ok_of_partial_burst {text : Str}
    (hsome : ∃ f ∈ bandwidthBurstFields, Occurs text f.name.toList)
    (hmissing : ∃ f ∈ bandwidthBurstFields, ¬ Occurs text f.name.toList)
    (stat : CpuBandwidthStat) : fromStr text ≠ .ok stat := by
  intro h
  obtain ⟨hburst, hnone⟩ := parts_of_ok h
  rcases hb : stat.burst with _ | burst
  · obtain ⟨f, hf, hoccurs⟩ := hsome
    exact hnone.mp hb f hf hoccurs
  · obtain ⟨f, hf, hnot⟩ := hmissing
    exact hnot (CpuBurstStat.occurs_of_ok (hburst burst hb) f hf)

end CpuBandwidthStat

/-! ## The whole file -/

namespace CpuStat

/-- **When the file is read.** -/
lemma exists_ok_iff (text : Str) :
    (∃ stat, fromStr text = .ok stat) ↔
      (∃ time, CpuTimeStat.fromStr text = .ok time) ∧
      ((∀ f ∈ bandwidthFields, ¬ Occurs text f.name.toList) ∨
        ∃ bandwidth, CpuBandwidthStat.fromStr text = .ok bandwidth) := by
  have hparse : ∀ stat, fromStr text = .ok stat ↔
      TwoTokens text ∧ fromFields (KeyedFields.ofText text) = .ok stat :=
    fun _ => KeyedFields.parse_bind_eq_ok
  have htime : ∀ time, CpuTimeStat.fromStr text = .ok time ↔
      TwoTokens text ∧ CpuTimeStat.fromFields (KeyedFields.ofText text) = .ok time :=
    fun _ => KeyedFields.parse_bind_eq_ok
  have hbandwidth : ∀ bandwidth, CpuBandwidthStat.fromStr text = .ok bandwidth ↔
      TwoTokens text ∧ CpuBandwidthStat.fromFields (KeyedFields.ofText text) = .ok bandwidth :=
    fun _ => KeyedFields.parse_bind_eq_ok
  by_cases htwo : TwoTokens text
  · have hneeds : ∀ bandwidth,
        CpuBandwidthStat.fromFields (KeyedFields.ofText text) = .ok bandwidth →
        ∃ f ∈ bandwidthFields, Occurs text f.name.toList := by
      intro bandwidth hb
      have hoccurs := CpuBandwidthStat.occurs_of_ok ((hbandwidth bandwidth).mpr ⟨htwo, hb⟩)
      exact ⟨nrPeriods, List.mem_cons_self, hoccurs nrPeriods List.mem_cons_self⟩
    simp only [hparse, htime, hbandwidth, htwo, true_and]
    rw [← exists_optionalGroup_iff htwo hneeds]
    constructor
    · rintro ⟨stat, h⟩
      obtain ⟨ht, hgroup⟩ := fromFields_eq_ok_iff.mp h
      exact ⟨⟨_, ht⟩, ⟨_, hgroup⟩⟩
    · rintro ⟨⟨time, ht⟩, ⟨group, hgroup⟩⟩
      exact ⟨⟨time, group⟩, fromFields_eq_ok_iff.mpr ⟨ht, hgroup⟩⟩
  · simp only [hparse, htime, htwo, false_and, exists_false]

/-- **The parts of a file** are what the separate readers return, and the bandwidth part is absent
exactly when none of its keys occurs. -/
lemma parts_of_ok {text : Str} {stat : CpuStat} (h : fromStr text = .ok stat) :
    CpuTimeStat.fromStr text = .ok stat.time ∧
    (∀ bandwidth, stat.bandwidth = some bandwidth →
      CpuBandwidthStat.fromStr text = .ok bandwidth) ∧
    (stat.bandwidth = none ↔ ∀ f ∈ bandwidthFields, ¬ Occurs text f.name.toList) := by
  obtain ⟨htwo, hfields⟩ := KeyedFields.parse_bind_eq_ok.mp h
  obtain ⟨htime, hgroup⟩ := fromFields_eq_ok_iff.mp hfields
  obtain ⟨hbandwidth, hnone⟩ := optionalGroup_parts htwo hgroup
  exact ⟨KeyedFields.parse_bind_eq_ok.mpr ⟨htwo, htime⟩,
    fun bandwidth hb => KeyedFields.parse_bind_eq_ok.mpr ⟨htwo, hbandwidth bandwidth hb⟩, hnone⟩

/-- A file that is accepted and has a bandwidth key has a bandwidth part. -/
lemma exists_bandwidth {text : Str} {stat : CpuStat} (h : fromStr text = .ok stat)
    (hsome : ∃ f ∈ bandwidthFields, Occurs text f.name.toList) :
    ∃ bandwidth, CpuBandwidthStat.fromStr text = .ok bandwidth := by
  obtain ⟨-, hbandwidth, hnone⟩ := parts_of_ok h
  rcases hb : stat.bandwidth with _ | bandwidth
  · obtain ⟨f, hf, hoccurs⟩ := hsome
    exact absurd hoccurs (hnone.mp hb f hf)
  · exact ⟨bandwidth, hbandwidth bandwidth hb⟩

/-- A file with a bandwidth key and not every base counter is rejected. -/
lemma not_ok_of_partial_base {text : Str}
    (hsome : ∃ f ∈ bandwidthFields, Occurs text f.name.toList)
    (hmissing : ∃ f ∈ baseFields, ¬ Occurs text f.name.toList) (stat : CpuStat) :
    fromStr text ≠ .ok stat := by
  intro h
  obtain ⟨bandwidth, hbandwidth⟩ := exists_bandwidth h hsome
  obtain ⟨f, hf, hnot⟩ := hmissing
  exact hnot (CpuBandwidthStat.occurs_of_ok hbandwidth f hf)

/-- A file with one burst key and not the other is rejected. -/
lemma not_ok_of_partial_burst {text : Str}
    (hsome : ∃ f ∈ bandwidthBurstFields, Occurs text f.name.toList)
    (hmissing : ∃ f ∈ bandwidthBurstFields, ¬ Occurs text f.name.toList) (stat : CpuStat) :
    fromStr text ≠ .ok stat := by
  intro h
  have hbase : ∃ f ∈ bandwidthFields, Occurs text f.name.toList := by
    obtain ⟨f, hf, hoccurs⟩ := hsome
    refine ⟨f, ?_, hoccurs⟩
    simp only [bandwidthBurstFields, List.mem_cons, List.not_mem_nil, or_false] at hf
    rcases hf with rfl | rfl <;> decide
  obtain ⟨bandwidth, hbandwidth⟩ := exists_bandwidth h hbase
  exact CpuBandwidthStat.not_ok_of_partial_burst hsome hmissing bandwidth hbandwidth

end CpuStat

/-! ## The groups together -/

/-- **The groups of `cpu.stat` are all-or-nothing and its readers agree**, on every text. -/
theorem cpu_stat_groups (text : Str) :
    ((∃ stat, CpuStat.fromStr text = .ok stat) ↔
      (∃ time, CpuTimeStat.fromStr text = .ok time) ∧
      ((∀ f ∈ bandwidthFields, ¬ Occurs text f.name.toList) ∨
        ∃ bandwidth, CpuBandwidthStat.fromStr text = .ok bandwidth)) ∧
    ((∃ bandwidth, CpuBandwidthStat.fromStr text = .ok bandwidth) ↔
      TwoTokens text ∧ BaseValid text ∧
      ((∀ f ∈ bandwidthBurstFields, ¬ Occurs text f.name.toList) ∨
        ∃ burst, CpuBurstStat.fromStr text = .ok burst)) ∧
    (∀ stat, CpuStat.fromStr text = .ok stat →
      CpuTimeStat.fromStr text = .ok stat.time ∧
      (∀ bandwidth, stat.bandwidth = some bandwidth →
        CpuBandwidthStat.fromStr text = .ok bandwidth) ∧
      (stat.bandwidth = none ↔ ∀ f ∈ bandwidthFields, ¬ Occurs text f.name.toList)) ∧
    (∀ stat, CpuBandwidthStat.fromStr text = .ok stat →
      (∀ burst, stat.burst = some burst → CpuBurstStat.fromStr text = .ok burst) ∧
      (stat.burst = none ↔ ∀ f ∈ bandwidthBurstFields, ¬ Occurs text f.name.toList)) ∧
    ((∃ f ∈ bandwidthFields, Occurs text f.name.toList) →
      (∃ f ∈ baseFields, ¬ Occurs text f.name.toList) →
      ∀ stat, CpuStat.fromStr text ≠ .ok stat) ∧
    ((∃ f ∈ bandwidthBurstFields, Occurs text f.name.toList) →
      (∃ f ∈ bandwidthBurstFields, ¬ Occurs text f.name.toList) →
      ∀ stat, CpuStat.fromStr text ≠ .ok stat) :=
  ⟨CpuStat.exists_ok_iff text, CpuBandwidthStat.exists_ok_iff text,
    fun _ h => CpuStat.parts_of_ok h, fun _ h => CpuBandwidthStat.parts_of_ok h,
    CpuStat.not_ok_of_partial_base, CpuStat.not_ok_of_partial_burst⟩

/-- Counters of which two of a group are missing are rejected. -/
theorem cpu_stat_groups_partial :
    ∀ stat, CpuStat.fromStr "usage_usec 3\nuser_usec 2\nsystem_usec 1\nnr_periods 0\n".toList ≠
      .ok stat :=
  (cpu_stat_groups _).2.2.2.2.1 (by decide) (by decide)

/-- The base counters, valid, and a line that is no key/value pair. -/
def malformedLine : Str := "nr_periods 0\nnr_throttled 0\nthrottled_usec 0\nx\n".toList

/-- **Valid base counters are not enough**: a line without a value rejects the whole text. -/
theorem malformed_line_rejects_bandwidth :
    ¬ ((∃ bandwidth, CpuBandwidthStat.fromStr malformedLine = .ok bandwidth) ↔
      BaseValid malformedLine ∧
      ((∀ f ∈ bandwidthBurstFields, ¬ Occurs malformedLine f.name.toList) ∨
        ∃ burst, CpuBurstStat.fromStr malformedLine = .ok burst)) := by
  have hzero : IsNumeral "0".toList 0 := Or.inl (by decide)
  have hbase : BaseValid malformedLine :=
    ⟨⟨"0".toList, ⟨0⟩, by decide, Or.inl hzero⟩, ⟨"0".toList, ⟨0⟩, by decide, Or.inl hzero⟩,
      ⟨"0".toList, ⟨0⟩, by decide, 0, hzero, rfl⟩⟩
  intro h
  obtain ⟨bandwidth, hok⟩ := h.mpr ⟨hbase, Or.inl (by decide)⟩
  exact absurd (KeyedFields.parse_bind_eq_ok.mp hok).1 (by decide)

end Sakai
