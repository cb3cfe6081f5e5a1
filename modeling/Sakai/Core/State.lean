import Std.Data.ExtHashMap
import Sakai.Flat

/-!
# `cgroup.events`, `cgroup.stat` and `cgroup.stat.local`

The core state files. `cgroup.stat` mixes two required counters with two families of counters,
one for every key with the prefix `nr_subsys_` or `nr_dying_subsys_`, keyed by controller; a
controller this library does not know is kept under its name. All three readers obey the
last-value law.

* `CgroupController.display_ofName`: the controller of a name is displayed under this name, so
  different names are different controllers.
* `cgroup_stat_subsystems`: the counters of `cgroup.stat` are neither lost, merged nor crossed.
-/

namespace Sakai

open Lib

/-! ## Lifecycle state -/

/-- Lifecycle state of a cgroup.
Source: `core/state.rs`, `CgroupEvents`. -/
structure CgroupEvents where
  /-- Whether the cgroup or a descendant contains live processes. -/
  populated : Bool
  /-- Whether freezing has completed, when reported. -/
  frozen : Option Bool
  deriving DecidableEq, Repr

namespace CgroupEvents

/-- Source: `core/state.rs`, `CgroupEvents::from_str`. -/
def fromStr (contents : Str) : Parsed CgroupEvents := do
  let fields ← KeyedFields.parse contents fun _ => "value"
  return {
    populated := ← fields.required ParseBoolean "populated"
    frozen := ← fields.optional ParseBoolean "frozen" }

/-- The keys of `cgroup.events`. -/
def keys : List String := ["populated", "frozen"]

/-- The last-value law of `cgroup.events`. -/
lemma lastValueLaw : LastValueLaw (Named keys) fromStr := by
  apply LastValueLaw.of_fields
  intro f₁ f₂ h
  refine outcome_bind_congr
    (KeyedFields.outcome_required_congr (h _ (named (by simp [keys])))) fun populated => ?_
  exact outcome_bind_congr
    (KeyedFields.outcome_optional_congr (h _ (named (by simp [keys])))) fun frozen => rfl

end CgroupEvents

/-! ## Local freezer accounting -/

/-- Local freezer accounting.
Source: `core/state.rs`, `CgroupStatLocal`. -/
structure CgroupStatLocal where
  /-- Cumulative local freezing duration. -/
  frozenTime : Time
  deriving DecidableEq, Repr

namespace CgroupStatLocal

/-- Source: `core/state.rs`, `CgroupStatLocal::from_str`. -/
def fromStr (contents : Str) : Parsed CgroupStatLocal := do
  let fields ← KeyedFields.parse contents fun _ => "value"
  return { frozenTime := ← fields.required ParseMicroseconds "frozen_usec" }

/-- The only key of `cgroup.stat.local`. -/
def keys : List String := ["frozen_usec"]

/-- The last-value law of `cgroup.stat.local`. -/
lemma lastValueLaw : LastValueLaw (Named keys) fromStr :=
  LastValueLaw.of_fields fun _ _ h =>
    outcome_bind_congr (KeyedFields.outcome_required_congr (h _ (named List.mem_cons_self)))
      fun _ => rfl

end CgroupStatLocal

/-! ## Controllers -/

/-- A cgroup controller.
Source: `core.rs`, `CgroupController`. -/
inductive CgroupController
  | cpu
  | cpuset
  | io
  | memory
  | hugetlb
  | pids
  | rdma
  | misc
  | dmem
  | perfEvent
  | other (name : Str)
  deriving DecidableEq, Hashable, Repr

namespace CgroupController

/-- The controllers with a name of their own. -/
def known : List (String × CgroupController) :=
  [("cpu", cpu), ("cpuset", cpuset), ("io", io), ("memory", memory), ("hugetlb", hugetlb),
    ("pids", pids), ("rdma", rdma), ("misc", misc), ("dmem", dmem), ("perf_event", perfEvent)]

/-- The controller with a name; an unknown name is kept.
Source: `core.rs`, `CgroupController::from`. -/
def ofName (name : Str) : CgroupController :=
  ((known.find? fun e => e.1.toList = name).map Prod.snd).getD (other name)

/-- The displayed name.
Source: `core.rs`, the derived `Display` of `CgroupController`. -/
def display : CgroupController → Str
  | cpu => "cpu".toList
  | cpuset => "cpuset".toList
  | io => "io".toList
  | memory => "memory".toList
  | hugetlb => "hugetlb".toList
  | pids => "pids".toList
  | rdma => "rdma".toList
  | misc => "misc".toList
  | dmem => "dmem".toList
  | perfEvent => "perf_event".toList
  | other name => name

/-- A controller with a name of its own is displayed under it. -/
lemma display_of_mem_known : ∀ e ∈ known, e.2.display = e.1.toList := by
  decide

/-- **The controller of a name is displayed under this name.** -/
theorem display_ofName (name : Str) : (ofName name).display = name := by
  unfold ofName
  cases h : known.find? fun e => e.1.toList = name with
  | none => rfl
  | some e =>
      have hname : e.1.toList = name := by simpa using List.find?_some h
      have hdisplay := display_of_mem_known e (List.mem_of_find?_eq_some h)
      rw [hname] at hdisplay
      exact hdisplay

/-- Different names are different controllers. -/
lemma ofName_injective : Function.Injective ofName :=
  Function.LeftInverse.injective display_ofName

end CgroupController

/-! ## Object counts -/

/-- Counts by controller. -/
abbrev ControllerCounts := Std.ExtHashMap CgroupController Count

/-- Object counts of `cgroup.stat`.
Source: `core/state.rs`, `CgroupStat`. -/
structure CgroupStat where
  /-- Visible descendant cgroups. -/
  descendants : Count
  /-- Deleted descendants not yet destroyed. -/
  dyingDescendants : Count
  /-- Live subsystem states, by controller. -/
  subsystems : ControllerCounts
  /-- Dying subsystem states, by controller. -/
  dyingSubsystems : ControllerCounts

namespace CgroupStat

/-- The count of one controller.
Source: `core/state.rs`, the `map` closure of `CgroupStat::parse_subsystems`. -/
def subsystem (raw : Str) (start : String) (e : Str × Str) :
    Parsed (CgroupController × Count) := do
  if e.1.isEmpty then
    .error (.invalid raw "controller" e.1 .outOfRange)
  else return (CgroupController.ofName e.1, ← parseField ParseCount raw start e.2)

/-- The counts of the keys with a prefix, by what follows the prefix.
Source: `core/state.rs`, `CgroupStat::parse_subsystems`. -/
def parseSubsystems (raw : Str) (fields : KeyedFields) (start : String) :
    Parsed ControllerCounts :=
  (((fields.selected (stripPrefix start.toList)).map (subsystem raw start)).mapM id).map
    Std.ExtHashMap.ofList

/-- Source: `core/state.rs`, `CgroupStat::from_str`. -/
def fromStr (contents : Str) : Parsed CgroupStat := do
  let fields ← KeyedFields.parse contents fun _ => "value"
  return {
    descendants := ← fields.required ParseCount "nr_descendants"
    dyingDescendants := ← fields.required ParseCount "nr_dying_descendants"
    subsystems := ← parseSubsystems contents fields "nr_subsys_"
    dyingSubsystems := ← parseSubsystems contents fields "nr_dying_subsys_" }

/-- The keys of `cgroup.stat`: the two counters, and every key with one of the two prefixes. -/
def IsKey (key : Str) : Prop :=
  Named ["nr_descendants", "nr_dying_descendants"] key ∨
  (∃ name, key = "nr_subsys_".toList ++ name) ∨ ∃ name, key = "nr_dying_subsys_".toList ++ name

/-- Up to the retained input, the counts under a prefix depend on the values of its keys only. -/
lemma parseSubsystems_congr {raw₁ raw₂ : Str} {f₁ f₂ : KeyedFields} {start : String}
    (h : f₁.AgreeOn (fun key => ∃ name, key = start.toList ++ name) f₂) :
    outcome (parseSubsystems raw₁ f₁ start) = outcome (parseSubsystems raw₂ f₂ start) := by
  have hselected : f₁.selected (stripPrefix start.toList) =
      f₂.selected (stripPrefix start.toList) := by
    apply KeyedFields.selected_congr
    intro key hkey
    obtain ⟨name, hname⟩ := Option.isSome_iff_exists.mp hkey
    exact h key ⟨name, (stripPrefix_eq_some_iff.mp hname).symm⟩
  have hsubsystem : ∀ e, outcome (subsystem raw₁ start e) = outcome (subsystem raw₂ start e) := by
    intro e
    unfold subsystem
    split_ifs
    · rfl
    · exact outcome_bind_congr (outcome_parseField raw₁ raw₂ e.2 start) fun _ => rfl
  unfold parseSubsystems
  rw [hselected, outcome_map, outcome_map]
  unfold outcome
  rw [mapM_mapError, mapM_mapError, List.map_map, List.map_map]
  exact congrArg (Except.map Std.ExtHashMap.ofList)
    (congrArg (List.mapM id) (List.map_congr_left fun e _ => hsubsystem e))

/-- The last-value law of `cgroup.stat`. -/
lemma lastValueLaw : LastValueLaw IsKey fromStr := by
  apply LastValueLaw.of_agree
  intro t₁ t₂ h₁ h₂ hagree
  unfold fromStr
  rw [KeyedFields.parse_of_twoTokens h₁, KeyedFields.parse_of_twoTokens h₂, ok_bind, ok_bind]
  refine outcome_bind_congr (KeyedFields.outcome_required_congr
    (hagree _ (Or.inl (named (by simp))))) fun descendants => ?_
  refine outcome_bind_congr (KeyedFields.outcome_required_congr
    (hagree _ (Or.inl (named (by simp))))) fun dying => ?_
  refine outcome_bind_congr (parseSubsystems_congr
    (hagree.mono fun key hkey => Or.inr (Or.inl hkey))) fun subsystems => ?_
  exact outcome_bind_congr (parseSubsystems_congr
    (hagree.mono fun key hkey => Or.inr (Or.inr hkey))) fun dyingSubsystems => rfl

/-! ### The counts under a prefix -/

section prefixed

variable {raw : Str} {fields : KeyedFields} {start : String}

/-- One count is accepted exactly when its name is not empty and its value is a numeral. -/
lemma subsystem_eq_ok_iff {e : Str × Str} {entry : CgroupController × Count} :
    subsystem raw start e = .ok entry ↔
      e.1 ≠ [] ∧ CgroupController.ofName e.1 = entry.1 ∧ IsNumeral e.2 entry.2.value.toNat := by
  unfold subsystem
  by_cases hname : e.1 = []
  · simp [hname]
  · rw [if_neg (by simpa using hname)]
    simp only [bind_eq_ok, parseField_eq_ok, parseCount_eq_ok_iff, pure_eq_ok]
    constructor
    · rintro ⟨count, hcount, rfl⟩
      exact ⟨hname, rfl, hcount⟩
    · rintro ⟨-, hcontroller, hcount⟩
      exact ⟨entry.2, hcount, Prod.ext hcontroller rfl⟩

/-- The keys with the prefix are selected under what follows it. -/
lemma mem_selected_stripPrefix {name value : Str} :
    (name, value) ∈ fields.selected (stripPrefix start.toList) ↔
      fields.values[start.toList ++ name]? = some value := by
  rw [KeyedFields.mem_selected]
  simp only [stripPrefix_eq_some_iff]
  constructor
  · rintro ⟨key, hget, rfl⟩
    exact hget
  · intro hget
    exact ⟨_, hget, rfl⟩

/-- No name is selected twice. -/
lemma nodup_selected_stripPrefix :
    ((fields.selected (stripPrefix start.toList)).map Prod.fst).Nodup := by
  apply KeyedFields.nodup_selected
  intro key key' name h h'
  rw [stripPrefix_eq_some_iff] at h h'
  rw [← h, ← h']

/-- What the counts under a prefix are collected from. -/
lemma parseSubsystems_eq_ok_iff {counts : ControllerCounts} :
    parseSubsystems raw fields start = .ok counts ↔
      ∃ entries : List (CgroupController × Count),
        (fields.selected (stripPrefix start.toList)).map (subsystem raw start) =
          entries.map .ok ∧ Std.ExtHashMap.ofList entries = counts := by
  unfold parseSubsystems
  rw [map_eq_ok]
  exact exists_congr fun entries => and_congr_left fun _ => mapM_id_eq_ok_iff

/-- **When the counts under a prefix are accepted**: each key with the prefix has a name and a
count. -/
lemma exists_parseSubsystems_iff :
    (∃ counts, parseSubsystems raw fields start = .ok counts) ↔
      ∀ name value, fields.values[start.toList ++ name]? = some value →
        name ≠ [] ∧ ∃ count : Count, IsNumeral value count.value.toNat := by
  have hcollected : (∃ counts, parseSubsystems raw fields start = .ok counts) ↔
      ∃ entries : List (CgroupController × Count),
        (fields.selected (stripPrefix start.toList)).map (subsystem raw start) =
          entries.map .ok := by
    simp only [parseSubsystems_eq_ok_iff]
    constructor
    · rintro ⟨_, entries, hentries, -⟩
      exact ⟨entries, hentries⟩
    · rintro ⟨entries, hentries⟩
      exact ⟨_, entries, hentries, rfl⟩
  rw [hcollected, exists_map_eq_map_ok]
  simp only [Prod.forall, mem_selected_stripPrefix]
  refine forall_congr' fun name => forall_congr' fun value => imp_congr_right fun _ => ?_
  simp only [subsystem_eq_ok_iff]
  constructor
  · rintro ⟨entry, hname, -, hcount⟩
    exact ⟨hname, entry.2, hcount⟩
  · rintro ⟨hname, count, hcount⟩
    exact ⟨(CgroupController.ofName name, count), hname, rfl, hcount⟩

/-- The controllers of the accepted counts are those of the selected names, so none repeats. -/
lemma nodup_controllers {entries : List (CgroupController × Count)}
    (h : (fields.selected (stripPrefix start.toList)).map (subsystem raw start) =
      entries.map .ok) : (entries.map Prod.fst).Nodup := by
  have hcontrollers : entries.map Prod.fst =
      (fields.selected (stripPrefix start.toList)).map fun e => CgroupController.ofName e.1 := by
    generalize fields.selected (stripPrefix start.toList) = selected at h
    induction selected generalizing entries with
    | nil =>
        rw [List.map_nil, eq_comm, List.map_eq_nil_iff] at h
        rw [h]
        rfl
    | cons e selected ih =>
        rcases entries with _ | ⟨entry, entries⟩
        · cases h
        · rw [List.map_cons, List.map_cons, List.cons.injEq, subsystem_eq_ok_iff] at h
          rw [List.map_cons, List.map_cons, ih h.2, h.1.2.1]
  have hnames : ((fields.selected (stripPrefix start.toList)).map Prod.fst).Nodup :=
    nodup_selected_stripPrefix
  have hmapped := hnames.map CgroupController.ofName_injective
  rw [List.map_map] at hmapped
  rw [hcontrollers]
  exact hmapped

/-- **The counts under a prefix**: one for each key, under the controller of its name. -/
lemma getElem?_of_parseSubsystems {counts : ControllerCounts}
    (h : parseSubsystems raw fields start = .ok counts) (controller : CgroupController)
    (count : Count) :
    counts[controller]? = some count ↔
      ∃ name value, CgroupController.ofName name = controller ∧
        fields.values[start.toList ++ name]? = some value ∧
        IsNumeral value count.value.toNat := by
  obtain ⟨entries, hentries, rfl⟩ := parseSubsystems_eq_ok_iff.mp h
  rw [getElem?_hashMap_ofList, lastValue_eq_some_iff_mem (nodup_controllers hentries)]
  constructor
  · intro hmem
    obtain ⟨e, he, hentry⟩ := exists_mem_of_value hentries hmem
    obtain ⟨-, hcontroller, hcount⟩ := subsystem_eq_ok_iff.mp hentry
    exact ⟨e.1, e.2, hcontroller, mem_selected_stripPrefix.mp he, hcount⟩
  · rintro ⟨name, value, rfl, hget, hcount⟩
    obtain ⟨entry, hmem, hentry⟩ :=
      exists_value_of_mem hentries (mem_selected_stripPrefix.mpr hget)
    obtain ⟨-, hcontroller, hvalue⟩ := subsystem_eq_ok_iff.mp hentry
    have hentry : entry = (CgroupController.ofName name, count) :=
      Prod.ext hcontroller.symm (Count.eq_of_isNumeral hvalue hcount)
    rw [← hentry]
    exact hmem

end prefixed

/-! ### The whole file -/

/-- The last value of the key is a numeral for the count. -/
def HasCount (text key : Str) (count : Count) : Prop :=
  ∃ value, lastValue key (pairsOf text) = some value ∧ IsNumeral value count.value.toNat

/-- What the file accepts, part by part. -/
lemma fromStr_eq_ok_iff {text : Str} (h : TwoTokens text) {stat : CgroupStat} :
    fromStr text = .ok stat ↔
      HasCount text "nr_descendants".toList stat.descendants ∧
      HasCount text "nr_dying_descendants".toList stat.dyingDescendants ∧
      parseSubsystems text (KeyedFields.ofText text) "nr_subsys_" = .ok stat.subsystems ∧
      parseSubsystems text (KeyedFields.ofText text) "nr_dying_subsys_" =
        .ok stat.dyingSubsystems := by
  unfold fromStr HasCount
  rw [KeyedFields.parse_of_twoTokens h, ok_bind]
  simp only [bind_eq_ok, pure_eq_ok, KeyedFields.required_eq_ok_iff, parseCount_eq_ok_iff,
    KeyedFields.ofText_values]
  constructor
  · rintro ⟨descendants, hdescendants, dying, hdying, subsystems, hsubsystems, dyingSubsystems,
      hdyingSubsystems, rfl⟩
    exact ⟨hdescendants, hdying, hsubsystems, hdyingSubsystems⟩
  · rintro ⟨hdescendants, hdying, hsubsystems, hdyingSubsystems⟩
    exact ⟨_, hdescendants, _, hdying, _, hsubsystems, _, hdyingSubsystems, rfl⟩

/-- The keys with a prefix that occur in a text have a name and a count. -/
def Counted (text : Str) (start : String) : Prop :=
  ∀ name, Occurs text (start.toList ++ name) →
    name ≠ [] ∧ ∃ count, HasCount text (start.toList ++ name) count

/-- When the counts under a prefix are accepted, in terms of the text. -/
lemma exists_parseSubsystems_ofText_iff {text : Str} (h : TwoTokens text) {start : String} :
    (∃ counts, parseSubsystems text (KeyedFields.ofText text) start = .ok counts) ↔
      Counted text start := by
  rw [exists_parseSubsystems_iff]
  unfold Counted HasCount
  apply forall_congr'
  intro name
  rw [occurs_iff h, KeyedFields.ofText_values]
  cases lastValue (start.toList ++ name) (pairsOf text) with
  | none => simp
  | some value => simp

/-- The counts under a prefix, in terms of the text. -/
lemma getElem?_of_parseSubsystems_ofText {text : Str} {start : String} {counts : ControllerCounts}
    (h : parseSubsystems text (KeyedFields.ofText text) start = .ok counts)
    (controller : CgroupController) (count : Count) :
    counts[controller]? = some count ↔
      ∃ name, CgroupController.ofName name = controller ∧
        HasCount text (start.toList ++ name) count := by
  rw [getElem?_of_parseSubsystems h]
  simp only [KeyedFields.ofText_values, HasCount, exists_and_left]

/-- No key has both prefixes. -/
lemma prefixes_disjoint (name name' : Str) :
    "nr_subsys_".toList ++ name ≠ "nr_dying_subsys_".toList ++ name' := by
  intro h
  have hchar := congrArg (fun key : Str => key[3]?) h
  exact absurd hchar (by simp)

end CgroupStat

/-- **The counters of `cgroup.stat` are neither lost, merged nor crossed.** A text of two-token
lines is accepted exactly when the last value of each of its counters is a numeral, and each counter
of a controller has a name. It is read as exactly one count for each key of a family, the last one,
under the controller displayed as what follows the prefix; and no key is in both families. -/
theorem cgroup_stat_subsystems (text : Str) (h : TwoTokens text) :
    ((∃ stat, CgroupStat.fromStr text = .ok stat) ↔
      (∃ count, CgroupStat.HasCount text "nr_descendants".toList count) ∧
      (∃ count, CgroupStat.HasCount text "nr_dying_descendants".toList count) ∧
      CgroupStat.Counted text "nr_subsys_" ∧ CgroupStat.Counted text "nr_dying_subsys_") ∧
    (∀ stat, CgroupStat.fromStr text = .ok stat →
      CgroupStat.HasCount text "nr_descendants".toList stat.descendants ∧
      CgroupStat.HasCount text "nr_dying_descendants".toList stat.dyingDescendants ∧
      (∀ controller count, stat.subsystems[controller]? = some count ↔
        ∃ name, CgroupController.ofName name = controller ∧
          CgroupStat.HasCount text ("nr_subsys_".toList ++ name) count) ∧
      ∀ controller count, stat.dyingSubsystems[controller]? = some count ↔
        ∃ name, CgroupController.ofName name = controller ∧
          CgroupStat.HasCount text ("nr_dying_subsys_".toList ++ name) count) ∧
    (∀ name name', "nr_subsys_".toList ++ name ≠ "nr_dying_subsys_".toList ++ name') ∧
    ∀ name, (CgroupController.ofName name).display = name := by
  refine ⟨?_, fun stat hstat => ?_, CgroupStat.prefixes_disjoint, CgroupController.display_ofName⟩
  · rw [← CgroupStat.exists_parseSubsystems_ofText_iff h,
      ← CgroupStat.exists_parseSubsystems_ofText_iff h]
    simp only [CgroupStat.fromStr_eq_ok_iff h]
    constructor
    · rintro ⟨stat, hdescendants, hdying, hsubsystems, hdyingSubsystems⟩
      exact ⟨⟨_, hdescendants⟩, ⟨_, hdying⟩, ⟨_, hsubsystems⟩, ⟨_, hdyingSubsystems⟩⟩
    · rintro ⟨⟨descendants, hdescendants⟩, ⟨dying, hdying⟩, ⟨subsystems, hsubsystems⟩,
        dyingSubsystems, hdyingSubsystems⟩
      exact ⟨⟨descendants, dying, subsystems, dyingSubsystems⟩, hdescendants, hdying, hsubsystems,
        hdyingSubsystems⟩
  · obtain ⟨hdescendants, hdying, hsubsystems, hdyingSubsystems⟩ :=
      (CgroupStat.fromStr_eq_ok_iff h).mp hstat
    exact ⟨hdescendants, hdying, CgroupStat.getElem?_of_parseSubsystems_ofText hsubsystems,
      CgroupStat.getElem?_of_parseSubsystems_ofText hdyingSubsystems⟩

/-- A later line replaces an earlier one, and a controller without a name of its own is kept. -/
theorem cgroup_stat_subsystems_repeated :
    ∃ stat, CgroupStat.fromStr ("nr_descendants 2\nnr_dying_descendants 1\n".toList ++
        "nr_subsys_cpu 3\nnr_subsys_x 5\nnr_subsys_cpu 4\n".toList) = .ok stat ∧
      stat.subsystems[CgroupController.cpu]? = some ⟨4⟩ ∧
      stat.subsystems[CgroupController.other "x".toList]? = some ⟨5⟩ := by
  have hstat : CgroupStat.fromStr ("nr_descendants 2\nnr_dying_descendants 1\n".toList ++
      "nr_subsys_cpu 3\nnr_subsys_x 5\nnr_subsys_cpu 4\n".toList) = .ok ⟨⟨2⟩, ⟨1⟩,
        Std.ExtHashMap.ofList [(.cpu, ⟨4⟩), (.other "x".toList, ⟨5⟩)], Std.ExtHashMap.ofList []⟩ :=
    rfl
  have hread := ((cgroup_stat_subsystems _ (by decide)).2.1 _ hstat).2.2.1
  refine ⟨_, hstat, (hread .cpu ⟨4⟩).mpr ?_, (hread (.other "x".toList) ⟨5⟩).mpr ?_⟩
  · exact ⟨"cpu".toList, rfl, "4".toList, rfl, Or.inl (by decide)⟩
  · exact ⟨"x".toList, rfl, "5".toList, rfl, Or.inl (by decide)⟩

end Sakai
