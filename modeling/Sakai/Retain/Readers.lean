import Sakai.Core.State
import Sakai.Core.Task
import Sakai.Cpu.Max
import Sakai.Cpu.Stat
import Sakai.Cpuset.List
import Sakai.Cpuset.Partition
import Sakai.Hugetlb.NumaStat
import Sakai.Io.Limits
import Sakai.Io.Stat
import Sakai.Io.Weight
import Sakai.Memory.NumaStat
import Sakai.Memory.Stat
import Sakai.Pressure
import Sakai.Rdma
import Sakai.Resources
import Sakai.Retain.Rules

/-!
# What a failed reader retains: the readers

Each reader is followed by the rules for its steps, from the lines of the file down to the decoded
fields; `readers_fail_whole` collects them.
-/

namespace Sakai

open Lib

variable {T : Type} {raw : Str}

/-- Nothing is asked of the value. -/
abbrev KeepsInput (raw : Str) (x : Parsed T) : Prop := Retains raw (fun _ => True) x

/-! ## Flat-keyed files -/

/-- The limit of `cpu.max` keeps its input. -/
lemma CpuMax.keepsInput (raw : Str) : KeepsInput raw (CpuMax.fromStr raw) := by
  apply Parser.retains_parseLine List.infix_rfl
  refine Parser.keeps_bind (Parser.keeps_nextField "quota") fun quota _ => ?_
  refine Parser.keeps_bind (Parser.keeps_nextField "period") fun period _ => ?_
  exact Parser.keeps_pure trivial

/-- A group of fields keeps the input as its reader does. -/
lemma keepsInput_optionalGroup {names : List String} {fromFields : KeyedFields → Parsed T}
    {fields : KeyedFields} (h : KeepsInput raw (fromFields fields)) :
    KeepsInput raw (optionalGroup names fromFields fields) := by
  unfold optionalGroup
  split_ifs
  · exact h.map fun _ _ => trivial
  · exact ends_ok trivial

namespace CpuStat

variable {fields : KeyedFields}

/-- The usage times keep the input. -/
lemma keepsInput_time (h : fields.Within raw) : KeepsInput raw (CpuTimeStat.fromFields fields) := by
  unfold CpuTimeStat.fromFields
  refine (h.required _).bind fun usage _ => (h.required _).bind fun user _ => ?_
  refine (h.required _).bind fun system _ => (h.optional _).bind fun nice _ => ?_
  exact (h.optional _).bind fun forceIdle _ => ends_ok trivial

/-- The burst counters keep the input. -/
lemma keepsInput_burst (h : fields.Within raw) :
    KeepsInput raw (CpuBurstStat.fromFields fields) := by
  unfold CpuBurstStat.fromFields
  exact (h.required _).bind fun nrBursts _ => (h.required _).bind fun burst _ => ends_ok trivial

/-- The bandwidth counters keep the input. -/
lemma keepsInput_bandwidth (h : fields.Within raw) :
    KeepsInput raw (CpuBandwidthStat.fromFields fields) := by
  unfold CpuBandwidthStat.fromFields
  refine (keepsInput_optionalGroup (keepsInput_burst h)).bind fun burst _ => ?_
  refine (h.required _).bind fun nrPeriods _ => (h.required _).bind fun nrThrottled _ => ?_
  exact (h.required _).bind fun throttled _ => ends_ok trivial

/-- `cpu.stat` keeps its input. -/
lemma keepsInput (raw : Str) : KeepsInput raw (fromStr raw) := by
  refine (KeyedFields.retains_parse raw _).bind fun fields h => ?_
  refine (keepsInput_time h).bind fun time _ => ?_
  exact (keepsInput_optionalGroup (keepsInput_bandwidth h)).bind fun bandwidth _ => ends_ok trivial

end CpuStat

namespace CgroupStat

/-- The count of a controller keeps the input. -/
lemma keepsInput_subsystem {e : Str × Str} (h : Parts raw e) (start : String) :
    KeepsInput raw (subsystem raw start e) := by
  unfold subsystem
  split_ifs
  · exact retains_invalid h.1 "controller" ParseValueError.outOfRange
  · exact (retains_parseField h.2 start).bind fun count _ => ends_ok trivial

/-- The counts of the controllers keep the input. -/
lemma keepsInput_parseSubsystems {fields : KeyedFields} (h : fields.Within raw) (start : String) :
    KeepsInput raw (parseSubsystems raw fields start) := by
  unfold parseSubsystems
  refine (retains_mapM fun e he => ?_).map fun _ _ => trivial
  exact keepsInput_subsystem (h.selected (fun _ _ => infix_of_stripPrefix) he) start

/-- `cgroup.stat` keeps its input. -/
lemma keepsInput (raw : Str) : KeepsInput raw (fromStr raw) := by
  refine (KeyedFields.retains_parse raw _).bind fun fields h => ?_
  refine (h.required _).bind fun descendants _ => (h.required _).bind fun dying _ => ?_
  refine (keepsInput_parseSubsystems h _).bind fun subsystems _ => ?_
  exact (keepsInput_parseSubsystems h _).bind fun dyingSubsystems _ => ends_ok trivial

end CgroupStat

namespace MiscEvents

/-- The counter of a resource keeps the input: an empty name is reported by its key. -/
lemma keepsInput_resource {e : Str × Str} (hvalue : e.2 <:+: raw)
    (hkey : e.1 ++ ".max".toList <:+: raw) : KeepsInput raw (resource raw e) := by
  unfold resource
  split_ifs with hempty
  · rw [List.isEmpty_iff.mp hempty] at hkey
    exact retains_invalid hkey "resource" ParseValueError.outOfRange
  · exact (retains_parseField hvalue "max").bind fun count _ => ends_ok trivial

/-- `misc.events` keeps its input. -/
lemma keepsInput (raw : Str) : KeepsInput raw (fromStr raw) := by
  refine (KeyedFields.retains_parse raw _).bind fun fields h => ?_
  refine (retains_collect fun e he => ?_).bind fun resources _ => ends_ok trivial
  obtain ⟨key, hget, hname⟩ := KeyedFields.mem_selected.mp he
  obtain ⟨hkey, hvalue⟩ := h.parts key e.2 hget
  rw [← stripSuffix_eq_some_iff.mp hname] at hkey
  exact keepsInput_resource hvalue hkey

end MiscEvents

/-! ## Memory statistics -/

/-- Setting the field of a key keeps the input as decoding its value does. -/
lemma keepsInput_insert {B P C : Type} (self : FieldMaps B P C) (key : Str)
    {byte : MemoryStatByteField → Parsed B} {page : MemoryStatPageField → Parsed P}
    {count : MemoryStatCountField → Parsed C} (hbyte : ∀ f, KeepsInput raw (byte f))
    (hpage : ∀ f, KeepsInput raw (page f)) (hcount : ∀ f, KeepsInput raw (count f)) :
    KeepsInput raw (self.insert key byte page count) := by
  unfold FieldMaps.insert
  rcases NamedEnum.fromStr? (F := MemoryStatByteField) key with _ | f
  · rcases NamedEnum.fromStr? (F := MemoryStatPageField) key with _ | f
    · rcases NamedEnum.fromStr? (F := MemoryStatCountField) key with _ | f
      · exact ends_ok trivial
      · exact (hcount f).bind fun v _ => ends_ok trivial
    · exact (hpage f).bind fun v _ => ends_ok trivial
  · exact (hbyte f).bind fun v _ => ends_ok trivial

/-- A missing baseline keeps the input. -/
lemma keepsInput_requireBaseline {V : Type} (raw : Str) (fields : BTreeMap MemoryStatByteField V) :
    KeepsInput raw (FieldMaps.requireBaseline raw fields) := by
  have hfield : ∀ field : MemoryStatByteField, KeepsInput raw
      (if fields.contains field then .ok () else .error (.missing raw field.name)) := by
    intro field
    split_ifs
    · exact ends_ok trivial
    · exact retains_missing field.name
  unfold FieldMaps.requireBaseline
  rw [List.forM_cons, List.forM_cons, List.forM_nil]
  exact (hfield _).bind fun _ _ => (hfield _).bind fun _ _ => ends_ok trivial

/-- A file that is folded line by line and then checked for its baseline keeps its input as its
lines do. -/
lemma keepsInput_foldLines {B P C : Type}
    {insertLine : FieldMaps B P C → Str → Parsed (FieldMaps B P C)}
    (h : ∀ stat, ∀ line ∈ nonBlankLines raw, KeepsInput raw (insertLine stat line)) :
    KeepsInput raw (do
      let stat ← (nonBlankLines raw).foldlM insertLine FieldMaps.empty
      FieldMaps.requireBaseline raw stat.bytes
      return stat) := by
  refine (ends_foldlM trivial fun stat _ line hline => h stat line hline).bind fun stat _ => ?_
  exact (keepsInput_requireBaseline raw stat.bytes).bind fun _ _ => ends_ok trivial

/-- `memory.stat` keeps its input. -/
lemma MemoryStat.keepsInput (raw : Str) : KeepsInput raw (MemoryStat.fromStr raw) := by
  apply keepsInput_foldLines
  intro stat line hline
  refine (Parser.retains_parseLine (infix_of_mem_nonBlankLines hline)
    (Parser.keeps_keyValue _)).bind fun e he => ?_
  exact keepsInput_insert stat e.1 (fun f => retains_parseField he.2 f.name)
    (fun f => retains_parseField he.2 f.name) fun f => retains_parseField he.2 f.name

namespace MemoryNumaStat

variable {U : Type} [ParseCgroup U T ParseValueError]

/-- A token of a node keeps the input. -/
lemma keepsInput_parseNode {token : Str} (h : token <:+: raw) (field : String) :
    KeepsInput raw (parseNode (T := T) U raw field token) := by
  unfold parseNode
  rcases hsplit : splitOnce '=' token with _ | ⟨node, value⟩
  · exact retains_invalid h "node" ParseValueError.outOfRange
  · rcases hdigits : stripPrefix ['N'] node with _ | digits
    · simp only [hdigits]
      exact retains_invalid h "node" ParseValueError.outOfRange
    · simp only [hdigits]
      have hvalue : value <:+: raw := (infix_of_splitOnce hsplit).2.trans h
      refine (retains_mapError h "node" (parseU32 digits) ParseValueError.integer).bind
        fun id _ => ?_
      exact (retains_parseField hvalue field).bind fun v _ => ends_ok trivial

/-- The tokens of a field keep the input. -/
lemma keepsInput_parseNodes {tokens : List Str} (h : ∀ token ∈ tokens, token <:+: raw)
    (field : String) : KeepsInput raw (parseNodes (T := T) U raw field tokens) := by
  unfold parseNodes
  split_ifs
  · exact retains_missing "node"
  · exact retains_collect fun token htoken => keepsInput_parseNode (h token htoken) field

/-- `memory.numa_stat` keeps its input. -/
lemma keepsInput (raw : Str) : KeepsInput raw (fromStr raw) := by
  apply keepsInput_foldLines
  intro stat line hline
  unfold insertLine
  rcases htokens : splitAsciiWhitespace line with _ | ⟨key, tokens⟩
  · exact retains_missing "key"
  · have hparts : ∀ token ∈ tokens, token <:+: raw := fun token htoken =>
      infix_of_mem_tokens hline htokens token (List.mem_cons_of_mem key htoken)
    exact keepsInput_insert stat key (fun f => keepsInput_parseNodes hparts f.name)
      (fun f => keepsInput_parseNodes hparts f.name) fun f => keepsInput_parseNodes hparts f.name

end MemoryNumaStat

/-! ## Pressure -/

namespace PressureKind

/-- A token of a line is a pair of parts of the input, is skipped, or keeps the input. -/
lemma retains_parseToken {token : Str} (h : token <:+: raw) :
    ∀ r ∈ parseToken raw token, Retains raw (Parts raw) r := by
  intro r hr
  unfold parseToken at hr
  rcases hsplit : splitOnce '=' token with _ | ⟨key, value⟩
  · simp only [hsplit, Option.mem_def, Option.some.injEq] at hr
    subst hr
    exact retains_invalid h "value" ParseValueError.outOfRange
  · obtain ⟨hkey, hvalue⟩ := infix_of_splitOnce hsplit
    simp only [hsplit, Option.mem_def, Option.map_eq_some_iff] at hr
    obtain ⟨-, -, rfl⟩ := hr
    exact ends_ok ⟨hkey.trans h, hvalue.trans h⟩

/-- A line keeps the input, and its fields are parts of it. -/
lemma retains_parse {line : Str} (hline : line ∈ nonBlankLines raw) :
    Retains raw (fun o : Option (PressureKind × KeyedFields) => ∀ e ∈ o, e.2.Within raw)
      (parse raw line) := by
  unfold parse
  rcases htokens : splitAsciiWhitespace line with _ | ⟨kind, tokens⟩
  · exact retains_missing "kind"
  · rw [parseRow]
    rcases NamedEnum.fromStr? (F := PressureKind) kind with _ | kind'
    · refine ends_ok fun e he => ?_
      cases he
    · refine (KeyedFields.retains_new fun r hr => ?_).bind fun fields hfields => ?_
      · obtain ⟨token, htoken, hmem⟩ := List.mem_filterMap.mp hr
        have hpart := infix_of_mem_tokens hline htokens token (List.mem_cons_of_mem kind htoken)
        exact retains_parseToken hpart r hmem
      · refine ends_ok fun e he => ?_
        cases he
        exact hfields

end PressureKind

namespace Pressure

variable {Ratio : Type} [ParseCgroup ParsePercent Ratio ParseValueError]

/-- What is left of a line without a value keeps the input. -/
lemma retains_of_transpose {q : T → Prop} {x : Parsed (Option T)}
    (h : Retains raw (fun o => ∀ v ∈ o, q v) x) {r : Parsed T} (hr : r ∈ transpose x) :
    Retains raw q r := by
  rcases x with e | _ | v
  · cases hr
    exact ends_error (h.error e rfl)
  · cases hr
  · cases hr
    exact ends_ok (h.ok _ rfl v rfl)

/-- The averages and the total of a line keep the input. -/
lemma keepsInput_line {fields : KeyedFields} (h : fields.Within raw) :
    KeepsInput raw (PressureLine.fromFields fields : Parsed (PressureLine Ratio)) := by
  unfold PressureLine.fromFields
  refine (h.required _).bind fun avg10 _ => (h.required _).bind fun avg60 _ => ?_
  exact (h.required _).bind fun avg300 _ => (h.required _).bind fun total _ => ends_ok trivial

/-- A pressure file keeps its input. -/
lemma keepsInput (raw : Str) : KeepsInput raw (fromStr raw : Parsed (Pressure Ratio)) := by
  unfold fromStr parsePressureLines
  refine (retains_collect fun result hresult => ?_).bind fun lines _ => ?_
  · obtain ⟨line, hline, hmem⟩ := List.mem_filterMap.mp hresult
    refine (retains_of_transpose (PressureKind.retains_parse hline) hmem).bind fun e he => ?_
    exact (keepsInput_line he).bind fun v _ => ends_ok trivial
  · unfold requiredLine
    rcases lines[PressureKind.some]? with _ | line
    · exact retains_missing _
    · exact ends_ok trivial

end Pressure

/-! ## Device files -/

namespace Device

/-- A device token keeps the input. -/
lemma keepsInput_parse {value : Str} (h : value <:+: raw) : KeepsInput raw (parse raw value) := by
  have hpart : ∀ part, KeepsInput raw (parsePart raw value part) := fun part =>
    retains_mapError h "device" (parseU32 part) ParseValueError.integer
  unfold parse
  rcases splitOnce ':' value with _ | ⟨major, minor⟩
  · exact retains_invalid h "device" ParseValueError.outOfRange
  · exact (hpart major).bind fun _ _ => (hpart minor).bind fun _ _ => ends_ok trivial

/-- **A file of devices keeps its input** as the reader of its fields does. -/
lemma keepsInput_parseLines {parse : KeyedFields → Parsed T}
    (hparse : ∀ fields : KeyedFields, fields.Within raw → KeepsInput raw (parse fields)) :
    KeepsInput raw (parseLines raw parse) := by
  apply retains_collect
  intro line hline
  rcases htokens : splitAsciiWhitespace line with _ | ⟨token, tokens⟩
  · exact retains_missing "device"
  · have hparts := infix_of_mem_tokens hline htokens
    unfold parseRow
    refine (keepsInput_parse (hparts token List.mem_cons_self)).bind fun device _ => ?_
    rcases tokens with _ | ⟨first, rest⟩
    · exact retains_missing "value"
    · refine (KeyedFields.retains_assignments fun t ht =>
        hparts t (List.mem_cons_of_mem token ht)).bind fun fields hfields => ?_
      exact (hparse fields hfields).bind fun v _ => ends_ok trivial

end Device

/-- `io.stat` keeps its input. -/
lemma IoStat.keepsInput {Ratio : Type} [ParseCgroup ParseCostPercent Ratio ParseValueError]
    (raw : Str) : KeepsInput raw (IoStat.fromStr raw : Parsed (IoStat Ratio)) := by
  refine (Device.keepsInput_parseLines fun fields h => ?_).bind fun devices _ => ends_ok trivial
  unfold IoDeviceStat.fromFields
  iterate 18 refine (h.optional _).bind fun _ _ => ?_
  exact ends_ok trivial

/-- `io.max` keeps its input. -/
lemma IoMax.keepsInput (raw : Str) : KeepsInput raw (IoMax.fromStr raw) := by
  refine (Device.keepsInput_parseLines fun fields h => ?_).bind fun devices _ => ends_ok trivial
  unfold IoDeviceMax.fromFields
  iterate 4 refine (h.required _).bind fun _ _ => ?_
  exact ends_ok trivial

/-- `io.weight` keeps its input. -/
lemma IoWeight.keepsInput (raw : Str) : KeepsInput raw (IoWeight.fromStr raw) := by
  refine (KeyedFields.retains_parse raw _).bind fun fields h => ?_
  refine (h.required _).bind fun default _ => ?_
  refine (retains_collect fun e he => ?_).bind fun devices _ => ends_ok trivial
  obtain ⟨hkey, hvalue⟩ := h.iter (List.mem_of_mem_filter he)
  unfold deviceWeight
  refine (Device.keepsInput_parse hkey).bind fun device _ => ?_
  exact (retains_parseField hvalue "weight").bind fun weight _ => ends_ok trivial

/-- **A file of adapters keeps its input** as the reader of its fields does. -/
lemma RdmaDevice.keepsInput_parseDevices {parse : KeyedFields → Parsed T}
    (hparse : ∀ fields : KeyedFields, fields.Within raw → KeepsInput raw (parse fields)) :
    KeepsInput raw (parseDevices raw parse) := by
  apply retains_collect
  intro line hline
  rcases htokens : splitAsciiWhitespace line with _ | ⟨device, tokens⟩
  · exact retains_missing "device"
  · unfold parseDevice
    refine (KeyedFields.retains_assignments fun t ht =>
      infix_of_mem_tokens hline htokens t (List.mem_cons_of_mem device ht)).bind
        fun fields hfields => ?_
    have hindex : KeepsInput raw (deviceIndex raw fields) := by
      unfold deviceIndex
      rcases hfind : fields.iter.findSome? _ with _ | value
      · exact ends_ok trivial
      · obtain ⟨e, he, hvalue⟩ := List.exists_of_findSome?_eq_some hfind
        split_ifs at hvalue
        cases hvalue
        exact (retains_mapError (hfields.iter he).2 "index" (parseU32 e.2)
          ParseValueError.integer).map fun _ _ => trivial
    exact hindex.bind fun index _ => (hparse fields hfields).bind fun v _ => ends_ok trivial

/-- `rdma.current` keeps its input. -/
lemma RdmaCurrent.keepsInput (raw : Str) : KeepsInput raw (RdmaCurrent.fromStr raw) := by
  refine (RdmaDevice.keepsInput_parseDevices fun fields h => ?_).bind fun _ _ => ends_ok trivial
  have hcount : ∀ field, KeepsInput raw (RdmaDeviceCurrent.count fields field) := fun field =>
    (h.required field).map fun _ _ => trivial
  exact (hcount "hca_handle").bind fun _ _ => (hcount "hca_object").bind fun _ _ => ends_ok trivial

/-- `rdma.max` keeps its input. -/
lemma RdmaMax.keepsInput (raw : Str) : KeepsInput raw (RdmaMax.fromStr raw) := by
  refine (RdmaDevice.keepsInput_parseDevices fun fields h => ?_).bind fun _ _ => ends_ok trivial
  exact (h.required _).bind fun _ _ => (h.required _).bind fun _ _ => ends_ok trivial

/-- `rdma.events` keeps its input. -/
lemma RdmaEvents.keepsInput (raw : Str) : KeepsInput raw (RdmaEvents.fromStr raw) := by
  refine (RdmaDevice.keepsInput_parseDevices fun fields h => ?_).bind fun _ _ => ends_ok trivial
  unfold RdmaDeviceEvents.fromFields
  iterate 4 refine (h.required _).bind fun _ _ => ?_
  exact ends_ok trivial

/-- `hugetlb.<size>.numa_stat` keeps its input: a node is reported by its key. -/
lemma HugetlbNumaStat.keepsInput (raw : Str) : KeepsInput raw (HugetlbNumaStat.fromStr raw) := by
  refine (KeyedFields.retains_assignments fun token htoken =>
    infix_of_mem_splitAsciiWhitespace htoken).bind fun fields h => ?_
  refine (h.required _).bind fun total _ => ?_
  refine (retains_collect fun node hnode => ?_).bind fun nodes _ => ends_ok trivial
  obtain ⟨e, he, hnodeOf⟩ := List.mem_filterMap.mp hnode
  obtain ⟨hkey, hvalue⟩ := h.iter he
  obtain ⟨digits, -, rfl⟩ := Option.map_eq_some_iff.mp hnodeOf
  unfold nodeUsage
  refine (retains_mapError hkey "node" (parseU32 digits) ParseValueError.integer).bind
    fun id _ => ?_
  exact (retains_parseField hvalue "usage").bind fun usage _ => ends_ok trivial

/-! ## Lists and words -/

namespace IdList

variable {part : Str}

/-- A number of an item keeps the input: the item is reported. -/
lemma keepsInput_number (h : part <:+: raw) (field : String) (text : Str) :
    KeepsInput raw (number raw field part text) := by
  unfold number
  split_ifs
  · exact retains_mapError h field (parseU32 text) ParseValueError.integer
  · exact retains_invalid h field ParseValueError.outOfRange

/-- An item keeps the input. -/
lemma keepsInput_parsePart (h : part <:+: raw) (field : String) :
    KeepsInput raw (parsePart raw field part) := by
  have hends : KeepsInput raw (parseEnds raw field part) := by
    unfold parseEnds
    rcases splitOnce '-' part with _ | ⟨start, stop⟩
    · exact (keepsInput_number h field part).bind fun id _ => ends_ok trivial
    · refine (keepsInput_number h field start).bind fun _ _ => ?_
      exact (keepsInput_number h field stop).bind fun _ _ => ends_ok trivial
  apply hends.bind
  intro e _
  obtain ⟨start, stop⟩ := e
  dsimp only
  split_ifs
  · exact ends_ok trivial
  · exact retains_invalid h field ParseValueError.outOfRange

/-- A list of identifiers keeps its input: an item or, when the items are out of order, the whole
trimmed list is reported. -/
lemma keepsInput (raw : Str) (field : String) : KeepsInput raw (parse raw field) := by
  have hranges : KeepsInput raw (parseRanges raw field (trim raw)) := by
    unfold parseRanges
    cases (trim raw).isEmpty with
    | true => exact ends_ok trivial
    | false =>
        apply retains_mapM
        intro part hpart
        exact keepsInput_parsePart ((infix_of_mem_split hpart).trans (infix_trim raw)) field
  apply hranges.bind
  intro ranges _
  split_ifs
  · exact ends_ok trivial
  · exact retains_invalid (infix_trim raw) field ParseValueError.outOfRange

end IdList

/-- `cpuset.cpus` keeps its input. -/
lemma CpuList.keepsInput (raw : Str) : KeepsInput raw (CpuList.fromStr raw) :=
  (IdList.keepsInput raw "cpus").map fun _ _ => trivial

/-- `cpuset.cpus.partition` keeps its input. -/
lemma CpusetPartition.keepsInput (raw : Str) : KeepsInput raw (CpusetPartition.fromStr raw) := by
  unfold fromStr
  dsimp only
  split_ifs
  · exact retains_missing "partition"
  · rcases (ofWord (trim raw)).or (ofReason (trim raw)) with _ | partition
    · exact retains_invalid (infix_trim raw) "partition" ParseValueError.outOfRange
    · exact ends_ok trivial

/-- A list of tasks keeps its input: the trimmed line is reported. -/
lemma TaskId.keepsInput (raw : Str) : KeepsInput raw (TaskId.parseList raw) := by
  apply retains_mapM
  intro line hline
  have hpart : trim line <:+: raw := (infix_trim line).trans (infix_of_mem_nonBlankLines hline)
  refine (retains_mapError hpart "task_id" (parseI32 (trim line)) ParseValueError.integer).bind
    fun id _ => ?_
  rcases tryNew id with _ | task
  · exact retains_invalid hpart "task_id" ParseValueError.outOfRange
  · exact ends_ok trivial

/-! ## The readers together -/

/-- A failure of a reader is whole: its error retains the complete input, a value that it reports is
a contiguous part of the input, and no snapshot comes with it. -/
structure FailsWhole (raw : Str) (x : Parsed T) : Prop where
  /-- The error retains the complete input. -/
  raw_eq : ∀ error, x = .error error → error.raw = raw
  /-- A reported value is a contiguous part of the input. -/
  infix_raw : ∀ error value, x = .error error → error.value? = some value → value <:+: raw
  /-- No snapshot is returned. -/
  no_snapshot : ∀ error, x = .error error → ¬ ∃ snapshot, x = .ok snapshot

/-- A reader that keeps its input fails as a whole. -/
lemma failsWhole {x : Parsed T} (h : KeepsInput raw x) : FailsWhole raw x := by
  refine ⟨fun error herror => (h.error error herror).raw_eq,
    fun error value herror => (h.error error herror).infix_raw value, ?_⟩
  rintro error herror ⟨snapshot, hsnapshot⟩
  rw [herror] at hsnapshot
  cases hsnapshot

/-- **Every parse error keeps the whole input.** On every text, a failure of one of the readers
retains the complete text, reports no value but a contiguous part of it, and returns no snapshot. -/
theorem readers_fail_whole (raw : Str) :
    FailsWhole raw (CpuMax.fromStr raw) ∧
    FailsWhole raw (CpuStat.fromStr raw) ∧
    FailsWhole raw (MemoryStat.fromStr raw) ∧
    FailsWhole raw (MemoryNumaStat.fromStr raw) ∧
    (∀ (Ratio : Type) [ParseCgroup ParsePercent Ratio ParseValueError],
      FailsWhole raw (Pressure.fromStr raw : Parsed (Pressure Ratio))) ∧
    (∀ (Ratio : Type) [ParseCgroup ParseCostPercent Ratio ParseValueError],
      FailsWhole raw (IoStat.fromStr raw : Parsed (IoStat Ratio))) ∧
    FailsWhole raw (IoMax.fromStr raw) ∧
    FailsWhole raw (IoWeight.fromStr raw) ∧
    FailsWhole raw (RdmaCurrent.fromStr raw) ∧
    FailsWhole raw (RdmaMax.fromStr raw) ∧
    FailsWhole raw (RdmaEvents.fromStr raw) ∧
    FailsWhole raw (CgroupStat.fromStr raw) ∧
    FailsWhole raw (MiscEvents.fromStr raw) ∧
    FailsWhole raw (HugetlbNumaStat.fromStr raw) ∧
    FailsWhole raw (CpuList.fromStr raw) ∧
    FailsWhole raw (CpusetPartition.fromStr raw) ∧
    FailsWhole raw (TaskId.parseList raw) := by
  refine ⟨failsWhole (CpuMax.keepsInput raw), failsWhole (CpuStat.keepsInput raw),
    failsWhole (MemoryStat.keepsInput raw), failsWhole (MemoryNumaStat.keepsInput raw),
    fun Ratio _ => failsWhole (Pressure.keepsInput raw),
    fun Ratio _ => failsWhole (IoStat.keepsInput raw), failsWhole (IoMax.keepsInput raw),
    failsWhole (IoWeight.keepsInput raw), failsWhole (RdmaCurrent.keepsInput raw),
    failsWhole (RdmaMax.keepsInput raw), failsWhole (RdmaEvents.keepsInput raw),
    failsWhole (CgroupStat.keepsInput raw), failsWhole (MiscEvents.keepsInput raw),
    failsWhole (HugetlbNumaStat.keepsInput raw), failsWhole (CpuList.keepsInput raw),
    failsWhole (CpusetPartition.keepsInput raw), failsWhole (TaskId.keepsInput raw)⟩

/-- A quota that is no number is reported. -/
theorem readers_fail_whole_quota :
    ∃ error, CpuMax.fromStr "fast 100000\n".toList = .error error ∧
      error.raw = "fast 100000\n".toList ∧ error.value? = some "fast".toList ∧
        "fast".toList <:+: "fast 100000\n".toList := by
  have hfails := (readers_fail_whole "fast 100000\n".toList).1
  exact ⟨_, rfl, hfails.raw_eq _ rfl, rfl, hfails.infix_raw _ _ rfl rfl⟩

end Sakai
