import Sakai.Core.State
import Sakai.Core.Task
import Sakai.Handle.File
import Sakai.Handle.Navigate
import Sakai.Hugetlb.PageSize

/-!
# The interfaces of a cgroup

Every reader names one file in the directory of its handle, reads it and parses what it has read. A
`Reader` is a method that reads, and `Reader.fileName` its file; `Reads` says what a reader returns
for an entry of the directory.

* `Reader.fileName_injective`: no two readers read the same file.
* `Cgroup.parse_eq_iff`: what a reader returns is determined by its own entry.
* `interface_reads`: both of them, and that no other file of the directory matters.
* `Cgroup.kind_eq_ok_iff`, `Cgroup.controllerList_eq_ok_iff`: what the core readers return that
  parse no lines.
-/

namespace Sakai

open Lib Lib.LinkTree

/-! ## The files of the readers -/

/-- A reader whose file has a constant name.
Source: the methods of `Core`, `Cpu`, `Cpuset`, `Dmem`, `Io`, `Memory`, `Swap`, `Zswap`, `Misc`,
`Pids` and `Rdma`, and `Cgroup::irq_pressure`, each under its structure's name. -/
inductive FixedReader
  | coreKind
  | coreControllers
  | coreSubtreeControl
  | coreEvents
  | coreStat
  | coreStatLocal
  | coreProcs
  | coreThreads
  | coreFreeze
  | coreMaxDepth
  | coreMaxDescendants
  | corePressureEnabled
  | cpuStat
  | cpuStatLocal
  | cpuWeight
  | cpuWeightNice
  | cpuMax
  | cpuMaxBurst
  | cpuPressure
  | cpuUclampMin
  | cpuUclampMax
  | cpuIdle
  | cpusetCpus
  | cpusetCpusEffective
  | cpusetCpusExclusive
  | cpusetCpusExclusiveEffective
  | cpusetCpusIsolated
  | cpusetMems
  | cpusetMemsEffective
  | cpusetPartition
  | dmemCapacity
  | dmemCurrent
  | dmemPeak
  | dmemMin
  | dmemLow
  | dmemMax
  | ioStat
  | ioPressure
  | ioWeight
  | ioMax
  | ioLatency
  | ioCostQos
  | ioCostModel
  | ioPriorityClass
  | memoryCurrent
  | memoryPeak
  | memoryStat
  | memoryEvents
  | memoryEventsLocal
  | memoryNumaStat
  | memoryPressure
  | memoryMax
  | memoryHigh
  | memoryLow
  | memoryMin
  | memoryOomGroup
  | swapCurrent
  | swapPeak
  | swapMax
  | swapHigh
  | swapEvents
  | zswapCurrent
  | zswapMax
  | zswapWriteback
  | miscCapacity
  | miscCurrent
  | miscPeak
  | miscMax
  | miscEvents
  | miscEventsLocal
  | pidsCurrent
  | pidsPeak
  | pidsMax
  | pidsEvents
  | pidsEventsLocal
  | rdmaCurrent
  | rdmaMax
  | rdmaPeak
  | rdmaEvents
  | rdmaEventsLocal
  | irqPressure
  deriving DecidableEq, Repr

/-- The file of a reader.
Source: the constant, `FILE_NAME` or one whose name ends so, that the method reads. -/
def FixedReader.file : FixedReader → String
  | coreKind => "cgroup.type"
  | coreControllers => "cgroup.controllers"
  | coreSubtreeControl => "cgroup.subtree_control"
  | coreEvents => "cgroup.events"
  | coreStat => "cgroup.stat"
  | coreStatLocal => "cgroup.stat.local"
  | coreProcs => "cgroup.procs"
  | coreThreads => "cgroup.threads"
  | coreFreeze => "cgroup.freeze"
  | coreMaxDepth => "cgroup.max.depth"
  | coreMaxDescendants => "cgroup.max.descendants"
  | corePressureEnabled => "cgroup.pressure"
  | cpuStat => "cpu.stat"
  | cpuStatLocal => "cpu.stat.local"
  | cpuWeight => "cpu.weight"
  | cpuWeightNice => "cpu.weight.nice"
  | cpuMax => "cpu.max"
  | cpuMaxBurst => "cpu.max.burst"
  | cpuPressure => "cpu.pressure"
  | cpuUclampMin => "cpu.uclamp.min"
  | cpuUclampMax => "cpu.uclamp.max"
  | cpuIdle => "cpu.idle"
  | cpusetCpus => "cpuset.cpus"
  | cpusetCpusEffective => "cpuset.cpus.effective"
  | cpusetCpusExclusive => "cpuset.cpus.exclusive"
  | cpusetCpusExclusiveEffective => "cpuset.cpus.exclusive.effective"
  | cpusetCpusIsolated => "cpuset.cpus.isolated"
  | cpusetMems => "cpuset.mems"
  | cpusetMemsEffective => "cpuset.mems.effective"
  | cpusetPartition => "cpuset.cpus.partition"
  | dmemCapacity => "dmem.capacity"
  | dmemCurrent => "dmem.current"
  | dmemPeak => "dmem.peak"
  | dmemMin => "dmem.min"
  | dmemLow => "dmem.low"
  | dmemMax => "dmem.max"
  | ioStat => "io.stat"
  | ioPressure => "io.pressure"
  | ioWeight => "io.weight"
  | ioMax => "io.max"
  | ioLatency => "io.latency"
  | ioCostQos => "io.cost.qos"
  | ioCostModel => "io.cost.model"
  | ioPriorityClass => "io.prio.class"
  | memoryCurrent => "memory.current"
  | memoryPeak => "memory.peak"
  | memoryStat => "memory.stat"
  | memoryEvents => "memory.events"
  | memoryEventsLocal => "memory.events.local"
  | memoryNumaStat => "memory.numa_stat"
  | memoryPressure => "memory.pressure"
  | memoryMax => "memory.max"
  | memoryHigh => "memory.high"
  | memoryLow => "memory.low"
  | memoryMin => "memory.min"
  | memoryOomGroup => "memory.oom.group"
  | swapCurrent => "memory.swap.current"
  | swapPeak => "memory.swap.peak"
  | swapMax => "memory.swap.max"
  | swapHigh => "memory.swap.high"
  | swapEvents => "memory.swap.events"
  | zswapCurrent => "memory.zswap.current"
  | zswapMax => "memory.zswap.max"
  | zswapWriteback => "memory.zswap.writeback"
  | miscCapacity => "misc.capacity"
  | miscCurrent => "misc.current"
  | miscPeak => "misc.peak"
  | miscMax => "misc.max"
  | miscEvents => "misc.events"
  | miscEventsLocal => "misc.events.local"
  | pidsCurrent => "pids.current"
  | pidsPeak => "pids.peak"
  | pidsMax => "pids.max"
  | pidsEvents => "pids.events"
  | pidsEventsLocal => "pids.events.local"
  | rdmaCurrent => "rdma.current"
  | rdmaMax => "rdma.max"
  | rdmaPeak => "rdma.peak"
  | rdmaEvents => "rdma.events"
  | rdmaEventsLocal => "rdma.events.local"
  | irqPressure => "irq.pressure"

instance : NamedEnum FixedReader where
  all := [
    .coreKind, .coreControllers, .coreSubtreeControl, .coreEvents, .coreStat, .coreStatLocal,
    .coreProcs, .coreThreads, .coreFreeze, .coreMaxDepth, .coreMaxDescendants, .corePressureEnabled,
    .cpuStat, .cpuStatLocal, .cpuWeight, .cpuWeightNice, .cpuMax, .cpuMaxBurst, .cpuPressure,
    .cpuUclampMin, .cpuUclampMax, .cpuIdle, .cpusetCpus, .cpusetCpusEffective, .cpusetCpusExclusive,
    .cpusetCpusExclusiveEffective, .cpusetCpusIsolated, .cpusetMems, .cpusetMemsEffective,
    .cpusetPartition, .dmemCapacity, .dmemCurrent, .dmemPeak, .dmemMin, .dmemLow, .dmemMax, .ioStat,
    .ioPressure, .ioWeight, .ioMax, .ioLatency, .ioCostQos, .ioCostModel, .ioPriorityClass,
    .memoryCurrent, .memoryPeak, .memoryStat, .memoryEvents, .memoryEventsLocal, .memoryNumaStat,
    .memoryPressure, .memoryMax, .memoryHigh, .memoryLow, .memoryMin, .memoryOomGroup, .swapCurrent,
    .swapPeak, .swapMax, .swapHigh, .swapEvents, .zswapCurrent, .zswapMax, .zswapWriteback,
    .miscCapacity, .miscCurrent, .miscPeak, .miscMax, .miscEvents, .miscEventsLocal, .pidsCurrent,
    .pidsPeak, .pidsMax, .pidsEvents, .pidsEventsLocal, .rdmaCurrent, .rdmaMax, .rdmaPeak,
    .rdmaEvents, .rdmaEventsLocal, .irqPressure]
  name := FixedReader.file
  mem_all := by
    intro reader
    cases reader <;> decide +kernel
  nodup_names := by
    decide +kernel

/-- A reader of the files of a size of huge pages.
Source: the methods of `Hugetlb`. -/
inductive HugetlbReader
  | current
  | max
  | reservedCurrent
  | reservedMax
  | events
  | eventsLocal
  | numaStat
  deriving DecidableEq, Repr

/-- The end of the names of its files.
Source: `hugetlb.rs`, the constant, `SUFFIX` or `LOCAL_SUFFIX`, that the method reads. -/
def HugetlbReader.suffix : HugetlbReader → String
  | current => "current"
  | max => "max"
  | reservedCurrent => "rsvd.current"
  | reservedMax => "rsvd.max"
  | events => "events"
  | eventsLocal => "events.local"
  | numaStat => "numa_stat"

instance : NamedEnum HugetlbReader where
  all := [.current, .max, .reservedCurrent, .reservedMax, .events, .eventsLocal, .numaStat]
  name := HugetlbReader.suffix
  mem_all := by
    intro reader
    cases reader <;> decide
  nodup_names := by
    decide

/-- A reader of a cgroup. -/
inductive Reader
  | fixed (reader : FixedReader)
  | hugetlb (reader : HugetlbReader) (size : PageSize)
  deriving DecidableEq

namespace Reader

/-- The name of the file that a reader reads. -/
def fileName : Reader → Str
  | fixed reader => reader.file.toList
  | hugetlb reader size => size.fileName reader.suffix.toList

/-- The name is a plain one: no separator, no NUL and no dot at its start. -/
def isPlain (name : Str) : Bool :=
  !name.contains '/' && !name.contains (Char.ofNat 0) && name.head?.any (· ≠ '.')

/-- A constant name is plain, and not that of a HugeTLB file. -/
lemma file_check (reader : FixedReader) :
    (isPlain reader.file.toList && !"hugetlb.".toList.isPrefixOf reader.file.toList) = true := by
  cases reader <;> decide +kernel

/-- The end of the name of a HugeTLB file is plain, and listed. -/
lemma suffix_check (reader : HugetlbReader) :
    isPlain reader.suffix.toList = true ∧ reader.suffix ∈ PageSize.suffixes := by
  cases reader <;> decide +kernel

/-- What a plain name is. -/
lemma isPlain_iff {name : Str} :
    isPlain name = true ↔
      '/' ∉ name ∧ Char.ofNat 0 ∉ name ∧ ∃ c rest, name = c :: rest ∧ c ≠ '.' := by
  unfold isPlain
  cases name with
  | nil => simp
  | cons c rest => simp [and_assoc]

/-- The name of a file is plain. -/
lemma isPlain_fileName (i : Reader) : isPlain i.fileName = true := by
  cases i with
  | fixed reader => exact (Bool.and_eq_true_iff.mp (file_check reader)).1
  | hugetlb reader size =>
      obtain ⟨hsep, hnul, -⟩ := isPlain_iff.mp (suffix_check reader).1
      refine isPlain_iff.mpr ⟨size.not_mem_fileName hsep, ?_, 'h', _, rfl, by decide⟩
      unfold fileName PageSize.fileName
      simp only [List.mem_append, List.mem_cons, not_or]
      exact ⟨by decide, size.not_mem_display (by decide) (by decide), by decide, hnul⟩

/-- **The name of a file is one path component.** -/
lemma components_fileName (i : Reader) :
    Path.components i.fileName = [.normal i.fileName] := by
  obtain ⟨hsep, -, c, rest, hname, hdot⟩ := isPlain_iff.mp i.isPlain_fileName
  refine Path.components_of_not_mem hsep ?_ ?_ ?_
  · rw [hname]
    exact List.cons_ne_nil c rest
  · rw [hname]
    intro h
    exact hdot (List.cons.inj h).1
  · rw [hname]
    intro h
    exact hdot (List.cons.inj h).1

/-- The name of a file is a single one. -/
lemma single (i : Reader) : Single i.fileName :=
  ⟨(isPlain_iff.mp i.isPlain_fileName).1, i.components_fileName⟩

/-- The name of a file holds no NUL. -/
lemma nul_not_mem_fileName (i : Reader) : Char.ofNat 0 ∉ i.fileName :=
  (isPlain_iff.mp i.isPlain_fileName).2.1

/-- A constant name is not that of a HugeTLB file. -/
lemma ne_fileName_hugetlb (reader : FixedReader) (size : PageSize) (suffix : Str) :
    reader.file.toList ≠ size.fileName suffix := by
  intro h
  have hcheck := (Bool.and_eq_true_iff.mp (file_check reader)).2
  have hprefix : "hugetlb.".toList <+: reader.file.toList := by
    rw [h]
    exact List.prefix_append _ _
  rw [List.isPrefixOf_iff_prefix.mpr hprefix] at hcheck
  cases hcheck

/-- **No two readers read the same file.** -/
theorem fileName_injective : Function.Injective fileName := by
  intro i j h
  cases i with
  | fixed reader =>
      cases j with
      | fixed reader' =>
          have hreader : NamedEnum.key reader = NamedEnum.key reader' := h
          rw [NamedEnum.key_injective hreader]
      | hugetlb reader' size => exact absurd h (ne_fileName_hugetlb reader size _)
  | hugetlb reader size =>
      cases j with
      | fixed reader' => exact absurd h.symm (ne_fileName_hugetlb reader' size _)
      | hugetlb reader' size' =>
          obtain ⟨rfl, hsuffix⟩ := PageSize.fileName_inj h
          have hreader : NamedEnum.key reader = NamedEnum.key reader' := hsuffix
          rw [NamedEnum.key_injective hreader]

end Reader

/-! ## Reading -/

/-- A file of the cgroup filesystem: what the kernel shows, or the error with which it refuses a
read. -/
abbrev Shown := Except Errno ByteArray

/-- `openat` with `RDONLY` and `NOFOLLOW`. A path with a NUL is no argument of the call.
Source: `file.rs`, the call of `openat` in `read_file`. -/
def openatShown (place : Place Shown) (path : Str) : Except Errno (Found Shown) :=
  if Char.ofNat 0 ∈ path then .error .INVAL else (openAt maxLinks place path).mapError errnoOf

/-- `read_to_string`: what is shown must be text in UTF-8. A directory is not read.
Source: `file.rs`, the call of `read_to_string` in `read_file`. -/
def readShown : Found Shown → Except IoError String
  | .directory _ => .error (.os .ISDIR)
  | .file (.error errno) => .error (.os errno)
  | .file (.ok content) => match String.fromUTF8? content with
    | some contents => .ok contents
    | none => .error .other

/-- The error of a failed interface read. An error that is none of the system's is of no kind that
is told apart.
Source: `error.rs`, `Error::read`. -/
def Error.ofRead (path : Str) : IoError → Error
  | .os errno => Error.read path errno
  | source => .operation "read interface" path source

/-- The error of a reader: a failed operation, or contents that do not parse.
Source: `error.rs`, `Error`, of which `Error::Parse` holds the path and the parser's error. -/
inductive ReadError (E : Type)
  | cgroup (error : Error)
  | parse (path : Str) (source : E)

namespace Cgroup

variable {E T : Type} (self : Cgroup (Place Shown))

/-- Source: `handle.rs`, `Cgroup::read`. -/
def read (file : Str) : Except Error String :=
  (readFile (m := Id) (openatShown self.directory) readShown file).mapError
    (Error.ofRead (Path.join self.path file))

/-- Source: `handle.rs`, `Cgroup::parse`. -/
def parse (fromStr : Str → Except E T) (file : Str) : Except (ReadError E) T := do
  let contents ← (self.read file).mapError .cgroup
  (fromStr contents.toList).mapError (.parse (Path.join self.path file))

end Cgroup

/-- **What a reader returns** for an entry of the directory, under the path of the interface. -/
inductive Reads {E T : Type} (fromStr : Str → Except E T) (path : Str) :
    Option (LinkTree Shown) → Except (ReadError E) T → Prop
  /-- There is no entry. -/
  | missing : Reads fromStr path none (.error (.cgroup (.fileMissing path)))
  /-- A link is not followed. -/
  | symlink (target : Str) : Reads fromStr path (some (.symlink target))
      (.error (.cgroup (.operation "read interface" path (.os .LOOP))))
  /-- A directory is not read. -/
  | directory (entries : List (Str × LinkTree Shown)) :
      Reads fromStr path (some (.directory entries))
        (.error (.cgroup (.operation "read interface" path (.os .ISDIR))))
  /-- The kernel refuses the read. -/
  | refused (errno : Errno) :
      Reads fromStr path (some (.file (.error errno))) (.error (.cgroup (Error.read path errno)))
  /-- The contents are no text. -/
  | binary {content : ByteArray} (h : ∀ contents : String, contents.toUTF8 ≠ content) :
      Reads fromStr path (some (.file (.ok content)))
        (.error (.cgroup (.operation "read interface" path .other)))
  /-- The contents do not parse. -/
  | invalid {content : ByteArray} {contents : String} {source : E}
      (htext : contents.toUTF8 = content) (h : fromStr contents.toList = .error source) :
      Reads fromStr path (some (.file (.ok content))) (.error (.parse path source))
  /-- The contents parse. -/
  | value {content : ByteArray} {contents : String} {v : T} (htext : contents.toUTF8 = content)
      (h : fromStr contents.toList = .ok v) :
      Reads fromStr path (some (.file (.ok content))) (.ok v)

section reading

variable {E T : Type} {fromStr : Str → Except E T} {path : Str}

/-- A text is known by its bytes. -/
lemma toUTF8_injective {a b : String} (h : a.toUTF8 = b.toUTF8) : a = b := by
  have ha := fromUTF8?_eq_some_iff.mpr h
  rw [fromUTF8?_eq_some_iff.mpr rfl] at ha
  exact (Option.some.inj ha).symm

/-- An entry has one result. -/
lemma Reads.unique {entry : Option (LinkTree Shown)} {r r' : Except (ReadError E) T}
    (h : Reads fromStr path entry r) (h' : Reads fromStr path entry r') : r = r' := by
  cases h with
  | missing =>
      cases h'
      rfl
  | symlink target =>
      cases h'
      rfl
  | directory entries =>
      cases h'
      rfl
  | refused errno =>
      cases h'
      rfl
  | binary hbinary =>
      cases h' with
      | binary hbinary' => rfl
      | invalid htext' _ => exact absurd htext' (hbinary _)
      | value htext' _ => exact absurd htext' (hbinary _)
  | invalid htext hparse =>
      cases h' with
      | binary hbinary' => exact absurd htext (hbinary' _)
      | invalid htext' hparse' =>
          obtain rfl := toUTF8_injective (htext.trans htext'.symm)
          rw [hparse] at hparse'
          cases hparse'
          rfl
      | value htext' hparse' =>
          obtain rfl := toUTF8_injective (htext.trans htext'.symm)
          rw [hparse] at hparse'
          cases hparse'
  | value htext hparse =>
      cases h' with
      | binary hbinary' => exact absurd htext (hbinary' _)
      | invalid htext' hparse' =>
          obtain rfl := toUTF8_injective (htext.trans htext'.symm)
          rw [hparse] at hparse'
          cases hparse'
      | value htext' hparse' =>
          obtain rfl := toUTF8_injective (htext.trans htext'.symm)
          rw [hparse] at hparse'
          cases hparse'
          rfl

/-- What opening an entry of a directory gives: a link is refused. -/
def opened (place : Place Shown) : Option (LinkTree Shown) → Except Errno (Found Shown)
  | none => .error .NOENT
  | some (.directory entries) => .ok (.directory (place.enter entries))
  | some (.file shown) => .ok (.file shown)
  | some (.symlink _) => .error .LOOP

/-- The file of an interface is opened as the entry of the directory. -/
lemma openatShown_fileName (place : Place Shown) (i : Reader) :
    openatShown place i.fileName = opened place (place.entries.lookup i.fileName) := by
  have hcomponents := i.components_fileName
  obtain ⟨-, -, ⟨hne, hdot, hup⟩, -⟩ := pieces_of_components hcomponents
  unfold openatShown
  rw [if_neg i.nul_not_mem_fileName, openAt_of_components hcomponents, i.single.pieces]
  unfold resolve
  rw [if_neg (not_or.mpr ⟨hne, hdot⟩), if_neg hup]
  rcases place.entries.lookup i.fileName with _ | shown | entries | target
  · rfl
  · simp only [if_true]
    rfl
  · unfold resolve
    rfl
  · simp only [if_true]
    rfl

/-- The file of an interface is opened, and what is open is read. -/
lemma readFile_fileName (place : Place Shown) (i : Reader) :
    readFile (m := Id) (openatShown place) readShown i.fileName =
      ((opened place (place.entries.lookup i.fileName)).mapError .os >>= readShown) := by
  unfold readFile
  rw [i.components_fileName, ← openatShown_fileName]
  cases openatShown place i.fileName <;> rfl

/-- A reader returns what its entry gives. -/
lemma Cgroup.reads_parse (self : Cgroup (Place Shown)) (i : Reader) :
    Reads fromStr (Path.join self.path i.fileName) (self.directory.entries.lookup i.fileName)
      (self.parse fromStr i.fileName) := by
  unfold Cgroup.parse Cgroup.read
  rw [readFile_fileName]
  rcases self.directory.entries.lookup i.fileName with _ | (errno | content) | entries | target
  · exact .missing
  · exact .refused errno
  · rcases hdecode : String.fromUTF8? content with _ | contents
    · have hbinary : ∀ contents : String, contents.toUTF8 ≠ content := by
        intro contents htext
        rw [fromUTF8?_eq_some_iff.mpr htext] at hdecode
        cases hdecode
      have hread : readShown (.file (.ok content)) = .error .other := by
        simp only [readShown, hdecode]
      simp only [opened, Except.mapError, ok_bind, hread]
      exact .binary hbinary
    · have hread : readShown (.file (.ok content)) = .ok contents := by
        simp only [readShown, hdecode]
      have htext := fromUTF8?_eq_some_iff.mp hdecode
      simp only [opened, Except.mapError, ok_bind, hread]
      rcases hparse : fromStr contents.toList with source | v
      · exact .invalid htext hparse
      · exact .value htext hparse
  · exact .directory entries
  · exact .symlink target

/-- **What a reader returns is what its entry gives**, and nothing else. -/
theorem Cgroup.parse_eq_iff {self : Cgroup (Place Shown)} {i : Reader}
    {r : Except (ReadError E) T} :
    self.parse fromStr i.fileName = r ↔
      Reads fromStr (Path.join self.path i.fileName) (self.directory.entries.lookup i.fileName)
        r := by
  constructor
  · rintro rfl
    exact self.reads_parse i
  · exact (self.reads_parse i).unique

/-- The path of an interface ends with its file. -/
lemma Reader.components_join (i : Reader) (path : Str) :
    Path.components (Path.join path i.fileName) =
      Path.components path ++ [.normal i.fileName] := by
  rw [Path.components_join path i.single.startOf, i.components_fileName]

end reading

/-! ## The core readers -/

/-- A cgroup's topology state.
Source: `core.rs`, `CgroupType`. -/
inductive CgroupType
  | domain
  | domainThreaded
  | domainInvalid
  | threaded
  deriving DecidableEq, Repr

namespace CgroupType

/-- The name of a state.
Source: `core.rs`, the `serialize` attributes of `CgroupType`. -/
def name : CgroupType → String
  | domain => "domain"
  | domainThreaded => "domain threaded"
  | domainInvalid => "domain invalid"
  | threaded => "threaded"

instance : NamedEnum CgroupType where
  all := [domain, domainThreaded, domainInvalid, threaded]
  name := name
  mem_all := by
    intro kind
    cases kind <;> decide
  nodup_names := by
    decide

end CgroupType

namespace Cgroup

variable (self : Cgroup (Place Shown))

/-- The state of a cgroup; the error keeps the contents.
Source: `core.rs`, `Core::kind`. -/
def kind : Except (ReadError Str) CgroupType := do
  let contents ← (self.read "cgroup.type".toList).mapError .cgroup
  match NamedEnum.fromStr? (trim contents.toList) with
  | some kind => .ok kind
  | none => .error (.parse (Path.join self.path "cgroup.type".toList) contents.toList)

/-- Source: `core.rs`, `Core::controller_list`. -/
def controllerList (file : Str) : Except Error (List CgroupController) :=
  (self.read file).map fun contents =>
    (splitAsciiWhitespace contents.toList).map CgroupController.ofName

/-- Source: `core.rs`, `Core::controllers`. -/
def controllers : Except Error (List CgroupController) :=
  self.controllerList "cgroup.controllers".toList

/-- Source: `core.rs`, `Core::subtree_control`. -/
def subtreeControl : Except Error (List CgroupController) :=
  self.controllerList "cgroup.subtree_control".toList

/-- Source: `core.rs`, `Core::task_ids`. -/
def taskIds (file : Str) : Except (ReadError (ParseError ParseValueError)) (List TaskId) := do
  let contents ← (self.read file).mapError .cgroup
  (TaskId.parseList contents.toList).mapError (.parse (Path.join self.path file))

/-- Source: `core.rs`, `Core::procs`. -/
def procs : Except (ReadError (ParseError ParseValueError)) (List TaskId) :=
  self.taskIds "cgroup.procs".toList

/-- Source: `core.rs`, `Core::threads`. -/
def threads : Except (ReadError (ParseError ParseValueError)) (List TaskId) :=
  self.taskIds "cgroup.threads".toList

variable {self}

/-- What is read is the text of the file. -/
lemma read_eq_ok_iff {i : Reader} {contents : String} :
    self.read i.fileName = .ok contents ↔
      self.directory.entries.lookup i.fileName = some (.file (.ok contents.toUTF8)) := by
  unfold read
  rw [mapError_eq_ok, readFile_fileName]
  rcases self.directory.entries.lookup i.fileName with _ | (errno | content) | entries | target
  · simp [opened, Except.mapError]
  · simp [opened, Except.mapError, readShown]
  · simp only [opened, Except.mapError, ok_bind, Option.some.injEq, LinkTree.file.injEq,
      Except.ok.injEq]
    rw [eq_comm (a := content), ← fromUTF8?_eq_some_iff]
    rcases hdecode : String.fromUTF8? content with _ | text
    · simp [readShown, hdecode]
    · simp [readShown, hdecode]
  · simp [opened, Except.mapError, readShown]
  · simp [opened, Except.mapError]

/-- The state of a cgroup is what its file names, white space around it aside. -/
lemma kind_eq_ok_iff {kind : CgroupType} :
    self.kind = .ok kind ↔
      ∃ contents : String,
        self.directory.entries.lookup "cgroup.type".toList = some (.file (.ok contents.toUTF8)) ∧
        trim contents.toList = NamedEnum.key kind := by
  unfold Cgroup.kind
  simp only [bind_eq_ok, mapError_eq_ok]
  refine exists_congr fun contents => and_congr (read_eq_ok_iff (i := .fixed .coreKind)) ?_
  rw [eq_comm (b := NamedEnum.key kind), ← NamedEnum.fromStr?_eq_some_iff]
  rcases NamedEnum.fromStr? (F := CgroupType) (trim contents.toList) with _ | found
  · simp
  · simp

/-- **The controllers of a list** are displayed as the words of the file, in their order. -/
lemma controllerList_eq_ok_iff {i : Reader} {controllers : List CgroupController} :
    self.controllerList i.fileName = .ok controllers ↔
      ∃ contents : String,
        self.directory.entries.lookup i.fileName = some (.file (.ok contents.toUTF8)) ∧
        controllers.map CgroupController.display = splitAsciiWhitespace contents.toList ∧
        ∀ controller ∈ controllers, CgroupController.ofName controller.display = controller := by
  unfold controllerList
  simp only [map_eq_ok, read_eq_ok_iff]
  refine exists_congr fun contents => and_congr_right fun _ => ?_
  constructor
  · rintro rfl
    refine ⟨?_, fun controller hmem => ?_⟩
    · rw [List.map_map]
      exact List.map_id'' CgroupController.display_ofName _
    · obtain ⟨name, -, rfl⟩ := List.mem_map.mp hmem
      rw [CgroupController.display_ofName]
  · rintro ⟨hwords, hnamed⟩
    rw [← hwords, List.map_map]
    exact (List.map_congr_left hnamed).trans (List.map_id controllers)

end Cgroup

/-- **Readers and their files.** Every reader has a file of its own, which is one component beneath
the path of the handle. What a reader returns is one of seven results, determined by the entry of
its file: it is missing, a link or a directory, the kernel refuses the read, the contents are no
text, they do not parse, or they do. So a handle of the same path whose directory has the same
entries but for the file of another reader reads the same. The state of a cgroup is the one that its
file names, and its controllers are displayed as the words of their file, in order. -/
theorem interface_reads (self : Cgroup (Place Shown)) (i : Reader) (E T : Type)
    (fromStr : Str → Except E T) :
    (∀ r, self.parse fromStr i.fileName = r ↔
      Reads fromStr (Path.join self.path i.fileName) (self.directory.entries.lookup i.fileName)
        r) ∧
    Path.components (Path.join self.path i.fileName) =
      Path.components self.path ++ [.normal i.fileName] ∧
    (∀ (j : Reader) (other : Cgroup (Place Shown)), j ≠ i → other.path = self.path →
      (∀ name, name ≠ j.fileName →
        other.directory.entries.lookup name = self.directory.entries.lookup name) →
      other.read i.fileName = self.read i.fileName ∧
        other.parse fromStr i.fileName = self.parse fromStr i.fileName) ∧
    (∀ kind, self.kind = .ok kind ↔ ∃ contents : String,
      self.directory.entries.lookup "cgroup.type".toList = some (.file (.ok contents.toUTF8)) ∧
        trim contents.toList = NamedEnum.key kind) ∧
    ∀ controllers, self.controllerList i.fileName = .ok controllers ↔ ∃ contents : String,
      self.directory.entries.lookup i.fileName = some (.file (.ok contents.toUTF8)) ∧
        controllers.map CgroupController.display = splitAsciiWhitespace contents.toList ∧
        ∀ controller ∈ controllers,
          CgroupController.ofName controller.display = controller := by
  refine ⟨fun r => Cgroup.parse_eq_iff, i.components_join self.path,
    fun j other hne hpath hsame => ?_, fun kind => Cgroup.kind_eq_ok_iff,
    fun controllers => Cgroup.controllerList_eq_ok_iff⟩
  have hentry := hsame i.fileName fun hname => hne (Reader.fileName_injective hname).symm
  constructor
  · unfold Cgroup.read
    rw [readFile_fileName, readFile_fileName, hentry, hpath]
    cases self.directory.entries.lookup i.fileName with
    | none => rfl
    | some entry => cases entry <;> rfl
  · rw [Cgroup.parse_eq_iff, hpath, hentry]
    exact self.reads_parse i

/-- The kernel does not list the processes of a threaded cgroup. -/
example (self : Cgroup (Place Shown))
    (h : self.directory.entries.lookup "cgroup.procs".toList =
      some (.file (.error .OPNOTSUPP))) :
    self.procs = .error (.cgroup
      (.notSupported (Path.join self.path "cgroup.procs".toList) (.os .OPNOTSUPP))) := by
  have hreads : Reads TaskId.parseList _ _ self.procs :=
    self.reads_parse (.fixed .coreProcs)
  exact hreads.unique (h ▸ Reads.refused .OPNOTSUPP)

/-- A cgroup of the processes that its file shows. -/
def domainOf (procs : String) : Cgroup (Place Shown) where
  directory := ⟨[("cgroup.type".toList, .file (.ok "domain\n".toUTF8)),
    ("cgroup.procs".toList, .file (.ok procs.toUTF8))], []⟩
  path := "/sys/fs/cgroup/system.slice".toList

/-- The state of a cgroup does not depend on its processes. -/
theorem interface_reads_apart :
    (domainOf "").read "cgroup.type".toList = (domainOf "1\n").read "cgroup.type".toList ∧
      (domainOf "").kind = .ok .domain := by
  obtain ⟨-, -, hapart, -⟩ :=
    interface_reads (domainOf "1\n") (.fixed .coreKind) ParseValueError Unit fun _ => .ok ()
  obtain ⟨-, -, -, hkind, -⟩ :=
    interface_reads (domainOf "") (.fixed .coreKind) ParseValueError Unit fun _ => .ok ()
  refine ⟨(hapart (.fixed .coreProcs) (domainOf "") (by decide) rfl fun name hname => ?_).1,
    (hkind _).mpr ⟨"domain\n", rfl, by decide⟩⟩
  have hother : (name == "cgroup.procs".toList) = false := beq_false_of_ne hname
  simp only [domainOf, List.lookup_cons, hother]

end Sakai
