import Sakai.Handle.Interface
import Sakai.Lib.Machine
import Sakai.Lib.Slots

/-!
# Registering a configuration watch

A registration opens the interface in the pinned directory, makes an inotify instance, and adds a
watch on what its own descriptor of the interface refers to. A `Registry` is the descriptors of a
process with any number of registrations; meanwhile entries are made, replaced and removed, and the
program opens and closes other descriptors. The kernel may give any free number to a descriptor.

* `ConfigurationInterface.file_reader`, `EventInterface.file_reader`: every selector is the file of
  a reader.
* `Registry.Step.of_step`: what each action does.
* `Registry.step_inv`: every action keeps the invariant `Registry.Inv`.
* `Registry.step_traces`: what a registration returns is what its own system calls say.
* `registration_run`: so every watch is on the one file that the name named during the call, the
  error of a failed call is that of its last system call, and descriptors are neither leaked nor
  crossed.
-/

namespace Sakai

open Lib

/-! ## Selectors -/

/-- An interface with event notifications.
Source: `notification.rs`, `EventInterface`. -/
inductive EventInterface
  | cgroupEvents
  | memoryEvents
  | memoryEventsLocal
  | memorySwapEvents
  | pidsEvents
  | cpusetCpusPartition
  deriving DecidableEq, Repr

/-- Source: `notification.rs`, the `serialize` attributes of `EventInterface`. -/
def EventInterface.filename : EventInterface → String
  | cgroupEvents => "cgroup.events"
  | memoryEvents => "memory.events"
  | memoryEventsLocal => "memory.events.local"
  | memorySwapEvents => "memory.swap.events"
  | pidsEvents => "pids.events"
  | cpusetCpusPartition => "cpuset.cpus.partition"

instance : NamedEnum EventInterface where
  all := [.cgroupEvents, .memoryEvents, .memoryEventsLocal, .memorySwapEvents, .pidsEvents,
    .cpusetCpusPartition]
  name := EventInterface.filename
  mem_all := by
    intro i
    cases i <;> decide
  nodup_names := by
    decide

/-- An interface whose writes can be watched.
Source: `notification.rs`, `ConfigurationInterface`. -/
inductive ConfigurationInterface
  | cgroupType
  | cgroupSubtreeControl
  | cpuMax
  | cpuWeight
  | cpuUclampMax
  | cpuUclampMin
  | cpuMaxBurst
  | cpuWeightNice
  | cpuIdle
  | memoryMax
  | memoryHigh
  | memoryLow
  | memoryMin
  | memoryOomGroup
  | memorySwapMax
  | memorySwapHigh
  | memoryZswapMax
  | memoryZswapWriteback
  | pidsMax
  | ioWeight
  | ioMax
  | ioLatency
  | cpusetCpus
  | cpusetMems
  | cpusetCpusPartition
  deriving DecidableEq, Repr

/-- Source: `notification.rs`, the `serialize` attributes of `ConfigurationInterface`. -/
def ConfigurationInterface.filename : ConfigurationInterface → String
  | cgroupType => "cgroup.type"
  | cgroupSubtreeControl => "cgroup.subtree_control"
  | cpuMax => "cpu.max"
  | cpuWeight => "cpu.weight"
  | cpuUclampMax => "cpu.uclamp.max"
  | cpuUclampMin => "cpu.uclamp.min"
  | cpuMaxBurst => "cpu.max.burst"
  | cpuWeightNice => "cpu.weight.nice"
  | cpuIdle => "cpu.idle"
  | memoryMax => "memory.max"
  | memoryHigh => "memory.high"
  | memoryLow => "memory.low"
  | memoryMin => "memory.min"
  | memoryOomGroup => "memory.oom.group"
  | memorySwapMax => "memory.swap.max"
  | memorySwapHigh => "memory.swap.high"
  | memoryZswapMax => "memory.zswap.max"
  | memoryZswapWriteback => "memory.zswap.writeback"
  | pidsMax => "pids.max"
  | ioWeight => "io.weight"
  | ioMax => "io.max"
  | ioLatency => "io.latency"
  | cpusetCpus => "cpuset.cpus"
  | cpusetMems => "cpuset.mems"
  | cpusetCpusPartition => "cpuset.cpus.partition"

instance : NamedEnum ConfigurationInterface where
  all := [.cgroupType, .cgroupSubtreeControl, .cpuMax, .cpuWeight, .cpuUclampMax, .cpuUclampMin,
    .cpuMaxBurst, .cpuWeightNice, .cpuIdle, .memoryMax, .memoryHigh, .memoryLow, .memoryMin,
    .memoryOomGroup, .memorySwapMax, .memorySwapHigh, .memoryZswapMax, .memoryZswapWriteback,
    .pidsMax, .ioWeight, .ioMax, .ioLatency, .cpusetCpus, .cpusetMems, .cpusetCpusPartition]
  name := ConfigurationInterface.filename
  mem_all := by
    intro i
    cases i <;> decide
  nodup_names := by
    decide +kernel

/-- The reader of a configuration file. -/
def ConfigurationInterface.reader : ConfigurationInterface → FixedReader
  | cgroupType => .coreKind
  | cgroupSubtreeControl => .coreSubtreeControl
  | cpuMax => .cpuMax
  | cpuWeight => .cpuWeight
  | cpuUclampMax => .cpuUclampMax
  | cpuUclampMin => .cpuUclampMin
  | cpuMaxBurst => .cpuMaxBurst
  | cpuWeightNice => .cpuWeightNice
  | cpuIdle => .cpuIdle
  | memoryMax => .memoryMax
  | memoryHigh => .memoryHigh
  | memoryLow => .memoryLow
  | memoryMin => .memoryMin
  | memoryOomGroup => .memoryOomGroup
  | memorySwapMax => .swapMax
  | memorySwapHigh => .swapHigh
  | memoryZswapMax => .zswapMax
  | memoryZswapWriteback => .zswapWriteback
  | pidsMax => .pidsMax
  | ioWeight => .ioWeight
  | ioMax => .ioMax
  | ioLatency => .ioLatency
  | cpusetCpus => .cpusetCpus
  | cpusetMems => .cpusetMems
  | cpusetCpusPartition => .cpusetPartition

/-- **A configuration file is the file of a reader.** -/
lemma ConfigurationInterface.file_reader (i : ConfigurationInterface) :
    i.reader.file = i.filename := by
  cases i <;> rfl

/-- The reader of an event file. -/
def EventInterface.reader : EventInterface → FixedReader
  | cgroupEvents => .coreEvents
  | memoryEvents => .memoryEvents
  | memoryEventsLocal => .memoryEventsLocal
  | memorySwapEvents => .swapEvents
  | pidsEvents => .pidsEvents
  | cpusetCpusPartition => .cpusetPartition

/-- **An event file is the file of a reader.** -/
lemma EventInterface.file_reader (i : EventInterface) : i.reader.file = i.filename := by
  cases i <;> rfl

/-! ## The system -/

/-- What a descriptor refers to: a file, an inotify instance, or something else. -/
inductive Opened
  | file (inode : ℕ)
  | inotify (queue : ℕ)
  | other
  deriving DecidableEq, Repr

/-- What the program opens: a file or something else. -/
def Opened.ofFile : Option ℕ → Opened
  | some inode => .file inode
  | none => .other

/-- Where a registration stands: before the system call that it makes next, with the descriptors
that it has; returned, with the descriptor of the watcher; or its watcher is dropped.
Source: `notification.rs`, `ConfigurationWatcher::open`. -/
inductive RegisterPhase
  | idle
  | openat
  | init (file : ℕ)
  | addWatch (file descriptor : ℕ)
  | close (numbers : List ℕ) (result : Except Error ℕ)
  | returned (result : Except Error ℕ)
  | dropped
  deriving DecidableEq, Repr

/-- The call is in progress. -/
def RegisterPhase.inCall : RegisterPhase → Bool
  | .idle | .returned _ | .dropped => false
  | _ => true

/-- The files, and the descriptors of a process with its registrations. -/
structure Registry (P : Type) where
  /-- The entries of the directories. -/
  entries : ℕ → Str → Option ℕ
  /-- The descriptors, each with the registration that it belongs to, if any. -/
  table : Slots ℕ Opened (Option P)
  /-- What the program has open for itself. -/
  program : ℕ → Option (Option ℕ)
  /-- What each inotify instance watches. -/
  watches : ℕ → List Opened
  /-- How many inotify instances were made. -/
  made : ℕ
  /-- Where each registration stands. -/
  phase : P → RegisterPhase
  /-- The files that the name has named during the call. -/
  named : P → List ℕ

/-- What happens: a registration makes its next system call, with the outcome; a watcher is dropped;
an entry is made, replaced or removed; or the program opens or closes a descriptor. -/
inductive RegisterAction (P : Type)
  | call (p : P)
  | openat (p : P) (outcome : Except Errno ℕ)
  | init (p : P) (outcome : Except Errno ℕ)
  | addWatch (p : P) (outcome : Except Errno Unit)
  | close (p : P)
  | drop (p : P)
  | change (directory : ℕ) (name : Str) (entry : Option ℕ)
  | take (number : ℕ) (file : Option ℕ)
  | release (number : ℕ)
  deriving DecidableEq

/-- The action is a system call of `open`, other than a close, for this registration. -/
def RegisterAction.opens {P : Type} [DecidableEq P] (p : P) : RegisterAction P → Bool
  | .openat q _ | .init q _ | .addWatch q _ => q = p
  | _ => false

/-- The system calls of a registration with their outcomes, and what `open` returns after them: the
first one that fails is the last one, and its error is returned, with the path of the interface when
it is the `openat`. -/
inductive Opening {P : Type} (path : Str) (p : P) :
    List (RegisterAction P) → Except Error ℕ → Prop
  /-- There is no such interface. -/
  | missing : Opening path p [.openat p (.error .NOENT)] (.error (.fileMissing path))
  /-- The kernel does not support the interface. -/
  | unsupported {errno : Errno} (herrno : errno = .NOSYS ∨ errno = .OPNOTSUPP) :
      Opening path p [.openat p (.error errno)] (.error (.notSupported path (.os errno)))
  /-- The interface cannot be opened for another reason. -/
  | refused {errno : Errno} (hfound : errno ≠ .NOENT)
      (hsupported : ¬(errno = .NOSYS ∨ errno = .OPNOTSUPP)) :
      Opening path p [.openat p (.error errno)]
        (.error (.operation "read interface" path (.os errno)))
  /-- No inotify instance can be made. -/
  | unmade (file : ℕ) (errno : Errno) :
      Opening path p [.openat p (.ok file), .init p (.error errno)] (.error (.io (.os errno)))
  /-- No watch can be added. -/
  | unwatched (file descriptor : ℕ) (errno : Errno) :
      Opening path p
        [.openat p (.ok file), .init p (.ok descriptor), .addWatch p (.error errno)]
        (.error (.io (.os errno)))
  /-- All of them succeed, and the watcher has the descriptor of the instance. -/
  | watching (file descriptor : ℕ) :
      Opening path p [.openat p (.ok file), .init p (.ok descriptor), .addWatch p (.ok ())]
        (.ok descriptor)

namespace Registry

variable {P : Type} [DecidableEq P]

/-- A process without registrations, with whatever files and descriptors are there. -/
def start (entries : ℕ → Str → Option ℕ) (program : ℕ → Option (Option ℕ)) : Registry P where
  entries := entries
  table n := (program n).map fun file => ⟨.ofFile file, none⟩
  program := program
  watches _ := []
  made := 0
  phase _ := .idle
  named _ := []

/-- The registration goes on. -/
def go (s : Registry P) (p : P) (phase : RegisterPhase) : Registry P :=
  { s with phase := Function.update s.phase p phase }

section step

variable (handle : P → Cgroup ℕ) (interface : P → ConfigurationInterface) (symlink : ℕ → Bool)

/-- The path of the interface. -/
def path (p : P) : Str := Path.join (handle p).path (interface p).filename.toList

omit [DecidableEq P] in
/-- What the name of the interface names in the pinned directory. -/
def target (s : Registry P) (p : P) : Option ℕ :=
  s.entries (handle p).directory (interface p).filename.toList

/-- An entry changes, which the calls in progress on this name may see. -/
def change (s : Registry P) (directory : ℕ) (name : Str) (entry : Option ℕ) : Registry P :=
  { s with
    entries := fun d n => if d = directory ∧ n = name then entry else s.entries d n
    named := fun p =>
      if (s.phase p).inCall = true ∧ (handle p).directory = directory ∧
        (interface p).filename.toList = name then s.named p ++ entry.toList
      else s.named p }

/-- The state after an action, when it is possible: `openat` follows no link, a new descriptor has a
free number, and the path of a descriptor under `/proc` leads to what the descriptor refers to.
Source: `notification.rs`, `ConfigurationWatcher::open`. -/
def step (s : Registry P) : RegisterAction P → Option (Registry P)
  | .call p =>
    match s.phase p with
    | .idle => some { s.go p .openat with
        named := Function.update s.named p (s.target handle interface p).toList }
    | _ => none
  | .openat p outcome =>
    match s.phase p, outcome with
    | .openat, .error errno =>
      some (s.go p (.returned (.error (Error.read (path handle interface p) errno))))
    | .openat, .ok n =>
      match s.target handle interface p with
      | some i =>
        if symlink i || (s.table n).isSome then none
        else some { s.go p (.init n) with table := s.table.put n (.file i) (some p) }
      | none => none
    | _, _ => none
  | .init p outcome =>
    match s.phase p, outcome with
    | .init file, .error errno => some (s.go p (.close [file] (.error (.io (.os errno)))))
    | .init file, .ok n =>
      if (s.table n).isSome then none
      else some { s.go p (.addWatch file n) with
        table := s.table.put n (.inotify s.made) (some p)
        made := s.made + 1 }
    | _, _ => none
  | .addWatch p outcome =>
    match s.phase p, outcome with
    | .addWatch file descriptor, .error errno =>
      some (s.go p (.close [descriptor, file] (.error (.io (.os errno)))))
    | .addWatch file descriptor, .ok () =>
      match s.table descriptor, s.table file with
      | some ⟨.inotify q, _⟩, some slot =>
        some { s.go p (.close [file] (.ok descriptor)) with
          watches := Function.update s.watches q (s.watches q ++ [slot.object]) }
      | _, _ => none
    | _, _ => none
  | .close p =>
    match s.phase p with
    | .close [] result => some (s.go p (.returned result))
    | .close (n :: rest) result =>
      some { s.go p (.close rest result) with table := s.table.clear n }
    | _ => none
  | .drop p =>
    match s.phase p with
    | .returned (.ok descriptor) =>
      some { s.go p .dropped with table := s.table.clear descriptor }
    | _ => none
  | .change directory name entry => some (s.change handle interface directory name entry)
  | .take n file =>
    if (s.table n).isSome then none
    else some { s with
      table := s.table.put n (.ofFile file) none
      program := Function.update s.program n (some file) }
  | .release n =>
    match s.program n with
    | some _ => some { s with
        table := s.table.clear n
        program := Function.update s.program n none }
    | none => none

/-- What each action does, and when it is possible. -/
inductive Step (s : Registry P) : RegisterAction P → Registry P → Prop
  /-- A call begins. -/
  | called {p : P} (hphase : s.phase p = .idle) :
      Step s (.call p) { s.go p .openat with
        named := Function.update s.named p (s.target handle interface p).toList }
  /-- The interface cannot be opened. -/
  | refused {p : P} {errno : Errno} (hphase : s.phase p = .openat) :
      Step s (.openat p (.error errno))
        (s.go p (.returned (.error (Error.read (path handle interface p) errno))))
  /-- The interface is opened. -/
  | opened {p : P} {n i : ℕ} (hphase : s.phase p = .openat)
      (htarget : s.target handle interface p = some i) (hlink : symlink i = false)
      (hfree : s.table n = none) :
      Step s (.openat p (.ok n))
        { s.go p (.init n) with table := s.table.put n (.file i) (some p) }
  /-- No instance can be made. -/
  | unmade {p : P} {errno : Errno} {file : ℕ} (hphase : s.phase p = .init file) :
      Step s (.init p (.error errno)) (s.go p (.close [file] (.error (.io (.os errno)))))
  /-- An instance is made. -/
  | made {p : P} {n file : ℕ} (hphase : s.phase p = .init file) (hfree : s.table n = none) :
      Step s (.init p (.ok n)) { s.go p (.addWatch file n) with
        table := s.table.put n (.inotify s.made) (some p)
        made := s.made + 1 }
  /-- No watch can be added. -/
  | unwatched {p : P} {errno : Errno} {file descriptor : ℕ}
      (hphase : s.phase p = .addWatch file descriptor) :
      Step s (.addWatch p (.error errno))
        (s.go p (.close [descriptor, file] (.error (.io (.os errno)))))
  /-- A watch is added. -/
  | watched {p : P} {file descriptor q : ℕ} {owner : Option P} {slot : Slot Opened (Option P)}
      (hphase : s.phase p = .addWatch file descriptor)
      (hqueue : s.table descriptor = some ⟨.inotify q, owner⟩)
      (hfile : s.table file = some slot) :
      Step s (.addWatch p (.ok ())) { s.go p (.close [file] (.ok descriptor)) with
        watches := Function.update s.watches q (s.watches q ++ [slot.object]) }
  /-- A descriptor is closed. -/
  | closed {p : P} {n : ℕ} {rest : List ℕ} {result : Except Error ℕ}
      (hphase : s.phase p = .close (n :: rest) result) :
      Step s (.close p) { s.go p (.close rest result) with table := s.table.clear n }
  /-- The call returns. -/
  | returned {p : P} {result : Except Error ℕ} (hphase : s.phase p = .close [] result) :
      Step s (.close p) (s.go p (.returned result))
  /-- The watcher is dropped. -/
  | dropped {p : P} {descriptor : ℕ} (hphase : s.phase p = .returned (.ok descriptor)) :
      Step s (.drop p) { s.go p .dropped with table := s.table.clear descriptor }
  /-- An entry changes. -/
  | changed (directory : ℕ) (name : Str) (entry : Option ℕ) :
      Step s (.change directory name entry) (s.change handle interface directory name entry)
  /-- The program opens a descriptor. -/
  | taken {n : ℕ} (file : Option ℕ) (hfree : s.table n = none) :
      Step s (.take n file) { s with
        table := s.table.put n (.ofFile file) none
        program := Function.update s.program n (some file) }
  /-- The program closes a descriptor. -/
  | released {n : ℕ} {file : Option ℕ} (hprogram : s.program n = some file) :
      Step s (.release n) { s with
        table := s.table.clear n
        program := Function.update s.program n none }

end step

variable {handle : P → Cgroup ℕ} {interface : P → ConfigurationInterface} {symlink : ℕ → Bool}
  {s t : Registry P} {p q : P}

/-- **Every step is one of these.** -/
lemma Step.of_step {action : RegisterAction P}
    (h : step handle interface symlink s action = some t) :
    Step handle interface symlink s action t := by
  cases action with
  | call p =>
      simp only [step] at h
      split at h
      · next hphase =>
        cases h
        exact .called hphase
      · cases h
  | openat p outcome =>
      simp only [step] at h
      split at h
      · next hphase =>
        cases h
        exact .refused hphase
      · next hphase =>
        split at h
        · next i htarget =>
          split_ifs at h with hbusy
          cases h
          rw [Bool.or_eq_true, not_or, Bool.not_eq_true, Option.not_isSome_iff_eq_none] at hbusy
          exact .opened hphase htarget hbusy.1 hbusy.2
        · cases h
      · cases h
  | init p outcome =>
      simp only [step] at h
      split at h
      · next hphase =>
        cases h
        exact .unmade hphase
      · next hphase =>
        split_ifs at h with hbusy
        cases h
        exact .made hphase (Option.not_isSome_iff_eq_none.mp hbusy)
      · cases h
  | addWatch p outcome =>
      simp only [step] at h
      split at h
      · next hphase =>
        cases h
        exact .unwatched hphase
      · next hphase =>
        split at h
        · next hqueue hfile =>
          cases h
          exact .watched hphase hqueue hfile
        · cases h
      · cases h
  | close p =>
      simp only [step] at h
      split at h
      · next hphase =>
        cases h
        exact .returned hphase
      · next hphase =>
        cases h
        exact .closed hphase
      · cases h
  | drop p =>
      simp only [step] at h
      split at h
      · next hphase =>
        cases h
        exact .dropped hphase
      · cases h
  | change directory name entry =>
      cases h
      exact .changed directory name entry
  | take n file =>
      simp only [step] at h
      split_ifs at h with hbusy
      cases h
      exact .taken file (Option.not_isSome_iff_eq_none.mp hbusy)
  | release n =>
      simp only [step] at h
      split at h
      · next hprogram =>
        cases h
        exact .released hprogram
      · cases h

/-! ## Descriptors -/

/-- The descriptors of the program are those that it has open, an instance has one descriptor, and
one that is not made yet watches nothing. -/
structure Tidy (table : Slots ℕ Opened (Option P)) (program : ℕ → Option (Option ℕ)) (made : ℕ)
    (watches : ℕ → List Opened) : Prop where
  /-- The program has its descriptors and no others. -/
  program : ∀ n o, table n = some ⟨o, none⟩ ↔ ∃ file, program n = some file ∧ o = .ofFile file
  /-- An instance was made. -/
  known : ∀ n queue owner, table n = some ⟨.inotify queue, owner⟩ → queue < made
  /-- An instance has one descriptor. -/
  alone : ∀ n m queue owner owner', table n = some ⟨.inotify queue, owner⟩ →
    table m = some ⟨.inotify queue, owner'⟩ → n = m
  /-- A new instance watches nothing. -/
  fresh : ∀ queue, made ≤ queue → watches queue = []

namespace Tidy

variable {table : Slots ℕ Opened (Option P)} {program : ℕ → Option (Option ℕ)} {made n : ℕ}
  {watches : ℕ → List Opened}

omit [DecidableEq P] in
/-- What the program opens is no instance. -/
lemma ofFile_ne_inotify (file : Option ℕ) (queue : ℕ) : Opened.ofFile file ≠ .inotify queue := by
  cases file <;> rintro ⟨⟩

omit [DecidableEq P] in
/-- A descriptor that refers to no instance is made. -/
lemma put_of_ne (h : Tidy table program made watches) (hfree : table n = none) {o : Opened}
    {owner : Option P} (ho : ∀ queue, o ≠ .inotify queue) {program' : ℕ → Option (Option ℕ)}
    (hprogram : ∀ m o', (table.put n o owner) m = some ⟨o', none⟩ ↔
      ∃ file, program' m = some file ∧ o' = .ofFile file) :
    Tidy (table.put n o owner) program' made watches := by
  have hold : ∀ m queue w, table.put n o owner m = some ⟨.inotify queue, w⟩ →
      table m = some ⟨.inotify queue, w⟩ := by
    intro m queue w hm
    rcases (Slots.put_eq_some_iff hfree).mp hm with ⟨-, hslot⟩ | hm
    · cases hslot
      exact absurd rfl (ho queue)
    · exact hm
  exact ⟨hprogram, fun m queue w hm => h.known m queue w (hold m queue w hm),
    fun m m' queue w w' hm hm' => h.alone m m' queue w w' (hold m queue w hm)
      (hold m' queue w' hm'), h.fresh⟩

omit [DecidableEq P] in
/-- A registration opens its file. -/
lemma put_file (h : Tidy table program made watches) (hfree : table n = none) (i : ℕ) (p : P) :
    Tidy (table.put n (.file i) (some p)) program made watches := by
  refine h.put_of_ne hfree (fun _ => Opened.noConfusion) fun m o => ?_
  rw [Slots.put_eq_some_iff hfree, ← h.program m o]
  simp

omit [DecidableEq P] in
/-- The program opens a descriptor. -/
lemma take (h : Tidy table program made watches) (hfree : table n = none) (file : Option ℕ) :
    Tidy (table.put n (.ofFile file) none) (Function.update program n (some file)) made
      watches := by
  refine h.put_of_ne hfree (ofFile_ne_inotify file) fun m o => ?_
  by_cases hm : m = n
  · subst hm
    rw [Slots.put_self, Function.update_self]
    simp [eq_comm]
  · rw [Slots.put_of_ne hm, Function.update_of_ne hm]
    exact h.program m o

omit [DecidableEq P] in
/-- A registration makes its instance. -/
lemma put_inotify (h : Tidy table program made watches) (hfree : table n = none) (p : P) :
    Tidy (table.put n (.inotify made) (some p)) program (made + 1) watches := by
  refine ⟨fun m o => ?_, fun m queue w hm => ?_, fun m m' queue w w' hm hm' => ?_,
    fun queue hqueue => h.fresh queue (Nat.le_of_succ_le hqueue)⟩
  · rw [Slots.put_eq_some_iff hfree, ← h.program m o]
    simp
  · rcases (Slots.put_eq_some_iff hfree).mp hm with ⟨-, hslot⟩ | hm
    · cases hslot
      exact Nat.lt_succ_self made
    · exact Nat.lt_succ_of_lt (h.known m queue w hm)
  · rcases (Slots.put_eq_some_iff hfree).mp hm with ⟨rfl, hslot⟩ | hthere
    · cases hslot
      rcases (Slots.put_eq_some_iff hfree).mp hm' with ⟨rfl, -⟩ | hm'
      · rfl
      · exact absurd (h.known m' made w' hm') (Nat.lt_irrefl made)
    · rcases (Slots.put_eq_some_iff hfree).mp hm' with ⟨rfl, hslot⟩ | hthere'
      · cases hslot
        exact absurd (h.known m made w hthere) (Nat.lt_irrefl made)
      · exact h.alone m m' queue w w' hthere hthere'

omit [DecidableEq P] in
/-- A descriptor is closed. -/
lemma clear (h : Tidy table program made watches) {program' : ℕ → Option (Option ℕ)}
    (hprogram : ∀ m o, m ≠ n ∧ table m = some ⟨o, none⟩ ↔
      ∃ file, program' m = some file ∧ o = .ofFile file) :
    Tidy (table.clear n) program' made watches := by
  refine ⟨fun m o => ?_, fun m queue w hm => ?_, fun m m' queue w w' hm hm' => ?_, h.fresh⟩
  · rw [Slots.clear_eq_some_iff]
    exact hprogram m o
  · exact h.known m queue w (Slots.clear_eq_some_iff.mp hm).2
  · exact h.alone m m' queue w w' (Slots.clear_eq_some_iff.mp hm).2
      (Slots.clear_eq_some_iff.mp hm').2

omit [DecidableEq P] in
/-- A registration closes a descriptor. -/
lemma close (h : Tidy table program made watches) {o : Opened} {p : P}
    (hslot : table n = some ⟨o, some p⟩) : Tidy (table.clear n) program made watches := by
  refine h.clear fun m o' => ?_
  rw [← h.program m o']
  constructor
  · exact And.right
  · intro hm
    refine ⟨?_, hm⟩
    rintro rfl
    rw [hslot] at hm
    cases hm

omit [DecidableEq P] in
/-- The program closes a descriptor. -/
lemma release (h : Tidy table program made watches) :
    Tidy (table.clear n) (Function.update program n none) made watches := by
  refine h.clear fun m o => ?_
  by_cases hm : m = n
  · subst hm
    rw [Function.update_self]
    simp
  · rw [Function.update_of_ne hm, ← h.program m o]
    exact and_iff_right hm

omit [DecidableEq P] in
/-- A watch is added. -/
lemma watch (h : Tidy table program made watches) {queue : ℕ} (hqueue : queue < made)
    (objects : List Opened) :
    Tidy table program made (Function.update watches queue objects) := by
  refine ⟨h.program, h.known, h.alone, fun k hk => ?_⟩
  rw [Function.update_of_ne (ne_of_gt (lt_of_lt_of_le hqueue hk))]
  exact h.fresh k hk

end Tidy

/-! ## Registrations -/

section held

variable (handle interface symlink)

omit [DecidableEq P] in
/-- The name has named the file during the call, and it is no link. -/
def Named (s : Registry P) (p : P) (i : ℕ) : Prop := i ∈ s.named p ∧ symlink i = false

omit [DecidableEq P] in
/-- The registration has the descriptor of an instance that watches such a file and nothing else,
and other descriptors. -/
def Watching (s : Registry P) (p : P) (descriptor : ℕ) (held : List (ℕ × Opened)) : Prop :=
  ∃ i queue, s.Named symlink p i ∧
    s.table.Owns (some p) ((descriptor, .inotify queue) :: held) ∧ s.watches queue = [.file i]

omit [DecidableEq P] in
/-- What a registration has in each phase. -/
def Held (s : Registry P) (p : P) : RegisterPhase → Prop
  | .idle | .openat | .dropped => s.table.Owns (some p) []
  | .init file => ∃ i, s.Named symlink p i ∧ s.table.Owns (some p) [(file, .file i)]
  | .addWatch file descriptor => ∃ i queue, s.Named symlink p i ∧ descriptor ≠ file ∧
      s.table.Owns (some p) [(descriptor, .inotify queue), (file, .file i)] ∧ s.watches queue = []
  | .close numbers (.error _) => ∃ held : List (ℕ × Opened),
      held.map Prod.fst = numbers ∧ numbers.Nodup ∧ s.table.Owns (some p) held
  | .close numbers (.ok descriptor) => ∃ held : List (ℕ × Opened),
      held.map Prod.fst = numbers ∧ (descriptor :: numbers).Nodup ∧
        s.Watching symlink p descriptor held
  | .returned (.error _) => s.table.Owns (some p) []
  | .returned (.ok descriptor) => s.Watching symlink p descriptor []

/-- What holds in every reachable state. -/
structure Inv (s : Registry P) : Prop where
  /-- The descriptors are in order. -/
  tidy : Tidy s.table s.program s.made s.watches
  /-- Each registration has what it needs. -/
  held : ∀ p, s.Held symlink p (s.phase p)
  /-- A call has seen what the name names. -/
  seen : ∀ p, (s.phase p).inCall = true → ∀ i, s.target handle interface p = some i →
    i ∈ s.named p

end held

omit [DecidableEq P] in
/-- A registration keeps what it has when its descriptors stay, the name has named no less, and its
instance watches what it watched. -/
lemma Held.frame {phase : RegisterPhase} (h : s.Held symlink q phase)
    (howns : ∀ held, s.table.Owns (some q) held → t.table.Owns (some q) held)
    (hnamed : ∀ i ∈ s.named q, i ∈ t.named q)
    (hwatches : ∀ n queue, s.table n = some ⟨.inotify queue, some q⟩ →
      t.watches queue = s.watches queue) :
    t.Held symlink q phase := by
  have hwatching : ∀ {descriptor held}, s.Watching symlink q descriptor held →
      t.Watching symlink q descriptor held := by
    rintro descriptor held ⟨i, queue, ⟨hi, hlink⟩, hown, hwatch⟩
    exact ⟨i, queue, ⟨hnamed i hi, hlink⟩, howns _ hown,
      (hwatches _ _ hown.first).trans hwatch⟩
  cases phase with
  | idle => exact howns [] h
  | openat => exact howns [] h
  | dropped => exact howns [] h
  | init file =>
      obtain ⟨i, ⟨hi, hlink⟩, hown⟩ := h
      exact ⟨i, ⟨hnamed i hi, hlink⟩, howns _ hown⟩
  | addWatch file descriptor =>
      obtain ⟨i, queue, ⟨hi, hlink⟩, hne, hown, hwatch⟩ := h
      exact ⟨i, queue, ⟨hnamed i hi, hlink⟩, hne, howns _ hown,
        (hwatches _ _ hown.first).trans hwatch⟩
  | close numbers result =>
      cases result with
      | error e =>
          obtain ⟨held, hnumbers, hnodup, hown⟩ := h
          exact ⟨held, hnumbers, hnodup, howns _ hown⟩
      | ok descriptor =>
          obtain ⟨held, hnumbers, hnodup, hwatch⟩ := h
          exact ⟨held, hnumbers, hnodup, hwatching hwatch⟩
  | returned result =>
      cases result with
      | error e => exact howns [] h
      | ok descriptor => exact hwatching h

/-- After an action of one registration, each has what it needs if this one has, and the others keep
what they had. -/
lemma Inv.held_go (h : Inv handle interface symlink s) {phase : RegisterPhase}
    (hphase : t.phase = Function.update s.phase p phase)
    (hself : t.Held symlink p phase)
    (howns : ∀ q ≠ p, ∀ held, s.table.Owns (some q) held → t.table.Owns (some q) held)
    (hnamed : ∀ q ≠ p, t.named q = s.named q)
    (hwatches : ∀ q ≠ p, ∀ n queue, s.table n = some ⟨.inotify queue, some q⟩ →
      t.watches queue = s.watches queue) :
    ∀ q, t.Held symlink q (t.phase q) := by
  intro q
  rw [hphase]
  by_cases hq : q = p
  · subst hq
    rw [Function.update_self]
    exact hself
  · rw [Function.update_of_ne hq]
    refine (h.held q).frame (howns q hq) (fun i hi => ?_) (hwatches q hq)
    rw [hnamed q hq]
    exact hi

/-- **An action of a registration on its own descriptors** keeps the invariant, when the descriptors
stay in order and the registration has what it needs afterwards. -/
lemma Inv.act (h : Inv handle interface symlink s) {phase : RegisterPhase}
    (htidy : Tidy t.table t.program t.made t.watches)
    (hphase : t.phase = Function.update s.phase p phase) (hentries : t.entries = s.entries)
    (hnamed : t.named = s.named) (hcall : phase.inCall = true → (s.phase p).inCall = true)
    (hself : t.Held symlink p phase)
    (howns : ∀ q ≠ p, ∀ held, s.table.Owns (some q) held → t.table.Owns (some q) held)
    (hwatches : ∀ q ≠ p, ∀ n queue, s.table n = some ⟨.inotify queue, some q⟩ →
      t.watches queue = s.watches queue) :
    Inv handle interface symlink t := by
  refine ⟨htidy, h.held_go hphase hself howns (fun q _ => congrFun hnamed q) hwatches,
    fun q hq i hi => ?_⟩
  have htarget : s.target handle interface q = some i := by
    unfold target at hi ⊢
    rw [← hentries]
    exact hi
  rw [hnamed]
  refine h.seen q ?_ i htarget
  rw [hphase] at hq
  by_cases hqp : q = p
  · subst hqp
    rw [Function.update_self] at hq
    exact hcall hq
  · rw [Function.update_of_ne hqp] at hq
    exact hq

/-- The same when only the phase changes. -/
lemma Inv.go (h : Inv handle interface symlink s) {phase : RegisterPhase}
    (hcall : phase.inCall = true → (s.phase p).inCall = true)
    (hself : s.Held symlink p phase) :
    Inv handle interface symlink (s.go p phase) :=
  h.act h.tidy rfl rfl rfl hcall
    (hself.frame (fun _ hown => hown) (fun _ hi => hi) fun _ _ _ => rfl)
    (fun _ _ _ hown => hown) fun _ _ _ _ _ => rfl

/-- The same when the registration makes a descriptor. -/
lemma Inv.put (h : Inv handle interface symlink s) {phase : RegisterPhase} {n made : ℕ} {o : Opened}
    (hfree : s.table n = none)
    (htidy : Tidy (s.table.put n o (some p)) s.program made s.watches)
    (hcall : phase.inCall = true → (s.phase p).inCall = true)
    (hself : ({ s.go p phase with table := s.table.put n o (some p), made := made } :
      Registry P).Held symlink p phase) :
    Inv handle interface symlink
      { s.go p phase with table := s.table.put n o (some p), made := made } :=
  h.act htidy rfl rfl rfl hcall hself
    (fun _ hq _ hown => hown.put_of_ne hfree fun heq => hq (Option.some.inj heq))
    fun _ _ _ _ _ => rfl

/-- The same when the registration closes a descriptor. -/
lemma Inv.clear (h : Inv handle interface symlink s) {phase : RegisterPhase} {n : ℕ} {o : Opened}
    (hslot : s.table n = some ⟨o, some p⟩)
    (hcall : phase.inCall = true → (s.phase p).inCall = true)
    (hself : ({ s.go p phase with table := s.table.clear n } : Registry P).Held symlink p phase) :
    Inv handle interface symlink { s.go p phase with table := s.table.clear n } :=
  h.act (h.tidy.close hslot) rfl rfl rfl hcall hself
    (fun _ hq _ hown => hown.clear_of_ne hslot fun heq => hq (Option.some.inj heq))
    fun _ _ _ _ _ => rfl

omit [DecidableEq P] in
/-- A process without registrations. -/
lemma inv_start (entries : ℕ → Str → Option ℕ) (program : ℕ → Option (Option ℕ)) :
    Inv handle interface symlink (start (P := P) entries program) := by
  have htable : ∀ n slot, (start (P := P) entries program).table n = some slot →
      ∃ file, program n = some file ∧ slot = ⟨.ofFile file, none⟩ := by
    intro n slot hslot
    obtain ⟨file, hfile, rfl⟩ := Option.map_eq_some_iff.mp hslot
    exact ⟨file, hfile, rfl⟩
  have hinotify : ∀ n queue owner,
      (start (P := P) entries program).table n ≠ some ⟨.inotify queue, owner⟩ := by
    intro n queue owner hslot
    obtain ⟨file, -, heq⟩ := htable n _ hslot
    exact Tidy.ofFile_ne_inotify file queue (congrArg Slot.object heq).symm
  refine ⟨⟨fun n o => ?_, fun n queue owner hslot => absurd hslot (hinotify n queue owner),
    fun n m queue owner owner' hslot => absurd hslot (hinotify n queue owner), fun _ _ => rfl⟩,
    fun p n o => ?_, fun p hp => ?_⟩
  · constructor
    · intro hslot
      obtain ⟨file, hfile, heq⟩ := htable n _ hslot
      exact ⟨file, hfile, congrArg Slot.object heq⟩
    · rintro ⟨file, hfile, rfl⟩
      exact Option.map_eq_some_iff.mpr ⟨file, hfile, rfl⟩
  · constructor
    · intro hslot
      obtain ⟨file, -, heq⟩ := htable n _ hslot
      cases congrArg Slot.owner heq
    · intro hmem
      cases hmem
  · cases hp

omit [DecidableEq P] in
/-- What the name names after an entry changed. -/
lemma target_change (directory : ℕ) (name : Str) (entry : Option ℕ) :
    (s.change handle interface directory name entry).target handle interface p =
      if (handle p).directory = directory ∧ (interface p).filename.toList = name then entry
      else s.target handle interface p :=
  rfl

omit [DecidableEq P] in
/-- What the name has named after an entry changed, in a call. -/
lemma named_change (hcall : (s.phase p).inCall = true) (directory : ℕ) (name : Str)
    (entry : Option ℕ) :
    (s.change handle interface directory name entry).named p =
      if (handle p).directory = directory ∧ (interface p).filename.toList = name then
        s.named p ++ entry.toList
      else s.named p := by
  unfold change
  simp only [hcall, true_and]

omit [DecidableEq P] in
/-- What the name has named is not forgotten. -/
lemma mem_named_change {i : ℕ} (hi : i ∈ s.named p) (directory : ℕ) (name : Str)
    (entry : Option ℕ) : i ∈ (s.change handle interface directory name entry).named p := by
  unfold change
  dsimp only
  split_ifs
  · exact List.mem_append_left _ hi
  · exact hi

/-- **Every action keeps the invariant.** -/
lemma step_inv {action : RegisterAction P} (h : Inv handle interface symlink s)
    (hstep : step handle interface symlink s action = some t) :
    Inv handle interface symlink t := by
  have hheld : ∀ {p phase}, s.phase p = phase → s.Held symlink p phase :=
    fun hphase => hphase ▸ h.held _
  cases Step.of_step hstep with
  | @called p hphase =>
      refine ⟨h.tidy, h.held_go rfl (hheld hphase) (fun _ _ _ hown => hown)
        (fun q hq => Function.update_of_ne hq ..) (fun _ _ _ _ _ => rfl), fun q hq i hi => ?_⟩
      by_cases hqp : q = p
      · subst hqp
        show i ∈ Function.update s.named q (s.target handle interface q).toList q
        rw [Function.update_self]
        exact Option.mem_toList.mpr hi
      · show i ∈ Function.update s.named p (s.target handle interface p).toList q
        rw [Function.update_of_ne hqp]
        refine h.seen q ?_ i hi
        have hcall : (Function.update s.phase p .openat q).inCall = true := hq
        rwa [Function.update_of_ne hqp] at hcall
  | @refused p errno hphase =>
      have hown : s.table.Owns (some p) [] := hheld hphase
      exact h.go (fun hcall => by cases hcall) hown
  | @opened p n i hphase htarget hlink hfree =>
      have hcall : (s.phase p).inCall = true := by rw [hphase]; rfl
      have hown : s.table.Owns (some p) [] := hheld hphase
      exact h.put hfree (h.tidy.put_file hfree i p) (fun _ => hcall)
        ⟨i, ⟨h.seen p hcall i htarget, hlink⟩, hown.put hfree⟩
  | @unmade p errno file hphase =>
      obtain ⟨i, -, hown⟩ := hheld hphase
      refine h.go (fun _ => by rw [hphase]; rfl) ⟨_, rfl, ?_, hown⟩
      exact List.nodup_singleton file
  | @made p n file hphase hfree =>
      obtain ⟨i, hnamed, hown⟩ := hheld hphase
      have hne : n ≠ file := by
        rintro rfl
        exact hown.not_mem_of_free hfree List.mem_cons_self
      exact h.put hfree (h.tidy.put_inotify hfree p) (fun _ => by rw [hphase]; rfl)
        ⟨i, s.made, hnamed, hne, hown.put hfree, h.tidy.fresh s.made le_rfl⟩
  | @unwatched p errno file descriptor hphase =>
      obtain ⟨i, queue, -, hne, hown, -⟩ := hheld hphase
      refine h.go (fun _ => by rw [hphase]; rfl) ⟨_, rfl, ?_, hown⟩
      simpa using hne
  | @watched p file descriptor queue owner slot hphase hqueue hfile =>
      obtain ⟨i, queue', hnamed, hne, hown, hwatch⟩ := hheld hphase
      have hfirst := hown.first
      have hsecond := hown.swap.first
      rw [hqueue] at hfirst
      cases hfirst
      rw [hfile] at hsecond
      cases hsecond
      refine h.act (h.tidy.watch (h.tidy.known _ _ _ hqueue) _) rfl rfl rfl
        (fun _ => by rw [hphase]; rfl) ⟨[(file, .file i)], rfl, by simpa using hne, i, queue,
          hnamed, hown, ?_⟩ (fun _ _ _ hown => hown) fun q hq n k hslot => ?_
      · show Function.update s.watches queue _ queue = _
        rw [Function.update_self, hwatch]
        rfl
      · refine Function.update_of_ne ?_ ..
        rintro rfl
        obtain rfl := h.tidy.alone _ _ _ _ _ hslot hqueue
        rw [hslot] at hqueue
        cases hqueue
        exact hq rfl
  | @closed p n rest result hphase =>
      have hcall : (s.phase p).inCall = true := by rw [hphase]; rfl
      cases result with
      | error e =>
          obtain ⟨held, hnumbers, hnodup, hown⟩ := hheld hphase
          obtain ⟨⟨_, o⟩, held, rfl, rfl, rfl⟩ := List.map_eq_cons_iff.mp hnumbers
          obtain ⟨hfirst, hrest⟩ := List.nodup_cons.mp hnodup
          exact h.clear hown.first (fun _ => hcall) ⟨held, rfl, hrest, hown.clear hfirst⟩
      | ok descriptor =>
          obtain ⟨held, hnumbers, hnodup, i, queue, hnamed, hown, hwatch⟩ := hheld hphase
          obtain ⟨⟨_, o⟩, held, rfl, rfl, rfl⟩ := List.map_eq_cons_iff.mp hnumbers
          obtain ⟨hdescriptor, hnumbers⟩ := List.nodup_cons.mp hnodup
          obtain ⟨hfirst, hrest⟩ := List.nodup_cons.mp hnumbers
          refine h.clear hown.swap.first (fun _ => hcall) ⟨held, rfl, ?_, i, queue, hnamed,
            hown.swap.clear ?_, hwatch⟩
          · exact List.nodup_cons.mpr ⟨fun hmem => hdescriptor (List.mem_cons_of_mem _ hmem), hrest⟩
          · rw [List.map_cons, List.mem_cons, not_or]
            exact ⟨fun heq => hdescriptor (heq ▸ List.mem_cons_self), hfirst⟩
  | @returned p result hphase =>
      cases result with
      | error e =>
          obtain ⟨held, hnumbers, -, hown⟩ := hheld hphase
          rw [List.map_eq_nil_iff] at hnumbers
          subst hnumbers
          exact h.go (fun hcall => by cases hcall) hown
      | ok descriptor =>
          obtain ⟨held, hnumbers, -, hwatch⟩ := hheld hphase
          rw [List.map_eq_nil_iff] at hnumbers
          subst hnumbers
          exact h.go (fun hcall => by cases hcall) hwatch
  | @dropped p descriptor hphase =>
      obtain ⟨i, queue, -, hown, -⟩ := hheld hphase
      exact h.clear hown.first (fun hcall => by cases hcall) (hown.clear List.not_mem_nil)
  | changed directory name entry =>
      refine ⟨h.tidy, fun p => ?_, fun p hp i hi => ?_⟩
      · exact (h.held p).frame (fun _ hown => hown)
          (fun _ hi => mem_named_change hi directory name entry) fun _ _ _ => rfl
      · have hcall : (s.phase p).inCall = true := hp
        rw [target_change] at hi
        rw [named_change hcall]
        split_ifs at hi ⊢
        · rw [hi]
          exact List.mem_append_right _ (List.mem_singleton.mpr rfl)
        · exact h.seen p hcall i hi
  | @taken n file hfree =>
      refine ⟨h.tidy.take hfree file, fun p => ?_, h.seen⟩
      exact (h.held p).frame (fun _ hown => hown.put_of_ne hfree (Option.some_ne_none p))
        (fun _ hi => hi) fun _ _ _ => rfl
  | @released n file hprogram =>
      have hslot := (h.tidy.program n _).mpr ⟨file, hprogram, rfl⟩
      refine ⟨h.tidy.release, fun p => ?_, h.seen⟩
      exact (h.held p).frame (fun _ hown => hown.clear_of_ne hslot (Option.some_ne_none p))
        (fun _ hi => hi) fun _ _ _ => rfl

/-! ## What is returned -/

section traces

variable (handle interface)

omit [DecidableEq P] in
/-- What the system calls of a registration are in each phase. -/
def Traced (path : Str) (p : P) (calls : List (RegisterAction P)) : RegisterPhase → Prop
  | .idle | .openat => calls = []
  | .init file => calls = [.openat p (.ok file)]
  | .addWatch file descriptor => calls = [.openat p (.ok file), .init p (.ok descriptor)]
  | .close _ result | .returned result => Opening path p calls result
  | .dropped => ∃ descriptor, Opening path p calls (.ok descriptor)

/-- The system calls among the actions so far are those of the phases. -/
def Traces (actions : List (RegisterAction P)) (s : Registry P) : Prop :=
  ∀ p, Traced (path handle interface p) p (actions.filter (·.opens p)) (s.phase p)

end traces

section trace

variable {actions : List (RegisterAction P)} {a : RegisterAction P}

/-- One registration goes on, with the action as its system call if it is one. -/
lemma Traces.go (h : Traces handle interface actions s) {phase : RegisterPhase}
    (hphase : t.phase = Function.update s.phase p phase)
    (hother : ∀ q, q ≠ p → a.opens q = false)
    (hself : Traced (path handle interface p) p
      (actions.filter (·.opens p) ++ [a].filter (·.opens p)) phase) :
    Traces handle interface (actions ++ [a]) t := by
  intro q
  rw [hphase, List.filter_append]
  by_cases hq : q = p
  · subst hq
    rw [Function.update_self]
    exact hself
  · have hnone : [a].filter (·.opens q) = [] := by
      simp [hother q hq]
    rw [Function.update_of_ne hq, hnone, List.append_nil]
    exact h q

/-- The same after the next system call of the registration. -/
lemma Traces.call (h : Traces handle interface actions s) {phase : RegisterPhase}
    (hphase : t.phase = Function.update s.phase p phase) (ha : ∀ q, a.opens q = decide (p = q))
    {calls : List (RegisterAction P)} (hcalls : actions.filter (·.opens p) = calls)
    (hself : Traced (path handle interface p) p (calls ++ [a]) phase) :
    Traces handle interface (actions ++ [a]) t := by
  refine h.go hphase (fun q hq => ?_) ?_
  · rw [ha, decide_eq_false_iff_not]
    exact fun heq => hq heq.symm
  · have hone : [a].filter (·.opens p) = [a] := by
      simp [ha]
    rw [hcalls, hone]
    exact hself

/-- The same when the action is no such system call. -/
lemma Traces.pass (h : Traces handle interface actions s) {phase : RegisterPhase}
    (hphase : t.phase = Function.update s.phase p phase) (ha : ∀ q, a.opens q = false)
    (hself : Traced (path handle interface p) p (actions.filter (·.opens p)) phase) :
    Traces handle interface (actions ++ [a]) t := by
  refine h.go hphase (fun q _ => ha q) ?_
  have hnone : [a].filter (·.opens p) = [] := by
    simp [ha]
  rw [hnone, List.append_nil]
  exact hself

/-- The same when no registration goes on. -/
lemma Traces.stay (h : Traces handle interface actions s) (hphase : t.phase = s.phase)
    (ha : ∀ q, a.opens q = false) : Traces handle interface (actions ++ [a]) t := by
  intro q
  have hnone : [a].filter (·.opens q) = [] := by
    simp [ha]
  rw [hphase, List.filter_append, hnone, List.append_nil]
  exact h q

omit [DecidableEq P] in
/-- What a failed `openat` is reported as. -/
lemma opening_read (path : Str) (p : P) (errno : Errno) :
    Opening path p [.openat p (.error errno)] (.error (Error.read path errno)) := by
  unfold Error.read
  split_ifs with hfound hsupported
  · subst hfound
    exact .missing
  · exact .unsupported hsupported
  · exact .refused hfound hsupported

/-- **What a registration returns is what its own system calls say.** -/
lemma step_traces (h : Traces handle interface actions s)
    (hstep : step handle interface symlink s a = some t) :
    Traces handle interface (actions ++ [a]) t := by
  have htraced : ∀ {p phase}, s.phase p = phase →
      Traced (path handle interface p) p (actions.filter (·.opens p)) phase :=
    fun hphase => hphase ▸ h _
  cases Step.of_step hstep with
  | @called p hphase =>
      have hcalls : actions.filter (·.opens p) = [] := htraced hphase
      exact h.pass rfl (fun _ => rfl) (hcalls : Traced _ p _ .openat)
  | @refused p errno hphase =>
      exact h.call rfl (fun _ => rfl) (htraced hphase) (opening_read _ p errno)
  | opened hphase => exact h.call rfl (fun _ => rfl) (htraced hphase) rfl
  | @unmade p errno file hphase =>
      exact h.call rfl (fun _ => rfl) (htraced hphase) (.unmade file errno)
  | made hphase => exact h.call rfl (fun _ => rfl) (htraced hphase) rfl
  | @unwatched p errno file descriptor hphase =>
      exact h.call rfl (fun _ => rfl) (htraced hphase) (.unwatched file descriptor errno)
  | @watched p file descriptor _ _ _ hphase =>
      exact h.call rfl (fun _ => rfl) (htraced hphase) (.watching file descriptor)
  | closed hphase =>
      have hopening := htraced hphase
      exact h.pass rfl (fun _ => rfl) hopening
  | returned hphase =>
      have hopening := htraced hphase
      exact h.pass rfl (fun _ => rfl) hopening
  | @dropped p descriptor hphase =>
      exact h.pass rfl (fun _ => rfl) ⟨descriptor, htraced hphase⟩
  | changed => exact h.stay rfl fun _ => rfl
  | taken => exact h.stay rfl fun _ => rfl
  | released => exact h.stay rfl fun _ => rfl

end trace

end Registry

/-- **Registering configuration watches.** In every run of any number of registrations, with entries
that are replaced and descriptors that are opened and closed at any time, and with any free numbers:
a registration that returned a watcher has one descriptor, of an instance that watches one file,
which the name named in the pinned directory during the call and which is no link, whatever the name
names since. One that failed has no descriptor, and one whose watcher was dropped has none either.
Whatever it returned, its own system calls in the run are those of the outcome: the first one that
failed is the last, and the error is the one of its number. No instance has two descriptors, and the
descriptors of the program are those that it has open. -/
theorem registration_run (P : Type) [DecidableEq P] (handle : P → Cgroup ℕ)
    (interface : P → ConfigurationInterface) (symlink : ℕ → Bool) (entries : ℕ → Str → Option ℕ)
    (program : ℕ → Option (Option ℕ)) (actions : List (RegisterAction P)) (s : Registry P)
    (hrun : run (Registry.step handle interface symlink) (Registry.start entries program) actions =
      some s) :
    (∀ p descriptor, s.phase p = .returned (.ok descriptor) →
      ∃ i queue, (i ∈ s.named p ∧ symlink i = false) ∧
        s.table.Owns (some p) [(descriptor, .inotify queue)] ∧ s.watches queue = [.file i]) ∧
    (∀ p e, s.phase p = .returned (.error e) → s.table.Owns (some p) []) ∧
    (∀ p, s.phase p = .dropped → s.table.Owns (some p) []) ∧
    (∀ p result, s.phase p = .returned result →
      Opening (Path.join (handle p).path (interface p).filename.toList) p
        (actions.filter (·.opens p)) result) ∧
    (∀ n m queue owner owner', s.table n = some ⟨.inotify queue, owner⟩ →
      s.table m = some ⟨.inotify queue, owner'⟩ → n = m) ∧
    ∀ n o, s.table n = some ⟨o, none⟩ ↔ ∃ file, s.program n = some file ∧ o = .ofFile file := by
  have hinv : Registry.Inv handle interface symlink s :=
    invariant_of_run (fun _ _ _ h hstep => Registry.step_inv h hstep)
      (Registry.inv_start entries program) hrun
  have hstart : Registry.Traces handle interface [] (Registry.start entries program) :=
    fun _ => rfl
  have htraces : Registry.Traces handle interface actions s :=
    invariant_of_run_of_trace (fun _ _ _ _ h hstep => Registry.step_traces h hstep) hstart hrun
  have hheld : ∀ {p phase}, s.phase p = phase →
      s.Held symlink p phase := fun hphase => hphase ▸ hinv.held _
  refine ⟨fun _ _ hphase => hheld hphase, fun _ _ hphase => hheld hphase,
    fun _ hphase => hheld hphase, fun p result hphase => ?_, hinv.tidy.alone, hinv.tidy.program⟩
  have htraced := htraces p
  rw [hphase] at htraced
  exact htraced

/-! ## A file that is replaced -/

/-- A registration whose file is replaced between its system calls, and another one that is given
the number that the first one had. -/
def replacing : List (RegisterAction Bool) :=
  [.call true, .openat true (.ok 3), .change 1 "cpu.max".toList (some 11), .init true (.ok 4),
    .take 5 none, .addWatch true (.ok ()), .close true, .call false, .openat false (.ok 3),
    .close true]

/-- What it comes to. -/
def replaced : Option (Registry Bool) :=
  run (Registry.step (fun _ => ⟨1, "/sys/fs/cgroup/a".toList⟩) (fun _ => .cpuMax) fun _ => false)
    (Registry.start (fun d n => if d = 1 ∧ n = "cpu.max".toList then some 10 else none)
      fun n => if n < 3 then some none else none) replacing

/-- It is possible. -/
lemma replaced_isSome : replaced.isSome = true := by
  decide +kernel

/-- The first registration watches a file that it had opened, and not the one of that name now; and
its system calls were those of a registration that succeeds. -/
theorem registration_replaced :
    (∃ i queue, (i ∈ (replaced.get replaced_isSome).named true ∧ false = false) ∧
      (replaced.get replaced_isSome).table.Owns (some true) [(4, .inotify queue)] ∧
        (replaced.get replaced_isSome).watches queue = [.file i]) ∧
    Opening "/sys/fs/cgroup/a/cpu.max".toList true
      [.openat true (.ok 3), .init true (.ok 4), .addWatch true (.ok ())] (.ok 4) ∧
    (replaced.get replaced_isSome).watches 0 = [.file 10] ∧
    (replaced.get replaced_isSome).entries 1 "cpu.max".toList = some 11 ∧
    (replaced.get replaced_isSome).phase false = .init 3 := by
  have hrun := registration_run Bool _ _ _ _ _ replacing _ (Option.some_get replaced_isSome).symm
  refine ⟨hrun.1 true 4 ?_, hrun.2.2.2.1 true (.ok 4) ?_, ?_, ?_, ?_⟩
  all_goals decide +kernel

end Sakai
