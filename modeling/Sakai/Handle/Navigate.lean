import Sakai.Handle.Children
import Sakai.Handle.Discovery

/-!
# Handles and their paths

A handle is obtained by opening a path, by opening a child of a handle, or by listing the children
of one. It keeps the directory that was opened, and a path. `View` is what a process sees of a tree
that does not change, and how long the paths are that its system calls take; `View.Obtained` are the
handles it can obtain, in any order of these operations.

* `openDirectory_eq_ok_iff`: on both kinds of kernel, an accepted path that is not too long is
  opened exactly when its names lead to the directory through directories that the kernel can pass.
* `View.fromPath_eq_ok_iff`: which handle a path opens.
* `View.Obtained.leads`: the path of every handle leads to this handle.
* `handles_reopen`: so it opens this handle again unless it is too long, it has no parent component,
  and handles of the same names from the same start have the same directory.
-/

namespace Sakai

open Lib Lib.FileTree

variable {I : Type}

/-! ## What a process sees -/

/-- The bytes of the longest path that a system call takes, with its NUL.
Source: `linux/limits.h`, `PATH_MAX`. -/
def PATH_MAX : ℕ := 4096

/-- The files that a process sees, with the answers of `fstatfs`, on a kernel that may lack
`openat2`. -/
structure View (I : Type) where
  /-- The tree. -/
  tree : FileTree I
  /-- The root directory. -/
  root : I
  /-- The current directory. -/
  cwd : I
  /-- The kernel has `openat2`. -/
  supported : Bool
  /-- The filesystem of a directory. -/
  fstatfs : I → Except Errno UInt64
  /-- The bytes of a path, without its NUL. -/
  size : Str → ℕ

/-- Source: `handle.rs`, the `map_err` of `Cgroup::from_path`. -/
def Error.inOpen (path : Str) : Error → Error
  | .io source =>
    if source.isInvalidInput then .io source else .operation "open cgroup" path source
  | other => other

namespace View

variable (view : View I)

/-- A system call with a path. One that holds a NUL is no argument.
Source: `rustix::path::Arg`, and `PATH_MAX`. -/
def pathCall (path : Str) (call : Except Errno I) : Except Errno I :=
  if Char.ofNat 0 ∈ path then .error .INVAL
  else if view.size path < PATH_MAX then call
  else .error .NAMETOOLONG

/-- The system calls of the process. A kernel without `openat2` does not read its path. -/
def kernel : Kernel I where
  openat2 directory path :=
    if view.supported then view.pathCall path (Sakai.openat2 true view.tree directory path)
    else if Char.ofNat 0 ∈ path then .error .INVAL
    else .error .NOSYS
  openat directory name := view.pathCall name (Sakai.openat view.tree directory name)
  fstatfs := view.fstatfs

/-- The directory a path starts from: the root, or the current one.
Source: `handle.rs`, the call of `fs::open` in `Cgroup::open_path`. -/
def openBase (path : Str) : Except Error I :=
  if Path.isAbsolute path then
    ioError (view.pathCall ['/'] ((openNode view.tree view.root).mapError errnoOf))
  else ioError (view.kernel.openat view.cwd ['.'])

/-- The path from there.
Source: `handle.rs`, `relative` in `Cgroup::open_path`. -/
def relativeOf (path : Str) : Except Error Str :=
  if Path.isAbsolute path then
    match Path.stripPrefix path ['/'] with
    | some relative => .ok relative
    | none => .error (.io .other)
  else .ok path

/-- Source: `handle.rs`, `Cgroup::open_path`. -/
def openPath (path : Str) : Except Error (Cgroup I) := do
  let relative ← relativeOf path
  let base ← view.openBase path
  let directory ← view.kernel.openDirectory base relative
  view.kernel.verified directory path

/-- Source: `handle.rs`, `Cgroup::from_path`. -/
def fromPath (path : Str) : Except Error (Cgroup I) :=
  (view.openPath path).mapError (Error.inOpen path)

/-- The directory that a path starts from. -/
def start (path : Str) : I := if Path.isAbsolute path then view.root else view.cwd

/-- The kernel can pass the directory on its way: it may be searched, and on a kernel without
`openat2` opened as well. -/
def Passable (node : I) : Prop :=
  Searchable view.tree node ∧ (view.supported = false → Readable view.tree node)

/-- The kernel looks up a dot in the directory that it opens. -/
def AtDot (relative : Str) : Prop :=
  if view.supported then Dotted relative else pathNames relative = []

/-- The path holds no NUL, and no name is too long on a kernel that takes one at a time. -/
structure Fits (relative : Str) : Prop where
  /-- No NUL. -/
  nul : Char.ofNat 0 ∉ relative
  /-- No long name. -/
  names : view.supported = false →
    view.size ['.'] < PATH_MAX ∧ ∀ name ∈ Path.names relative, view.size name < PATH_MAX

/-- The path is not too long as a whole, on a kernel that takes it so. -/
def Short (relative : Str) : Prop :=
  view.supported = true → view.size (relativeOrSelf relative) < PATH_MAX

end View

/-! ## What is opened -/

/-- The names of an accepted path are its components but a leading dot. -/
lemma Accepted.pathNames_eq {relative : Str} (h : Accepted relative) :
    pathNames relative = Path.names relative := by
  have hpieces : ∀ ps : List Str, ['.', '.'] ∉ ps →
      (ps.filterMap Path.piece?).filterMap Path.Component.name? = namesOf ps := by
    intro ps hparent
    unfold namesOf
    rw [List.filterMap_filterMap, ← List.filterMap_eq_filter]
    apply List.filterMap_congr
    intro p hp
    have hne : p ≠ ['.', '.'] := fun heq => hparent (heq ▸ hp)
    unfold Path.piece? dot Option.guard
    split <;> simp_all [Path.Component.name?]
  have hstart : (Path.startOf (Path.pieces relative)).filterMap Path.Component.name? = [] := by
    unfold Path.startOf
    split <;> rfl
  have hself : namesOf (Path.pieces (relativeOrSelf relative)) =
      namesOf (Path.pieces relative) := by
    unfold relativeOrSelf
    split
    · next hempty =>
      rw [List.isEmpty_iff.mp hempty]
      decide
    · rfl
  unfold pathNames Path.names Path.components
  rw [List.filterMap_append, hstart, List.nil_append, hpieces _ h.not_mem, hself]

section opening

variable {view : View I} {base d : I} {relative : Str}

/-- A system call with a path succeeds when it takes the path. -/
lemma pathCall_eq_ok_iff {path : Str} {call : Except Errno I} :
    view.pathCall path call = .ok d ↔
      Char.ofNat 0 ∉ path ∧ view.size path < PATH_MAX ∧ call = .ok d := by
  unfold View.pathCall
  by_cases hnul : Char.ofNat 0 ∈ path
  · simp [hnul]
  · by_cases hsize : view.size path < PATH_MAX
    · simp [hnul, hsize]
    · simp [hnul, hsize]

/-- The path that is opened has the names of the path, and a NUL when the path has one. -/
lemma relativeOrSelf_spec (relative : Str) :
    Path.names (relativeOrSelf relative) = Path.names relative ∧
      (Char.ofNat 0 ∈ relativeOrSelf relative ↔ Char.ofNat 0 ∈ relative) := by
  unfold relativeOrSelf
  split
  · next hempty =>
    rw [List.isEmpty_iff.mp hempty]
    decide
  · exact ⟨rfl, Iff.rfl⟩

/-- **One call** opens what it opens on the tree, when it takes the path. -/
lemma openDirectory_supported_iff (h : Accepted relative) (hsupported : view.supported = true) :
    view.kernel.openDirectory base relative = .ok d ↔
      view.Fits relative ∧ view.Short relative ∧
        openDirectory true view.tree base relative = .ok d := by
  have hcall : view.kernel.openDirectory base relative = .ok d ↔
      view.pathCall (relativeOrSelf relative)
        (openat2 true view.tree base (relativeOrSelf relative)) = .ok d := by
    have hnosys : view.pathCall (relativeOrSelf relative)
        (openat2 true view.tree base (relativeOrSelf relative)) ≠ .error .NOSYS := by
      unfold View.pathCall
      split_ifs
      · exact fun heq => absurd (Except.error.inj heq) (by decide)
      · exact openat2_ne_nosys view.tree base _
      · exact fun heq => absurd (Except.error.inj heq) (by decide)
    unfold Kernel.openDirectory View.kernel
    rw [h.any_eq_false]
    simp only [hsupported, Bool.false_eq_true, if_false, if_true]
    rcases hcall : view.pathCall (relativeOrSelf relative)
      (openat2 true view.tree base (relativeOrSelf relative)) with errno | fd
    · have hne : errno ≠ .NOSYS := by
        rintro rfl
        exact hnosys hcall
      simp [hne]
    · simp
  rw [hcall, pathCall_eq_ok_iff, openDirectory_supported view.tree base h, ioError, mapError_eq_ok,
    (relativeOrSelf_spec relative).2]
  constructor
  · rintro ⟨hnul, hsize, hopen⟩
    exact ⟨⟨hnul, fun hno => by cases hsupported.symm.trans hno⟩, fun _ => hsize, hopen⟩
  · rintro ⟨hfits, hshort, hopen⟩
    exact ⟨hfits.nul, hshort hsupported, hopen⟩

/-- Component calls take their names one at a time. -/
lemma foldlM_kernel_openat_eq_ok_iff {parts : List Path.Component} :
    parts.foldlM (fun directory part => ioError (view.kernel.openat directory (asOsStr part)))
        base = .ok d ↔
      (∀ part ∈ parts, Char.ofNat 0 ∉ asOsStr part ∧ view.size (asOsStr part) < PATH_MAX) ∧
        parts.foldlM (fun directory part => ioError (openat view.tree directory (asOsStr part)))
          base = .ok d := by
  induction parts generalizing base with
  | nil => simp
  | cons part parts ih =>
      simp only [List.foldlM_cons, bind_eq_ok, ioError, mapError_eq_ok, List.forall_mem_cons]
      simp only [ioError] at ih
      constructor
      · rintro ⟨next, hnext, hrest⟩
        obtain ⟨hnul, hsize, hopen⟩ := pathCall_eq_ok_iff.mp hnext
        obtain ⟨hparts, hfold⟩ := ih.mp hrest
        exact ⟨⟨⟨hnul, hsize⟩, hparts⟩, next, hopen, hfold⟩
      · rintro ⟨⟨⟨hnul, hsize⟩, hparts⟩, next, hopen, hfold⟩
        exact ⟨next, pathCall_eq_ok_iff.mpr ⟨hnul, hsize, hopen⟩, ih.mpr ⟨hparts, hfold⟩⟩

/-- The components of an accepted path are dots and its names. -/
lemma Accepted.forall_components (h : Accepted relative) {p : Str → Prop} (hdot : p ['.']) :
    (∀ part ∈ Path.components (relativeOrSelf relative), p (asOsStr part)) ↔
      ∀ name ∈ Path.names relative, p name := by
  rw [← (relativeOrSelf_spec relative).1]
  unfold Path.names
  constructor
  · intro hparts name hname
    obtain ⟨part, hpart, hsome⟩ := List.mem_filterMap.mp hname
    have hp := hparts part hpart
    unfold Path.Component.name? at hsome
    split at hsome
    · cases hsome
      exact hp
    · cases hsome
  · intro hnames part hpart
    have hbeneath := h.orSelf part hpart
    cases part with
    | curDir => exact hdot
    | normal name => exact hnames name (List.mem_filterMap.mpr ⟨.normal name, hpart, rfl⟩)
    | rootDir => cases hbeneath
    | parentDir => cases hbeneath

/-- **Component calls** open what they open on the tree, when they take the names. -/
lemma openDirectory_unsupported_iff (h : Accepted relative) (hsupported : view.supported = false) :
    view.kernel.openDirectory base relative = .ok d ↔
      view.Fits relative ∧ view.Short relative ∧
        openDirectory false view.tree base relative = .ok d := by
  have hcall : view.kernel.openDirectory base relative = .ok d ↔ Char.ofNat 0 ∉ relative ∧
      view.kernel.openComponents base (relativeOrSelf relative) = .ok d := by
    rw [← (relativeOrSelf_spec relative).2]
    unfold Kernel.openDirectory
    rw [h.any_eq_false]
    by_cases hnul : Char.ofNat 0 ∈ relativeOrSelf relative
    · simp [View.kernel, hsupported, hnul, show (Errno.INVAL = Errno.NOSYS) = False by decide]
    · simp [View.kernel, hsupported, hnul]
  rw [hcall, openDirectory_unsupported view.tree base h]
  unfold Kernel.openComponents openComponents
  simp only [bind_eq_ok, foldlM_kernel_openat_eq_ok_iff]
  simp only [ioError, mapError_eq_ok]
  constructor
  · rintro ⟨hnul, start, hstart, hparts, hfold⟩
    have hopen' : view.pathCall ['.'] (openat view.tree base ['.']) = .ok start := hstart
    obtain ⟨-, hsize, hopen⟩ := pathCall_eq_ok_iff.mp hopen'
    have hnames := (h.forall_components (p := fun name => view.size name < PATH_MAX) hsize).mp
      fun part hpart => (hparts part hpart).2
    exact ⟨⟨hnul, fun _ => ⟨hsize, hnames⟩⟩, fun hyes => (by cases hsupported.symm.trans hyes),
      start, hopen, hfold⟩
  · rintro ⟨⟨hnul, hnames⟩, -, start, hopen, hfold⟩
    obtain ⟨hsize, hnames⟩ := hnames hsupported
    have hplain : ∀ name ∈ Path.names relative, Char.ofNat 0 ∉ name := by
      intro name hname hmem
      exact hnul ((Path.mem_iff_exists_name (by decide) (by decide)).mpr ⟨name, hname, hmem⟩)
    have hparts := (h.forall_components (p := fun name => Char.ofNat 0 ∉ name)
      (by decide)).mpr hplain
    have hsizes := (h.forall_components (p := fun name => view.size name < PATH_MAX)
      hsize).mpr hnames
    exact ⟨hnul, start, pathCall_eq_ok_iff.mpr ⟨by decide, hsize, hopen⟩,
      fun part hpart => ⟨hparts part hpart, hsizes part hpart⟩, hfold⟩

/-- **What is opened beneath a directory**: a path that the system calls take, whose names lead
there through directories that the kernel can pass, and it may be opened. -/
theorem openDirectory_eq_ok_iff (h : Accepted relative) :
    view.kernel.openDirectory base relative = .ok d ↔
      view.Fits relative ∧ view.Short relative ∧
      ∃ passed, Walk view.tree base (Path.names relative) passed d ∧
        (∀ node ∈ passed, view.Passable node) ∧ Readable view.tree d ∧
        (view.AtDot relative → Searchable view.tree d) := by
  unfold View.Passable View.AtDot
  rw [← h.pathNames_eq]
  cases hsupported : view.supported with
  | true =>
      rw [openDirectory_supported_iff h hsupported, openDirectory_supported view.tree base h,
        ioError, mapError_eq_ok, openat2_eq_ok_iff h]
      refine and_congr_right fun _ => and_congr_right fun _ => exists_congr fun passed =>
        and_congr_right fun _ => ?_
      constructor
      · intro hbeneath
        exact ⟨fun node hnode => ⟨hbeneath.passed node hnode, fun hno => by cases hno⟩,
          hbeneath.last, hbeneath.dotted⟩
      · rintro ⟨hpassed, hlast, hdotted⟩
        exact ⟨fun node hnode => (hpassed node hnode).1, hdotted, hlast⟩
  | false =>
      rw [openDirectory_unsupported_iff h hsupported, openDirectory_unsupported view.tree base h,
        openComponents_eq_ok_iff h]
      refine and_congr_right fun _ => and_congr_right fun _ => ?_
      constructor
      · rintro ⟨hbase, passed, hwalk, hpassed, hlast⟩
        refine ⟨passed, hwalk, fun node hnode => ⟨(hpassed node hnode).1, fun _ =>
          (hpassed node hnode).2⟩, hlast, fun hnames => ?_⟩
        rw [hnames] at hwalk
        obtain ⟨-, -, rfl⟩ := walk_nil_iff.mp hwalk
        exact hbase
      · rintro ⟨passed, hwalk, hpassed, hlast, hself⟩
        refine ⟨searchable_base hwalk (fun node hnode => (hpassed node hnode).1) hself, passed,
          hwalk, fun node hnode => ⟨(hpassed node hnode).1, (hpassed node hnode).2 rfl⟩, hlast⟩

/-- What is opened beneath a directory has an accepted path. -/
lemma accepted_of_openDirectory (h : view.kernel.openDirectory base relative = .ok d) :
    Accepted relative := by
  intro part hpart
  by_contra hbad
  have hany : ((Path.components relative).any fun part => !isBeneath part) = true :=
    List.any_eq_true.mpr ⟨part, hpart, by simp [hbad]⟩
  unfold Kernel.openDirectory at h
  rw [if_pos hany] at h
  cases h

/-- A verified directory is one of the filesystem, under the path. -/
lemma verified_eq_ok_iff {kernel : Kernel I} {directory : I} {path : Str} {c : Cgroup I} :
    kernel.verified directory path = .ok c ↔
      kernel.fstatfs directory = .ok CGROUP2_SUPER_MAGIC ∧ c = ⟨directory, path⟩ := by
  unfold Kernel.verified
  rcases kernel.fstatfs directory with errno | fType
  · simp [ioError, Except.mapError]
  · by_cases hmagic : fType = CGROUP2_SUPER_MAGIC
    · simp only [ioError, Except.mapError, ok_bind, hmagic, true_and]
      constructor
      · intro h
        cases h
        rfl
      · rintro rfl
        rfl
    · simp [ioError, Except.mapError, hmagic]

end opening

/-! ## Paths -/

namespace View

variable {view : View I} {path : Str} {c : Cgroup I}

/-- The directory a path starts from may be opened; the current one is looked up by a dot. -/
structure StartOpens (view : View I) (path : Str) : Prop where
  /-- It is a directory. -/
  isDirectory : IsDirectory view.tree (view.start path)
  /-- It may be opened. -/
  readable : Readable view.tree (view.start path)
  /-- The dot. -/
  dot : Path.isAbsolute path = false → Searchable view.tree (view.start path)
  /-- Its own path is not too long. -/
  short : view.size (if Path.isAbsolute path then ['/'] else ['.']) < PATH_MAX

/-- The start of a path is opened exactly when it may be. -/
lemma openBase_eq_ok_iff {base : I} :
    view.openBase path = .ok base ↔ view.StartOpens path ∧ base = view.start path := by
  have hspec : view.StartOpens path ↔ IsDirectory view.tree (view.start path) ∧
      Readable view.tree (view.start path) ∧
      (Path.isAbsolute path = false → Searchable view.tree (view.start path)) ∧
      view.size (if Path.isAbsolute path then ['/'] else ['.']) < PATH_MAX :=
    ⟨fun h => ⟨h.isDirectory, h.readable, h.dot, h.short⟩,
      fun h => ⟨h.1, h.2.1, h.2.2.1, h.2.2.2⟩⟩
  rw [hspec]
  unfold openBase start
  cases Path.isAbsolute path with
  | true =>
      simp only [if_true, ioError, mapError_eq_ok, pathCall_eq_ok_iff, openNode_eq_ok_iff]
      constructor
      · rintro ⟨-, hsize, hdir, hread, rfl⟩
        exact ⟨⟨hdir, hread, fun hno => (by cases hno), hsize⟩, rfl⟩
      · rintro ⟨⟨hdir, hread, -, hsize⟩, rfl⟩
        exact ⟨by decide, hsize, hdir, hread, rfl⟩
  | false =>
      simp only [Bool.false_eq_true, if_false, ioError, mapError_eq_ok]
      have hcall : view.kernel.openat view.cwd ['.'] = .ok base ↔ Char.ofNat 0 ∉ ['.'] ∧
          view.size ['.'] < PATH_MAX ∧ openEntry view.tree view.cwd dot = .ok base := by
        show view.pathCall ['.'] (openat view.tree view.cwd ['.']) = .ok base ↔ _
        rw [pathCall_eq_ok_iff]
        unfold openat
        rw [mapError_eq_ok]
        rfl
      rw [hcall, openEntry_dot_eq_ok_iff]
      constructor
      · rintro ⟨-, hsize, hdir, hsearch, hread, rfl⟩
        exact ⟨⟨hdir, hread, fun _ => hsearch, hsize⟩, rfl⟩
      · rintro ⟨⟨hdir, hread, hsearch, hsize⟩, rfl⟩
        exact ⟨by decide, hsize, hdir, hsearch trivial, hread, rfl⟩

/-- An absolute path is stripped of its root. -/
lemma exists_relativeOf (path : Str) :
    ∃ relative, relativeOf path = .ok relative ∧ Path.names relative = Path.names path := by
  unfold relativeOf
  cases habsolute : Path.isAbsolute path with
  | true =>
      obtain ⟨cs, hcs⟩ := Path.components_of_isAbsolute habsolute
      have hprefix : Path.components ['/'] <+: Path.components path := by
        rw [hcs]
        exact ⟨cs, rfl⟩
      obtain ⟨relative, hrelative⟩ :=
        Option.isSome_iff_exists.mp (Path.stripPrefix_isSome.mpr hprefix)
      exact ⟨relative, by simp [hrelative], Path.names_stripPrefix hrelative⟩
  | false => exact ⟨path, rfl, rfl⟩

/-- The path of a handle leads to its directory, from its start through directories that the kernel
can pass. -/
structure Leads (view : View I) (c : Cgroup I) (relative : Str) : Prop where
  /-- The path from the start. -/
  beneath : relativeOf c.path = .ok relative
  /-- It stays beneath. -/
  accepted : Accepted relative
  /-- The kernel takes its names. -/
  fits : view.Fits relative
  /-- The start may be opened. -/
  start : view.StartOpens c.path
  /-- The names lead to the directory. -/
  walk : ∃ passed, Walk view.tree (view.start c.path) (Path.names c.path) passed c.directory ∧
    ∀ node ∈ passed, view.Passable node
  /-- The directory may be opened. -/
  readable : Readable view.tree c.directory
  /-- It may be searched, if it is looked up by a dot. -/
  dot : view.AtDot relative → Searchable view.tree c.directory
  /-- It is one of the filesystem. -/
  magic : view.fstatfs c.directory = .ok CGROUP2_SUPER_MAGIC

/-- **What a path opens.** -/
theorem fromPath_eq_ok_iff :
    view.fromPath path = .ok c ↔
      c.path = path ∧ ∃ relative, view.Leads c relative ∧ view.Short relative := by
  obtain ⟨relative, hrelative, hnames⟩ := exists_relativeOf path
  unfold fromPath openPath
  rw [mapError_eq_ok, hrelative]
  simp only [ok_bind, bind_eq_ok, openBase_eq_ok_iff, verified_eq_ok_iff]
  constructor
  · rintro ⟨base, ⟨hstart, rfl⟩, d, hopen, hmagic, rfl⟩
    have haccepted := accepted_of_openDirectory hopen
    obtain ⟨hfits, hshort, passed, hwalk, hpassed, hlast, hdot⟩ :=
      (openDirectory_eq_ok_iff haccepted).mp hopen
    rw [hnames] at hwalk
    exact ⟨rfl, relative, ⟨hrelative, haccepted, hfits, hstart, ⟨passed, hwalk, hpassed⟩, hlast,
      hdot, hmagic⟩, hshort⟩
  · rintro ⟨rfl, relative', hleads, hshort⟩
    cases hrelative.symm.trans hleads.beneath
    obtain ⟨passed, hwalk, hpassed⟩ := hleads.walk
    rw [← hnames] at hwalk
    exact ⟨_, ⟨hleads.start, rfl⟩, c.directory, (openDirectory_eq_ok_iff hleads.accepted).mpr
      ⟨hleads.fits, hshort, passed, hwalk, hpassed, hleads.readable, hleads.dot⟩, hleads.magic,
      rfl⟩

/-- **A path that is too long** is refused, wherever it leads. -/
lemma fromPath_of_long {relative : Str} (h : view.Leads c relative)
    (hlong : ¬ view.Short relative) :
    view.fromPath c.path = .error (.operation "open cgroup" c.path (.os .NAMETOOLONG)) := by
  obtain ⟨hsupported, hsize⟩ := Classical.not_imp.mp hlong
  have hbase := openBase_eq_ok_iff.mpr ⟨h.start, rfl⟩
  have hnul : Char.ofNat 0 ∉ relativeOrSelf relative := by
    rw [(relativeOrSelf_spec relative).2]
    exact h.fits.nul
  have hopen : view.kernel.openDirectory (view.start c.path) relative =
      .error (.io (.os .NAMETOOLONG)) := by
    unfold Kernel.openDirectory kernel pathCall
    rw [h.accepted.any_eq_false]
    simp [hsupported, hnul, hsize, show (Errno.NAMETOOLONG = Errno.NOSYS) = False by decide]
  unfold fromPath openPath
  rw [h.beneath]
  simp only [ok_bind, hbase, hopen]
  rfl

end View

/-! ## Children -/

/-- The name is a single one. -/
def Single (name : Str) : Prop := '/' ∉ name ∧ Path.components name = [.normal name]

/-- A name that is no path and starts with a name is a single one. -/
lemma single_of_check {name : Str}
    (h : (name.contains '/' || !startsNormal name) = false) : Single name := by
  obtain ⟨hcontains, hstarts⟩ := Bool.or_eq_false_iff.mp h
  have hsep : '/' ∉ name := by
    rw [← List.contains_iff_mem, hcontains]
    exact Bool.false_ne_true
  refine ⟨hsep, ?_⟩
  have hnormal : startsNormal name = true := by simpa using hstarts
  refine Path.components_of_not_mem hsep ?_ ?_ ?_
  · rintro rfl
    cases hnormal
  · rintro rfl
    cases hnormal
  · rintro rfl
    cases hnormal

/-- A single name is accepted beneath a directory. -/
lemma Single.accepted {name : Str} (h : Single name) : Accepted name := by
  unfold Accepted
  rw [h.2]
  simp [isBeneath]

/-- The piece of a single name is its only one. -/
lemma Single.pieces {name : Str} (h : Single name) : Path.pieces name = [name] :=
  List.splitOn_eq_singleton h.1

/-- A single name has no start. -/
lemma Single.startOf {name : Str} (h : Single name) : Path.startOf (Path.pieces name) = [] := by
  have hcomponents := h.2
  unfold Path.components at hcomponents
  rw [h.pieces] at hcomponents ⊢
  unfold Path.startOf at hcomponents ⊢
  split <;> simp_all

/-- A single name is one component. -/
lemma Single.piece? {name : Str} (h : Single name) :
    Path.piece? name = some (.normal name) := by
  have hcomponents := h.2
  unfold Path.components at hcomponents
  rw [h.startOf, h.pieces, List.nil_append] at hcomponents
  rcases hpiece : Path.piece? name with _ | component
  · rw [List.filterMap_cons_none hpiece] at hcomponents
    cases hcomponents
  · rw [List.filterMap_cons_some hpiece] at hcomponents
    rw [(List.cons.inj hcomponents).1]

/-- **What a child is.** -/
lemma child_eq_ok_iff {kernel : Kernel I} {self child : Cgroup I} {name : Str} :
    kernel.child self name = .ok child ↔
      (name.contains '/' || !startsNormal name) = false ∧
        kernel.openDirectory self.directory name = .ok child.directory ∧
        kernel.fstatfs child.directory = .ok CGROUP2_SUPER_MAGIC ∧
        child.path = Path.join self.path name := by
  unfold Kernel.child
  cases hcheck : name.contains '/' || !startsNormal name with
  | true => simp
  | false =>
      simp only [Bool.false_eq_true, if_false, bind_eq_ok, mapError_eq_ok, verified_eq_ok_iff,
        true_and]
      constructor
      · rintro ⟨directory, hopen, hmagic, rfl⟩
        exact ⟨hopen, hmagic, rfl⟩
      · rintro ⟨hopen, hmagic, hpath⟩
        exact ⟨child.directory, hopen, hmagic, by rw [← hpath]⟩

/-- A path that ends with a component does not end at a dot. -/
lemma not_dotted {relative piece : Str} {component : Path.Component}
    (hlast : (Path.pieces relative).getLast? = some piece)
    (hpiece : Path.piece? piece = some component) : ¬ Dotted relative := by
  have hne : relative.isEmpty = false := by
    rw [List.isEmpty_eq_false_iff]
    rintro rfl
    cases hlast
    cases hpiece
  have hsome : piece ≠ [] := by
    rintro rfl
    cases hpiece
  obtain ⟨front, hfront⟩ := List.getLast?_eq_some_iff.mp hlast
  unfold Dotted relativeOrSelf EndsAtDot
  rw [hne, if_neg Bool.false_ne_true, hfront, List.filter_append,
    List.filter_cons_of_pos (by simpa using hsome), List.filter_nil, List.getLast?_concat]
  intro hdot
  rw [Option.some.inj hdot] at hpiece
  cases hpiece

namespace View

variable {view : View I} {path relative : Str} {c : Cgroup I}

/-- The path from the start of an absolute path has the components after the root, and that of any
other is the path itself. -/
lemma relativeOf_eq_ok (h : relativeOf path = .ok relative) :
    (Path.isAbsolute path = true → Path.stripPrefix path ['/'] = some relative ∧
      Path.components path = .rootDir :: Path.components relative) ∧
    (Path.isAbsolute path = false → relative = path) := by
  unfold relativeOf at h
  cases habsolute : Path.isAbsolute path with
  | true =>
      rw [habsolute, if_pos rfl] at h
      rcases hstrip : Path.stripPrefix path ['/'] with _ | rest
      · rw [hstrip] at h
        cases h
      · rw [hstrip] at h
        cases h
        have hcomponents := (Path.components_of_stripPrefix (by decide) hstrip).2
        exact ⟨fun _ => ⟨rfl, hcomponents⟩, fun hno => (by cases hno)⟩
  | false =>
      rw [habsolute, if_neg Bool.false_ne_true] at h
      cases h
      exact ⟨fun hno => (by cases hno), fun _ => rfl⟩

/-- A single name joined to a path is joined to the path from its start, which then does not end at
a dot. -/
lemma relativeOf_join {name relative' : Str} (hname : Single name)
    (h : relativeOf path = .ok relative)
    (h' : relativeOf (Path.join path name) = .ok relative') :
    Path.components relative' = Path.components relative ++ [.normal name] ∧
      ¬ Dotted relative' := by
  have hrelative : Path.isAbsolute name = false := Path.isAbsolute_eq_false hname.startOf
  have hjoin := Path.components_join path hname.startOf
  rw [hname.2] at hjoin
  obtain ⟨habs, hrel⟩ := relativeOf_eq_ok h
  obtain ⟨habs', hrel'⟩ := relativeOf_eq_ok h'
  rw [Path.isAbsolute_join hrelative] at habs' hrel'
  cases habsolute : Path.isAbsolute path with
  | true =>
      obtain ⟨-, hcomponents⟩ := habs habsolute
      obtain ⟨hstrip, hcomponents'⟩ := habs' habsolute
      have hafter : Path.components relative' = Path.components relative ++ [.normal name] := by
        rw [hjoin, hcomponents] at hcomponents'
        exact (List.cons.inj hcomponents').2.symm
      refine ⟨hafter, ?_⟩
      have hne : relative' ≠ [] := by
        rintro rfl
        exact List.append_ne_nil_of_right_ne_nil _ (List.cons_ne_nil _ _) hafter.symm
      obtain ⟨piece, component, hlast, hpiece⟩ :=
        Path.exists_last_piece_of_stripPrefix hstrip hne
      exact not_dotted hlast hpiece
  | false =>
      rw [hrel habsolute, hrel' habsolute]
      exact ⟨hjoin, not_dotted (Path.getLast?_pieces_join path hname.1 hrelative) hname.piece?⟩

/-- **A child of a handle whose path leads to it** has a path that leads to it. -/
lemma Leads.child {child : Cgroup I} {name : Str} (h : view.Leads c relative)
    (hchild : view.kernel.child c name = .ok child) :
    ∃ relative', view.Leads child relative' := by
  obtain ⟨passed, hwalk, hpassed⟩ := h.walk
  obtain ⟨hcheck, hopen, hmagic, hpath⟩ := child_eq_ok_iff.mp hchild
  have hname := single_of_check hcheck
  obtain ⟨hfits, -, entered, hstep, hentered, hlast, -⟩ :=
    (openDirectory_eq_ok_iff hname.accepted).mp hopen
  obtain ⟨relative', hrelative', hnames'⟩ := exists_relativeOf child.path
  obtain ⟨hcomponents, hundotted⟩ := relativeOf_join hname h.beneath (hpath ▸ hrelative')
  have hsame : Path.isAbsolute child.path = Path.isAbsolute c.path := by
    rw [hpath, Path.isAbsolute_join (Path.isAbsolute_eq_false hname.startOf)]
  have hself : Path.names name = [name] := by
    unfold Path.names
    rw [hname.2]
    rfl
  have hnames : Path.names child.path = Path.names c.path ++ [name] := by
    rw [hpath, Path.names_join _ hname.startOf, hself]
  have hrelative : Path.names relative' = Path.names relative ++ [name] := by
    unfold Path.names
    rw [hcomponents, List.filterMap_append]
    rfl
  have haccepted' : Accepted relative' := by
    intro part hpart
    rw [hcomponents] at hpart
    rcases List.mem_append.mp hpart with hbefore | hlast
    · exact h.accepted part hbefore
    · rw [List.mem_singleton.mp hlast]
      rfl
  refine ⟨relative', hrelative', haccepted', ⟨?_, fun hsupported => ?_⟩, ?_,
    ⟨passed ++ entered, ?_, ?_⟩, hlast, ?_, hmagic⟩
  · -- A NUL would be in a name of the handle, or in that of the child.
    rw [Path.mem_iff_exists_name (by decide) (by decide), hrelative]
    rintro ⟨name', hname', hnul⟩
    rcases List.mem_append.mp hname' with hbefore | hlast
    · exact h.fits.nul
        ((Path.mem_iff_exists_name (by decide) (by decide)).mpr ⟨name', hbefore, hnul⟩)
    · rw [List.mem_singleton.mp hlast] at hnul
      exact hfits.nul hnul
  · obtain ⟨hdot, hbefore⟩ := h.fits.names hsupported
    obtain ⟨-, hlast⟩ := hfits.names hsupported
    rw [hself] at hlast
    refine ⟨hdot, fun name' hname' => ?_⟩
    rw [hrelative] at hname'
    rcases List.mem_append.mp hname' with hmem | hmem
    · exact hbefore name' hmem
    · exact hlast name' hmem
  · have hstart := h.start
    have hbase : view.start child.path = view.start c.path := by
      unfold View.start
      rw [hsame]
    refine ⟨hbase ▸ hstart.isDirectory, hbase ▸ hstart.readable, fun hrel => ?_, ?_⟩
    · rw [hbase]
      exact hstart.dot (hsame ▸ hrel)
    · rw [hsame]
      exact hstart.short
  · have hbase : view.start child.path = view.start c.path := by
      unfold View.start
      rw [hsame]
    rw [hbase, hnames, ← hself]
    exact hwalk.append hstep
  · intro node hnode
    rcases List.mem_append.mp hnode with hbefore | hafter
    · exact hpassed node hbefore
    · exact hentered node hafter
  · -- The last name of the path is that of the child.
    intro hatDot
    exfalso
    unfold AtDot at hatDot
    split_ifs at hatDot
    · exact hundotted hatDot
    · rw [haccepted'.pathNames_eq, hrelative] at hatDot
      cases (List.append_eq_nil_iff.mp hatDot).2

/-! ## Handles -/

/-- The handles that a process can obtain: from the membership of a process, from a path, and from
the children of a handle, by name or from their listing. -/
inductive Obtained (view : View I) : Cgroup I → Prop
  /-- A process is discovered.
  Source: `handle.rs`, `Cgroup::from_pid` and `Cgroup::from_current_process`. -/
  | discovered {procfs : ProcFs} {pid : UInt32} {c : Cgroup I} :
      (fromPid procfs (fun path => (pure (view.fromPath path) : StateM Unit _)) pid).run () =
        (.ok c, ()) → Obtained view c
  /-- A path is opened.
  Source: `handle.rs`, `Cgroup::from_path`. -/
  | opened {path : Str} {c : Cgroup I} : view.fromPath path = .ok c → Obtained view c
  /-- A child is opened.
  Source: `handle.rs`, `Cgroup::child`. -/
  | child {c child : Cgroup I} {name : Str} :
      Obtained view c → view.kernel.child c name = .ok child → Obtained view child
  /-- A child is listed.
  Source: `handle.rs`, `Cgroup::children`. -/
  | listed {c child : Cgroup I} {results : List (Enumerated I)} {children : List (Cgroup I)} :
      Obtained view c → (∀ result ∈ results, result.kernel = view.kernel) →
      c.children (.ok results) = .ok children → child ∈ children → Obtained view child

/-- What is found among the candidates is opened by the path of one of them. -/
lemma exists_candidate {candidates : List CgroupPath} {firstError : Option Error}
    (h : (openCandidatesFrom (fun path => (pure (view.fromPath path) : StateM Unit _)) firstError
      candidates).run () = (.ok c, ())) :
    ∃ candidate ∈ candidates, view.fromPath candidate.path = .ok c := by
  induction candidates generalizing firstError with
  | nil => cases h
  | cons candidate candidates ih =>
      unfold openCandidatesFrom at h
      rcases hopen : view.fromPath candidate.path with error | value
      · simp only [hopen, pure_bind] at h
        obtain ⟨found, hmem, hfound⟩ := ih h
        exact ⟨found, List.mem_cons_of_mem _ hmem, hfound⟩
      · simp only [hopen, pure_bind] at h
        cases h
        exact ⟨candidate, List.mem_cons_self, hopen⟩

/-- **The path of every handle leads to this handle.** -/
lemma Obtained.leads (h : view.Obtained c) : ∃ relative, view.Leads c relative := by
  induction h with
  | discovered hrun =>
      rename_i procfs pid c
      unfold fromPid at hrun
      rcases hdiscover : discover procfs pid with error | candidates
      · rw [hdiscover] at hrun
        cases hrun
      · rw [hdiscover] at hrun
        obtain ⟨candidate, -, hopen⟩ := exists_candidate hrun
        obtain ⟨-, relative, hleads, -⟩ := fromPath_eq_ok_iff.mp hopen
        exact ⟨relative, hleads⟩
  | opened hopen =>
      obtain ⟨-, relative, hleads, -⟩ := fromPath_eq_ok_iff.mp hopen
      exact ⟨relative, hleads⟩
  | child _ hchild ih =>
      obtain ⟨relative, hleads⟩ := ih
      exact hleads.child hchild
  | listed _ hkernels hlisting hmem ih =>
      obtain ⟨relative, hleads⟩ := ih
      obtain ⟨result, hresult, hkept⟩ := (Cgroup.children_eq_ok_iff.mp hlisting).exists_of_mem hmem
      obtain ⟨entry, -, hchild, hopen, hmagic, hpath⟩ := hkept
      rw [hkernels result hresult] at hopen hmagic
      refine hleads.child (child_eq_ok_iff.mpr ⟨hchild.single, ?_, hmagic, hpath⟩)
      rw [hchild.openDirectory, hopen]
      rfl

/-- The path of a handle has no parent component. -/
lemma Leads.parentDir_not_mem (h : view.Leads c relative) :
    Path.Component.parentDir ∉ Path.components c.path := by
  have hnot : Path.Component.parentDir ∉ Path.components relative := by
    intro hmem
    cases h.accepted _ hmem
  obtain ⟨habs, hrel⟩ := relativeOf_eq_ok h.beneath
  cases habsolute : Path.isAbsolute c.path with
  | true =>
      rw [(habs habsolute).2, List.mem_cons]
      rintro (hroot | hmem)
      · cases hroot
      · exact hnot hmem
  | false =>
      rw [hrel habsolute] at hnot
      exact hnot

end View

/-- **Handles and their paths.** On a tree that does not change, whatever a process may do with it,
and whether the kernel has `openat2` or not: every handle that a process obtains, by discovery, from
a path, as a child or from a listing and in any order of these, is the one that its own path opens
again, unless the kernel has `openat2` and the path from its start is too long, which is then the
error; its path has no parent component; and two handles whose paths have the same start and the
same names have the same directory. -/
theorem handles_reopen (view : View I) (c : Cgroup I) (h : view.Obtained c) :
    (∃ relative, View.relativeOf c.path = .ok relative ∧
      (view.Short relative → view.fromPath c.path = .ok c) ∧
      (¬ view.Short relative → view.fromPath c.path =
        .error (.operation "open cgroup" c.path (.os .NAMETOOLONG)))) ∧
    Path.Component.parentDir ∉ Path.components c.path ∧
    ∀ c', view.Obtained c' → Path.isAbsolute c'.path = Path.isAbsolute c.path →
      Path.names c'.path = Path.names c.path → c'.directory = c.directory := by
  obtain ⟨relative, hleads⟩ := h.leads
  refine ⟨⟨relative, hleads.beneath, fun hshort => ?_, View.fromPath_of_long hleads⟩,
    hleads.parentDir_not_mem, fun c' h' hstart hnames => ?_⟩
  · exact View.fromPath_eq_ok_iff.mpr ⟨rfl, relative, hleads, hshort⟩
  · obtain ⟨_, hwalk, -⟩ := hleads.walk
    obtain ⟨relative', hleads'⟩ := h'.leads
    obtain ⟨_, hwalk', -⟩ := hleads'.walk
    unfold View.start at hwalk hwalk'
    rw [hstart, hnames] at hwalk'
    exact (hwalk'.unique hwalk).2

/-- A view of the tree `/a/b`, all of it a cgroup hierarchy, from a kernel without `openat2`. -/
def plainView : View ℕ where
  tree
    | 0 => ⟨.directory fun name => if name = ['a'] then some 1 else none, ⟨true, true⟩⟩
    | 1 => ⟨.directory fun name => if name = ['b'] then some 2 else none, ⟨true, true⟩⟩
    | _ => ⟨.directory fun _ => none, ⟨true, true⟩⟩
  root := 0
  cwd := 1
  supported := false
  fstatfs _ := .ok CGROUP2_SUPER_MAGIC
  size := List.length

/-- The child `b` of `//a/.` is what its path opens. -/
theorem handles_reopen_child :
    plainView.fromPath "//a/./b".toList = .ok ⟨2, "//a/./b".toList⟩ := by
  have hopen : plainView.fromPath "//a/.".toList = .ok ⟨1, "//a/.".toList⟩ := rfl
  have hchild : plainView.kernel.child ⟨1, "//a/.".toList⟩ ['b'] = .ok ⟨2, "//a/./b".toList⟩ := rfl
  obtain ⟨⟨relative, -, hshort, -⟩, -, -⟩ :=
    handles_reopen plainView _ (.child (.opened hopen) hchild)
  apply hshort
  intro hsupported
  cases hsupported

end Sakai
