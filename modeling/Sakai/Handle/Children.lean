import Sakai.Handle.Open
import Sakai.Lib.FirstLast

/-!
# Listing the children of a cgroup

`Cgroup.children` enumerates a directory and opens each entry that is a directory. The system may
change all the while: each result of the enumeration comes with the system calls as they answer
while it is handled, and these may answer anything.

* `childEntry_eq_none_iff`, `childEntry_eq_ok_iff`, `childEntry_eq_error_iff`: an entry is left out
  when it is no child or is gone, kept when it opens and is verified, and fails the listing
  otherwise.
* `children_listing`: what is listed, and which failure is returned.
-/

namespace Sakai

open Lib

variable {Fd : Type}

/-! ## The system calls -/

/-- The system calls that open and identify directories, as they answer at some time. -/
structure Kernel (Fd : Type) where
  /-- `openat2` with `DIRECTORY_FLAGS`, `BENEATH` and `NO_SYMLINKS`. -/
  openat2 : Fd → Str → Except Errno Fd
  /-- `openat` with `DIRECTORY_FLAGS`. -/
  openat : Fd → Str → Except Errno Fd
  /-- The field `f_type` of `fstatfs`. -/
  fstatfs : Fd → Except Errno UInt64

namespace Kernel

variable (kernel : Kernel Fd)

/-- Source: `handle.rs`, `Cgroup::open_components`. -/
def openComponents (base : Fd) (relative : Str) : Except Error Fd := do
  let start ← ioError (kernel.openat base ['.'])
  (Path.components relative).foldlM
    (fun directory part => ioError (kernel.openat directory (asOsStr part))) start

/-- Source: `handle.rs`, `Cgroup::open_directory`. -/
def openDirectory (base : Fd) (relative : Str) : Except Error Fd :=
  if (Path.components relative).any fun part => !isBeneath part then .error (.io .invalidInput)
  else
    match kernel.openat2 base (relativeOrSelf relative) with
    | .ok fd => .ok fd
    | .error errno =>
      if errno = .NOSYS then kernel.openComponents base (relativeOrSelf relative)
      else .error (.io (.os errno))

end Kernel

/-- The system calls on a file tree, with the answers of `fstatfs`. -/
def Kernel.ofTree {I : Type} (supported : Bool) (tree : FileTree I)
    (fstatfs : I → Except Errno UInt64) : Kernel I :=
  ⟨Sakai.openat2 supported tree, Sakai.openat tree, fstatfs⟩

/-- On a file tree, directories are opened as before. -/
lemma Kernel.openDirectory_ofTree {I : Type} (supported : Bool) (tree : FileTree I)
    (fstatfs : I → Except Errno UInt64) (base : I) (relative : Str) :
    (Kernel.ofTree supported tree fstatfs).openDirectory base relative =
      Sakai.openDirectory supported tree base relative := rfl

/-! ## Children -/

/-- Source: `handle.rs`, `CGROUP2_SUPER_MAGIC`. -/
def CGROUP2_SUPER_MAGIC : UInt64 := 0x63677270

/-- An open cgroup directory and the path it was opened by.
Source: `handle.rs`, `Cgroup`. -/
structure Cgroup (Fd : Type) where
  /-- The open directory. -/
  directory : Fd
  /-- The path. -/
  path : Str
  deriving DecidableEq, Repr

/-- The type of a directory entry.
Source: `rustix::fs::FileType`. -/
inductive FileType
  | regularFile
  | directory
  | symlink
  | fifo
  | socket
  | characterDevice
  | blockDevice
  | unknown
  deriving DecidableEq, Repr

/-- A directory entry; a kernel reports no others.
Source: `rustix::fs::DirEntry`. -/
structure DirEntry where
  /-- Its type. -/
  fileType : FileType
  /-- Its name, a character for each byte. -/
  fileName : Str
  /-- The name is not empty. -/
  ne_nil : fileName ≠ []
  /-- The name holds no separator. -/
  separator : '/' ∉ fileName
  /-- The name holds no NUL. -/
  nul : Char.ofNat 0 ∉ fileName

/-- A result of the enumeration, with the system calls as they answer while it is handled. -/
structure Enumerated (Fd : Type) where
  /-- The entry, or an error. -/
  entry : Except Errno DirEntry
  /-- The system calls. -/
  kernel : Kernel Fd

/-- The first component is a name.
Source: `handle.rs`, the `matches!` of `Cgroup::child`. -/
def startsNormal (name : Str) : Bool :=
  match (Path.components name).head? with
  | some (.normal _) => true
  | _ => false

/-- An I/O error is given the operation and its path.
Source: `handle.rs`, the `map_err` of `Cgroup::child`. -/
def Error.inOperation (operation : String) (path : Str) : Error → Error
  | .io source => .operation operation path source
  | other => other

/-- The I/O error is `NotFound`.
Source: `handle.rs`, `source.kind() == io::ErrorKind::NotFound`. -/
def IoError.isNotFound : IoError → Bool
  | .os errno => errno = .NOENT
  | _ => false

namespace Kernel

variable (kernel : Kernel Fd)

/-- Source: `handle.rs`, `Cgroup::verified`. -/
def verified (directory : Fd) (path : Str) : Except Error (Cgroup Fd) := do
  if (← ioError (kernel.fstatfs directory)) = CGROUP2_SUPER_MAGIC then return ⟨directory, path⟩
  else .error .notCgroupV2

/-- Source: `handle.rs`, `Cgroup::child`. -/
def child (self : Cgroup Fd) (name : Str) : Except Error (Cgroup Fd) :=
  if name.contains '/' || !startsNormal name then .error (.io .invalidInput)
  else do
    let path := Path.join self.path name
    let directory ← (kernel.openDirectory self.directory name).mapError
      (Error.inOperation "open child cgroup" path)
    kernel.verified directory path

end Kernel

namespace Cgroup

variable (self : Cgroup Fd)

/-- An error of the enumeration.
Source: `handle.rs`, the `Operation` of `Cgroup::children`. -/
def listError (source : Errno) : Error := .operation "list child cgroups" self.path (.os source)

/-- What a result of the enumeration comes to.
Source: `handle.rs`, the `filter_map` closure of `Cgroup::children`. -/
def childEntry (result : Enumerated Fd) : Option (Except Error (Cgroup Fd)) :=
  match result.entry with
  | .error source => some (.error (self.listError source))
  | .ok entry =>
    if entry.fileType = .directory ∧ entry.fileName ∉ [['.'], ['.', '.']] then
      match result.kernel.child self entry.fileName with
      | .error (.operation operation path source) =>
        if source.isNotFound then none else some (.error (.operation operation path source))
      | outcome => some outcome
    else none

/-- Source: `handle.rs`, `Cgroup::children`. -/
def children (listing : Except Errno (List (Enumerated Fd))) : Except Error (List (Cgroup Fd)) := do
  let results ← listing.mapError self.listError
  (results.filterMap self.childEntry).mapM id

end Cgroup

/-! ## Names that both checks accept -/

/-- The entry is a child: a directory other than `.` and `..`. -/
def DirEntry.IsChild (entry : DirEntry) : Prop :=
  entry.fileType = .directory ∧ entry.fileName ≠ ['.'] ∧ entry.fileName ≠ ['.', '.']

/-- Opening a name in a directory: one call, or on kernels without it one for the directory and one
for the name. -/
def Kernel.openName (kernel : Kernel Fd) (directory : Fd) (name : Str) : Except Errno Fd :=
  match kernel.openat2 directory name with
  | .ok fd => .ok fd
  | .error errno =>
    if errno = .NOSYS then do kernel.openat (← kernel.openat directory ['.']) name
    else .error errno

namespace DirEntry

variable {entry : DirEntry}

/-- The name of a child is one component. -/
lemma IsChild.components (h : entry.IsChild) :
    Path.components entry.fileName = [.normal entry.fileName] :=
  Path.components_of_not_mem entry.separator entry.ne_nil h.2.1 h.2.2

/-- The name of a child is accepted as a single name. -/
lemma IsChild.single (h : entry.IsChild) :
    (entry.fileName.contains '/' || !startsNormal entry.fileName) = false := by
  have hstarts : startsNormal entry.fileName = true := by
    unfold startsNormal
    rw [h.components]
    rfl
  have hsep : entry.fileName.contains '/' = false := by
    rw [Bool.eq_false_iff, Ne, List.contains_iff_mem]
    exact entry.separator
  rw [hsep, hstarts]
  rfl

/-- The name of a child is accepted as a path beneath the directory. -/
lemma IsChild.accepted (h : entry.IsChild) : Accepted entry.fileName := by
  unfold Accepted
  rw [h.components]
  simp [isBeneath]

/-- The directory of a child is opened by its name. -/
lemma IsChild.openDirectory (h : entry.IsChild) (kernel : Kernel Fd) (directory : Fd) :
    kernel.openDirectory directory entry.fileName =
      ioError (kernel.openName directory entry.fileName) := by
  have hany : ((Path.components entry.fileName).any fun part => !isBeneath part) = false := by
    rw [h.components]
    rfl
  have hself : relativeOrSelf entry.fileName = entry.fileName := by
    unfold relativeOrSelf
    rw [if_neg]
    rw [List.isEmpty_iff]
    exact entry.ne_nil
  unfold Kernel.openDirectory Kernel.openName
  rw [hany, hself]
  rcases kernel.openat2 directory entry.fileName with errno | fd
  · by_cases hsys : errno = .NOSYS
    · simp only [Bool.false_eq_true, if_false, if_pos hsys]
      unfold Kernel.openComponents
      rw [h.components]
      rcases kernel.openat directory ['.'] with errno | start
      · rfl
      · rcases hname : kernel.openat start entry.fileName with errno | fd <;>
          simp [ioError, asOsStr, hname, Except.mapError]
    · simp only [Bool.false_eq_true, if_false, if_neg hsys]
      rfl
  · rfl

end DirEntry

/-! ## What an entry comes to -/

namespace Cgroup

variable (self : Cgroup Fd)

/-- The result is a child that is opened and verified as the cgroup. -/
def Kept (result : Enumerated Fd) (child : Cgroup Fd) : Prop :=
  ∃ entry, result.entry = .ok entry ∧ entry.IsChild ∧
    result.kernel.openName self.directory entry.fileName = .ok child.directory ∧
    result.kernel.fstatfs child.directory = .ok CGROUP2_SUPER_MAGIC ∧
    child.path = Path.join self.path entry.fileName

/-- The result is no child, or one that is gone when it is opened. -/
def Omitted (result : Enumerated Fd) : Prop :=
  ∃ entry, result.entry = .ok entry ∧
    (entry.IsChild → result.kernel.openName self.directory entry.fileName = .error .NOENT)

/-- Why an open directory is not verified. -/
def VerifyFails (kernel : Kernel Fd) (fd : Fd) (e : Error) : Prop :=
  (∃ errno, kernel.fstatfs fd = .error errno ∧ e = .io (.os errno)) ∨
  ∃ fType, fType ≠ CGROUP2_SUPER_MAGIC ∧ kernel.fstatfs fd = .ok fType ∧ e = .notCgroupV2

/-- Why a child is not opened and verified, unless it is gone. -/
def ChildFails (kernel : Kernel Fd) (name : Str) (e : Error) : Prop :=
  (∃ errno, errno ≠ .NOENT ∧ kernel.openName self.directory name = .error errno ∧
    e = .operation "open child cgroup" (Path.join self.path name) (.os errno)) ∨
  ∃ fd, kernel.openName self.directory name = .ok fd ∧ VerifyFails kernel fd e

/-- The result is an error of the enumeration, or a child that is neither opened and verified nor
gone. -/
def Fails (result : Enumerated Fd) (e : Error) : Prop :=
  (∃ source, result.entry = .error source ∧ e = self.listError source) ∨
  ∃ entry, result.entry = .ok entry ∧ entry.IsChild ∧
    self.ChildFails result.kernel entry.fileName e

/-- The enumeration, or a system call that is made for a child, answers with the error. -/
def Answers (result : Enumerated Fd) (errno : Errno) : Prop :=
  result.entry = .error errno ∨ ∃ entry, result.entry = .ok entry ∧ entry.IsChild ∧
    (result.kernel.openName self.directory entry.fileName = .error errno ∨
      ∃ fd, result.kernel.openName self.directory entry.fileName = .ok fd ∧
        result.kernel.fstatfs fd = .error errno)

variable {self} {result : Enumerated Fd} {entry : DirEntry}

/-- A result that is no child is left out. -/
lemma childEntry_of_not_isChild (hentry : result.entry = .ok entry) (h : ¬ entry.IsChild) :
    self.childEntry result = none := by
  have hguard : ¬ (entry.fileType = .directory ∧ entry.fileName ∉ [['.'], ['.', '.']]) := by
    simpa [DirEntry.IsChild] using h
  unfold childEntry
  rw [hentry]
  exact if_neg hguard

/-- A child is opened by its name, and verified under its path. -/
lemma child_of_isChild (h : entry.IsChild) (kernel : Kernel Fd) :
    kernel.child self entry.fileName =
      match kernel.openName self.directory entry.fileName with
      | .error errno =>
        .error (.operation "open child cgroup" (Path.join self.path entry.fileName) (.os errno))
      | .ok fd => kernel.verified fd (Path.join self.path entry.fileName) := by
  have hsingle : ¬ (entry.fileName.contains '/' || !startsNormal entry.fileName) = true := by
    rw [h.single]
    exact Bool.false_ne_true
  unfold Kernel.child
  rw [if_neg hsingle, h.openDirectory]
  cases kernel.openName self.directory entry.fileName <;> rfl

/-- **What a child comes to.** -/
lemma childEntry_of_isChild (hentry : result.entry = .ok entry) (h : entry.IsChild) :
    self.childEntry result =
      match result.kernel.openName self.directory entry.fileName with
      | .error errno =>
        if errno = .NOENT then none
        else some (.error (.operation "open child cgroup" (Path.join self.path entry.fileName)
          (.os errno)))
      | .ok fd => match result.kernel.fstatfs fd with
        | .error errno => some (.error (.io (.os errno)))
        | .ok fType =>
          if fType = CGROUP2_SUPER_MAGIC then some (.ok ⟨fd, Path.join self.path entry.fileName⟩)
          else some (.error .notCgroupV2) := by
  have hguard : entry.fileType = .directory ∧ entry.fileName ∉ [['.'], ['.', '.']] := by
    simpa [DirEntry.IsChild] using h
  unfold childEntry
  rw [hentry]
  simp only [if_pos hguard, child_of_isChild h]
  rcases result.kernel.openName self.directory entry.fileName with errno | fd
  · by_cases hgone : errno = .NOENT
    · simp [hgone, IoError.isNotFound]
    · simp [hgone, IoError.isNotFound]
  · simp only [Kernel.verified]
    rcases result.kernel.fstatfs fd with errno | fType
    · rfl
    · by_cases hmagic : fType = CGROUP2_SUPER_MAGIC
      · simp only [ioError, Except.mapError, ok_bind, if_pos hmagic]
        rfl
      · simp [ioError, Except.mapError, hmagic]

/-- An omitted result is left out. -/
lemma childEntry_of_omitted (h : self.Omitted result) : self.childEntry result = none := by
  obtain ⟨entry, hentry, hgone⟩ := h
  by_cases hchild : entry.IsChild
  · rw [childEntry_of_isChild hentry hchild, hgone hchild]
    rfl
  · exact childEntry_of_not_isChild hentry hchild

/-- A kept result is listed. -/
lemma childEntry_of_kept {child : Cgroup Fd} (h : self.Kept result child) :
    self.childEntry result = some (.ok child) := by
  obtain ⟨entry, hentry, hchild, hopen, hmagic, hpath⟩ := h
  rw [childEntry_of_isChild hentry hchild, hopen]
  simp only [hmagic, if_true, ← hpath]

/-- A failure is returned. -/
lemma childEntry_of_fails {e : Error} (h : self.Fails result e) :
    self.childEntry result = some (.error e) := by
  obtain ⟨source, hentry, rfl⟩ | ⟨entry, hentry, hchild, hfails⟩ := h
  · unfold childEntry
    rw [hentry]
  · rw [childEntry_of_isChild hentry hchild]
    obtain ⟨errno, hne, hopen, rfl⟩ | ⟨fd, hopen, hverify⟩ := hfails
    · simp only [hopen, if_neg hne]
    · obtain ⟨errno, hstat, rfl⟩ | ⟨fType, hne, hstat, rfl⟩ := hverify
      · simp only [hopen, hstat]
      · simp only [hopen, hstat, if_neg hne]

/-- Every result is kept, omitted or a failure. -/
lemma kept_or_omitted_or_fails (self : Cgroup Fd) (result : Enumerated Fd) :
    (∃ child, self.Kept result child) ∨ self.Omitted result ∨ ∃ e, self.Fails result e := by
  rcases hentry : result.entry with source | entry
  · exact Or.inr (Or.inr ⟨_, Or.inl ⟨source, hentry, rfl⟩⟩)
  by_cases hchild : entry.IsChild
  · rcases hopen : result.kernel.openName self.directory entry.fileName with errno | fd
    · by_cases hgone : errno = .NOENT
      · exact Or.inr (Or.inl ⟨entry, hentry, fun _ => by rw [hopen, hgone]⟩)
      · exact Or.inr (Or.inr ⟨_, Or.inr ⟨entry, hentry, hchild, Or.inl ⟨errno, hgone, hopen, rfl⟩⟩⟩)
    · rcases hstat : result.kernel.fstatfs fd with errno | fType
      · exact Or.inr (Or.inr ⟨_, Or.inr ⟨entry, hentry, hchild,
          Or.inr ⟨fd, hopen, Or.inl ⟨errno, hstat, rfl⟩⟩⟩⟩)
      · by_cases hmagic : fType = CGROUP2_SUPER_MAGIC
        · exact Or.inl ⟨⟨fd, _⟩, entry, hentry, hchild, hopen, by rw [hstat, hmagic], rfl⟩
        · exact Or.inr (Or.inr ⟨_, Or.inr ⟨entry, hentry, hchild,
            Or.inr ⟨fd, hopen, Or.inr ⟨fType, hmagic, hstat, rfl⟩⟩⟩⟩)
  · exact Or.inr (Or.inl ⟨entry, hentry, fun h => absurd h hchild⟩)

/-- **A result is left out** exactly when it is omitted. -/
lemma childEntry_eq_none_iff : self.childEntry result = none ↔ self.Omitted result := by
  refine ⟨fun h => ?_, childEntry_of_omitted⟩
  obtain ⟨child, hkept⟩ | homitted | ⟨e, hfails⟩ := kept_or_omitted_or_fails self result
  · rw [childEntry_of_kept hkept] at h
    cases h
  · exact homitted
  · rw [childEntry_of_fails hfails] at h
    cases h

/-- **A result is listed** exactly when it is kept. -/
lemma childEntry_eq_ok_iff {child : Cgroup Fd} :
    self.childEntry result = some (.ok child) ↔ self.Kept result child := by
  refine ⟨fun h => ?_, childEntry_of_kept⟩
  obtain ⟨child', hkept⟩ | homitted | ⟨e, hfails⟩ := kept_or_omitted_or_fails self result
  · rw [childEntry_of_kept hkept] at h
    cases h
    exact hkept
  · rw [childEntry_of_omitted homitted] at h
    cases h
  · rw [childEntry_of_fails hfails] at h
    cases h

/-- **A failure is returned** exactly when the result fails with it. -/
lemma childEntry_eq_error_iff {e : Error} :
    self.childEntry result = some (.error e) ↔ self.Fails result e := by
  refine ⟨fun h => ?_, childEntry_of_fails⟩
  obtain ⟨child, hkept⟩ | homitted | ⟨e', hfails⟩ := kept_or_omitted_or_fails self result
  · rw [childEntry_of_kept hkept] at h
    cases h
  · rw [childEntry_of_omitted homitted] at h
    cases h
  · rw [childEntry_of_fails hfails] at h
    cases h
    exact hfails

/-! ## The listing -/

/-- The result does not fail the listing: it is an entry that is no child, or a child that opens and
is verified, or a child that is gone. -/
def Tolerated (self : Cgroup Fd) (result : Enumerated Fd) : Prop :=
  ∃ entry, result.entry = .ok entry ∧ (entry.IsChild →
    (∃ fd, result.kernel.openName self.directory entry.fileName = .ok fd ∧
      result.kernel.fstatfs fd = .ok CGROUP2_SUPER_MAGIC) ∨
    result.kernel.openName self.directory entry.fileName = .error .NOENT)

/-- A result is tolerated exactly when it is kept or omitted. -/
lemma tolerated_iff :
    self.Tolerated result ↔ (∃ child, self.Kept result child) ∨ self.Omitted result := by
  unfold Tolerated
  constructor
  · intro h
    obtain ⟨entry, hentry, h⟩ := h
    by_cases hchild : entry.IsChild
    · obtain ⟨fd, hopen, hmagic⟩ | hgone := h hchild
      · exact Or.inl ⟨⟨fd, _⟩, entry, hentry, hchild, hopen, hmagic, rfl⟩
      · exact Or.inr ⟨entry, hentry, fun _ => hgone⟩
    · exact Or.inr ⟨entry, hentry, fun h => absurd h hchild⟩
  · intro h
    obtain ⟨child, entry, hentry, -, hopen, hmagic, -⟩ | ⟨entry, hentry, hgone⟩ := h
    · exact ⟨entry, hentry, fun _ => Or.inl ⟨child.directory, hopen, hmagic⟩⟩
    · exact ⟨entry, hentry, fun hchild => Or.inr (hgone hchild)⟩

/-- A result is tolerated exactly when it does not fail the listing. -/
lemma tolerated_iff_forall :
    self.Tolerated result ↔ ∀ e, self.childEntry result ≠ some (.error e) := by
  rw [tolerated_iff]
  constructor
  · intro h e
    obtain ⟨child, hkept⟩ | homitted := h
    · simp [childEntry_of_kept hkept]
    · simp [childEntry_of_omitted homitted]
  · intro h
    obtain hkept | homitted | ⟨e, hfails⟩ := kept_or_omitted_or_fails self result
    · exact Or.inl hkept
    · exact Or.inr homitted
    · exact absurd (childEntry_of_fails hfails) (h e)

section children

variable {results : List (Enumerated Fd)}

/-- **The listing succeeds** with the children that are kept, in the order of the enumeration. -/
lemma children_eq_ok_iff {children : List (Cgroup Fd)} :
    self.children (.ok results) = .ok children ↔
      Gathers self.Kept self.Omitted results children := by
  have hgathers : self.children (.ok results) = .ok children ↔
      Gathers (fun result child => self.childEntry result = some (.ok child))
        (fun result => self.childEntry result = none) results children :=
    mapM_filterMap_eq_ok_iff
  rw [hgathers]
  constructor
  · exact fun h => h.imp (fun _ _ => childEntry_eq_ok_iff.mp) fun _ => childEntry_eq_none_iff.mp
  · exact fun h => h.imp (fun _ _ => childEntry_eq_ok_iff.mpr) fun _ => childEntry_eq_none_iff.mpr

/-- **The listing fails** with the first failure. -/
lemma children_eq_error_iff {e : Error} :
    self.children (.ok results) = .error e ↔
      ∃ result, FirstRejected self.Tolerated results result ∧ self.Fails result e := by
  have hfirst : self.children (.ok results) = .error e ↔
      ∃ result, FirstRejected (fun result => ∀ e, self.childEntry result ≠ some (.error e)) results
        result ∧ self.childEntry result = some (.error e) :=
    mapM_filterMap_eq_error_iff
  rw [hfirst]
  simp only [childEntry_eq_error_iff]
  exact exists_congr fun result => and_congr_left fun _ =>
    firstRejected_congr fun _ _ => tolerated_iff_forall.symm

/-- The listing succeeds exactly when every result is tolerated. -/
lemma exists_children_iff :
    (∃ children, self.children (.ok results) = .ok children) ↔
      ∀ result ∈ results, self.Tolerated result := by
  constructor
  · intro h
    obtain ⟨children, hok⟩ := h
    by_contra hnot
    obtain ⟨result, hfirst⟩ := exists_firstRejected.mpr hnot
    have hrejected := hfirst.rejected
    rw [tolerated_iff_forall] at hrejected
    push Not at hrejected
    obtain ⟨e, he⟩ := hrejected
    have herror := children_eq_error_iff.mpr ⟨result, hfirst, childEntry_eq_error_iff.mp he⟩
    rw [hok] at herror
    cases herror
  · intro h
    rcases hlisting : self.children (.ok results) with e | children
    · obtain ⟨result, hfirst, -⟩ := children_eq_error_iff.mp hlisting
      exact absurd (h result hfirst.mem) hfirst.rejected
    · exact ⟨children, rfl⟩

end children

end Cgroup

/-- The error is none of those that the checks make for a name or a path that they refuse. A system
call may still answer `INVAL`, which is of the same kind (`Error.isInvalidInput`). -/
def Error.NotInvalidInput (e : Error) : Prop :=
  e ≠ .io .invalidInput ∧ ∀ operation path, e ≠ .operation operation path .invalidInput

/-- No failure of a result is a refused name. -/
lemma Cgroup.Fails.notInvalidInput {self : Cgroup Fd} {result : Enumerated Fd} {e : Error}
    (h : self.Fails result e) : e.NotInvalidInput := by
  unfold Error.NotInvalidInput
  obtain ⟨source, -, rfl⟩ | ⟨entry, -, -, ⟨errno, -, -, rfl⟩ | ⟨fd, -, hverify⟩⟩ := h
  · simp [Cgroup.listError]
  · simp
  · obtain ⟨errno, -, rfl⟩ | ⟨fType, -, -, rfl⟩ := hverify <;> simp

/-- A failure of the kind `InvalidInput` is an answer of the system. -/
lemma Cgroup.Fails.answers {self : Cgroup Fd} {result : Enumerated Fd} {e : Error}
    (h : self.Fails result e) (hkind : e.isInvalidInput = true) : self.Answers result .INVAL := by
  have hinval : ∀ errno, (IoError.os errno).isInvalidInput = true → errno = .INVAL :=
    fun errno => of_decide_eq_true
  obtain ⟨source, hentry, rfl⟩ | ⟨entry, hentry, hchild, ⟨errno, -, hopen, rfl⟩ |
    ⟨fd, hopen, hverify⟩⟩ := h
  · exact .inl (hinval source hkind ▸ hentry)
  · exact .inr ⟨entry, hentry, hchild, .inl (hinval errno hkind ▸ hopen)⟩
  · obtain ⟨errno, hstat, rfl⟩ | ⟨fType, -, -, rfl⟩ := hverify
    · exact .inr ⟨entry, hentry, hchild, .inr ⟨fd, hopen, hinval errno hkind ▸ hstat⟩⟩
    · cases hkind

/-- **Listing the children of a cgroup.** For every sequence of results, and whatever the system
calls answer while each is handled: the listing succeeds exactly when no result is an error and each
child opens and is verified or is gone; it then holds the children that opened, in order and once
each, under their paths; it fails with the first failure otherwise. Both checks accept the name of
every child, so that no listing fails for a refused name, and one fails with `InvalidInput` only if
the system itself answers so. -/
theorem children_listing (self : Cgroup Fd) :
    (∀ results, (∃ children, self.children (.ok results) = .ok children) ↔
      ∀ result ∈ results, self.Tolerated result) ∧
    (∀ results children, self.children (.ok results) = .ok children ↔
      Gathers self.Kept self.Omitted results children) ∧
    (∀ results e, self.children (.ok results) = .error e ↔
      ∃ result, FirstRejected self.Tolerated results result ∧ self.Fails result e) ∧
    (∀ source, self.children (.error source) = .error (self.listError source)) ∧
    (∀ entry : DirEntry, entry.IsChild →
      (entry.fileName.contains '/' || !startsNormal entry.fileName) = false ∧
        Accepted entry.fileName) ∧
    ∀ listing e, self.children listing = .error e → e.NotInvalidInput ∧
      (e.isInvalidInput = true → listing = .error .INVAL ∨ ∃ results, listing = .ok results ∧
        ∃ result ∈ results, self.Answers result .INVAL) := by
  refine ⟨fun _ => Cgroup.exists_children_iff, fun _ _ => Cgroup.children_eq_ok_iff,
    fun _ _ => Cgroup.children_eq_error_iff, fun _ => rfl, fun _ h => ⟨h.single, h.accepted⟩,
    fun listing e h => ?_⟩
  rcases listing with source | results
  · have herror : self.children (.error source) = .error (self.listError source) := rfl
    rw [herror] at h
    cases h
    refine ⟨by simp [Error.NotInvalidInput, Cgroup.listError], fun hkind => .inl ?_⟩
    rw [show source = .INVAL from of_decide_eq_true hkind]
  · obtain ⟨result, hfirst, hfails⟩ := Cgroup.children_eq_error_iff.mp h
    exact ⟨hfails.notInvalidInput, fun hkind =>
      .inr ⟨results, rfl, result, hfirst.mem, hfails.answers hkind⟩⟩

/-- A system in which one child can be opened. -/
def oneChild : Kernel ℕ where
  openat2 _ _ := .error .NOSYS
  openat _ name :=
    if name = ['.'] then .ok 0
    else if name = "system.slice".toList then .ok 1 else .error .NOENT
  fstatfs _ := .ok CGROUP2_SUPER_MAGIC

/-- A file, a child, and a child that is gone. -/
def threeEntries : List (Enumerated ℕ) :=
  [⟨.ok ⟨.regularFile, "cgroup.procs".toList, by decide, by decide, by decide⟩, oneChild⟩,
    ⟨.ok ⟨.directory, "system.slice".toList, by decide, by decide, by decide⟩, oneChild⟩,
    ⟨.ok ⟨.directory, "gone.scope".toList, by decide, by decide, by decide⟩, oneChild⟩]

/-- The child that is there is listed. -/
theorem children_listing_gone :
    (Cgroup.mk 0 "/sys/fs/cgroup".toList).children (.ok threeEntries) =
      .ok [⟨1, "/sys/fs/cgroup/system.slice".toList⟩] := by
  refine ((children_listing _).2.1 threeEntries _).mpr (.pass ⟨_, rfl, ?_⟩ (.keep ⟨_, rfl, ?_⟩
    (.pass ⟨_, rfl, ?_⟩ .nil)))
  · rintro ⟨hdirectory, -⟩
    cases hdirectory
  · exact ⟨⟨rfl, by decide, by decide⟩, by decide +kernel, rfl, rfl⟩
  · exact fun _ => by decide +kernel

end Sakai
