import Sakai.Error
import Sakai.Lib.FileTree
import Sakai.Lib.Path

/-!
# Opening a directory beneath another

`openDirectory` opens a relative path with one `openat2` call, or on kernels without that call with
one `openat` call for each component (`openComponents`). Directories are opened for reading and
never through symbolic links. A path with a NUL is no argument of these calls, and how long a path
may be is left to `View` (`Sakai.Handle.Navigate`).

* `openat2_eq_ok_iff`: the one call needs search permission on the directories passed, and read
  permission on the last one.
* `openComponents_eq_ok_iff`: the component calls need read permission on every directory passed.
* `backendsAgree_iff`: exactly when both open the same directory.
-/

namespace Sakai

open Lib Lib.FileTree

variable {I : Type}

/-- The error number of a failed walk. -/
def errnoOf : WalkError → Errno
  | .noEntry => .NOENT
  | .denied => .ACCESS
  | .notDirectory => .NOTDIR
  | .symbolicLink => .LOOP

/-! ## The system calls -/

/-- `openat` with `DIRECTORY_FLAGS`: one name is looked up in a directory and opened for reading.
Source: `handle.rs`, `DIRECTORY_FLAGS`. -/
def openat (tree : FileTree I) (dir : I) (name : Str) : Except Errno I :=
  (openEntry tree dir name).mapError errnoOf

/-- `openat2` with `DIRECTORY_FLAGS`, `BENEATH` and `NO_SYMLINKS`. A kernel may lack the call. Paths
with a root or a parent component do not stay beneath the directory; that a kernel accepts some of
the latter does not matter here, as no caller passes one. -/
def openat2 (supported : Bool) (tree : FileTree I) (dir : I) (path : Str) : Except Errno I :=
  if !supported then .error .NOSYS
  else if path.isEmpty then .error .NOENT
  else if Path.isAbsolute path || (Path.pieces path).contains ['.', '.'] then .error .XDEV
  else (openBeneath tree dir (Path.pieces path)).mapError errnoOf

/-! ## Opening -/

/-- A failed system call, as an error of the crate.
Source: `handle.rs`, `map_err(io::Error::from)` before `Error::Io`. -/
def ioError {T : Type} (x : Except Errno T) : Except Error T := x.mapError fun e => .io (.os e)

/-- The text of a component.
Source: `Component::as_os_str`. -/
def asOsStr : Path.Component → Str
  | .rootDir => ['/']
  | .curDir => ['.']
  | .parentDir => ['.', '.']
  | .normal name => name

/-- Source: `handle.rs`, `Cgroup::open_components`. -/
def openComponents (tree : FileTree I) (base : I) (relative : Str) : Except Error I := do
  let start ← ioError (openat tree base ['.'])
  (Path.components relative).foldlM
    (fun directory part => ioError (openat tree directory (asOsStr part))) start

/-- A component that stays beneath the directory.
Source: `handle.rs`, the `matches!` of `Cgroup::open_directory`. -/
def isBeneath : Path.Component → Bool
  | .normal _ => true
  | .curDir => true
  | _ => false

/-- The path that is opened: the directory itself for the empty path.
Source: `handle.rs`, the shadowed `relative` of `Cgroup::open_directory`. -/
def relativeOrSelf (relative : Str) : Str := if relative.isEmpty then ['.'] else relative

/-- Source: `handle.rs`, `Cgroup::open_directory`. -/
def openDirectory (supported : Bool) (tree : FileTree I) (base : I) (relative : Str) :
    Except Error I :=
  if (Path.components relative).any fun part => !isBeneath part then .error (.io .invalidInput)
  else
    match openat2 supported tree base (relativeOrSelf relative) with
    | .ok fd => .ok fd
    | .error errno =>
      if errno = .NOSYS then openComponents tree base (relativeOrSelf relative)
      else .error (.io (.os errno))

/-! ## Accepted paths -/

/-- The component check accepts the path. -/
def Accepted (relative : Str) : Prop := ∀ part ∈ Path.components relative, isBeneath part = true

instance (relative : Str) : Decidable (Accepted relative) :=
  inferInstanceAs (Decidable (∀ part ∈ Path.components relative, isBeneath part = true))

/-- The names of a path. -/
def pathNames (relative : Str) : List Str := namesOf (Path.pieces (relativeOrSelf relative))

/-- The last piece of the path is a dot. -/
def Dotted (relative : Str) : Prop := EndsAtDot (Path.pieces (relativeOrSelf relative))

instance (relative : Str) : Decidable (Dotted relative) :=
  inferInstanceAs (Decidable (EndsAtDot (Path.pieces (relativeOrSelf relative))))

/-- The components after the start of a path are its names. -/
lemma map_asOsStr_piece (ps : List Str) :
    (ps.filterMap Path.piece?).map asOsStr = namesOf ps := by
  unfold namesOf
  rw [List.map_filterMap, ← List.filterMap_eq_filter]
  apply List.filterMap_congr
  intro p _
  unfold Path.piece? dot Option.guard
  split <;> simp_all [asOsStr]

/-- An accepted path is relative. -/
lemma Accepted.relative {relative : Str} (h : Accepted relative) :
    Path.isAbsolute relative = false := by
  by_contra habs
  obtain ⟨cs, hcs⟩ := Path.components_of_isAbsolute (Bool.of_not_eq_false habs)
  have hmem : Path.Component.rootDir ∈ Path.components relative := by
    rw [hcs]
    exact List.mem_cons_self
  cases h _ hmem

/-- An accepted path has no parent component. -/
lemma Accepted.not_mem {relative : Str} (h : Accepted relative) :
    ['.', '.'] ∉ Path.pieces relative := by
  intro hmem
  have hparent : Path.Component.parentDir ∈ Path.components relative :=
    List.mem_append_right _ (List.mem_filterMap.mpr ⟨_, hmem, rfl⟩)
  cases h _ hparent

/-- The empty path is opened as a path that is accepted as well. -/
lemma Accepted.orSelf {relative : Str} (h : Accepted relative) :
    Accepted (relativeOrSelf relative) := by
  unfold relativeOrSelf
  split
  · decide
  · exact h

/-! ## What is opened -/

variable {tree : FileTree I} {base d : I} {relative : Str}

/-- **One call**: the names lead to the directory, and the permissions suffice. -/
theorem openat2_eq_ok_iff (h : Accepted relative) :
    openat2 true tree base (relativeOrSelf relative) = .ok d ↔
      ∃ passed, Walk tree base (pathNames relative) passed d ∧
        Beneath tree (Path.pieces (relativeOrSelf relative)) passed d := by
  have hne : (relativeOrSelf relative).isEmpty = false := by
    unfold relativeOrSelf
    split
    · rfl
    · next hne => exact Bool.eq_false_iff.mpr hne
  have hbeneath : (Path.isAbsolute (relativeOrSelf relative) ||
      (Path.pieces (relativeOrSelf relative)).contains ['.', '.']) = false := by
    rw [h.orSelf.relative, Bool.false_or, Bool.eq_false_iff, Ne, List.contains_iff_mem]
    exact h.orSelf.not_mem
  unfold openat2
  rw [hne, hbeneath]
  simp only [Bool.not_true, Bool.false_eq_true, if_false, mapError_eq_ok]
  exact openBeneath_eq_ok_iff

/-- Component calls succeed as entries are opened one after the other. -/
lemma foldlM_openat_eq_ok_iff {parts : List Path.Component} :
    parts.foldlM (fun directory part => ioError (openat tree directory (asOsStr part))) base =
        .ok d ↔
      (parts.map asOsStr).foldlM (openEntry tree) base = .ok d := by
  induction parts generalizing base with
  | nil => simp
  | cons part parts ih =>
      simp only [List.map_cons, List.foldlM_cons, bind_eq_ok, ioError, openat, mapError_eq_ok]
      exact exists_congr fun next => and_congr_right fun _ => ih

/-- The components of an accepted path are its names, perhaps after a leading dot. -/
lemma Accepted.map_asOsStr (h : Accepted relative) :
    (Path.components relative).map asOsStr = namesOf (Path.pieces relative) ∨
      (Path.components relative).map asOsStr = dot :: namesOf (Path.pieces relative) := by
  have hstart : Path.startOf (Path.pieces relative) = [] ∨
      Path.startOf (Path.pieces relative) = [.curDir] := by
    have hroot : Path.Component.rootDir ∉ Path.startOf (Path.pieces relative) := by
      intro hmem
      cases h _ (List.mem_append_left _ hmem)
    unfold Path.startOf at *
    split <;> simp_all
  unfold Path.components
  rw [List.map_append, map_asOsStr_piece]
  rcases hstart with hstart | hstart
  · exact Or.inl (by rw [hstart]; rfl)
  · exact Or.inr (by rw [hstart]; rfl)

/-- **Component calls**: the names lead to the directory, and the directories passed may be searched
and opened. -/
theorem openComponents_eq_ok_iff (h : Accepted relative) :
    openComponents tree base (relativeOrSelf relative) = .ok d ↔
      Searchable tree base ∧ ∃ passed, Walk tree base (pathNames relative) passed d ∧
        (∀ node ∈ passed, Searchable tree node ∧ Readable tree node) ∧ Readable tree d := by
  have hnames : ∀ name ∈ pathNames relative, name ≠ dot := by
    intro name hname
    have hstep := (List.mem_filter.mp hname).2
    simp_all
  have hfold : ∀ start, IsDirectory tree start → Searchable tree start → Readable tree start →
      ((Path.components (relativeOrSelf relative)).foldlM
        (fun directory part => ioError (openat tree directory (asOsStr part))) start = .ok d ↔
      (pathNames relative).foldlM (openEntry tree) start = .ok d) := by
    intro start hdir hsearch hread
    rw [foldlM_openat_eq_ok_iff]
    rcases h.orSelf.map_asOsStr with hparts | hparts
    · rw [hparts]
      rfl
    · have hdot : openEntry tree start dot = .ok start :=
        openEntry_dot_eq_ok_iff.mpr ⟨hdir, hsearch, hread, rfl⟩
      rw [hparts, List.foldlM_cons, hdot, ok_bind]
      rfl
  unfold openComponents
  simp only [bind_eq_ok, ioError, openat, mapError_eq_ok]
  constructor
  · rintro ⟨start, hstart, hrest⟩
    obtain ⟨hdir, hsearch, hread, rfl⟩ := openEntry_dot_eq_ok_iff.mp hstart
    have hrest := (hfold base hdir hsearch hread).mp hrest
    exact ⟨hsearch, (foldlM_openEntry_eq_ok_iff hdir hread hnames).mp hrest⟩
  · rintro ⟨hsearch, passed, hwalk, hpassed, hlast⟩
    have hread : Readable tree base := hwalk.start (fun node hnode => (hpassed node hnode).2) hlast
    refine ⟨base, openEntry_dot_eq_ok_iff.mpr ⟨hwalk.isDirectory, hsearch, hread, rfl⟩, ?_⟩
    apply (hfold base hwalk.isDirectory hsearch hread).mpr
    exact (foldlM_openEntry_eq_ok_iff hwalk.isDirectory hread hnames).mpr
      ⟨passed, hwalk, hpassed, hlast⟩

/-! ## Agreement -/

/-- Both ways open the same directory, or none. -/
def BackendsAgree (tree : FileTree I) (base : I) (relative : Str) : Prop :=
  ∀ d, openComponents tree base (relativeOrSelf relative) = .ok d ↔
    openat2 true tree base (relativeOrSelf relative) = .ok d

/-- Where the names lead through directories that may be searched, to one that may be opened, the
directories passed may be opened exactly when the last one may be searched or the path does not end
at a dot. -/
def PermissionsMatch (tree : FileTree I) (base : I) (relative : Str) : Prop :=
  ∀ passed last, Walk tree base (pathNames relative) passed last →
    (∀ node ∈ passed, Searchable tree node) → Readable tree last →
    (pathNames relative = [] → Searchable tree last) →
    ((∀ node ∈ passed, Readable tree node) ↔ (Dotted relative → Searchable tree last))

/-- A path without names ends at a dot. -/
lemma Accepted.dotted (h : Accepted relative) (hnames : pathNames relative = []) :
    Dotted relative := by
  unfold pathNames at hnames
  unfold Dotted
  rcases hpieces : Path.pieces (relativeOrSelf relative) with _ | ⟨piece, pieces⟩
  · exact absurd hpieces (Path.pieces_ne_nil _)
  · rw [hpieces] at hnames
    by_cases hdot : piece = dot
    · rw [hdot, namesOf, List.filter_cons_of_neg (by simp)] at hnames
      rw [hdot]
      exact endsAtDot_of_namesOf hnames
    · -- Neither is the path empty, nor does it start with a separator.
      exfalso
      have hempty : piece = [] := by
        by_contra hempty
        rw [namesOf, List.filter_cons_of_pos (by simp [hempty, hdot])] at hnames
        cases hnames
      subst hempty
      rcases pieces with _ | ⟨next, pieces⟩
      · have hjoin : Path.ofPieces (Path.pieces (relativeOrSelf relative)) =
            relativeOrSelf relative := List.intercalate_splitOn '/'
        rw [hpieces, relativeOrSelf] at hjoin
        split at hjoin
        · cases hjoin
        · next hne =>
          rw [← hjoin] at hne
          exact hne rfl
      · have hroot : Path.Component.rootDir ∈ Path.components (relativeOrSelf relative) := by
          rw [Path.components, hpieces]
          exact List.mem_cons_self
        cases h.orSelf _ hroot

/-- The first directory may be searched when those passed may, and the last one if it is the
first. -/
lemma searchable_base {names : List Str} {passed : List I} {last : I}
    (hwalk : Walk tree base names passed last) (hpassed : ∀ node ∈ passed, Searchable tree node)
    (hself : names = [] → Searchable tree last) : Searchable tree base := by
  cases hwalk with
  | here => exact hself rfl
  | step => exact hpassed base List.mem_cons_self

/-- **The two ways agree exactly when the permissions match.** -/
theorem backendsAgree_iff (tree : FileTree I) (base : I) (relative : Str) (h : Accepted relative) :
    BackendsAgree tree base relative ↔ PermissionsMatch tree base relative := by
  unfold BackendsAgree PermissionsMatch
  simp only [openComponents_eq_ok_iff h, openat2_eq_ok_iff h]
  constructor
  · intro hagree passed last hwalk hpassed hlast hself
    have hbase := searchable_base hwalk hpassed hself
    constructor
    · intro hread hdotted
      obtain ⟨passed', hwalk', hperm⟩ := (hagree last).mp
        ⟨hbase, passed, hwalk, fun node hnode => ⟨hpassed node hnode, hread node hnode⟩, hlast⟩
      exact hperm.dotted hdotted
    · intro hdotted
      obtain ⟨-, passed', hwalk', hpassed', -⟩ :=
        (hagree last).mpr ⟨passed, hwalk, hpassed, hdotted, hlast⟩
      obtain ⟨rfl, -⟩ := hwalk.unique hwalk'
      exact fun node hnode => (hpassed' node hnode).2
  · intro hmatch d
    constructor
    · rintro ⟨hbase, passed, hwalk, hpassed, hlast⟩
      have hsearch : ∀ node ∈ passed, Searchable tree node := fun node hnode =>
        (hpassed node hnode).1
      have hself : pathNames relative = [] → Searchable tree d := by
        intro hnames
        rw [hnames] at hwalk
        obtain ⟨-, -, rfl⟩ := walk_nil_iff.mp hwalk
        exact hbase
      have hdotted := (hmatch passed d hwalk hsearch hlast hself).mp fun node hnode =>
        (hpassed node hnode).2
      exact ⟨passed, hwalk, hsearch, hdotted, hlast⟩
    · rintro ⟨passed, hwalk, hpassed, hdotted, hlast⟩
      have hself : pathNames relative = [] → Searchable tree d := fun hnames =>
        hdotted (h.dotted hnames)
      have hread := (hmatch passed d hwalk hpassed hlast hself).mpr hdotted
      exact ⟨searchable_base hwalk hpassed hself, passed, hwalk,
        fun node hnode => ⟨hpassed node hnode, hread node hnode⟩, hlast⟩

/-- A tree `/a/b` in which `a` may be searched, but not opened. -/
def searchOnlyTree : FileTree ℕ
  | 0 => ⟨.directory fun name => if name = ['a'] then some 1 else none, ⟨true, true⟩⟩
  | 1 => ⟨.directory fun name => if name = ['b'] then some 2 else none, ⟨false, true⟩⟩
  | _ => ⟨.directory fun _ => none, ⟨true, true⟩⟩

/-- One call opens `a/b` through a directory that may only be searched; the component calls fail. -/
theorem backends_disagree :
    Accepted "a/b".toList ∧ openat2 true searchOnlyTree 0 (relativeOrSelf "a/b".toList) = .ok 2 ∧
      openComponents searchOnlyTree 0 (relativeOrSelf "a/b".toList) =
        .error (.io (.os .ACCESS)) ∧
      ¬ BackendsAgree searchOnlyTree 0 "a/b".toList := by
  have hone : openat2 true searchOnlyTree 0 (relativeOrSelf "a/b".toList) = .ok 2 := rfl
  have hmany : openComponents searchOnlyTree 0 (relativeOrSelf "a/b".toList) =
      .error (.io (.os .ACCESS)) := rfl
  refine ⟨by decide, hone, hmany, fun hagree => ?_⟩
  have hok := (hagree 2).mpr hone
  rw [hmany] at hok
  cases hok

/-- A tree `/a/b` in which every directory may be searched and opened. -/
def openTree : FileTree ℕ
  | 0 => ⟨.directory fun name => if name = ['a'] then some 1 else none, ⟨true, true⟩⟩
  | 1 => ⟨.directory fun name => if name = ['b'] then some 2 else none, ⟨true, true⟩⟩
  | _ => ⟨.directory fun _ => none, ⟨true, true⟩⟩

/-- Both ways open `a/b`. -/
theorem backendsAgree_iff_open :
    openComponents openTree 0 (relativeOrSelf "a/b".toList) = .ok 2 ∧
      BackendsAgree openTree 0 "a/b".toList := by
  have hpermission : ∀ node, (openTree node).permission = ⟨true, true⟩ := by
    intro node
    unfold openTree
    split <;> rfl
  refine ⟨rfl, (backendsAgree_iff openTree 0 "a/b".toList (by decide)).mpr ?_⟩
  intro passed last _ _ _ _
  refine iff_of_true (fun node _ => ?_) fun _ => ?_
  · unfold Readable
    rw [hpermission node]
  · unfold Searchable
    rw [hpermission last]

/-! ## The two kernels -/

/-- A rejected path is not opened. -/
lemma openDirectory_of_not_accepted (supported : Bool) (tree : FileTree I) (base : I)
    (h : ¬ Accepted relative) :
    openDirectory supported tree base relative = .error (.io .invalidInput) := by
  have hany : ((Path.components relative).any fun part => !isBeneath part) = true := by
    unfold Accepted at h
    push Not at h
    obtain ⟨part, hpart, hbad⟩ := h
    exact List.any_eq_true.mpr ⟨part, hpart, by simp [hbad]⟩
  unfold openDirectory
  rw [if_pos hany]

/-- An accepted path passes the check. -/
lemma Accepted.any_eq_false (h : Accepted relative) :
    ((Path.components relative).any fun part => !isBeneath part) = false := by
  rw [List.any_eq_false]
  intro part hpart
  rw [h part hpart]
  exact Bool.false_ne_true

/-- **A kernel without the call** opens component by component. -/
theorem openDirectory_unsupported (tree : FileTree I) (base : I) (h : Accepted relative) :
    openDirectory false tree base relative =
      openComponents tree base (relativeOrSelf relative) := by
  unfold openDirectory
  rw [h.any_eq_false]
  rfl

/-- No walk fails as a missing system call does. -/
lemma mapError_errnoOf_ne (x : Except WalkError I) : x.mapError errnoOf ≠ .error .NOSYS := by
  intro h
  rcases x with e | d
  · have herrno : errnoOf e = .NOSYS := Except.error.inj h
    revert herrno
    cases e <;> decide
  · cases h

/-- A kernel with the call does not say that it lacks it. -/
lemma openat2_ne_nosys (tree : FileTree I) (base : I) (path : Str) :
    openat2 true tree base path ≠ .error .NOSYS := by
  intro herror
  unfold openat2 at herror
  simp only [Bool.not_true, Bool.false_eq_true, if_false] at herror
  split_ifs at herror
  · cases herror
  · cases herror
  · exact mapError_errnoOf_ne _ herror

/-- **A kernel with the call** opens what the call opens. -/
theorem openDirectory_supported (tree : FileTree I) (base : I) (h : Accepted relative) :
    openDirectory true tree base relative =
      ioError (openat2 true tree base (relativeOrSelf relative)) := by
  unfold openDirectory
  rw [h.any_eq_false]
  simp only [Bool.false_eq_true, if_false]
  rcases hcall : openat2 true tree base (relativeOrSelf relative) with errno | fd
  · have hne : errno ≠ .NOSYS := by
      rintro rfl
      exact openat2_ne_nosys tree base _ hcall
    simp only [if_neg hne]
    rfl
  · rfl

end Sakai
