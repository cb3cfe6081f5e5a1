import Std.Data.ExtHashMap
import Sakai.Lib.Path
import Sakai.Lib.Result
import Sakai.Lib.Sort

/-!
# Discovery of a process's cgroup directory

A target's cgroup membership is a path in the unified hierarchy; the caller's mounts of that
hierarchy show parts of it at some mount point. `CgroupPath.candidates` finds the directories of a
membership, one for each mount that exposes it, the most specific root first.

* `filterMap_ofMount`: the candidates before sorting are those of the exposing mounts, in table
  order.
* `CgroupPath.ofExposing_resolves`: a candidate is its mount point with the part of the membership
  beneath the root of the mount.
* `candidates_resolve`: discovery succeeds exactly when a live membership is exposed by some mount,
  and finds one candidate for each mount, ordered by the depth of the roots.
-/

namespace Sakai

open Lib

/-! ## What procfs reports -/

/-- One entry of `/proc/[pid]/cgroup`.
Source: `procfs::ProcessCGroup`. -/
structure ProcessCgroup where
  /-- Hierarchy number; the unified hierarchy has number 0. -/
  hierarchy : UInt32
  /-- Controllers bound to the hierarchy. -/
  controllers : List Str
  /-- Path of the process's cgroup in the hierarchy. -/
  pathname : Str
  deriving DecidableEq, Repr

/-- One entry of `/proc/[pid]/mountinfo`.
Source: `procfs::process::MountInfo`. -/
structure MountInfo where
  /-- The directory of the filesystem that forms the root of the mount. -/
  root : Str
  /-- The mount point. -/
  mountPoint : Str
  /-- Options of the mount, with their values. -/
  mountOptions : Std.ExtHashMap Str (Option Str)
  /-- Type of the filesystem. -/
  fsType : Str

/-- The mount is read-only: its options hold `ro`. -/
def MountInfo.isReadOnly (mount : MountInfo) : Bool := mount.mountOptions.contains "ro".toList

/-- What procfs reports of a process; either file can be unreadable.
Source: `procfs::process::Process`, `cgroups` and `mountinfo`. -/
structure Process (P : Type) where
  /-- The cgroup entries. -/
  cgroups : Except P (List ProcessCgroup)
  /-- The mounts in the process's namespace. -/
  mountinfo : Except P (List MountInfo)

/-- An error discovering a process's cgroup v2 directory.
Source: `path.rs`, `CgroupPathError`. -/
inductive CgroupPathError (P : Type)
  /-- Procfs could not be read or parsed. -/
  | procfs (error : P)
  /-- The process has no entry for the unified hierarchy. -/
  | unifiedHierarchyNotFound
  /-- No cgroup2 mount exposes the process's hierarchy path. -/
  | unifiedMountNotFound
  /-- The cgroup has already been removed. -/
  | deletedCgroup (path : Str)

/-! ## Candidates -/

/-- The directory containing a process's cgroup v2 interface files.
Source: `path.rs`, `CgroupPath`. -/
structure CgroupPath where
  /-- The directory. -/
  path : Str
  /-- The mount point that exposes the cgroup. -/
  mountPoint : Str
  /-- Whether the mount is read-only. -/
  readOnly : Bool
  deriving DecidableEq, Repr

variable {P : Type}

namespace CgroupPath

/-- The candidate of a mount, with the depth of its root, when the root is in front of the
membership.
Source: `path.rs`, the `filter_map` of `CgroupPath::candidates`. -/
def ofMount (cgroup : Str) (mount : MountInfo) : Option (ℕ × CgroupPath) := do
  let relative ← Path.stripPrefix cgroup mount.root
  return ((Path.components mount.root).length, {
    path := Path.join mount.mountPoint relative
    mountPoint := mount.mountPoint
    readOnly := mount.isReadOnly })

/-- Source: `path.rs`, `CgroupPath::candidates`. -/
def candidates (target caller : Process P) : Except (CgroupPathError P) (List CgroupPath) := do
  let entries ← target.cgroups.mapError .procfs
  let membership ←
    match entries.find? fun entry => entry.hierarchy == 0 && entry.controllers.isEmpty with
    | some entry => .ok entry
    | none => .error .unifiedHierarchyNotFound
  let cgroup ← match stripSuffix " (deleted)".toList membership.pathname with
    | some path => .error (.deletedCgroup path)
    | none => .ok membership.pathname
  let mounts ← caller.mountinfo.mapError .procfs
  let found := (mounts.filter (·.fsType == "cgroup2".toList)).filterMap (ofMount cgroup)
  -- `Reverse` turns the order of the depths around.
  let found := sortByKey (fun candidate => OrderDual.toDual candidate.1) found
  match found.isEmpty with
  | true => .error .unifiedMountNotFound
  | false => .ok (found.map (·.2))

end CgroupPath

/-! ## Memberships and the mounts that expose them -/

/-- The first entry of the unified hierarchy has this path. -/
def UnifiedMembership (entries : List ProcessCgroup) (cgroup : Str) : Prop :=
  ∃ before entry after, entries = before ++ entry :: after ∧
    (∀ e ∈ before, ¬ (e.hierarchy = 0 ∧ e.controllers = [])) ∧
    entry.hierarchy = 0 ∧ entry.controllers = [] ∧ entry.pathname = cgroup

/-- The mount shows a part of the unified hierarchy that holds the cgroup: the components of its
root are in front of those of the cgroup's path. -/
def MountInfo.Exposes (mount : MountInfo) (cgroup : Str) : Prop :=
  mount.fsType = "cgroup2".toList ∧ Path.components mount.root <+: Path.components cgroup

instance (mount : MountInfo) (cgroup : Str) : Decidable (mount.Exposes cgroup) :=
  inferInstanceAs (Decidable (_ ∧ _))

/-- Number of components of the root of a mount. -/
def MountInfo.depth (mount : MountInfo) : ℕ := (Path.components mount.root).length

/-- The candidate is the cgroup as the mount shows it: beneath the mount point, and with the mount
point replaced by the root of the mount it is the path of the cgroup. -/
structure CgroupPath.Resolves (candidate : CgroupPath) (mount : MountInfo) (cgroup : Str) :
    Prop where
  /-- The mount point is the mount's. -/
  mountPoint : candidate.mountPoint = mount.mountPoint
  /-- The candidate is read-only exactly when the mount is. -/
  readOnly : candidate.readOnly = mount.isReadOnly
  /-- One relative path leads from the mount point to the directory and from the root to the
  cgroup. -/
  beneath : ∃ rest,
    Path.components candidate.path = Path.components candidate.mountPoint ++ rest ∧
      Path.components cgroup = Path.components mount.root ++ rest

/-- An entry is passed over exactly when it is not of the unified hierarchy. -/
lemma isUnified_iff (e : ProcessCgroup) :
    (e.hierarchy == 0 && e.controllers.isEmpty) = true ↔ e.hierarchy = 0 ∧ e.controllers = [] := by
  rw [Bool.and_eq_true, beq_iff_eq, List.isEmpty_iff]

/-- The search finds the first entry of the unified hierarchy. -/
lemma unifiedMembership_iff {entries : List ProcessCgroup} {cgroup : Str} :
    UnifiedMembership entries cgroup ↔
      ∃ entry, entries.find? (fun e => e.hierarchy == 0 && e.controllers.isEmpty) = some entry ∧
        entry.pathname = cgroup := by
  simp only [List.find?_eq_some_iff_append, isUnified_iff, Bool.not_eq_true', ← Bool.not_eq_true]
  constructor
  · rintro ⟨before, entry, after, hsplit, hbefore, hhierarchy, hcontrollers, hpath⟩
    exact ⟨entry, ⟨⟨hhierarchy, hcontrollers⟩, before, after, hsplit, hbefore⟩, hpath⟩
  · rintro ⟨entry, ⟨⟨hhierarchy, hcontrollers⟩, before, after, hsplit, hbefore⟩, hpath⟩
    exact ⟨before, entry, after, hsplit, hbefore, hhierarchy, hcontrollers, hpath⟩

/-- A process has at most one unified membership. -/
lemma UnifiedMembership.unique {entries : List ProcessCgroup} {cgroup cgroup' : Str}
    (h : UnifiedMembership entries cgroup) (h' : UnifiedMembership entries cgroup') :
    cgroup = cgroup' := by
  obtain ⟨entry, hfind, hpath⟩ := unifiedMembership_iff.mp h
  obtain ⟨entry', hfind', hpath'⟩ := unifiedMembership_iff.mp h'
  rw [hfind, Option.some.injEq] at hfind'
  rw [← hpath, ← hpath', hfind']

namespace CgroupPath

/-- The directory of a mount that exposes the cgroup. -/
def ofExposing (cgroup : Str) (mount : MountInfo) : CgroupPath where
  path := Path.join mount.mountPoint ((Path.stripPrefix cgroup mount.root).getD [])
  mountPoint := mount.mountPoint
  readOnly := mount.isReadOnly

/-- A mount of the unified hierarchy gives a candidate exactly when it exposes the cgroup. -/
lemma ofMount_eq {cgroup : Str} {mount : MountInfo} (hfs : mount.fsType = "cgroup2".toList) :
    ofMount cgroup mount =
      if mount.Exposes cgroup then some (mount.depth, ofExposing cgroup mount) else none := by
  unfold ofMount ofExposing
  by_cases hprefix : Path.components mount.root <+: Path.components cgroup
  · rw [if_pos ⟨hfs, hprefix⟩]
    obtain ⟨rest, hrest⟩ := Option.isSome_iff_exists.mp (Path.stripPrefix_isSome.mpr hprefix)
    rw [hrest]
    rfl
  · have hnone : Path.stripPrefix cgroup mount.root = none := by
      rw [← Option.not_isSome_iff_eq_none, Path.stripPrefix_isSome]
      exact hprefix
    rw [if_neg fun h => hprefix h.2, hnone]
    rfl

/-- The candidates before sorting are those of the exposing mounts, in table order. -/
lemma filterMap_ofMount (cgroup : Str) (mounts : List MountInfo) :
    (mounts.filter (·.fsType == "cgroup2".toList)).filterMap (ofMount cgroup) =
      (mounts.filter (·.Exposes cgroup)).map fun mount =>
        (mount.depth, ofExposing cgroup mount) := by
  induction mounts with
  | nil => rfl
  | cons mount mounts ih =>
      by_cases hfs : mount.fsType = "cgroup2".toList
      · have hkept : (mount.fsType == "cgroup2".toList) = true := beq_iff_eq.mpr hfs
        simp only [List.filter_cons, hkept, if_true, List.filterMap_cons, ofMount_eq hfs, ih]
        by_cases hexposes : mount.Exposes cgroup
        · simp only [hexposes, decide_true, if_true, List.map_cons]
        · simp only [hexposes, decide_false, if_false, Bool.false_eq_true]
      · have hdropped : (mount.fsType == "cgroup2".toList) = false := beq_eq_false_iff_ne.mpr hfs
        have hexposes : ¬ mount.Exposes cgroup := fun h => hfs h.1
        simp only [List.filter_cons, hdropped, hexposes, decide_false, Bool.false_eq_true, if_false,
          ih]

/-- A candidate resolves the cgroup through its mount. -/
lemma ofExposing_resolves {cgroup : Str} {mount : MountInfo} (hexposes : mount.Exposes cgroup)
    (hroot : Path.isAbsolute mount.root = true) :
    (ofExposing cgroup mount).Resolves mount cgroup := by
  obtain ⟨rest, hrest⟩ := Option.isSome_iff_exists.mp (Path.stripPrefix_isSome.mpr hexposes.2)
  obtain ⟨hplain, hcomponents⟩ := Path.components_of_stripPrefix hroot hrest
  have hpath : (ofExposing cgroup mount).path = Path.join mount.mountPoint rest := by
    rw [ofExposing, hrest]
    rfl
  refine ⟨rfl, rfl, Path.components rest, ?_, hcomponents⟩
  rw [hpath]
  exact Path.components_join mount.mountPoint hplain

end CgroupPath

/-! ## Discovery -/

/-- The mounts that expose the cgroup, the deepest root first. -/
def exposing (cgroup : Str) (mounts : List MountInfo) : List MountInfo :=
  sortByKey (fun mount => OrderDual.toDual mount.depth) (mounts.filter (·.Exposes cgroup))

/-- A mount is tried exactly when it exposes the cgroup. -/
lemma mem_exposing {cgroup : Str} {mounts : List MountInfo} {mount : MountInfo} :
    mount ∈ exposing cgroup mounts ↔ mount ∈ mounts ∧ mount.Exposes cgroup := by
  unfold exposing
  rw [(sortByKey_perm _ _).mem_iff, List.mem_filter, decide_eq_true_iff]

/-- Roots of exposing mounts are nested: a shallower one is in front of a deeper one. -/
lemma pairwise_exposing (cgroup : Str) (mounts : List MountInfo) :
    (exposing cgroup mounts).Pairwise fun a b =>
      b.depth ≤ a.depth ∧ Path.components b.root <+: Path.components a.root := by
  have hdepth := pairwise_sortByKey (fun mount : MountInfo => OrderDual.toDual mount.depth)
    (mounts.filter (·.Exposes cgroup))
  refine List.Pairwise.imp_of_mem (fun {a b} ha hb hab => ?_) hdepth
  have hle : b.depth ≤ a.depth := OrderDual.toDual_le_toDual.mp hab
  exact ⟨hle, List.prefix_of_prefix_length_le (mem_exposing.mp hb).2.2 (mem_exposing.mp ha).2.2 hle⟩

/-- The suffix that marks a removed cgroup is not found exactly when the path does not end in
it. -/
lemma stripSuffix_eq_none_iff {ending s : Str} : stripSuffix ending s = none ↔ ¬ ending <:+ s := by
  rw [Option.eq_none_iff_forall_ne_some]
  constructor
  · rintro h ⟨rest, hrest⟩
    exact h rest (stripSuffix_eq_some_iff.mpr hrest)
  · intro h rest hrest
    exact h ⟨rest, stripSuffix_eq_some_iff.mp hrest⟩

/-- What discovery returns when procfs can be read. -/
lemma candidates_eq_ok_iff {target caller : Process P} {entries : List ProcessCgroup}
    {mounts : List MountInfo} (hentries : target.cgroups = .ok entries)
    (hmounts : caller.mountinfo = .ok mounts) {found : List CgroupPath} :
    CgroupPath.candidates target caller = .ok found ↔
      ∃ cgroup, UnifiedMembership entries cgroup ∧ ¬ " (deleted)".toList <:+ cgroup ∧
        exposing cgroup mounts ≠ [] ∧
        (exposing cgroup mounts).map (CgroupPath.ofExposing cgroup) = found := by
  simp only [CgroupPath.candidates, hentries, hmounts, Except.mapError, ok_bind,
    unifiedMembership_iff]
  cases hfind : entries.find? fun e => e.hierarchy == 0 && e.controllers.isEmpty with
  | none => simp
  | some entry =>
      simp only [Option.some.injEq, exists_eq_left', ← stripSuffix_eq_none_iff]
      cases hdeleted : stripSuffix " (deleted)".toList entry.pathname with
      | some path => simp
      | none =>
          simp only [true_and, CgroupPath.filterMap_ofMount, sortByKey_map, ← exposing.eq_1]
          cases exposing entry.pathname mounts with
          | nil => simp
          | cons mount order => simp [Function.comp_def]

/-- Discovery of a membership among any mounts, where the roots of the mounts of the unified
hierarchy are absolute. It succeeds exactly when the first entry of the unified hierarchy names a
cgroup that is not removed and that some mount exposes. It finds one candidate for each exposing
mount, the deeper root first and in table order among roots of equal depth; the roots are nested,
and each candidate resolves the cgroup through its mount. -/
theorem candidates_resolve (target caller : Process P) (entries : List ProcessCgroup)
    (mounts : List MountInfo) (hentries : target.cgroups = .ok entries)
    (hmounts : caller.mountinfo = .ok mounts)
    (hroots : ∀ mount ∈ mounts, mount.fsType = "cgroup2".toList →
      Path.isAbsolute mount.root = true) :
    ((∃ found, CgroupPath.candidates target caller = .ok found) ↔
      ∃ cgroup, UnifiedMembership entries cgroup ∧ ¬ " (deleted)".toList <:+ cgroup ∧
        ∃ mount ∈ mounts, mount.Exposes cgroup) ∧
    ∀ found cgroup, CgroupPath.candidates target caller = .ok found →
      UnifiedMembership entries cgroup →
      ∃ order : List MountInfo,
        order.Perm (mounts.filter (·.Exposes cgroup)) ∧
        order.Pairwise (fun a b => b.depth ≤ a.depth) ∧
        (∀ depth, order.filter (·.depth = depth) =
          (mounts.filter (·.Exposes cgroup)).filter (·.depth = depth)) ∧
        order.Pairwise (fun a b => Path.components b.root <+: Path.components a.root) ∧
        List.Forall₂ (fun candidate mount => candidate.Resolves mount cgroup) found order := by
  constructor
  · simp only [candidates_eq_ok_iff hentries hmounts]
    constructor
    · rintro ⟨found, cgroup, hmembership, hlive, hne, -⟩
      obtain ⟨mount, hmount⟩ := List.exists_mem_of_ne_nil _ hne
      exact ⟨cgroup, hmembership, hlive, mount, mem_exposing.mp hmount⟩
    · rintro ⟨cgroup, hmembership, hlive, mount, hmount⟩
      have hne : exposing cgroup mounts ≠ [] := List.ne_nil_of_mem (mem_exposing.mpr hmount)
      exact ⟨_, cgroup, hmembership, hlive, hne, rfl⟩
  · intro found cgroup hfound hmembership
    obtain ⟨cgroup', hmembership', -, -, rfl⟩ := (candidates_eq_ok_iff hentries hmounts).mp hfound
    obtain rfl := hmembership.unique hmembership'
    have hpairwise := pairwise_exposing cgroup mounts
    refine ⟨exposing cgroup mounts, sortByKey_perm _ _, hpairwise.imp fun h => h.1, fun depth => ?_,
      hpairwise.imp fun h => h.2, ?_⟩
    · exact filter_sortByKey _ _ (OrderDual.toDual depth)
    · rw [List.forall₂_map_left_iff]
      refine List.forall₂_same.mpr fun mount hmount => ?_
      obtain ⟨hmem, hexposes⟩ := mem_exposing.mp hmount
      exact CgroupPath.ofExposing_resolves hexposes (hroots mount hmem hexposes.1)

/-- A cgroup2 mount of a root. -/
def MountInfo.ofRoot (root mountPoint : String) : MountInfo :=
  ⟨root.toList, mountPoint.toList, ∅, "cgroup2".toList⟩

/-- Mounts of nested roots, one of them shown twice, and of a root with a similar name. -/
def nestedMounts : List MountInfo :=
  [.ofRoot "/" "/sys/fs/cgroup", .ofRoot "/pod-1" "/run/a", .ofRoot "/pod-10" "/run/b",
    .ofRoot "/pod-1/" "/run/c"]

/-- A process in a cgroup beneath some of these roots. -/
def nestedProcess : Process Unit where
  cgroups := .ok [⟨1, ["cpu".toList], "/".toList⟩, ⟨0, [], "/pod-1/x".toList⟩]
  mountinfo := .ok nestedMounts

/-- The three nested roots give a candidate each; the similar name gives none. -/
theorem candidates_resolve_nested :
    ∃ found, CgroupPath.candidates nestedProcess nestedProcess = .ok found ∧ found.length = 3 ∧
      ∃ order : List MountInfo, order.Pairwise (fun a b => b.depth ≤ a.depth) ∧
        List.Forall₂ (fun candidate mount => candidate.Resolves mount "/pod-1/x".toList)
          found order := by
  have hroots : ∀ mount ∈ nestedMounts, mount.fsType = "cgroup2".toList →
      Path.isAbsolute mount.root = true := by
    simp [nestedMounts, MountInfo.ofRoot, Path.isAbsolute]
  have hmembership : UnifiedMembership [⟨1, ["cpu".toList], "/".toList⟩, ⟨0, [], "/pod-1/x".toList⟩]
      "/pod-1/x".toList :=
    ⟨[⟨1, ["cpu".toList], "/".toList⟩], ⟨0, [], "/pod-1/x".toList⟩, [], rfl, by decide, rfl, rfl,
      rfl⟩
  obtain ⟨hok, horder⟩ :=
    candidates_resolve nestedProcess nestedProcess _ nestedMounts rfl rfl hroots
  obtain ⟨found, hfound⟩ := hok.mpr ⟨"/pod-1/x".toList, hmembership, by decide,
    .ofRoot "/" "/sys/fs/cgroup", List.mem_cons_self, by decide⟩
  obtain ⟨order, hperm, hdepth, -, -, hresolves⟩ := horder found _ hfound hmembership
  refine ⟨found, hfound, ?_, order, hdepth, hresolves⟩
  rw [hresolves.length_eq, hperm.length_eq]
  decide

end Sakai
