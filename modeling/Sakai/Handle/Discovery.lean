import Sakai.Error
import Sakai.Path

/-!
# Discovery: the first candidate that opens

`fromPid` reads the memberships of a process and opens its candidate directories in turn
(`openCandidates`), until one opens. What an attempt returns may depend on the attempts before, so
opening is a computation on some state.

* `openCandidates_answered`: candidates are tried in order, each once, up to the first that opens;
  if none does, the first error is returned.
* `MostSpecific cgroup table mount v`: of the mounts that expose the cgroup and open, the mount has
  the deepest root, and is the first with such a root in the table.
* `discovery_opens_most_specific`: discovery opens the most specific mount.
-/

namespace Sakai

open Lib

variable {S T : Type}

/-! ## Candidates in turn -/

/-- The candidates are opened in turn, with the error of the first one kept.
Source: `handle.rs`, the loop of `Cgroup::open_candidates`. -/
def openCandidatesFrom (openPath : Str → StateM S (Except Error T)) :
    Option Error → List CgroupPath → StateM S (Except Error T)
  | firstError, [] => return .error (firstError.getD .notCgroupV2)
  | firstError, candidate :: candidates => do
    match ← openPath candidate.path with
    | .ok value => return .ok value
    | .error error => openCandidatesFrom openPath (some (firstError.getD error)) candidates

/-- Source: `handle.rs`, `Cgroup::open_candidates`. -/
def openCandidates (openPath : Str → StateM S (Except Error T)) (candidates : List CgroupPath) :
    StateM S (Except Error T) :=
  openCandidatesFrom openPath none candidates

/-- What is read of processes.
Source: `procfs::process::Process`, `Process::new` and `Process::myself`. -/
structure ProcFs where
  /-- The process with an identifier. -/
  new : ℕ → Except ProcError (Process ProcError)
  /-- The calling process. -/
  myself : Except ProcError (Process ProcError)

/-- The identifier, if it is positive and fits `i32`.
Source: `handle.rs`, the `try_from` and `filter` of `Cgroup::from_pid`. -/
def pidOf (pid : UInt32) : Option ℕ :=
  if pid.toNat < 2 ^ 31 ∧ 0 < pid.toNat then some pid.toNat else none

/-- The error of a failed discovery.
Source: `handle.rs`, the `map_err` of `Cgroup::from_pid`. -/
def CgroupPathError.toError : CgroupPathError ProcError → Error
  | .procfs source => Error.procfs source
  | .deletedCgroup path => .deletedCgroup path
  | .unifiedHierarchyNotFound => .notCgroupV2
  | .unifiedMountNotFound => .notCgroupV2

/-- The candidates of a process.
Source: `handle.rs`, `Cgroup::from_pid`, before `open_candidates`. -/
def discover (procfs : ProcFs) (pid : UInt32) : Except Error (List CgroupPath) := do
  let pid ← match pidOf pid with
    | some pid => .ok pid
    | none => .error (.io .invalidInput)
  let process ← (procfs.new pid).mapError Error.procfs
  let caller ← procfs.myself.mapError Error.procfs
  (CgroupPath.candidates process caller).mapError CgroupPathError.toError

/-- Source: `handle.rs`, `Cgroup::from_pid`. -/
def fromPid (procfs : ProcFs) (fromPath : Str → StateM S (Except Error T)) (pid : UInt32) :
    StateM S (Except Error T) :=
  match discover procfs pid with
  | .error error => return .error error
  | .ok candidates => openCandidates fromPath candidates

/-! ## Answered attempts -/

/-- The outcomes that attempts get in turn, and the paths tried so far. -/
structure Script (T : Type) where
  /-- The outcomes of the next attempts. -/
  answers : List (Except Error T)
  /-- The paths tried, in order. -/
  tried : List Str

/-- An attempt gets the next outcome, and its path is recorded. -/
def answer (path : Str) : StateM (Script T) (Except Error T) := fun script =>
  match script.answers with
  | [] => (.error .notCgroupV2, { script with tried := script.tried ++ [path] })
  | outcome :: answers => (outcome, ⟨answers, script.tried ++ [path]⟩)

/-- The run of a computation on a script. -/
def runOn (x : StateM (Script T) (Except Error T)) (answers : List (Except Error T))
    (tried : List Str) : Except Error T × Script T := x.run ⟨answers, tried⟩

/-- The attempt fails. -/
def Failed (outcome : Except Error T) : Prop := ∃ e, outcome = .error e

/-- A failed attempt is no success. -/
lemma failed_iff {outcome : Except Error T} : Failed outcome ↔ ∀ v, outcome ≠ .ok v := by
  unfold Failed
  cases outcome <;> simp

/-- The paths of candidates with their outcomes. -/
def pathsOf (rows : List (CgroupPath × Except Error T)) : List Str := rows.map fun row => row.1.path

/-- A failed attempt, as a row. -/
def errorRow (row : CgroupPath × Error) : CgroupPath × Except Error T := (row.1, .error row.2)

/-- Rows that all fail have errors. -/
lemma exists_errorRows {rows : List (CgroupPath × Except Error T)}
    (h : ∀ row ∈ rows, Failed row.2) :
    ∃ failed : List (CgroupPath × Error), rows = failed.map errorRow := by
  induction rows with
  | nil => exact ⟨[], rfl⟩
  | cons row rows ih =>
      obtain ⟨e, he⟩ := h row List.mem_cons_self
      obtain ⟨failed, hfailed⟩ := ih fun r hr => h r (List.mem_cons_of_mem _ hr)
      refine ⟨(row.1, e) :: failed, ?_⟩
      rw [List.map_cons, ← hfailed, errorRow, ← he]

/-- **Failed candidates are passed one after the other**, and the first error is kept. -/
lemma openCandidatesFrom_errors (firstError : Option Error) (failed : List (CgroupPath × Error))
    (rows : List (CgroupPath × Except Error T)) (tried : List Str) :
    runOn (openCandidatesFrom answer firstError ((failed.map errorRow ++ rows).map Prod.fst))
        ((failed.map errorRow ++ rows).map Prod.snd) tried =
      runOn (openCandidatesFrom answer (firstError.or (failed.head?.map Prod.snd))
        (rows.map Prod.fst)) (rows.map Prod.snd)
        (tried ++ pathsOf (failed.map (errorRow (T := T)))) := by
  induction failed generalizing firstError tried with
  | nil => simp [pathsOf]
  | cons row failed ih =>
      have hstep : runOn (openCandidatesFrom answer firstError
            (((row :: failed).map errorRow ++ rows).map Prod.fst))
            (((row :: failed).map errorRow ++ rows).map Prod.snd) tried =
          runOn (openCandidatesFrom answer (some (firstError.getD row.2))
            ((failed.map errorRow ++ rows).map Prod.fst))
            ((failed.map errorRow ++ rows).map Prod.snd) (tried ++ [row.1.path]) := rfl
      have hfirst : (some (firstError.getD row.2)).or (failed.head?.map Prod.snd) =
          firstError.or (some row.2) := by
        cases firstError <;> rfl
      rw [hstep, ih, hfirst, List.append_assoc]
      rfl

/-- **Candidates in turn.** They are tried in order, each once, up to the first that opens; if none
does, all of them are tried, and the first error is returned. -/
lemma openCandidates_answered (rows : List (CgroupPath × Except Error T)) :
    (∀ before candidate v after, rows = before ++ (candidate, .ok v) :: after →
      (∀ row ∈ before, Failed row.2) →
      runOn (openCandidates answer (rows.map Prod.fst)) (rows.map Prod.snd) [] =
        (.ok v, ⟨after.map Prod.snd, pathsOf before ++ [candidate.path]⟩)) ∧
    ((∀ row ∈ rows, Failed row.2) →
      runOn (openCandidates answer (rows.map Prod.fst)) (rows.map Prod.snd) [] =
        ((rows.head?.map Prod.snd).getD (.error .notCgroupV2), ⟨[], pathsOf rows⟩)) := by
  constructor
  · rintro before candidate v after rfl hbefore
    obtain ⟨failed, rfl⟩ := exists_errorRows hbefore
    exact openCandidatesFrom_errors none failed ((candidate, .ok v) :: after) []
  · intro hrows
    obtain ⟨failed, rfl⟩ := exists_errorRows hrows
    have hrun := openCandidatesFrom_errors (T := T) none failed [] []
    rw [List.append_nil] at hrun
    unfold openCandidates
    rw [hrun]
    cases failed <;> rfl

/-! ## The most specific mount -/

/-- What discovery reads of a process: its membership, which is not that of a removed cgroup, and
the mounts of the caller. -/
structure Observes (procfs : ProcFs) (pid : UInt32) (cgroup : Str) (mounts : List MountInfo) :
    Prop where
  /-- The identifier is positive and fits `i32`. -/
  valid : 0 < pid.toNat ∧ pid.toNat < 2 ^ 31
  /-- The process has the membership. -/
  target : ∃ target entries, procfs.new pid.toNat = .ok target ∧ target.cgroups = .ok entries ∧
    UnifiedMembership entries cgroup
  /-- The cgroup is not removed. -/
  live : ¬ " (deleted)".toList <:+ cgroup
  /-- The caller sees the mounts. -/
  caller : ∃ caller, procfs.myself = .ok caller ∧ caller.mountinfo = .ok mounts

/-- A mount of the table and the outcome of opening its directory are the most specific ones that
expose the cgroup and open: no such mount has a deeper root, and none before it in the table has a
root as deep. -/
structure MostSpecific (cgroup : Str) (table : List (MountInfo × Except Error T))
    (mount : MountInfo) (v : T) : Prop where
  /-- The mount exposes the cgroup. -/
  exposes : mount.Exposes cgroup
  /-- No mount that opens has a deeper root. -/
  deepest : ∀ row ∈ table, row.1.Exposes cgroup → ¬ Failed row.2 → row.1.depth ≤ mount.depth
  /-- No mount before it that opens has a root as deep. -/
  earliest : ∃ before after, table = before ++ (mount, .ok v) :: after ∧
    ∀ row ∈ before, row.1.Exposes cgroup → ¬ Failed row.2 → row.1.depth < mount.depth

/-- The mounts that expose the cgroup, with their outcomes, in the order of attempts. -/
def attempts (cgroup : Str) (table : List (MountInfo × Except Error T)) :
    List (MountInfo × Except Error T) :=
  sortByKey (fun row => OrderDual.toDual row.1.depth)
    (table.filter fun row => row.1.Exposes cgroup)

/-- The attempts are at the exposing mounts. -/
lemma map_fst_attempts (cgroup : Str) (table : List (MountInfo × Except Error T)) :
    (attempts cgroup table).map Prod.fst = exposing cgroup (table.map Prod.fst) := by
  unfold attempts exposing
  rw [List.filter_map, sortByKey_map]
  rfl

/-- An attempt is at an exposing mount of the table. -/
lemma mem_attempts {cgroup : Str} {table : List (MountInfo × Except Error T)}
    {row : MountInfo × Except Error T} :
    row ∈ attempts cgroup table ↔ row ∈ table ∧ row.1.Exposes cgroup := by
  unfold attempts
  rw [(sortByKey_perm _ _).mem_iff, List.mem_filter, decide_eq_true_iff]

/-- **The first attempt that opens is the most specific.** -/
lemma mostSpecific_of_attempts {cgroup : Str}
    {table before after : List (MountInfo × Except Error T)} {mount : MountInfo} {v : T}
    (hsort : attempts cgroup table = before ++ (mount, .ok v) :: after)
    (hbefore : ∀ row ∈ before, Failed row.2) : MostSpecific cgroup table mount v := by
  have hmem : (mount, .ok v) ∈ attempts cgroup table := by
    rw [hsort]
    exact List.mem_append_right _ List.mem_cons_self
  obtain ⟨front, back, hfilter, hdeepest, hearliest⟩ :=
    first_of_sortByKey (q := fun row : MountInfo × Except Error T => ¬ Failed row.2) hsort
      fun row hrow hopen => hopen (hbefore row hrow)
  obtain ⟨front', back', rfl, rfl, hback⟩ := List.filter_eq_append_iff.mp hfilter
  obtain ⟨gap, rest, rfl, hgap, -, -⟩ := List.filter_eq_cons_iff.mp hback
  refine ⟨(mem_attempts.mp hmem).2, fun row hrow hexposes hopen => ?_,
    front' ++ gap, rest, (List.append_assoc _ _ _).symm, fun row hrow hexposes hopen => ?_⟩
  · have hkept : row ∈ List.filter (fun row => row.1.Exposes cgroup) _ :=
      List.mem_filter.mpr ⟨hrow, decide_eq_true hexposes⟩
    exact OrderDual.toDual_le_toDual.mp (hdeepest row hkept hopen)
  · rcases List.mem_append.mp hrow with hrow | hrow
    · have hkept : row ∈ front'.filter fun row => row.1.Exposes cgroup :=
        List.mem_filter.mpr ⟨hrow, decide_eq_true hexposes⟩
      exact OrderDual.toDual_lt_toDual.mp (hearliest row hkept hopen)
    · exact absurd (decide_eq_true hexposes) (hgap row hrow)

/-- What is discovered are the candidates of the exposing mounts. -/
lemma discover_eq_ok_iff {procfs : ProcFs} {pid : UInt32} {cgroup : Str} {mounts : List MountInfo}
    (h : Observes procfs pid cgroup mounts) {found : List CgroupPath} :
    discover procfs pid = .ok found ↔
      exposing cgroup mounts ≠ [] ∧
        (exposing cgroup mounts).map (CgroupPath.ofExposing cgroup) = found := by
  obtain ⟨target, entries, htarget, hentries, hmembership⟩ := h.target
  obtain ⟨caller, hcaller, hmounts⟩ := h.caller
  have hpid : pidOf pid = some pid.toNat := if_pos ⟨h.valid.2, h.valid.1⟩
  unfold discover
  simp only [hpid, htarget, hcaller, Except.mapError, ok_bind]
  show (CgroupPath.candidates target caller).mapError CgroupPathError.toError = .ok found ↔ _
  rw [mapError_eq_ok, candidates_eq_ok_iff hentries hmounts]
  constructor
  · rintro ⟨cgroup', hmembership', -, hfound⟩
    obtain rfl := hmembership.unique hmembership'
    exact hfound
  · exact fun hfound => ⟨cgroup, hmembership, h.live, hfound⟩

/-- The candidate of an exposing mount, with the outcome of opening it. -/
def candidateRow (cgroup : Str) (row : MountInfo × Except Error T) :
    CgroupPath × Except Error T := (CgroupPath.ofExposing cgroup row.1, row.2)

/-- A run of discovery in which each attempt has the outcome of its mount. -/
def discoveryRun (procfs : ProcFs) (pid : UInt32) (cgroup : Str)
    (table : List (MountInfo × Except Error T)) : Except Error T × Script T :=
  runOn (fromPid procfs answer pid) ((attempts cgroup table).map Prod.snd) []

section discoveryRun

variable {procfs : ProcFs} {pid : UInt32} {cgroup : Str}
  {table : List (MountInfo × Except Error T)}

/-- Without exposing mount, nothing is opened. -/
lemma failed_discoveryRun (h : Observes procfs pid cgroup (table.map Prod.fst))
    (hnone : attempts cgroup table = []) : Failed (discoveryRun procfs pid cgroup table).1 := by
  rcases hdiscover : discover procfs pid with e | found
  · refine ⟨e, ?_⟩
    unfold discoveryRun fromPid
    rw [hdiscover]
    rfl
  · obtain ⟨hne, -⟩ := (discover_eq_ok_iff h).mp hdiscover
    rw [← map_fst_attempts, hnone] at hne
    exact absurd rfl hne

/-- With exposing mounts, their directories are the candidates. -/
lemma discoveryRun_eq (h : Observes procfs pid cgroup (table.map Prod.fst))
    (hne : attempts cgroup table ≠ []) :
    discoveryRun procfs pid cgroup table =
      runOn (openCandidates answer (((attempts cgroup table).map (candidateRow cgroup)).map
        Prod.fst)) (((attempts cgroup table).map (candidateRow cgroup)).map Prod.snd) [] := by
  have hcandidates : (exposing cgroup (table.map Prod.fst)).map (CgroupPath.ofExposing cgroup) =
      ((attempts cgroup table).map (candidateRow cgroup)).map Prod.fst := by
    rw [← map_fst_attempts, List.map_map, List.map_map]
    rfl
  have hexposing : exposing cgroup (table.map Prod.fst) ≠ [] := by
    rw [← map_fst_attempts, Ne, List.map_eq_nil_iff]
    exact hne
  have hdiscover := (discover_eq_ok_iff h).mpr ⟨hexposing, hcandidates⟩
  have hanswers : (attempts cgroup table).map Prod.snd =
      ((attempts cgroup table).map (candidateRow cgroup)).map Prod.snd := by
    rw [List.map_map]
    rfl
  unfold discoveryRun fromPid
  rw [hdiscover, hanswers]

/-- Either all attempts fail, or some attempt is the first that does not. -/
lemma exists_first_ok {X : Type} (rows : List (X × Except Error T)) :
    (∀ row ∈ rows, Failed row.2) ∨
      ∃ before x v after, rows = before ++ (x, .ok v) :: after ∧ ∀ row ∈ before, Failed row.2 := by
  induction rows with
  | nil => exact Or.inl (by simp)
  | cons row rows ih =>
      obtain ⟨x, outcome⟩ := row
      rcases outcome with e | v
      · have hrow : Failed (T := T) (.error e) := ⟨e, rfl⟩
        rcases ih with hall | ⟨before, x', v, after, rfl, hbefore⟩
        · exact Or.inl (List.forall_mem_cons.mpr ⟨hrow, hall⟩)
        · exact Or.inr ⟨(x, .error e) :: before, x', v, after, rfl,
            List.forall_mem_cons.mpr ⟨hrow, hbefore⟩⟩
      · exact Or.inr ⟨[], x, v, rows, rfl, by simp⟩

/-- Failed mounts are failed candidates. -/
lemma failed_candidateRow {rows : List (MountInfo × Except Error T)}
    (h : ∀ row ∈ rows, Failed row.2) : ∀ row ∈ rows.map (candidateRow cgroup), Failed row.2 := by
  intro row hrow
  obtain ⟨mount, hmount, rfl⟩ := List.mem_map.mp hrow
  exact h mount hmount

/-- **Discovery opens the first attempt that opens.** -/
lemma discoveryRun_of_first (h : Observes procfs pid cgroup (table.map Prod.fst))
    {before after : List (MountInfo × Except Error T)} {mount : MountInfo} {v : T}
    (hsort : attempts cgroup table = before ++ (mount, .ok v) :: after)
    (hbefore : ∀ row ∈ before, Failed row.2) :
    (discoveryRun procfs pid cgroup table).1 = .ok v ∧
      (discoveryRun procfs pid cgroup table).2.tried.getLast? =
        some (CgroupPath.ofExposing cgroup mount).path := by
  have hne : attempts cgroup table ≠ [] := by
    rw [hsort]
    exact List.append_ne_nil_of_right_ne_nil before (List.cons_ne_nil _ _)
  have hrows : (attempts cgroup table).map (candidateRow cgroup) =
      before.map (candidateRow cgroup) ++
        (CgroupPath.ofExposing cgroup mount, .ok v) :: after.map (candidateRow cgroup) := by
    rw [hsort, List.map_append, List.map_cons]
    rfl
  have hrun := (openCandidates_answered _).1 _ _ v _ hrows (failed_candidateRow hbefore)
  rw [discoveryRun_eq h hne, hrun]
  exact ⟨rfl, List.getLast?_concat⟩

/-- When all attempts fail, so does discovery. -/
lemma discoveryRun_of_failed (h : Observes procfs pid cgroup (table.map Prod.fst))
    (hall : ∀ row ∈ attempts cgroup table, Failed row.2) :
    Failed (discoveryRun procfs pid cgroup table).1 := by
  rcases hattempts : attempts cgroup table with _ | ⟨row, rows⟩
  · exact failed_discoveryRun h hattempts
  · have hne : attempts cgroup table ≠ [] := by simp [hattempts]
    have hrun := (openCandidates_answered _).2 (@failed_candidateRow _ cgroup _ hall)
    rw [discoveryRun_eq h hne, hrun, hattempts]
    exact hall row (by simp [hattempts])

end discoveryRun

/-- **The first candidate that opens, and so the most specific mount.** For every list of candidates
and every outcome of each, candidates are tried in order, each once, up to the first that opens; if
none does, the first error is returned, and `NotCgroupV2` without candidates. For every mount table
and every outcome of each mount, discovery then opens the most specific mount that opens, if there
is one. -/
theorem discovery_opens_most_specific :
    (∀ rows : List (CgroupPath × Except Error T),
      (∀ before candidate v after, rows = before ++ (candidate, .ok v) :: after →
        (∀ row ∈ before, Failed row.2) →
        runOn (openCandidates answer (rows.map Prod.fst)) (rows.map Prod.snd) [] =
          (.ok v, ⟨after.map Prod.snd, pathsOf before ++ [candidate.path]⟩)) ∧
      ((∀ row ∈ rows, Failed row.2) →
        runOn (openCandidates answer (rows.map Prod.fst)) (rows.map Prod.snd) [] =
          ((rows.head?.map Prod.snd).getD (.error .notCgroupV2), ⟨[], pathsOf rows⟩))) ∧
    ∀ (procfs : ProcFs) (pid : UInt32) (cgroup : Str) (table : List (MountInfo × Except Error T)),
      Observes procfs pid cgroup (table.map Prod.fst) →
      (∀ v, (discoveryRun procfs pid cgroup table).1 = .ok v →
        ∃ mount, MostSpecific cgroup table mount v ∧
          (discoveryRun procfs pid cgroup table).2.tried.getLast? =
            some (CgroupPath.ofExposing cgroup mount).path) ∧
      ((∃ v, (discoveryRun procfs pid cgroup table).1 = .ok v) ↔
        ∃ row ∈ table, row.1.Exposes cgroup ∧ ¬ Failed row.2) := by
  refine ⟨openCandidates_answered, fun procfs pid cgroup table h => ?_⟩
  rcases exists_first_ok (attempts cgroup table) with
    hall | ⟨before, mount, v, after, hsort, hbefore⟩
  · have hfailed := failed_iff.mp (discoveryRun_of_failed h hall)
    refine ⟨fun v hv => absurd hv (hfailed v), fun ⟨v, hv⟩ => absurd hv (hfailed v), ?_⟩
    rintro ⟨row, hrow, hexposes, hopen⟩
    exact absurd (hall row (mem_attempts.mpr ⟨hrow, hexposes⟩)) hopen
  · obtain ⟨hok, htried⟩ := discoveryRun_of_first h hsort hbefore
    have hmem : (mount, .ok v) ∈ attempts cgroup table := by
      rw [hsort]
      exact List.mem_append_right _ List.mem_cons_self
    obtain ⟨hrow, hexposes⟩ := mem_attempts.mp hmem
    refine ⟨fun v' hv' => ?_, fun _ => ?_, fun _ => ⟨v, hok⟩⟩
    · rw [hok] at hv'
      cases hv'
      exact ⟨mount, mostSpecific_of_attempts hsort hbefore, htried⟩
    · exact ⟨(mount, .ok v), hrow, hexposes, failed_iff.not.mpr (by simp)⟩

/-- A process in a cgroup beneath the roots of several mounts, which calls for itself. -/
def nestedProcFs : ProcFs where
  new _ := .ok ⟨.ok [⟨0, [], "/pod-1/x".toList⟩], .ok nestedMounts⟩
  myself := .ok ⟨.ok [⟨0, [], "/pod-1/x".toList⟩], .ok nestedMounts⟩

/-- The outcomes of its mounts: the first mount of the deepest root does not open. -/
def nestedTable : List (MountInfo × Except Error ℕ) :=
  nestedMounts.zip [.ok 0, .error .notCgroupV2, .ok 1, .ok 2]

/-- One of the mounts opens, and the most specific one is opened. -/
theorem discovery_opens_most_specific_nested :
    ∃ v mount, (discoveryRun nestedProcFs 7 "/pod-1/x".toList nestedTable).1 = .ok v ∧
      MostSpecific "/pod-1/x".toList nestedTable mount v := by
  have hobserves : Observes nestedProcFs 7 "/pod-1/x".toList (nestedTable.map Prod.fst) :=
    ⟨by decide, ⟨_, _, rfl, rfl, [], ⟨0, [], "/pod-1/x".toList⟩, [], rfl, by simp, rfl, rfl, rfl⟩,
      by decide, ⟨_, rfl, rfl⟩⟩
  have hopens : ∃ row ∈ nestedTable, row.1.Exposes "/pod-1/x".toList ∧ ¬ Failed row.2 :=
    ⟨(.ofRoot "/" "/sys/fs/cgroup", .ok 0), List.mem_cons_self, by decide,
      failed_iff.not.mpr (by simp)⟩
  obtain ⟨hdirectory, hsome⟩ :=
    discovery_opens_most_specific.2 nestedProcFs 7 _ nestedTable hobserves
  obtain ⟨v, hv⟩ := hsome.mpr hopens
  obtain ⟨mount, hmount, -⟩ := hdirectory v hv
  exact ⟨v, mount, hv, hmount⟩

end Sakai
