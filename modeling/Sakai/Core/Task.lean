import Sakai.Encoding
import Sakai.Lib.FirstLast

/-!
# `cgroup.procs` and `cgroup.threads`

A list of process or thread identifiers, one a line. An identifier is a nonnegative `i32`.

* `TaskId.parseList_eq_ok_iff` says which texts are accepted, and `TaskId.parseList_of_layout` that
  a printed list is read back with its order and its duplicates.
* `task_list_parse` adds the error of the first line that is rejected.
-/

namespace Sakai

open Lib

/-- A process or thread ID.
Source: `core/task.rs`, `TaskId`. -/
structure TaskId where
  /-- The identifier. -/
  value : Int32
  /-- It is not negative. -/
  nonneg : 0 ≤ value
  deriving DecidableEq, Repr

namespace TaskId

/-- A negative identifier is rejected.
Source: `core/task.rs`, the `validate` of `TaskId`. -/
def tryNew (value : Int32) : Option TaskId :=
  if h : 0 ≤ value then some ⟨value, h⟩ else none

/-- One line of a list.
Source: `core/task.rs`, the `map` closure of `TaskId::parse_list`. -/
def parseLine (contents line : Str) : Parsed TaskId := do
  let raw := trim line
  let id ← (parseI32 raw).mapError fun error => .invalid contents "task_id" raw (.integer error)
  match tryNew id with
  | some id => return id
  | none => .error (.invalid contents "task_id" raw .outOfRange)

/-- Source: `core/task.rs`, `TaskId::parse_list`. -/
def parseList (contents : Str) : Parsed (List TaskId) :=
  ((nonBlankLines contents).map (parseLine contents)).mapM id

/-- An identifier is kept exactly when it is not negative. -/
@[simp] lemma tryNew_eq_some_iff {value : Int32} {task : TaskId} :
    tryNew value = some task ↔ task.value = value := by
  unfold tryNew
  constructor
  · intro h
    split_ifs at h
    cases h
    rfl
  · rintro rfl
    rw [dif_pos task.nonneg]

/-- A line is accepted exactly as the integer between its white space. -/
lemma parseLine_eq_ok_iff {contents line : Str} {task : TaskId} :
    parseLine contents line = .ok task ↔ parseI32 (trim line) = .ok task.value := by
  unfold parseLine
  simp only [bind_eq_ok, mapError_eq_ok]
  constructor
  · rintro ⟨value, hvalue, htask⟩
    rcases hnew : tryNew value with _ | task'
    · simp [hnew] at htask
    · simp only [hnew, pure_eq_ok] at htask
      rw [hvalue, ← tryNew_eq_some_iff.mp hnew, htask]
  · intro h
    have hnew : tryNew task.value = some task := tryNew_eq_some_iff.mpr rfl
    refine ⟨task.value, h, ?_⟩
    rw [hnew]
    rfl

/-- **A list is accepted line by line**, in the order of its lines. -/
theorem parseList_eq_ok_iff {contents : Str} {tasks : List TaskId} :
    parseList contents = .ok tasks ↔
      List.Forall₂ (fun line (task : TaskId) => parseI32 (trim line) = .ok task.value)
        (nonBlankLines contents) tasks := by
  unfold parseList
  rw [mapM_id_eq_ok_iff, ← List.forall₂_eq_eq_eq, List.forall₂_map_left_iff,
    List.forall₂_map_right_iff]
  simp only [parseLine_eq_ok_iff]

/-- A line shows an identifier: an integer that fits `i32` and is not negative, among white
space. -/
def ShowsTask (line : Str) : Prop := ∃ i : ℤ, IsInteger (trim line) i ∧ 0 ≤ i ∧ i < 2 ^ 31

/-- A line is accepted exactly when it shows an identifier. -/
lemma succeeds_parseLine {contents line : Str} :
    Succeeds (parseLine contents) line ↔ ShowsTask line := by
  unfold Succeeds ShowsTask
  simp only [parseLine_eq_ok_iff, parseI32_eq_ok_iff]
  constructor
  · intro h
    obtain ⟨task, htask⟩ := h
    have hnonneg : 0 ≤ task.value.toInt := Int32.le_iff_toInt_le.mp task.nonneg
    exact ⟨task.value.toInt, htask, hnonneg, Int32.toInt_lt task.value⟩
  · intro h
    obtain ⟨i, hi, hlo, hhi⟩ := h
    have htoInt : (Int32.ofInt i).toInt = i := Int32.toInt_ofInt_of_le (by omega) (by omega)
    refine ⟨⟨Int32.ofInt i, Int32.le_iff_toInt_le.mpr ?_⟩, ?_⟩
    · rw [htoInt]
      exact hlo
    · rwa [htoInt]

/-- A line is rejected by its text being no integer of the type, or a negative one. -/
def RejectedAs (contents line : Str) (e : ParseError ParseValueError) : Prop :=
  (∃ kind, parseI32 (trim line) = .error kind ∧
    e = .invalid contents "task_id" (trim line) (.integer kind)) ∨
  ∃ i : ℤ, IsInteger (trim line) i ∧ -2 ^ 31 ≤ i ∧ i < 0 ∧
    e = .invalid contents "task_id" (trim line) .outOfRange

/-- **The error of a line** names its text between white space. -/
lemma parseLine_eq_error_iff {contents line : Str} {e : ParseError ParseValueError} :
    parseLine contents line = .error e ↔ RejectedAs contents line e := by
  unfold parseLine RejectedAs
  simp only [bind_eq_error, mapError_eq_error, mapError_eq_ok, parseI32_eq_ok_iff]
  refine or_congr (exists_congr fun kind => and_congr_right fun _ => eq_comm) ?_
  constructor
  · intro h
    obtain ⟨value, hvalue, h⟩ := h
    unfold tryNew at h
    by_cases hneg : 0 ≤ value
    · rw [dif_pos hneg] at h
      exact absurd h pure_ne_error
    · rw [dif_neg hneg] at h
      cases h
      have hlt : value.toInt < 0 := Int32.lt_iff_toInt_lt.mp (Int32.not_le.mp hneg)
      exact ⟨value.toInt, hvalue, Int32.le_toInt value, hlt, rfl⟩
  · intro h
    obtain ⟨i, hi, hlo, hneg, rfl⟩ := h
    have htoInt : (Int32.ofInt i).toInt = i := Int32.toInt_ofInt_of_le (by omega) (by omega)
    refine ⟨Int32.ofInt i, by rwa [htoInt], ?_⟩
    have hnew : ¬ 0 ≤ Int32.ofInt i := by
      rw [Int32.le_iff_toInt_le, htoInt, Int32.toInt_zero]
      omega
    unfold tryNew
    rw [dif_neg hnew]

/-- The row of an identifier: its decimal form. -/
def row (task : TaskId) : List Str := [decimalInt task.value.toInt]

/-- The decimal form of an integer has no white space around. -/
lemma trimmed_decimalInt (i : ℤ) : Trimmed (decimalInt i) := by
  have hdigits : ∀ n, ∀ c ∈ decimal n, isWhitespace c = false := by
    intro n c hc
    rw [← Bool.not_eq_true]
    intro hws
    have hdigit := (isDigits_decimal n).digits c hc
    rw [not_isDigit_of_isWhitespace hws] at hdigit
    cases hdigit
  apply Trimmed.of_forall
  unfold decimalInt
  split
  · exact hdigits _
  · intro c hc
    rcases List.mem_cons.mp hc with rfl | hc
    · decide
    · exact hdigits _ c hc

/-- **A printed list is read back**, with its order and its duplicates. -/
theorem parseList_of_layout {tasks : List TaskId} {text : Str} (h : Layout (tasks.map row) text) :
    parseList text = .ok tasks := by
  have hlines := nonBlankLines_of_layout h
  rw [List.forall₂_map_left_iff] at hlines
  rw [parseList_eq_ok_iff]
  apply hlines.flip.imp
  intro line task hline
  rw [Spaced.trim hline (trimmed_decimalInt _)]
  exact parseI32_decimalInt task.value

end TaskId

/-- Lists of identifiers. A list is accepted exactly when each line that is not blank shows an
identifier; it then has one for each of these lines, in their order. A printed list, blank lines
interleaved anywhere, is read back as it was. Otherwise the error names what the first offending
line holds between its white space: no integer of the type, or a negative one. -/
theorem task_list_parse (contents : Str) :
    ((∃ tasks, TaskId.parseList contents = .ok tasks) ↔
      ∀ line ∈ lines contents, trim line ≠ [] → TaskId.ShowsTask line) ∧
    (∀ tasks, TaskId.parseList contents = .ok tasks →
      List.Forall₂ (fun line (task : TaskId) => IsInteger (trim line) task.value.toInt)
        (nonBlankLines contents) tasks) ∧
    (∀ tasks, Layout (tasks.map TaskId.row) contents → TaskId.parseList contents = .ok tasks) ∧
    ∀ e, TaskId.parseList contents = .error e ↔
      ∃ line, FirstRejected (fun line => trim line ≠ [] → TaskId.ShowsTask line)
          (lines contents) line ∧
        TaskId.RejectedAs contents line e := by
  refine ⟨?_, ?_, fun tasks => TaskId.parseList_of_layout, ?_⟩
  · unfold TaskId.parseList
    rw [exists_mapM_map, forall_nonBlankLines]
    simp only [TaskId.succeeds_parseLine]
  · intro tasks htasks
    rw [TaskId.parseList_eq_ok_iff] at htasks
    simpa only [parseI32_eq_ok_iff] using htasks
  · intro e
    unfold TaskId.parseList
    rw [mapM_map_eq_error_iff]
    simp only [firstRejected_nonBlankLines, TaskId.succeeds_parseLine,
      TaskId.parseLine_eq_error_iff]

/-- A repeated identifier is kept. -/
theorem task_list_parse_repeated :
    TaskId.parseList "12\n7\n12\n".toList =
      .ok [⟨12, by decide⟩, ⟨7, by decide⟩, ⟨12, by decide⟩] :=
  (task_list_parse _).2.2.1 _ (layout_unlines (by decide))

end Sakai
