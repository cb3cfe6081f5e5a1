import Sakai.Parse

/-!
# `cpuset.cpus.partition`

The partition state of a cpuset: one of three states, of which two can be invalid, with a reason in
parentheses since newer kernels. The reason is free text.

* `CpusetPartition.ofWord_eq_some_iff`, `CpusetPartition.ofReason_eq_some_iff`: the words, and the
  texts with a reason, are those the kernel prints.
* `CpusetPartition.fromStr_eq_ok_iff`: a text is read as a partition exactly when, without the white
  space around it, it is its printed form.
* `partition_text_bijection`: reading and printing are inverse, and what an error is.
-/

namespace Sakai

open Lib

/-- A snapshot of `cpuset.cpus.partition`.
Source: `cpuset/partition.rs`, `CpusetPartition`. -/
inductive CpusetPartition
  | member
  | root
  | isolated
  | rootInvalid (reason : Option Str)
  | isolatedInvalid (reason : Option Str)
  deriving DecidableEq, Repr

namespace CpusetPartition

/-- The base state.
Source: `cpuset/partition.rs`, `CpusetPartition::state`. -/
def state : CpusetPartition → Str
  | member => "member".toList
  | root | rootInvalid _ => "root".toList
  | isolated | isolatedInvalid _ => "isolated".toList

/-- Source: `cpuset/partition.rs`, `CpusetPartition::is_invalid`. -/
def isInvalid : CpusetPartition → Bool
  | member | root | isolated => false
  | rootInvalid _ | isolatedInvalid _ => true

/-- The diagnostic reason, without parentheses.
Source: `cpuset/partition.rs`, `CpusetPartition::reason`. -/
def reason : CpusetPartition → Option Str
  | member | root | isolated => none
  | rootInvalid reason | isolatedInvalid reason => reason

/-- A state given by words alone.
Source: `cpuset/partition.rs`, the literal arms of `CpusetPartition::from_str`. -/
def ofWord (value : Str) : Option CpusetPartition :=
  if value = "member".toList then some member
  else if value = "root".toList then some root
  else if value = "isolated".toList then some isolated
  else if value = "root invalid".toList then some (rootInvalid none)
  else if value = "isolated invalid".toList then some (isolatedInvalid none)
  else none

/-- The filter of reasons.
Source: `cpuset/partition.rs`, the `filter` of `CpusetPartition::from_str`. -/
def isReason (reason : Str) : Bool :=
  !isBlank reason && !reason.any fun c => c == '\n' || c == '\r'

/-- A state with a reason, split at the first ` invalid (`.
Source: `cpuset/partition.rs`, the last arm of `CpusetPartition::from_str`. -/
def ofReason (value : Str) : Option CpusetPartition := do
  let (state, reason) ← splitOnceAt " invalid (".toList value
  let reason ← (stripSuffix [')'] reason).filter isReason
  if state = "root".toList then some (rootInvalid (some reason))
  else if state = "isolated".toList then some (isolatedInvalid (some reason))
  else none

/-- Source: `cpuset/partition.rs`, `CpusetPartition::from_str`. -/
def fromStr (raw : Str) : Parsed CpusetPartition :=
  let value := trim raw
  if value = [] then .error (.missing raw "partition")
  else match (ofWord value).or (ofReason value) with
    | some partition => .ok partition
    | none => .error (.invalid raw "partition" value .outOfRange)

/-! ## Printing -/

/-- The text of a reason, in parentheses. -/
def renderReason : Option Str → Str
  | none => []
  | some reason => " (".toList ++ (reason ++ [')'])

/-- The form the kernel prints. -/
def render (p : CpusetPartition) : Str :=
  p.state ++ if p.isInvalid then " invalid".toList ++ renderReason p.reason else []

/-- The reason, if there is one, is one line and not blank. -/
def WellFormed (p : CpusetPartition) : Prop :=
  ∀ reason, p.reason = some reason → isBlank reason = false ∧ '\n' ∉ reason ∧ '\r' ∉ reason

/-- The filter keeps the reasons of one line that are not blank. -/
lemma isReason_iff {reason : Str} :
    isReason reason = true ↔ isBlank reason = false ∧ '\n' ∉ reason ∧ '\r' ∉ reason := by
  unfold isReason
  rw [Bool.and_eq_true, Bool.not_eq_true', Bool.not_eq_true', List.any_eq_false]
  simp only [Bool.or_eq_true, beq_iff_eq, not_or]
  constructor
  · rintro ⟨hblank, hchars⟩
    exact ⟨hblank, fun h => (hchars _ h).1 rfl, fun h => (hchars _ h).2 rfl⟩
  · rintro ⟨hblank, hlf, hcr⟩
    refine ⟨hblank, fun c hc => ⟨?_, ?_⟩⟩
    · rintro rfl
      exact hlf hc
    · rintro rfl
      exact hcr hc

/-- **The words are the printed forms without a reason.** -/
lemma ofWord_eq_some_iff {value : Str} {p : CpusetPartition} :
    ofWord value = some p ↔ value = p.render ∧ p.reason = none := by
  constructor
  · intro h
    unfold ofWord at h
    split_ifs at h with h₁ h₂ h₃ h₄ h₅ <;> cases h
    · exact ⟨h₁, rfl⟩
    · exact ⟨h₂, rfl⟩
    · exact ⟨h₃, rfl⟩
    · exact ⟨h₄, rfl⟩
    · exact ⟨h₅, rfl⟩
  · rintro ⟨rfl, hreason⟩
    cases p with
    | member => rfl
    | root => rfl
    | isolated => rfl
    | rootInvalid reason =>
        obtain rfl : reason = none := hreason
        rfl
    | isolatedInvalid reason =>
        obtain rfl : reason = none := hreason
        rfl

/-- A state followed by a reason is split at the marker, whatever the reason holds. -/
lemma splitOnceAt_render {state reason : Str} (hstate : ' ' ∉ state) :
    splitOnceAt " invalid (".toList
      (state ++ (" invalid".toList ++ renderReason (some reason))) =
        some (state, reason ++ [')']) :=
  splitOnceAt_append hstate (reason ++ [')'])

/-- **The texts with a reason are the printed forms with one.** -/
lemma ofReason_eq_some_iff {value : Str} {p : CpusetPartition} :
    ofReason value = some p ↔ value = p.render ∧ p.WellFormed ∧ p.reason ≠ none := by
  unfold ofReason
  simp only [Option.bind_eq_bind, Option.bind_eq_some_iff, Option.filter_eq_some_iff,
    stripSuffix_eq_some_iff]
  constructor
  · rintro ⟨⟨state, rest⟩, hsplit, reason, ⟨rfl, hreason⟩, h⟩
    have hvalue := eq_of_splitOnceAt hsplit
    have hwell := isReason_iff.mp hreason
    split_ifs at h with hroot hisolated <;> cases h
    · refine ⟨?_, ?_, Option.some_ne_none _⟩
      · rw [hvalue, hroot]
        rfl
      · rintro _ ⟨⟩
        exact hwell
    · refine ⟨?_, ?_, Option.some_ne_none _⟩
      · rw [hvalue, hisolated]
        rfl
      · rintro _ ⟨⟩
        exact hwell
  · rintro ⟨rfl, hwell, hsome⟩
    obtain ⟨reason, hreason⟩ := Option.ne_none_iff_exists'.mp hsome
    have hkept := isReason_iff.mpr (hwell reason hreason)
    cases p with
    | member => cases hreason
    | root => cases hreason
    | isolated => cases hreason
    | rootInvalid r =>
        obtain rfl : r = some reason := hreason
        have hstate : ' ' ∉ "root".toList := by decide
        exact ⟨_, splitOnceAt_render hstate, reason, ⟨rfl, hkept⟩, rfl⟩
    | isolatedInvalid r =>
        obtain rfl : r = some reason := hreason
        have hstate : ' ' ∉ "isolated".toList := by decide
        exact ⟨_, splitOnceAt_render hstate, reason, ⟨rfl, hkept⟩, rfl⟩

/-- A printed form ends with a parenthesis exactly when there is a reason. -/
lemma getLast?_render_iff (p : CpusetPartition) :
    p.render.getLast? = some ')' ↔ p.reason ≠ none := by
  have hreason : ∀ state reason : Str,
      (state ++ (" invalid".toList ++ renderReason (some reason))).getLast? = some ')' := by
    intro state reason
    unfold renderReason
    rw [← List.append_assoc, ← List.append_assoc, ← List.append_assoc]
    exact List.getLast?_concat
  cases p with
  | member => decide
  | root => decide
  | isolated => decide
  | rootInvalid reason =>
      cases reason with
      | none => decide
      | some reason => exact iff_of_true (hreason _ reason) (Option.some_ne_none reason)
  | isolatedInvalid reason =>
      cases reason with
      | none => decide
      | some reason => exact iff_of_true (hreason _ reason) (Option.some_ne_none reason)

/-- The base states are words. -/
lemma state_cases (p : CpusetPartition) :
    p.state = "member".toList ∨ p.state = "root".toList ∨ p.state = "isolated".toList := by
  cases p with
  | member => exact Or.inl rfl
  | root | rootInvalid _ => exact Or.inr (Or.inl rfl)
  | isolated | isolatedInvalid _ => exact Or.inr (Or.inr rfl)

/-- A base state is not empty, and has no white space around it. -/
lemma state_spec (p : CpusetPartition) : p.state ≠ [] ∧ Trimmed p.state := by
  rcases state_cases p with h | h | h
  · rw [h]
    decide
  · rw [h]
    decide
  · rw [h]
    decide

/-- A printed form is not empty. -/
lemma render_ne_nil (p : CpusetPartition) : p.render ≠ [] := by
  unfold render
  exact List.append_ne_nil_of_left_ne_nil (state_spec p).1 _

/-- White space around a printed form does not belong to it: it starts with the base state, and ends
with a word or a parenthesis. -/
lemma trimmed_render (p : CpusetPartition) : Trimmed p.render := by
  refine ⟨fun c hc => ?_, fun c hc => ?_⟩
  · rw [render, List.head?_append_of_ne_nil _ (state_spec p).1] at hc
    exact (state_spec p).2.head c hc
  · by_cases hreason : p.reason = none
    · have hword := ofWord_eq_some_iff.mpr ⟨rfl, hreason⟩
      refine Trimmed.last ?_ c hc
      unfold ofWord at hword
      split_ifs at hword with h₁ h₂ h₃ h₄ h₅
      · rw [h₁]
        decide
      · rw [h₂]
        decide
      · rw [h₃]
        decide
      · rw [h₄]
        decide
      · rw [h₅]
        decide
    · have hlast := (getLast?_render_iff p).mpr hreason
      obtain rfl : ')' = c := Option.some.inj (hlast.symm.trans hc)
      decide

/-- **The accepted texts are the printed forms** of the well-formed values. -/
lemma or_eq_some_iff {value : Str} {p : CpusetPartition} :
    (ofWord value).or (ofReason value) = some p ↔ value = p.render ∧ p.WellFormed := by
  rw [Option.or_eq_some_iff, ofWord_eq_some_iff, ofReason_eq_some_iff]
  constructor
  · rintro (⟨hvalue, hreason⟩ | ⟨-, hvalue, hwell, -⟩)
    · refine ⟨hvalue, fun reason h => ?_⟩
      rw [hreason] at h
      cases h
    · exact ⟨hvalue, hwell⟩
  · rintro ⟨rfl, hwell⟩
    by_cases hreason : p.reason = none
    · exact Or.inl ⟨rfl, hreason⟩
    · refine Or.inr ⟨?_, rfl, hwell, hreason⟩
      rw [Option.eq_none_iff_forall_ne_some]
      -- A word ends with a letter, and the printed form of a reason with a parenthesis.
      intro q hq
      obtain ⟨hrender, hnone⟩ := ofWord_eq_some_iff.mp hq
      have hlast := (getLast?_render_iff p).mpr hreason
      rw [hrender] at hlast
      exact (getLast?_render_iff q).mp hlast hnone

/-- **A text is read as a partition exactly when, without the white space around it, it is the
printed form**, and the reason is one line and not blank. -/
theorem fromStr_eq_ok_iff {raw : Str} {p : CpusetPartition} :
    fromStr raw = .ok p ↔ trim raw = p.render ∧ p.WellFormed := by
  rw [← or_eq_some_iff]
  unfold fromStr
  by_cases hvalue : trim raw = []
  · have hne : ¬ trim raw = p.render := fun h => render_ne_nil p (h ▸ hvalue)
    rw [if_pos hvalue, or_eq_some_iff]
    simp [hne]
  · simp only [if_neg hvalue]
    cases (ofWord (trim raw)).or (ofReason (trim raw)) <;> simp

/-- What an error is: a missing value exactly on a blank text, and an invalid one otherwise. -/
lemma eq_of_fromStr_error {raw : Str} {e : ParseError ParseValueError}
    (h : fromStr raw = .error e) :
    e = if isBlank raw then .missing raw "partition"
      else .invalid raw "partition" (trim raw) .outOfRange := by
  unfold fromStr at h
  by_cases hvalue : trim raw = []
  · have hblank : isBlank raw = true := List.isEmpty_iff.mpr hvalue
    rw [if_pos hvalue] at h
    rw [if_pos hblank]
    exact (Except.error.inj h).symm
  · have hblank : ¬ isBlank raw = true := fun hblank => hvalue (List.isEmpty_iff.mp hblank)
    simp only [if_neg hvalue] at h
    rw [if_neg hblank]
    cases hread : (ofWord (trim raw)).or (ofReason (trim raw)) with
    | none =>
        rw [hread] at h
        exact (Except.error.inj h).symm
    | some p =>
        rw [hread] at h
        cases h

end CpusetPartition

/-- **The text and the values of a partition are in bijection.** What is read is, printed again, the
text without the white space around it, and its reason is one line and not blank. Every such value
is read back from its printed form, whatever its reason holds, with any white space around it. A
failure is a missing value exactly on a blank text, and an invalid one otherwise. -/
theorem partition_text_bijection :
    (∀ raw p, CpusetPartition.fromStr raw = .ok p → p.render = trim raw ∧ p.WellFormed) ∧
    (∀ (p : CpusetPartition) (before after : Str), p.WellFormed →
      (∀ c ∈ before, isWhitespace c = true) → (∀ c ∈ after, isWhitespace c = true) →
      CpusetPartition.fromStr (before ++ (p.render ++ after)) = .ok p) ∧
    (∀ raw, isBlank raw = true → ∃ e, CpusetPartition.fromStr raw = .error e) ∧
    ∀ raw e, CpusetPartition.fromStr raw = .error e →
      e = if isBlank raw then .missing raw "partition"
        else .invalid raw "partition" (trim raw) .outOfRange := by
  refine ⟨fun raw p h => ?_, fun p before after hwell hbefore hafter => ?_, fun raw hblank => ?_,
    fun raw e h => CpusetPartition.eq_of_fromStr_error h⟩
  · obtain ⟨hrender, hwell⟩ := CpusetPartition.fromStr_eq_ok_iff.mp h
    exact ⟨hrender.symm, hwell⟩
  · rw [CpusetPartition.fromStr_eq_ok_iff,
      trim_append_append hbefore (CpusetPartition.trimmed_render p) hafter]
    exact ⟨rfl, hwell⟩
  · rcases h : CpusetPartition.fromStr raw with e | p
    · exact ⟨e, rfl⟩
    · have hrender := (CpusetPartition.fromStr_eq_ok_iff.mp h).1
      rw [List.isEmpty_iff.mp hblank] at hrender
      exact absurd hrender.symm (CpusetPartition.render_ne_nil p)

/-- A reason with spaces is kept. -/
theorem partition_text_bijection_reason :
    CpusetPartition.fromStr " root invalid (Cpu list in cpuset.cpus not exclusive)\n".toList =
      .ok (.rootInvalid (some "Cpu list in cpuset.cpus not exclusive".toList)) :=
  partition_text_bijection.2.1 (.rootInvalid (some "Cpu list in cpuset.cpus not exclusive".toList))
    " ".toList "\n".toList (by rintro reason ⟨⟩; decide) (List.all_eq_true.mp rfl)
    (List.all_eq_true.mp rfl)

end Sakai
