import Sakai.Encoding

/-!
# Nested-keyed lines

A line of a nested-keyed file names an object and gives it fields as tokens `key=value`.

* `KeyedFields.new_assignment_eq_ok_iff`: the tokens of a line are accepted exactly when they are
  those of pairs, each being split at its first `=`, and are collected to the fields with these
  pairs.
* `ofPairs_of_shows`: the fields of pairs that show a record hold the record's values.
-/

namespace Sakai

open Lib

/-- A token after the name of a line's object, split at its first `=`.
Source: `io/mod.rs`, `Device::parse_lines`, `rdma.rs`, `parse_devices`, and `hugetlb.rs`,
`HugetlbNumaStat::from_str`, the closure over the tokens. -/
def assignment (raw token : Str) : Parsed (Str × Str) :=
  match splitOnce '=' token with
  | none => .error (.invalid raw "value" token .outOfRange)
  | some e => .ok e

/-- The token of a pair. -/
def assign (e : Str × Str) : Str := e.1 ++ '=' :: e.2

/-- No key of the pairs holds a `=`. -/
def PlainKeys (pairs : List (Str × Str)) : Prop := ∀ e ∈ pairs, '=' ∉ e.1

instance (pairs : List (Str × Str)) : Decidable (PlainKeys pairs) :=
  inferInstanceAs (Decidable (∀ e ∈ pairs, '=' ∉ e.1))

/-- A token is split into the pair it was made of, whatever its value. -/
lemma assignment_assign (raw : Str) {e : Str × Str} (h : '=' ∉ e.1) :
    assignment raw (assign e) = .ok e := by
  unfold assignment assign
  rw [splitOnce_append_cons h]

/-- A token is accepted exactly when it holds a `=`. -/
lemma assignment_eq_ok_iff {raw token : Str} {e : Str × Str} :
    assignment raw token = .ok e ↔ '=' ∉ e.1 ∧ token = assign e := by
  constructor
  · intro h
    unfold assignment at h
    rcases hsplit : splitOnce '=' token with _ | ⟨key, value⟩
    · rw [hsplit] at h
      cases h
    · rw [hsplit] at h
      cases h
      obtain ⟨htoken, hkey⟩ := splitOnce_eq_some_iff.mp hsplit
      exact ⟨hkey, htoken⟩
  · rintro ⟨hkey, rfl⟩
    exact assignment_assign raw hkey

/-- The pairs of the tokens that hold a `=`, each split at its first one. -/
def pairsOfTokens (tokens : List Str) : List (Str × Str) := tokens.filterMap (splitOnce '=')

/-- The pairs are recovered from their tokens. -/
lemma pairsOfTokens_assign {pairs : List (Str × Str)} (h : PlainKeys pairs) :
    pairsOfTokens (pairs.map assign) = pairs := by
  unfold pairsOfTokens
  rw [List.filterMap_map]
  have hsplit : ∀ e ∈ pairs, (splitOnce '=' ∘ assign) e = some e := fun e he =>
    splitOnce_append_cons (h e he) e.2
  rw [List.filterMap_congr hsplit]
  exact List.filterMap_some

/-- Tokens that hold a `=` are those of their pairs. -/
lemma assign_pairsOfTokens {tokens : List Str} (h : ∀ token ∈ tokens, '=' ∈ token) :
    PlainKeys (pairsOfTokens tokens) ∧ tokens = (pairsOfTokens tokens).map assign := by
  unfold PlainKeys
  induction tokens with
  | nil => simp [pairsOfTokens]
  | cons token tokens ih =>
      obtain ⟨htoken, htokens⟩ := List.forall_mem_cons.mp h
      obtain ⟨hplain, hrest⟩ := ih htokens
      rcases hsplit : splitOnce '=' token with _ | e
      · exact absurd htoken (splitOnce_eq_none_iff.mp hsplit)
      · obtain ⟨heq, hkey⟩ := splitOnce_eq_some_iff.mp hsplit
        have hpairs : pairsOfTokens (token :: tokens) = e :: pairsOfTokens tokens :=
          List.filterMap_cons_some hsplit
        rw [hpairs, List.map_cons, ← hrest]
        exact ⟨List.forall_mem_cons.mpr ⟨hkey, hplain⟩, by rw [heq]; rfl⟩

/-- The token of a pair determines the pair, when neither key holds a `=`. -/
lemma assign_inj {e₁ e₂ : Str × Str} (h₁ : '=' ∉ e₁.1) (h₂ : '=' ∉ e₂.1)
    (h : assign e₁ = assign e₂) : e₁ = e₂ := by
  have hsplit := assignment_assign [] h₁
  rw [h, assignment_assign [] h₂] at hsplit
  exact (Except.ok.inj hsplit).symm

/-- The tokens of a line are accepted exactly when they are those of pairs. -/
lemma map_assignment_eq_ok_iff {raw : Str} {tokens : List Str} {pairs : List (Str × Str)} :
    tokens.map (assignment raw) = pairs.map .ok ↔ PlainKeys pairs ∧ tokens = pairs.map assign := by
  unfold PlainKeys
  induction tokens generalizing pairs with
  | nil => cases pairs <;> simp
  | cons token tokens ih =>
      rcases pairs with _ | ⟨e, pairs⟩
      · simp
      · simp only [List.map_cons, List.cons.injEq, assignment_eq_ok_iff, ih, List.forall_mem_cons]
        tauto

/-- The text is read as a value. -/
def ReadsAs {T : Type} (U : Type) [ParseCgroup U T ParseValueError] (value : Str) (v : T) : Prop :=
  parseCgroup U value = .ok v

instance {T U : Type} [ParseCgroup U T ParseValueError] [DecidableEq T] (value : Str) (v : T) :
    Decidable (ReadsAs U value v) :=
  match h : (parseCgroup U value : Except ParseValueError T) with
  | .ok w => if hw : w = v then isTrue (by rw [ReadsAs, h, hw])
    else isFalse (by rw [ReadsAs, h]; simp [hw])
  | .error e => isFalse (by rw [ReadsAs, h]; simp)

namespace KeyedFields

/-- The fields with the given pairs. -/
def ofPairs (raw : Str) (pairs : List (Str × Str)) : KeyedFields :=
  ⟨raw, Std.ExtTreeMap.ofList pairs compare⟩

/-- The fields hold the last value of each key. -/
lemma ofPairs_values (raw : Str) (pairs : List (Str × Str)) (key : Str) :
    (ofPairs raw pairs).values[key]? = lastValue key pairs :=
  getElem?_ofList pairs key

/-- **The tokens of a line are collected exactly when they are those of pairs**, to the fields with
these pairs. -/
lemma new_assignment_eq_ok_iff {raw : Str} {tokens : List Str} {self : KeyedFields} :
    new raw (tokens.map (assignment raw)) = .ok self ↔
      ∃ pairs, PlainKeys pairs ∧ tokens = pairs.map assign ∧ self = ofPairs raw pairs := by
  rw [new_eq_ok_iff]
  simp only [map_assignment_eq_ok_iff, and_assoc]
  rfl

/-- The tokens of a line are collected exactly when each holds a `=`, to their last-wins pairs. -/
lemma new_assignment_eq_ok_iff_forall {raw : Str} {tokens : List Str} {self : KeyedFields} :
    new raw (tokens.map (assignment raw)) = .ok self ↔
      (∀ token ∈ tokens, '=' ∈ token) ∧ self = ofPairs raw (pairsOfTokens tokens) := by
  rw [new_assignment_eq_ok_iff]
  constructor
  · intro h
    obtain ⟨pairs, hplain, rfl, rfl⟩ := h
    refine ⟨fun token htoken => ?_, by rw [pairsOfTokens_assign hplain]⟩
    obtain ⟨e, -, rfl⟩ := List.mem_map.mp htoken
    exact List.mem_append_right _ List.mem_cons_self
  · intro h
    obtain ⟨hsep, rfl⟩ := h
    obtain ⟨hplain, htokens⟩ := assign_pairsOfTokens hsep
    exact ⟨_, hplain, htokens, rfl⟩

/-- The tokens of pairs are collected to the fields with these pairs. -/
lemma new_assign (raw : Str) {pairs : List (Str × Str)} (h : PlainKeys pairs) :
    new raw ((pairs.map assign).map (assignment raw)) = .ok (ofPairs raw pairs) :=
  new_assignment_eq_ok_iff.mpr ⟨pairs, h, rfl, rfl⟩

end KeyedFields

section shows

variable {F : Type} [DecidableEq F] [NamedEnum F] {enc : F → Option Str}
  {pairs : List (Str × Str)}

/-- **The fields of pairs that show a record hold the record's values.** -/
lemma ofPairs_of_shows (raw : Str) (h : NamedEnum.Shows enc pairs) (f : F) :
    (KeyedFields.ofPairs raw pairs).values[NamedEnum.key f]? = enc f := by
  rw [KeyedFields.ofPairs_values]
  exact NamedEnum.lastValue_of_shows h f

/-- A record with a field has a pair. -/
lemma ne_nil_of_shows (h : NamedEnum.Shows enc pairs) {f : F} (hf : enc f ≠ none) :
    pairs ≠ [] := by
  rintro rfl
  exact hf (NamedEnum.lastValue_of_shows h f).symm

end shows

end Sakai
