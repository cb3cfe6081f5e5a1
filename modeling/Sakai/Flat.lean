import Sakai.Encoding

/-!
# Flat-keyed readers: the last-value law

A flat-keyed reader looks at a text through the last values of the keys it interprets.
`LastValueLaw K fromStr` states this as a law of two runs, with its consequences for edits of a
text: lines of distinct keys may be permuted, lines of unknown keys inserted, and shadowed lines
added, whatever their values.

* `LastValueLaw.of_agree`: the consequences follow from the two-run law.
* `KeyedFields.AgreeOn K` is the same relation on collected fields; `outcome_bind_congr` carries it
  through the steps of a reader.
-/

namespace Sakai

open Lib

variable {E T U : Type}

/-- Both fields hold the same value, or both none, under each key of `K`. -/
def KeyedFields.AgreeOn (K : Str → Prop) (f₁ f₂ : KeyedFields) : Prop :=
  ∀ key, K key → f₁.values[key]? = f₂.values[key]?

/-- The keys of a list of names. -/
def Named (names : List String) (key : Str) : Prop := ∃ name ∈ names, key = name.toList

/-- A listed name is a key. -/
lemma named {names : List String} {name : String} (h : name ∈ names) :
    Named names name.toList := ⟨name, h, rfl⟩

/-- In a key/value text, a key occurs exactly when its fields hold a value for it. -/
lemma occurs_iff {text key : Str} (h : TwoTokens text) :
    Occurs text key ↔ (KeyedFields.ofText text).values[key]? ≠ none := by
  rw [KeyedFields.ofText_values, Ne, lastValue_eq_none_iff]
  push Not
  unfold Occurs
  rw [rowsOf_eq_map_pairRow h]
  constructor
  · rintro ⟨row, hrow, hkey⟩
    obtain ⟨e, he, rfl⟩ := List.mem_map.mp hrow
    exact ⟨e, he, Option.some.inj hkey⟩
  · rintro ⟨e, he, rfl⟩
    exact ⟨pairRow e, List.mem_map_of_mem he, rfl⟩

/-- In a key/value text, the fields contain one of the keys exactly when one of them occurs. -/
lemma containsAny_iff {text : Str} (h : TwoTokens text) {names : List String} :
    (KeyedFields.ofText text).containsAny names = true ↔
      ∃ name ∈ names, Occurs text name.toList := by
  rw [KeyedFields.containsAny_eq_true_iff]
  exact exists_congr fun name => and_congr_right fun _ => (occurs_iff h).symm

/-- In a key/value text, the fields contain none of the keys exactly when none of them occurs. -/
lemma containsAny_eq_false_iff {text : Str} (h : TwoTokens text) {names : List String} :
    (KeyedFields.ofText text).containsAny names = false ↔
      ∀ name ∈ names, ¬ Occurs text name.toList := by
  rw [← Bool.not_eq_true, containsAny_iff h]
  push Not
  rfl

/-- Agreement on more keys is agreement on fewer. -/
lemma KeyedFields.AgreeOn.mono {K K' : Str → Prop} {f₁ f₂ : KeyedFields}
    (h : KeyedFields.AgreeOn K f₁ f₂) (hK : ∀ key, K' key → K key) :
    KeyedFields.AgreeOn K' f₁ f₂ := fun key hkey => h key (hK key hkey)

/-- Steps with equal outcomes, continued by steps with equal outcomes, have equal outcomes. -/
lemma outcome_bind_congr {x y : Except (ParseError E) T} {f g : T → Except (ParseError E) U}
    (hx : outcome x = outcome y) (hf : ∀ a, outcome (f a) = outcome (g a)) :
    outcome (x >>= f) = outcome (y >>= g) := by
  rw [outcome_bind, outcome_bind, hx]
  exact congrArg _ (funext hf)

/-- **The last-value law.** The outcome of a reader depends only on the last value of each key it
interprets, and so is unchanged by the edits that keep these. -/
structure LastValueLaw (K : Str → Prop) (fromStr : Str → Except (ParseError E) T) : Prop where
  /-- Texts with the same last values have the same snapshot, or the same failure. -/
  agree : ∀ t₁ t₂, TwoTokens t₁ → TwoTokens t₂ →
    (∀ key, K key → lastValue key (pairsOf t₁) = lastValue key (pairsOf t₂)) →
    outcome (fromStr t₁) = outcome (fromStr t₂)
  /-- Lines with pairwise distinct keys may be put in any order. -/
  permute : ∀ t₁ t₂, TwoTokens t₁ → TwoTokens t₂ → (pairsOf t₁).Perm (pairsOf t₂) →
    ((pairsOf t₁).map Prod.fst).Nodup → outcome (fromStr t₁) = outcome (fromStr t₂)
  /-- Two neighbouring lines with distinct keys may be swapped, whatever the other lines are. -/
  swap : ∀ t₁ t₂ before after (a b : Str × Str), TwoTokens t₁ → TwoTokens t₂ →
    pairsOf t₁ = before ++ a :: b :: after → pairsOf t₂ = before ++ b :: a :: after →
    a.1 ≠ b.1 → outcome (fromStr t₁) = outcome (fromStr t₂)
  /-- A line of an unknown key may be inserted anywhere. -/
  unknown : ∀ t₁ t₂ before after key value, TwoTokens t₁ → TwoTokens t₂ →
    pairsOf t₁ = before ++ after → pairsOf t₂ = before ++ (key, value) :: after →
    ¬ K key → outcome (fromStr t₁) = outcome (fromStr t₂)
  /-- A line may be inserted before a later line of its key, whatever its value. -/
  shadowed : ∀ t₁ t₂ before after key value, TwoTokens t₁ → TwoTokens t₂ →
    pairsOf t₁ = before ++ after → pairsOf t₂ = before ++ (key, value) :: after →
    key ∈ after.map Prod.fst → outcome (fromStr t₁) = outcome (fromStr t₂)

/-- An inserted entry does not change the last value of another key, nor of a key that occurs
later. -/
lemma lastValue_insert {key value : Str} {before after : List (Str × Str)} {k : Str}
    (h : key ≠ k ∨ k ∈ after.map Prod.fst) :
    lastValue k (before ++ (key, value) :: after) = lastValue k (before ++ after) := by
  rw [lastValue_append, lastValue_append, lastValue]
  rcases h with hne | hmem
  · rw [if_neg hne, Option.or_none]
  · rcases hlast : lastValue k after with _ | v
    · obtain ⟨e, he, hk⟩ := List.mem_map.mp hmem
      exact absurd hk (lastValue_eq_none_iff.mp hlast e he)
    · rfl

/-- Swapping two entries with distinct keys does not change any last value. -/
lemma lastValue_swap {before after : List (Str × Str)} {a b : Str × Str} (hab : a.1 ≠ b.1)
    (k : Str) :
    lastValue k (before ++ a :: b :: after) = lastValue k (before ++ b :: a :: after) := by
  simp only [lastValue_append, lastValue]
  by_cases ha : a.1 = k
  · have hb : b.1 ≠ k := fun hb => hab (ha.trans hb.symm)
    rw [if_neg hb, Option.or_none, Option.or_none]
  · rw [if_neg ha, Option.or_none, Option.or_none]

/-- **The edits follow from agreement.** -/
theorem LastValueLaw.of_agree {K : Str → Prop} {fromStr : Str → Except (ParseError E) T}
    (h : ∀ t₁ t₂, TwoTokens t₁ → TwoTokens t₂ →
      (KeyedFields.ofText t₁).AgreeOn K (KeyedFields.ofText t₂) →
      outcome (fromStr t₁) = outcome (fromStr t₂)) :
    LastValueLaw K fromStr := by
  have hagree : ∀ t₁ t₂, TwoTokens t₁ → TwoTokens t₂ →
      (∀ key, K key → lastValue key (pairsOf t₁) = lastValue key (pairsOf t₂)) →
      outcome (fromStr t₁) = outcome (fromStr t₂) := by
    intro t₁ t₂ h₁ h₂ heq
    refine h t₁ t₂ h₁ h₂ fun key hkey => ?_
    rw [KeyedFields.ofText_values, KeyedFields.ofText_values, heq key hkey]
  refine ⟨hagree, ?_, ?_, ?_, ?_⟩
  · intro t₁ t₂ h₁ h₂ hperm hnodup
    exact hagree t₁ t₂ h₁ h₂ fun key _ => lastValue_perm hperm hnodup
  · intro t₁ t₂ before after a b h₁ h₂ hp₁ hp₂ hab
    refine hagree t₁ t₂ h₁ h₂ fun key _ => ?_
    rw [hp₁, hp₂, lastValue_swap hab]
  · intro t₁ t₂ before after key value h₁ h₂ hp₁ hp₂ hkey
    refine hagree t₁ t₂ h₁ h₂ fun k hk => ?_
    have hne : key ≠ k := by
      rintro rfl
      exact hkey hk
    rw [hp₁, hp₂, lastValue_insert (Or.inl hne)]
  · intro t₁ t₂ before after key value h₁ h₂ hp₁ hp₂ hmem
    refine hagree t₁ t₂ h₁ h₂ fun k _ => ?_
    rw [hp₁, hp₂]
    by_cases hk : key = k
    · rw [lastValue_insert (Or.inr (hk ▸ hmem))]
    · rw [lastValue_insert (Or.inl hk)]

/-- The law for a reader of collected fields. -/
theorem LastValueLaw.of_fields {K : Str → Prop} {label : Str → String}
    {fromFields : KeyedFields → Except (ParseError E) T}
    (h : ∀ f₁ f₂, KeyedFields.AgreeOn K f₁ f₂ →
      outcome (fromFields f₁) = outcome (fromFields f₂)) :
    LastValueLaw K fun raw => KeyedFields.parse raw label >>= fromFields := by
  apply LastValueLaw.of_agree
  intro t₁ t₂ h₁ h₂ hagree
  show outcome (KeyedFields.parse t₁ label >>= fromFields) =
    outcome (KeyedFields.parse t₂ label >>= fromFields)
  rw [KeyedFields.parse_of_twoTokens h₁, KeyedFields.parse_of_twoTokens h₂]
  exact h _ _ hagree

end Sakai
