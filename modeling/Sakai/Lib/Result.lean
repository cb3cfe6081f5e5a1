import Mathlib.Data.List.Basic

/-!
# Results: what a computation that may fail establishes

* **Success.** A sequenced, mapped or error-mapped computation succeeds exactly when its parts do
  (`bind_eq_ok`, `map_eq_ok`, `mapError_eq_ok`), and a list of results has values exactly when
  every result is one (`mapM_id_eq_ok_iff`). `bind_mapError` and `mapM_mapError` say that renaming
  errors commutes with sequencing.
* **Failure.** `bind_eq_error`, `map_eq_error` and `mapError_eq_error` say where an error comes
  from.
* **Both exits.** `Ends p q x` says that the errors of `x` have the property `p` and its values
  the property `q`; `Ends.bind`, `Ends.map`, `ends_mapM_id` and `ends_foldlM` are its rules.
-/

namespace Sakai.Lib

variable {E E' α β : Type}

/-- A sequence succeeds exactly when each step succeeds in turn. -/
@[simp] lemma bind_eq_ok {x : Except E α} {f : α → Except E β} {b : β} :
    (x >>= f) = .ok b ↔ ∃ a, x = .ok a ∧ f a = .ok b := by
  cases x <;> simp [bind, Except.bind]

/-- A successful first step is passed on. -/
@[simp] lemma ok_bind {a : α} {f : α → Except E β} : ((.ok a : Except E α) >>= f) = f a := rfl

/-- `pure` succeeds with exactly its value. -/
@[simp] lemma pure_eq_ok {a b : α} : (pure a : Except E α) = .ok b ↔ a = b := by
  simp [pure, Except.pure]

/-- A mapped result is a value exactly when it was one. -/
lemma map_eq_ok {x : Except E α} {f : α → β} {b : β} :
    x.map f = .ok b ↔ ∃ a, x = .ok a ∧ f a = b := by
  cases x <;> simp [Except.map]

/-- Renaming the error changes no success. -/
@[simp] lemma mapError_eq_ok {x : Except E α} {f : E → E'} {a : α} :
    x.mapError f = .ok a ↔ x = .ok a := by
  cases x <;> simp [Except.mapError]

/-- A sequence fails exactly when its first step does, or the next one after it. -/
lemma bind_eq_error {x : Except E α} {f : α → Except E β} {e : E} :
    (x >>= f) = .error e ↔ x = .error e ∨ ∃ a, x = .ok a ∧ f a = .error e := by
  cases x <;> simp [bind, Except.bind]

/-- `pure` does not fail. -/
lemma pure_ne_error {a : α} {e : E} : (pure a : Except E α) ≠ .error e := by
  simp [pure, Except.pure]

/-- Mapping a value changes no failure. -/
lemma map_eq_error {x : Except E α} {f : α → β} {e : E} :
    x.map f = .error e ↔ x = .error e := by
  cases x <;> simp [Except.map]

/-- A renamed error comes from an error. -/
lemma mapError_eq_error {x : Except E α} {f : E → E'} {e : E'} :
    x.mapError f = .error e ↔ ∃ e', x = .error e' ∧ f e' = e := by
  cases x <;> simp [Except.mapError]

/-- Errors are renamed step by step. -/
lemma bind_mapError {x : Except E α} {f : α → Except E β} {g : E → E'} :
    (x >>= f).mapError g = x.mapError g >>= fun a => (f a).mapError g := by
  cases x <;> rfl

/-- A sequence of results has values exactly when each result has its value. -/
lemma mapM_id_eq_ok_iff {results : List (Except E α)} {as : List α} :
    results.mapM id = .ok as ↔ results = as.map .ok := by
  induction results generalizing as with
  | nil => rcases as with _ | ⟨a, as⟩ <;> simp
  | cons r rs ih =>
      simp only [List.mapM_cons, id_eq, bind_eq_ok, pure_eq_ok, ih]
      constructor
      · rintro ⟨a, rfl, bs, rfl, rfl⟩
        rfl
      · intro h
        rcases as with _ | ⟨b, bs⟩
        · cases h
        · rw [List.map_cons, List.cons.injEq] at h
          exact ⟨b, h.1, bs, h.2, rfl⟩

/-- Each element of a list of successes has one of the values. -/
lemma exists_value_of_mem {f : α → Except E β} {as : List α} {bs : List β}
    (h : as.map f = bs.map .ok) {a : α} (ha : a ∈ as) : ∃ b ∈ bs, f a = .ok b := by
  have hmem : f a ∈ bs.map .ok := h ▸ List.mem_map_of_mem ha
  obtain ⟨b, hb, heq⟩ := List.mem_map.mp hmem
  exact ⟨b, hb, heq.symm⟩

/-- Each value of a list of successes comes from one of the elements. -/
lemma exists_mem_of_value {f : α → Except E β} {as : List α} {bs : List β}
    (h : as.map f = bs.map .ok) {b : β} (hb : b ∈ bs) : ∃ a ∈ as, f a = .ok b := by
  have hmem : .ok b ∈ as.map f := h ▸ List.mem_map_of_mem hb
  exact List.mem_map.mp hmem

/-- Every element succeeds exactly when the list of results is a list of values. -/
lemma exists_map_eq_map_ok {f : α → Except E β} {as : List α} :
    (∃ bs : List β, as.map f = bs.map .ok) ↔ ∀ a ∈ as, ∃ b, f a = .ok b := by
  constructor
  · rintro ⟨bs, h⟩ a ha
    obtain ⟨b, -, hb⟩ := exists_value_of_mem h ha
    exact ⟨b, hb⟩
  · intro h
    induction as with
    | nil => exact ⟨[], rfl⟩
    | cons a as ih =>
        obtain ⟨b, hb⟩ := h a List.mem_cons_self
        obtain ⟨bs, hbs⟩ := ih fun a' ha' => h a' (List.mem_cons_of_mem a ha')
        exact ⟨b :: bs, by rw [List.map_cons, hb, hbs, List.map_cons]⟩

/-- A list of results is a list of values exactly when each result is a value. -/
lemma exists_eq_map_ok {results : List (Except E α)} :
    (∃ as : List α, results = as.map .ok) ↔ ∀ r ∈ results, ∃ a, r = .ok a := by
  have h : (∃ as : List α, results.map id = as.map .ok) ↔ ∀ r ∈ results, ∃ a, id r = .ok a :=
    exists_map_eq_map_ok
  rwa [List.map_id] at h

/-- Errors of a sequence of results are renamed result by result. -/
lemma mapM_mapError {results : List (Except E α)} {g : E → E'} :
    (results.mapM id).mapError g = (results.map fun r => r.mapError g).mapM id := by
  induction results with
  | nil => rfl
  | cons r rs ih =>
      simp only [List.mapM_cons, List.map_cons, id_eq, bind_mapError, ← ih]
      rfl

/-! ## Both exits -/

/-- The error of a computation has the property `p`, and its value the property `q`. -/
structure Ends (p : E → Prop) (q : α → Prop) (x : Except E α) : Prop where
  /-- The error, if it fails. -/
  error : ∀ e, x = .error e → p e
  /-- The value, if it succeeds. -/
  ok : ∀ a, x = .ok a → q a

section ends

variable {p : E → Prop} {q : α → Prop} {r : β → Prop}

/-- A value ends as it should. -/
lemma ends_ok {a : α} (h : q a) : Ends p q (.ok a) := by
  constructor
  · intro e he
    cases he
  · intro b hb
    cases hb
    exact h

/-- An error ends as it should. -/
lemma ends_error {e : E} (h : p e) : Ends p q (.error e) := by
  constructor
  · intro e' he
    cases he
    exact h
  · intro a ha
    cases ha

/-- Weaker properties hold as well. -/
lemma Ends.mono {q' : α → Prop} {x : Except E α} (h : Ends p q x) (hq : ∀ a, q a → q' a) :
    Ends p q' x :=
  ⟨h.error, fun a ha => hq a (h.ok a ha)⟩

/-- **Sequences**: the next step may rely on what the first one establishes. -/
lemma Ends.bind {x : Except E α} {f : α → Except E β} (hx : Ends p q x)
    (hf : ∀ a, q a → Ends p r (f a)) : Ends p r (x >>= f) := by
  rcases x with e | a
  · exact ends_error (hx.error e rfl)
  · exact hf a (hx.ok a rfl)

/-- A mapped value has the property of the image. -/
lemma Ends.map {x : Except E α} {f : α → β} (hx : Ends p q x) (hf : ∀ a, q a → r (f a)) :
    Ends p r (x.map f) := by
  rcases x with e | a
  · exact ends_error (hx.error e rfl)
  · exact ends_ok (hf a (hx.ok a rfl))

/-- A renamed error has the property when every new error does. -/
lemma ends_mapError {x : Except E' α} {g : E' → E} (hg : ∀ e, p (g e)) :
    Ends p (fun _ => True) (x.mapError g) := by
  rcases x with e | a
  · exact ends_error (hg e)
  · exact ends_ok trivial

/-- **Sequences of results**: each value has the property, or the error of one result does. -/
lemma ends_mapM_id {results : List (Except E α)} (h : ∀ r ∈ results, Ends p q r) :
    Ends p (fun as => ∀ a ∈ as, q a) (results.mapM id) := by
  induction results with
  | nil => exact ends_ok fun a ha => absurd ha List.not_mem_nil
  | cons r rs ih =>
      rw [List.mapM_cons]
      refine (h r List.mem_cons_self).bind fun a ha => ?_
      refine (ih fun r' hr' => h r' (List.mem_cons_of_mem r hr')).bind fun as has => ?_
      refine ends_ok fun b hb => ?_
      rcases List.mem_cons.mp hb with rfl | hb
      · exact ha
      · exact has b hb

/-- **Folds**: a property that every step keeps holds at the end. -/
lemma ends_foldlM {f : β → α → Except E β} {as : List α} {b : β} (hb : r b)
    (hf : ∀ b, r b → ∀ a ∈ as, Ends p r (f b a)) : Ends p r (as.foldlM f b) := by
  induction as generalizing b with
  | nil => exact ends_ok hb
  | cons a as ih =>
      rw [List.foldlM_cons]
      refine (hf b hb a List.mem_cons_self).bind fun b' hb' => ?_
      exact ih hb' fun b'' hb'' a' ha' => hf b'' hb'' a' (List.mem_cons_of_mem a ha')

end ends

end Sakai.Lib
