import Mathlib.Data.Option.Basic

/-!
# Machines: runs of a partial step function

`step s a` is the state after the action `a`, when it is possible in `s`; `run step s as` the state
after a list of actions. An invariant of the step is an invariant of every run
(`invariant_of_run`), also one that relates the state to the actions so far
(`invariant_of_run_of_trace`).
-/

namespace Sakai.Lib

variable {S A : Type} {step : S → A → Option S}

/-- The state after a list of actions, when each of them is possible. -/
def run (step : S → A → Option S) : S → List A → Option S
  | s, [] => some s
  | s, a :: as => (step s a).bind fun s' => run step s' as

/-- A run starts with the step of its first action. -/
lemma run_cons_eq_some_iff {s t : S} {a : A} {as : List A} :
    run step s (a :: as) = some t ↔ ∃ s', step s a = some s' ∧ run step s' as = some t :=
  Option.bind_eq_some_iff

/-- A run is a run of its first actions followed by one of the others. -/
lemma run_append_eq_some_iff {s t : S} {as bs : List A} :
    run step s (as ++ bs) = some t ↔ ∃ u, run step s as = some u ∧ run step u bs = some t := by
  induction as generalizing s with
  | nil => simp [run]
  | cons a as ih =>
      rw [List.cons_append, run_cons_eq_some_iff]
      simp only [ih, run_cons_eq_some_iff]
      constructor
      · intro ⟨s', hfirst, u, has, hbs⟩
        exact ⟨u, ⟨s', hfirst, has⟩, hbs⟩
      · intro ⟨u, ⟨s', hfirst, has⟩, hbs⟩
        exact ⟨s', hfirst, u, has, hbs⟩

/-- What every step by an action of a kind preserves, every run by such actions preserves. -/
lemma invariant_of_run_of_forall {I : S → Prop} {P : A → Prop}
    (hstep : ∀ s a s', P a → I s → step s a = some s' → I s') {s t : S} {as : List A}
    (has : ∀ a ∈ as, P a) (hs : I s) (hrun : run step s as = some t) : I t := by
  induction as generalizing s with
  | nil =>
      cases hrun
      exact hs
  | cons a as ih =>
      obtain ⟨s', hfirst, hrest⟩ := run_cons_eq_some_iff.mp hrun
      refine ih (fun b hb => has b (List.mem_cons_of_mem a hb)) ?_ hrest
      exact hstep s a s' (has a List.mem_cons_self) hs hfirst

/-- **What every step preserves, every run preserves.** -/
theorem invariant_of_run {I : S → Prop} (hstep : ∀ s a s', I s → step s a = some s' → I s')
    {s t : S} {as : List A} (hs : I s) (hrun : run step s as = some t) : I t :=
  invariant_of_run_of_forall (fun s a s' _ => hstep s a s') (fun _ _ => trivial) hs hrun

/-- **What every step preserves of a state and the actions before it**, every run preserves. -/
theorem invariant_of_run_of_trace {I : List A → S → Prop}
    (hstep : ∀ as s a s', I as s → step s a = some s' → I (as ++ [a]) s') {s t : S} {as : List A}
    (hs : I [] s) (hrun : run step s as = some t) : I as t := by
  have hfrom : ∀ (as before : List A) (s : S), I before s → run step s as = some t →
      I (before ++ as) t := by
    intro as
    induction as with
    | nil =>
        intro before s hs hrun
        cases hrun
        rwa [List.append_nil]
    | cons a as ih =>
        intro before s hs hrun
        obtain ⟨s', hfirst, hrest⟩ := run_cons_eq_some_iff.mp hrun
        have htail := ih (before ++ [a]) s' (hstep before s a s' hs hfirst) hrest
        rwa [List.append_assoc] at htail
  exact hfrom as [] s hs hrun

end Sakai.Lib
