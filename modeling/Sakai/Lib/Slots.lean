import Mathlib.Data.List.Basic
import Mathlib.Logic.Function.Basic

/-!
# Tables of slots with owners

A table holds an object in each slot that is in use, with the owner of the slot. A free slot can be
taken by anyone, and a slot is cleared by its owner only; `Slots.Owns` tells all the slots of an
owner.

* `Owns.put`, `Owns.clear`: what an owner has after it took or cleared a slot.
* `Owns.put_of_ne`, `Owns.clear_of_ne`: what others take or clear does not matter.
-/

namespace Sakai.Lib

/-- A slot in use. -/
structure Slot (O W : Type) where
  /-- What is in it. -/
  object : O
  /-- Whose it is. -/
  owner : W
  deriving DecidableEq, Repr

/-- The slots, each free or in use. -/
abbrev Slots (N O W : Type) : Type := N → Option (Slot O W)

namespace Slots

variable {N O W : Type} [DecidableEq N] {t : Slots N O W} {n : N} {o : O} {w w' : W}
  {held : List (N × O)}

/-- A slot is taken. -/
def put (t : Slots N O W) (n : N) (o : O) (w : W) : Slots N O W :=
  Function.update t n (some ⟨o, w⟩)

/-- A slot is cleared. -/
def clear (t : Slots N O W) (n : N) : Slots N O W := Function.update t n none

omit [DecidableEq N] in
/-- The owner has these slots, with these objects, and no others. -/
def Owns (t : Slots N O W) (w : W) (held : List (N × O)) : Prop :=
  ∀ n o, t n = some ⟨o, w⟩ ↔ (n, o) ∈ held

@[simp] lemma put_self (t : Slots N O W) (n : N) (o : O) (w : W) :
    t.put n o w n = some ⟨o, w⟩ := Function.update_self ..

@[simp] lemma clear_self (t : Slots N O W) (n : N) : t.clear n n = none := Function.update_self ..

lemma put_of_ne {m : N} (h : m ≠ n) : t.put n o w m = t m := Function.update_of_ne h ..

lemma clear_of_ne {m : N} (h : m ≠ n) : t.clear n m = t m := Function.update_of_ne h ..

/-- What is in a table after a slot was taken. -/
lemma put_eq_some_iff (hfree : t n = none) {m : N} {slot : Slot O W} :
    t.put n o w m = some slot ↔ m = n ∧ slot = ⟨o, w⟩ ∨ t m = some slot := by
  by_cases hm : m = n
  · subst hm
    rw [put_self, hfree]
    simp [eq_comm]
  · rw [put_of_ne hm]
    simp [hm]

/-- What is in a table after a slot was cleared. -/
lemma clear_eq_some_iff {m : N} {slot : Slot O W} :
    t.clear n m = some slot ↔ m ≠ n ∧ t m = some slot := by
  by_cases hm : m = n
  · subst hm
    simp
  · rw [clear_of_ne hm]
    simp [hm]

namespace Owns

/-- Who takes a slot has it too. -/
lemma put (h : t.Owns w held) (hfree : t n = none) : (t.put n o w).Owns w ((n, o) :: held) := by
  intro m p
  rw [put_eq_some_iff hfree, h m p, List.mem_cons]
  simp [Prod.mk.injEq]

/-- What another takes does not matter. -/
lemma put_of_ne (h : t.Owns w held) (hfree : t n = none) (hne : w ≠ w') :
    (t.put n o w').Owns w held := by
  intro m p
  rw [put_eq_some_iff hfree, h m p]
  simp [hne]

/-- Who clears a slot has the others left. -/
lemma clear (h : t.Owns w ((n, o) :: held)) (hfirst : n ∉ held.map Prod.fst) :
    (t.clear n).Owns w held := by
  intro m p
  rw [clear_eq_some_iff, h m p, List.mem_cons, Prod.mk.injEq]
  constructor
  · rintro ⟨hm, ⟨rfl, -⟩ | hheld⟩
    · exact absurd rfl hm
    · exact hheld
  · intro hheld
    refine ⟨?_, .inr hheld⟩
    rintro rfl
    exact hfirst (List.mem_map_of_mem hheld)

omit [DecidableEq N] in
/-- The order of the slots does not matter. -/
lemma swap {a b : N × O} (h : t.Owns w (a :: b :: held)) : t.Owns w (b :: a :: held) := by
  intro m p
  rw [h m p]
  simp only [List.mem_cons]
  exact or_left_comm

omit [DecidableEq N] in
/-- The first slot. -/
lemma first (h : t.Owns w ((n, o) :: held)) : t n = some ⟨o, w⟩ := (h n o).mpr List.mem_cons_self

/-- What another clears does not matter. -/
lemma clear_of_ne (h : t.Owns w held) (hslot : t n = some ⟨o, w'⟩) (hne : w ≠ w') :
    (t.clear n).Owns w held := by
  intro m p
  rw [clear_eq_some_iff, h m p]
  constructor
  · exact And.right
  · intro hheld
    refine ⟨?_, hheld⟩
    rintro rfl
    have hsame := hslot.symm.trans ((h m p).mpr hheld)
    cases hsame
    exact hne rfl

omit [DecidableEq N] in
/-- A free slot is nobody's. -/
lemma not_mem_of_free (h : t.Owns w held) (hfree : t n = none) : n ∉ held.map Prod.fst := by
  intro hmem
  obtain ⟨⟨m, p⟩, hheld, rfl⟩ := List.mem_map.mp hmem
  have hslot := (h m p).mpr hheld
  rw [hfree] at hslot
  cases hslot

end Owns

end Slots

end Sakai.Lib
