import Mathlib.Data.List.Sort

/-!
# Stable sort by a key

`sortByKey` is the stable sort of a list by a key in a linear order. It rearranges the list
(`sortByKey_perm`), its keys increase (`pairwise_sortByKey`), and elements of one key keep their
order (`filter_sortByKey`). It commutes with a map that keeps the keys (`sortByKey_map`). The first
element of the sorted list with some property is, among all elements with it, the earliest of those
with the least key (`first_of_sortByKey`).
-/

namespace Sakai.Lib

variable {α β κ : Type} [LinearOrder κ]

/-- `slice::sort_by_key`: a stable sort by increasing key. -/
def sortByKey (key : α → κ) (l : List α) : List α :=
  l.mergeSort fun a b => decide (key a ≤ key b)

/-- Keys are compared transitively. -/
lemma decide_key_trans (key : α → κ) (a b c : α) (hab : decide (key a ≤ key b) = true)
    (hbc : decide (key b ≤ key c) = true) : decide (key a ≤ key c) = true := by
  rw [decide_eq_true_eq] at *
  exact le_trans hab hbc

/-- Any two keys are comparable. -/
lemma decide_key_total (key : α → κ) (a b : α) :
    (decide (key a ≤ key b) || decide (key b ≤ key a)) = true := by
  rw [Bool.or_eq_true, decide_eq_true_eq, decide_eq_true_eq]
  exact le_total (key a) (key b)

/-- Sorting rearranges. -/
lemma sortByKey_perm (key : α → κ) (l : List α) : (sortByKey key l).Perm l :=
  List.mergeSort_perm l _

/-- Keys increase in the sorted list. -/
lemma pairwise_sortByKey (key : α → κ) (l : List α) :
    (sortByKey key l).Pairwise fun a b => key a ≤ key b := by
  have h := List.pairwise_mergeSort (decide_key_trans key) (decide_key_total key) l
  exact h.imp fun hab => of_decide_eq_true hab

/-- The sort is stable: elements of one key stay in the order of the list. -/
lemma filter_sortByKey (key : α → κ) (l : List α) (k : κ) :
    (sortByKey key l).filter (key · = k) = l.filter (key · = k) := by
  have hties : (l.filter (key · = k)).Pairwise fun a b => decide (key a ≤ key b) = true := by
    apply List.pairwise_of_forall_mem_list
    intro a ha b hb
    have hka : key a = k := by simpa using (List.mem_filter.mp ha).2
    have hkb : key b = k := by simpa using (List.mem_filter.mp hb).2
    rw [hka, hkb, decide_eq_true_eq]
  -- Elements of one key are in order already, so they stay a sublist of the result.
  have hsub : (l.filter (key · = k)).Sublist (sortByKey key l) :=
    List.sublist_mergeSort (decide_key_trans key) (decide_key_total key) hties List.filter_sublist
  have hsub' := hsub.filter (key · = k)
  rw [List.filter_filter, List.filter_congr (fun a _ => Bool.and_self _)] at hsub'
  have hlength := ((sortByKey_perm key l).filter (key · = k)).length_eq
  exact (hsub'.eq_of_length hlength.symm).symm

/-- Sorting a mapped list sorts by the mapped keys. -/
lemma sortByKey_map (key : β → κ) (f : α → β) (l : List α) :
    sortByKey key (l.map f) = (sortByKey (fun a => key (f a)) l).map f :=
  (List.map_mergeSort (f := f) fun _ _ _ _ => rfl).symm

/-- **The first element with a property**: no element with the property has a lesser key, and none
before it in the list has the same key. -/
lemma first_of_sortByKey {key : α → κ} {l pre post : List α} {a : α} {q : α → Prop}
    (hsort : sortByKey key l = pre ++ a :: post) (hpre : ∀ x ∈ pre, ¬ q x) :
    ∃ before after, l = before ++ a :: after ∧ (∀ x ∈ l, q x → key a ≤ key x) ∧
      ∀ x ∈ before, q x → key a < key x := by
  have hle : ∀ x ∈ l, q x → key a ≤ key x := by
    intro x hx hq
    have hpairwise := pairwise_sortByKey key l
    rw [← (sortByKey_perm key l).mem_iff, hsort] at hx
    rw [hsort] at hpairwise
    rcases List.mem_append.mp hx with hx | hx
    · exact absurd hq (hpre x hx)
    · rcases List.mem_cons.mp hx with rfl | hx
      · exact le_refl _
      · exact (List.pairwise_cons.mp (List.pairwise_append.mp hpairwise).2.1).1 x hx
  -- Among the elements of one key, the list and the sorted list have the same order.
  have hties : l.filter (key · = key a) =
      pre.filter (key · = key a) ++ a :: post.filter (key · = key a) := by
    rw [← filter_sortByKey, hsort, List.filter_append, List.filter_cons_of_pos (by simp)]
  obtain ⟨front, back, rfl, hfront, hback⟩ := List.filter_eq_append_iff.mp hties
  obtain ⟨gap, after, rfl, hgap, -, -⟩ := List.filter_eq_cons_iff.mp hback
  refine ⟨front ++ gap, after, (List.append_assoc _ _ _).symm, hle, fun x hx hq => ?_⟩
  have hmem : x ∈ front ++ (gap ++ a :: after) := by
    rw [← List.append_assoc]
    exact List.mem_append_left _ hx
  refine lt_of_le_of_ne (hle x hmem hq) fun heq => ?_
  rcases List.mem_append.mp hx with hx | hx
  · have hkept : x ∈ front.filter (key · = key a) :=
      List.mem_filter.mpr ⟨hx, decide_eq_true heq.symm⟩
    rw [hfront] at hkept
    exact hpre x (List.mem_filter.mp hkept).1 hq
  · exact hgap x hx (decide_eq_true heq.symm)

end Sakai.Lib
