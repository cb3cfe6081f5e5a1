import Mathlib.Data.List.Pairwise
import Mathlib.Order.Lattice

/-!
# Scanning a collection that changes

A `Scan` goes over a collection in the order of a rank, and remembers the element that it stands
before. Meanwhile elements are added and removed on both sides of that place. When the element that
the scan stands before is removed, the scan may go back and deliver elements again.

* `Scan.Inv.add`, `Scan.Inv.remove`, `Scan.Inv.back`, `Scan.Inv.deliver`: what adding, removing,
  going back and going on keep. An old element that stays is delivered or still ahead.
* `Scan.Inv.mem_of_upcoming`: so no old element that stays is missing at the end.
* `Scan.Steady.add`, `Scan.Steady.deliver`, `Scan.Steady.back`: while nothing is removed, no rank is
  delivered twice.
-/

namespace Sakai.Lib

variable {E K : Type} [LinearOrder K]

/-- Where a scan stands: before the first element, before an element, or after the last one. -/
inductive Cursor (E : Type)
  | start
  | before (e : E)
  | stop
  deriving DecidableEq

/-- The cursor before the first of some elements. -/
def Cursor.ofList {E : Type} : List E → Cursor E
  | [] => .stop
  | e :: _ => .before e

/-- A collection with a scan of it. -/
structure Scan (E : Type) where
  /-- The elements, in the order of their ranks. -/
  elements : List E
  /-- Where the scan stands. -/
  cursor : Cursor E
  /-- What was delivered. -/
  delivered : List E

namespace Scan

/-- A collection whose scan has not started. -/
def start (elements : List E) : Scan E := ⟨elements, .start, []⟩

variable (rank : E → K)

/-- The element is ahead of the place. -/
def Ahead : Cursor E → E → Prop
  | .start, _ => True
  | .before x, e => rank x ≤ rank e
  | .stop, _ => False

instance (cursor : Cursor E) (e : E) : Decidable (Ahead rank cursor e) :=
  match cursor with
  | .start => .isTrue trivial
  | .before x => inferInstanceAs (Decidable (rank x ≤ rank e))
  | .stop => .isFalse not_false

/-- An element is added, in its place, unless there is one of its rank. -/
def add (s : Scan E) (e : E) : Option (Scan E) :=
  if s.elements.any fun x => rank x = rank e then none
  else some { s with
    elements := s.elements.filter (fun x => rank x < rank e) ++
      e :: s.elements.filter fun x => rank e < rank x }

/-- The element of a rank is removed. -/
def remove (s : Scan E) (k : K) : Scan E :=
  { s with elements := s.elements.filter fun x => rank x ≠ k }

/-- The elements ahead. -/
def upcoming (s : Scan E) : List E := s.elements.filter fun x => Ahead rank s.cursor x

/-- The scan goes on over the next element, if there is one. -/
def deliver (s : Scan E) : Option (Scan E) :=
  match s.upcoming rank with
  | [] => none
  | e :: rest => some { s with cursor := .ofList rest, delivered := s.delivered ++ [e] }

/-- The scan goes back before an earlier element, which it may when the element that it stands
before is gone. -/
def back [DecidableEq E] (s : Scan E) (x : E) : Option (Scan E) :=
  match s.cursor with
  | .before e =>
    if e ∉ s.elements ∧ rank x < rank e then some { s with cursor := .before x } else none
  | _ => none

/-- The elements are in the order of their ranks. -/
def Ordered (es : List E) : Prop := es.Pairwise fun a b => rank a < rank b

instance (es : List E) : Decidable (Ordered rank es) :=
  inferInstanceAs (Decidable (es.Pairwise fun a b => rank a < rank b))

variable {rank}

/-- Elements in order have their ranks once. -/
lemma Ordered.eq_of_rank {es : List E} (h : Ordered rank es) {a b : E} (ha : a ∈ es) (hb : b ∈ es)
    (hrank : rank a = rank b) : a = b := by
  induction es with
  | nil => cases ha
  | cons x es ih =>
      obtain ⟨hfirst, hrest⟩ := List.pairwise_cons.mp h
      rcases List.mem_cons.mp ha with rfl | ha'
      · rcases List.mem_cons.mp hb with rfl | hb'
        · rfl
        · exact absurd hrank (ne_of_lt (hfirst b hb'))
      · rcases List.mem_cons.mp hb with rfl | hb'
        · exact absurd hrank.symm (ne_of_lt (hfirst a ha'))
        · exact ih hrest ha' hb'

/-! ## What is kept -/

/-- What holds of a scan in which no old element is added. -/
structure Inv (rank : E → K) (old : E → Prop) (s : Scan E) : Prop where
  /-- The elements are in order. -/
  ordered : Ordered rank s.elements
  /-- An old element that stays is delivered or ahead. -/
  stays : ∀ e ∈ s.elements, old e → e ∈ s.delivered ∨ Ahead rank s.cursor e

variable {old : E → Prop} {s t : Scan E}

/-- A scan that has not started. -/
lemma inv_start {elements : List E} (h : Ordered rank elements) :
    Inv rank old (start elements) where
  ordered := h
  stays _ _ _ := .inr trivial

/-- What is in a collection after an element was added. -/
lemma mem_add {e x : E} (h : s.add rank e = some t) :
    x ∈ t.elements ↔ x = e ∨ x ∈ s.elements := by
  unfold add at h
  split_ifs at h with hany
  cases h
  have hne : ∀ x ∈ s.elements, rank x ≠ rank e := by
    intro x hx heq
    exact hany (List.any_eq_true.mpr ⟨x, hx, decide_eq_true heq⟩)
  simp only [List.mem_append, List.mem_cons, List.mem_filter, decide_eq_true_eq]
  constructor
  · rintro (⟨hx, -⟩ | rfl | ⟨hx, -⟩)
    · exact .inr hx
    · exact .inl rfl
    · exact .inr hx
  · rintro (rfl | hx)
    · exact .inr (.inl rfl)
    · rcases lt_or_gt_of_ne (hne x hx) with hlt | hgt
      · exact .inl ⟨hx, hlt⟩
      · exact .inr (.inr ⟨hx, hgt⟩)

/-- An added element leaves the scan where it is. -/
lemma add_eq_some {e : E} (h : s.add rank e = some t) :
    t.cursor = s.cursor ∧ t.delivered = s.delivered ∧ ∀ x ∈ s.elements, rank x ≠ rank e := by
  unfold add at h
  split_ifs at h with hany
  cases h
  refine ⟨rfl, rfl, fun x hx heq => hany ?_⟩
  exact List.any_eq_true.mpr ⟨x, hx, decide_eq_true heq⟩

/-- An added element is in its place. -/
lemma Ordered.add {e : E} (hordered : Ordered rank s.elements) (h : s.add rank e = some t) :
    Ordered rank t.elements := by
  unfold Scan.add at h
  split_ifs at h
  cases h
  refine List.pairwise_append.mpr ⟨hordered.filter _,
    List.pairwise_cons.mpr ⟨fun x hx => ?_, hordered.filter _⟩, fun a ha b hb => ?_⟩
  · exact of_decide_eq_true (List.mem_filter.mp hx).2
  · have hlt : rank a < rank e := of_decide_eq_true (List.mem_filter.mp ha).2
    rcases List.mem_cons.mp hb with rfl | hb
    · exact hlt
    · exact lt_trans hlt (of_decide_eq_true (List.mem_filter.mp hb).2)

/-- **Adding a new element keeps the invariant.** -/
lemma Inv.add (hs : Inv rank old s) {e : E} (hnew : ¬ old e) (h : s.add rank e = some t) :
    Inv rank old t := by
  obtain ⟨hcursor, hdelivered, -⟩ := add_eq_some h
  refine ⟨hs.ordered.add h, fun x hx hold => ?_⟩
  rw [hcursor, hdelivered]
  rcases (mem_add h).mp hx with rfl | hx
  · exact absurd hold hnew
  · exact hs.stays x hx hold

/-- **Removing elements keeps the invariant.** -/
lemma Inv.remove (hs : Inv rank old s) (k : K) : Inv rank old (s.remove rank k) where
  ordered := hs.ordered.filter _
  stays x hx hold := hs.stays x (List.mem_filter.mp hx).1 hold

/-- What going back does. -/
lemma back_eq_some_iff [DecidableEq E] {x : E} :
    s.back rank x = some t ↔ ∃ e, s.cursor = .before e ∧ e ∉ s.elements ∧ rank x < rank e ∧
      t = { s with cursor := .before x } := by
  unfold back
  constructor
  · intro h
    split at h
    · next e hcursor =>
      split_ifs at h with hgone
      cases h
      exact ⟨e, hcursor, hgone.1, hgone.2, rfl⟩
    · cases h
  · rintro ⟨e, hcursor, hgone, hlt, rfl⟩
    rw [hcursor]
    exact if_pos ⟨hgone, hlt⟩

/-- **Going back keeps the invariant.** -/
lemma Inv.back [DecidableEq E] (hs : Inv rank old s) {x : E} (h : s.back rank x = some t) :
    Inv rank old t := by
  obtain ⟨e, hcursor, -, hlt, rfl⟩ := back_eq_some_iff.mp h
  refine ⟨hs.ordered, fun y hy hold => (hs.stays y hy hold).imp_right fun hahead => ?_⟩
  rw [hcursor] at hahead
  exact le_trans (le_of_lt hlt) hahead

/-- An element that is next is there, and ahead. -/
lemma mem_upcoming {e : E} : e ∈ s.upcoming rank ↔ e ∈ s.elements ∧ Ahead rank s.cursor e := by
  unfold upcoming
  rw [List.mem_filter, decide_eq_true_eq]

/-- The elements ahead are in order. -/
lemma ordered_upcoming (h : Ordered rank s.elements) : Ordered rank (s.upcoming rank) :=
  h.filter _

/-- What going on does. -/
lemma deliver_eq_some_iff :
    s.deliver rank = some t ↔ ∃ e rest, s.upcoming rank = e :: rest ∧
      t = { s with cursor := .ofList rest, delivered := s.delivered ++ [e] } := by
  unfold deliver
  constructor
  · intro h
    split at h
    · cases h
    · next e rest hupcoming =>
      cases h
      exact ⟨e, rest, hupcoming, rfl⟩
  · rintro ⟨e, rest, hupcoming, rfl⟩
    rw [hupcoming]

/-- Of elements in order, the cursor before the first has all of them ahead. -/
lemma Ordered.ahead_ofList {es : List E} (h : Ordered rank es) {e : E} (he : e ∈ es) :
    Ahead rank (.ofList es) e := by
  match es, h, he with
  | x :: es, h, he =>
    rcases List.mem_cons.mp he with rfl | he
    · exact le_refl (rank e)
    · exact le_of_lt ((List.pairwise_cons.mp h).1 e he)

/-- **Going on keeps the invariant.** -/
lemma Inv.deliver (hs : Inv rank old s) (h : s.deliver rank = some t) : Inv rank old t := by
  obtain ⟨first, rest, hupcoming, rfl⟩ := deliver_eq_some_iff.mp h
  have hordered := ordered_upcoming hs.ordered
  rw [hupcoming] at hordered
  refine ⟨hs.ordered, fun e he hold => ?_⟩
  rcases hs.stays e he hold with hdelivered | hahead
  · exact .inl (List.mem_append_left _ hdelivered)
  · have hmem : e ∈ s.upcoming rank := mem_upcoming.mpr ⟨he, hahead⟩
    rw [hupcoming] at hmem
    rcases List.mem_cons.mp hmem with rfl | hrest
    · exact .inl (List.mem_append_right _ List.mem_cons_self)
    · exact .inr (Ordered.ahead_ofList (List.pairwise_cons.mp hordered).2 hrest)

/-- **No old element that stays is missing when nothing is ahead.** -/
lemma Inv.mem_of_upcoming (hs : Inv rank old s) (h : s.upcoming rank = []) {e : E}
    (he : e ∈ s.elements) (hold : old e) : e ∈ s.delivered := by
  refine (hs.stays e he hold).resolve_right fun hahead => ?_
  have hmem : e ∈ s.upcoming rank := mem_upcoming.mpr ⟨he, hahead⟩
  rw [h] at hmem
  exact List.not_mem_nil hmem

/-! ## While nothing is removed -/

/-- What holds of a scan whose elements stay. -/
structure Steady (rank : E → K) (s : Scan E) : Prop where
  /-- The elements are in order. -/
  ordered : Ordered rank s.elements
  /-- What was delivered is in order. -/
  delivered : Ordered rank s.delivered
  /-- The scan is past what was delivered. -/
  past : ∀ e ∈ s.delivered, ∀ x, Ahead rank s.cursor x → rank e < rank x
  /-- The element that it stands before is there. -/
  cursor : ∀ e, s.cursor = .before e → e ∈ s.elements

/-- Adding an element. -/
lemma Steady.add (hs : Steady rank s) {e : E} (h : s.add rank e = some t) : Steady rank t := by
  obtain ⟨hcursor, hdelivered, -⟩ := add_eq_some h
  refine ⟨hs.ordered.add h, hdelivered ▸ hs.delivered, ?_, fun x hx => ?_⟩
  · rw [hcursor, hdelivered]
    exact hs.past
  · exact (mem_add h).mpr (.inr (hs.cursor x (hcursor ▸ hx)))

/-- The scan does not go back. -/
lemma Steady.back [DecidableEq E] (hs : Steady rank s) (x : E) : s.back rank x = none := by
  rw [Option.eq_none_iff_forall_ne_some]
  intro t h
  obtain ⟨e, hcursor, hgone, -⟩ := back_eq_some_iff.mp h
  exact hgone (hs.cursor e hcursor)

/-- **Going on while nothing is removed delivers no rank twice.** -/
lemma Steady.deliver (hs : Steady rank s) (h : s.deliver rank = some t) : Steady rank t := by
  obtain ⟨first, rest, hupcoming, rfl⟩ := deliver_eq_some_iff.mp h
  have hordered := ordered_upcoming hs.ordered
  have hmem : ∀ x ∈ first :: rest, x ∈ s.elements ∧ Ahead rank s.cursor x := by
    rw [← hupcoming]
    exact fun x => mem_upcoming.mp
  rw [hupcoming] at hordered
  have hfirst := hmem first List.mem_cons_self
  have hahead : ∀ x, Ahead rank (.ofList rest) x → rank first < rank x := by
    intro x hx
    match rest, hordered, hx with
    | second :: rest, hordered, hx =>
      exact lt_of_lt_of_le ((List.pairwise_cons.mp hordered).1 second List.mem_cons_self) hx
  refine ⟨hs.ordered, ?_, fun e he x hx => ?_, fun e he => ?_⟩
  · refine List.pairwise_append.mpr ⟨hs.delivered, List.pairwise_singleton _ _,
      fun d hd e he => ?_⟩
    rw [List.mem_singleton.mp he]
    exact hs.past d hd first hfirst.2
  · rcases List.mem_append.mp he with hbefore | hnew
    · exact lt_trans (hs.past e hbefore first hfirst.2) (hahead x hx)
    · rw [List.mem_singleton.mp hnew]
      exact hahead x hx
  · match rest, hmem, he with
    | second :: rest, hmem, he =>
      cases he
      exact (hmem e (List.mem_cons_of_mem _ List.mem_cons_self)).1

end Scan

end Sakai.Lib
