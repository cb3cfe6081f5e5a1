import Sakai.Lib.Keyed
import Sakai.Lib.Layout
import Sakai.Lib.Result

/-!
# The first element that is rejected, the last one of a kind

* `FirstRejected accepted as a` says that `a` is the first element of `as` that is not accepted. A
  sequence of results (`mapM_map_eq_error_iff`) and a collection into a map
  (`collect_map_eq_error_iff`) fail with the error of the first element that fails.
* `Gathers kept omitted as bs` says that `bs` holds what the elements of `as` are kept as, the
  others being omitted; a sequence of some results (`mapM_filterMap_eq_ok_iff`) gathers their
  values, or fails with the first error (`mapM_filterMap_eq_error_iff`).
* `LastWith p as a` says that `a` is the last element of `as` with the property `p`. A collected
  map holds the value of the last element with each key (`getElem?_of_collect_map`).
* `firstRejected_nonBlankLines`, `lastWith_nonBlankLines`: the first and the last line of a text,
  blank lines being skipped. A line that is not blank has a token (`tokens_ne_nil`).
-/

namespace Sakai.Lib

variable {E α β γ : Type}

/-- The element is the first one of the list that is not accepted. -/
def FirstRejected (accepted : α → Prop) (as : List α) (a : α) : Prop :=
  ∃ before after, as = before ++ a :: after ∧ (∀ b ∈ before, accepted b) ∧ ¬ accepted a

section firstRejected

variable {accepted : α → Prop} {as : List α} {a : α}

/-- The first rejected element is in the list. -/
lemma FirstRejected.mem (h : FirstRejected accepted as a) : a ∈ as := by
  obtain ⟨before, after, rfl, -, -⟩ := h
  exact List.mem_append_right before List.mem_cons_self

/-- The first rejected element is rejected. -/
lemma FirstRejected.rejected (h : FirstRejected accepted as a) : ¬ accepted a := by
  obtain ⟨before, after, -, -, hrejected⟩ := h
  exact hrejected

/-- Nothing is rejected in an empty list. -/
lemma firstRejected_nil : ¬ FirstRejected accepted [] a := fun h => List.not_mem_nil h.mem

/-- An element is the first rejected one when it is in front, or when the element in front is
accepted and it is the first of the others. -/
lemma firstRejected_cons {b : α} :
    FirstRejected accepted (b :: as) a ↔
      (b = a ∧ ¬ accepted a) ∨ (accepted b ∧ FirstRejected accepted as a) := by
  constructor
  · intro h
    obtain ⟨before, after, hsplit, hbefore, ha⟩ := h
    rcases before with _ | ⟨c, before⟩
    · obtain ⟨rfl, -⟩ := List.cons.inj hsplit
      exact Or.inl ⟨rfl, ha⟩
    · obtain ⟨rfl, rfl⟩ := List.cons.inj hsplit
      obtain ⟨hc, hbefore⟩ := List.forall_mem_cons.mp hbefore
      exact Or.inr ⟨hc, before, after, rfl, hbefore, ha⟩
  · intro h
    obtain ⟨rfl, ha⟩ | ⟨hb, before, after, rfl, hbefore, ha⟩ := h
    · exact ⟨[], as, rfl, by simp, ha⟩
    · exact ⟨b :: before, after, rfl, List.forall_mem_cons.mpr ⟨hb, hbefore⟩, ha⟩

/-- After an accepted element, the first rejected one is that of the others. -/
lemma firstRejected_cons_of_accepted {p : α → Prop} {b : α} (h : p b) :
    FirstRejected p (b :: as) a ↔ FirstRejected p as a := by
  have hne : ¬ (b = a ∧ ¬ p a) := by
    rintro ⟨rfl, ha⟩
    exact ha h
  rw [firstRejected_cons, or_iff_right hne, and_iff_right h]

/-- An element that is rejected in front is the first one. -/
lemma firstRejected_cons_of_not {p : α → Prop} {b : α} (h : ¬ p b) :
    FirstRejected p (b :: as) a ↔ b = a := by
  rw [firstRejected_cons, or_iff_left fun hb => h hb.1]
  refine and_iff_left_of_imp fun heq => ?_
  rwa [← heq]

/-- What is accepted may be stated differently. -/
lemma firstRejected_congr {accepted' : α → Prop}
    (h : ∀ b ∈ as, (accepted b ↔ accepted' b)) :
    FirstRejected accepted as a ↔ FirstRejected accepted' as a := by
  induction as with
  | nil => simp only [firstRejected_nil]
  | cons b as ih =>
      obtain ⟨hb, has⟩ := List.forall_mem_cons.mp h
      rw [firstRejected_cons, firstRejected_cons, ih has, hb]
      refine or_congr_left (and_congr_right fun heq => ?_)
      rw [← heq, hb]

/-- Some element is rejected exactly when one of them is the first. -/
lemma exists_firstRejected : (∃ a, FirstRejected accepted as a) ↔ ¬ ∀ a ∈ as, accepted a := by
  induction as with
  | nil => simp [firstRejected_nil]
  | cons b as ih =>
      by_cases hb : accepted b
      · simp only [firstRejected_cons_of_accepted hb, List.forall_mem_cons, hb, true_and]
        exact ih
      · simp [firstRejected_cons_of_not hb, hb]

/-- The first rejected element of a filtered list is the first one that is kept and rejected. -/
lemma firstRejected_filter {p : α → Bool} :
    FirstRejected accepted (as.filter p) a ↔
      FirstRejected (fun b => p b = true → accepted b) as a := by
  induction as with
  | nil => simp [firstRejected_nil]
  | cons b as ih =>
      by_cases hb : p b = true
      · rw [List.filter_cons_of_pos hb, firstRejected_cons, firstRejected_cons, ih]
        simp only [hb, forall_const]
        refine or_congr_left (and_congr_right fun heq => ?_)
        rw [← heq, hb]
        simp
      · have hskipped : p b = true → accepted b := fun h => absurd h hb
        rw [List.filter_cons_of_neg hb, ih,
          firstRejected_cons_of_accepted (p := fun b => p b = true → accepted b) hskipped]

end firstRejected

/-! ## The first error -/

/-- The element is accepted: it has a value. -/
def Succeeds (f : α → Except E β) (a : α) : Prop := ∃ b, f a = .ok b

/-- An error is no value. -/
lemma not_succeeds {f : α → Except E β} {a : α} {e : E} (h : f a = .error e) :
    ¬ Succeeds f a := by
  intro hok
  obtain ⟨b, hb⟩ := hok
  rw [hb] at h
  cases h

/-- **A sequence of results fails with the error of the first element that fails.** -/
theorem mapM_map_eq_error_iff {f : α → Except E β} {as : List α} {e : E} :
    (as.map f).mapM id = .error e ↔
      ∃ a, FirstRejected (Succeeds f) as a ∧ f a = .error e := by
  induction as with
  | nil => simp [firstRejected_nil, pure_ne_error]
  | cons a as ih =>
      simp only [List.map_cons, List.mapM_cons, id_eq, bind_eq_error, pure_ne_error, and_false,
        exists_false, or_false, firstRejected_cons, ih]
      constructor
      · intro h
        obtain he | ⟨b, hb, c, hc, he⟩ := h
        · exact ⟨a, Or.inl ⟨rfl, not_succeeds he⟩, he⟩
        · exact ⟨c, Or.inr ⟨⟨b, hb⟩, hc⟩, he⟩
      · intro h
        obtain ⟨c, ⟨rfl, -⟩ | ⟨⟨b, hb⟩, hc⟩, he⟩ := h
        · exact Or.inl he
        · exact Or.inr ⟨b, hb, c, hc, he⟩

/-- A sequence of results succeeds exactly when every element does. -/
lemma exists_mapM_map {f : α → Except E β} {as : List α} :
    (∃ bs, (as.map f).mapM id = .ok bs) ↔ ∀ a ∈ as, Succeeds f a := by
  simp only [mapM_id_eq_ok_iff]
  exact exists_map_eq_map_ok

/-! ## Elements that are left out -/

/-- The second list holds what the elements of the first one are kept as, in order and once each;
the other elements are omitted. -/
inductive Gathers (kept : α → β → Prop) (omitted : α → Prop) : List α → List β → Prop
  | nil : Gathers kept omitted [] []
  | keep {a : α} {b : β} {as : List α} {bs : List β} :
      kept a b → Gathers kept omitted as bs → Gathers kept omitted (a :: as) (b :: bs)
  | pass {a : α} {as : List α} {bs : List β} :
      omitted a → Gathers kept omitted as bs → Gathers kept omitted (a :: as) bs

/-- What is kept and omitted may be stated differently. -/
lemma Gathers.imp {kept kept' : α → β → Prop} {omitted omitted' : α → Prop} {as : List α}
    {bs : List β} (h : Gathers kept omitted as bs) (hkept : ∀ a b, kept a b → kept' a b)
    (homitted : ∀ a, omitted a → omitted' a) : Gathers kept' omitted' as bs := by
  induction h with
  | nil => exact Gathers.nil
  | keep hab _ ih => exact Gathers.keep (hkept _ _ hab) ih
  | pass ha _ ih => exact Gathers.pass (homitted _ ha) ih

/-- What is gathered is what an element is kept as. -/
lemma Gathers.exists_of_mem {kept : α → β → Prop} {omitted : α → Prop} {as : List α} {bs : List β}
    (h : Gathers kept omitted as bs) {b : β} (hb : b ∈ bs) : ∃ a ∈ as, kept a b := by
  induction h with
  | nil => cases hb
  | keep hab _ ih =>
      rcases List.mem_cons.mp hb with rfl | hb
      · exact ⟨_, List.mem_cons_self, hab⟩
      · obtain ⟨a, ha, hkept⟩ := ih hb
        exact ⟨a, List.mem_cons_of_mem _ ha, hkept⟩
  | pass _ _ ih =>
      obtain ⟨a, ha, hkept⟩ := ih hb
      exact ⟨a, List.mem_cons_of_mem _ ha, hkept⟩

/-- What is gathered from two lists is gathered from one after the other. -/
lemma gathers_append_iff {kept : α → β → Prop} {omitted : α → Prop} {as as' : List α}
    {bs : List β} :
    Gathers kept omitted (as ++ as') bs ↔
      ∃ front back, bs = front ++ back ∧ Gathers kept omitted as front ∧
        Gathers kept omitted as' back := by
  constructor
  · intro h
    induction as generalizing bs with
    | nil => exact ⟨[], bs, rfl, Gathers.nil, h⟩
    | cons a as ih =>
        cases h with
        | keep hab htail =>
            obtain ⟨front, back, rfl, hfront, hback⟩ := ih htail
            exact ⟨_ :: front, back, rfl, hfront.keep hab, hback⟩
        | pass ha htail =>
            obtain ⟨front, back, rfl, hfront, hback⟩ := ih htail
            exact ⟨front, back, rfl, hfront.pass ha, hback⟩
  · rintro ⟨front, back, rfl, hfront, hback⟩
    induction hfront with
    | nil => exact hback
    | keep hab _ ih => exact ih.keep hab
    | pass ha _ ih => exact ih.pass ha

/-- What is gathered from images is gathered from the elements. -/
lemma gathers_map_iff {kept : α → β → Prop} {omitted : α → Prop} {f : γ → α}
    {cs : List γ} {bs : List β} :
    Gathers kept omitted (cs.map f) bs ↔
      Gathers (fun c => kept (f c)) (fun c => omitted (f c)) cs bs := by
  induction cs generalizing bs with
  | nil =>
      constructor
      · intro h
        cases h
        exact Gathers.nil
      · intro h
        cases h
        exact Gathers.nil
  | cons c cs ih =>
      constructor
      · intro h
        cases h with
        | keep hab htail => exact (ih.mp htail).keep hab
        | pass ha htail => exact (ih.mp htail).pass ha
      · intro h
        cases h with
        | keep hab htail => exact (ih.mpr htail).keep hab
        | pass ha htail => exact (ih.mpr htail).pass ha

/-- Every element is kept or omitted. -/
lemma Gathers.kept_or_omitted {kept : α → β → Prop} {omitted : α → Prop} {as : List α}
    {bs : List β} (h : Gathers kept omitted as bs) {a : α} (ha : a ∈ as) :
    (∃ b ∈ bs, kept a b) ∨ omitted a := by
  induction h with
  | nil => cases ha
  | keep hab _ ih =>
      rcases List.mem_cons.mp ha with rfl | ha
      · exact .inl ⟨_, List.mem_cons_self, hab⟩
      · obtain ⟨b, hb, hkept⟩ | homitted := ih ha
        · exact .inl ⟨b, List.mem_cons_of_mem _ hb, hkept⟩
        · exact .inr homitted
  | pass homitted _ ih =>
      rcases List.mem_cons.mp ha with rfl | ha
      · exact .inr homitted
      · exact ih ha

/-- **A sequence of results, elements without one being left out, succeeds** when no element
fails. -/
theorem mapM_filterMap_eq_ok_iff {f : α → Option (Except E β)} {as : List α} {bs : List β} :
    (as.filterMap f).mapM id = .ok bs ↔
      Gathers (fun a b => f a = some (.ok b)) (fun a => f a = none) as bs := by
  induction as generalizing bs with
  | nil =>
      simp only [List.filterMap_nil, List.mapM_nil, pure_eq_ok]
      constructor
      · intro h
        rw [← h]
        exact Gathers.nil
      · intro h
        cases h
        rfl
  | cons a as ih =>
      rcases ha : f a with _ | r
      · rw [List.filterMap_cons_none ha, ih]
        constructor
        · exact fun h => Gathers.pass ha h
        · intro h
          cases h with
          | keep hab => rw [ha] at hab; cases hab
          | pass _ htail => exact htail
      · rw [List.filterMap_cons_some ha, List.mapM_cons, bind_eq_ok]
        simp only [id_eq, bind_eq_ok, pure_eq_ok, ih]
        constructor
        · intro h
          obtain ⟨b, rfl, bs', hbs, rfl⟩ := h
          exact Gathers.keep ha hbs
        · intro h
          cases h with
          | keep hab htail =>
              rw [ha, Option.some.injEq] at hab
              exact ⟨_, hab, _, htail, rfl⟩
          | pass hnone => rw [ha] at hnone; cases hnone

/-- **It fails with the error of the first element that fails.** -/
theorem mapM_filterMap_eq_error_iff {f : α → Option (Except E β)} {as : List α} {e : E} :
    (as.filterMap f).mapM id = .error e ↔
      ∃ a, FirstRejected (fun a => ∀ e, f a ≠ some (.error e)) as a ∧ f a = some (.error e) := by
  induction as with
  | nil => simp [firstRejected_nil, pure_ne_error]
  | cons a as ih =>
      rcases ha : f a with _ | ⟨e' | b⟩
      · have hok : ∀ e, f a ≠ some (.error e) := by simp [ha]
        rw [List.filterMap_cons_none ha, ih]
        simp only [firstRejected_cons_of_accepted (p := fun a => ∀ e, f a ≠ some (.error e)) hok]
      · have hfails : ¬ ∀ e, f a ≠ some (.error e) := fun h => h e' ha
        rw [List.filterMap_cons_some ha, List.mapM_cons]
        change Except.error e' = Except.error e ↔ _
        simp only [firstRejected_cons_of_not (p := fun a => ∀ e, f a ≠ some (.error e)) hfails,
          exists_eq_left', ha, Option.some.injEq, Except.error.injEq]
      · have hok : ∀ e, f a ≠ some (.error e) := by simp [ha]
        rw [List.filterMap_cons_some ha, List.mapM_cons]
        simp only [id_eq, ok_bind, bind_eq_error, pure_ne_error, and_false, exists_false, or_false,
          ih, firstRejected_cons_of_accepted (p := fun a => ∀ e, f a ≠ some (.error e)) hok]

/-! ## Collections -/

/-- **A collection fails with the error of the first element that fails.** -/
theorem collect_map_eq_error_iff {K V : Type} [Ord K] {f : α → Except E (K × V)} {as : List α}
    {e : E} :
    collect (as.map f) = .error e ↔
      ∃ a, FirstRejected (Succeeds f) as a ∧ f a = .error e := by
  unfold collect
  rw [map_eq_error, mapM_map_eq_error_iff]

/-- A collection succeeds exactly when every element does. -/
lemma exists_collect_map {K V : Type} [Ord K] {f : α → Except E (K × V)} {as : List α} :
    (∃ m, collect (as.map f) = .ok m) ↔ ∀ a ∈ as, Succeeds f a := by
  rw [← exists_mapM_map]
  unfold collect
  simp only [map_eq_ok]
  constructor
  · intro h
    obtain ⟨-, es, hes, rfl⟩ := h
    exact ⟨es, hes⟩
  · intro h
    obtain ⟨es, hes⟩ := h
    exact ⟨_, es, hes, rfl⟩

/-! ## The last element of a kind -/

/-- The element is the last one of the list with the property. -/
def LastWith (p : α → Prop) (as : List α) (a : α) : Prop :=
  ∃ before after, as = before ++ a :: after ∧ p a ∧ ∀ b ∈ after, ¬ p b

section lastWith

variable {p : α → Prop} {as : List α} {a : α}

/-- There is no last element in an empty list. -/
lemma lastWith_nil : ¬ LastWith p [] a := by
  intro h
  obtain ⟨before, after, hsplit, -⟩ := h
  simp at hsplit

/-- An element is the last one when it is among the others, or is in front of others without the
property. -/
lemma lastWith_cons {b : α} :
    LastWith p (b :: as) a ↔ LastWith p as a ∨ (b = a ∧ p a ∧ ∀ c ∈ as, ¬ p c) := by
  constructor
  · intro h
    obtain ⟨before, after, hsplit, ha, hafter⟩ := h
    rcases before with _ | ⟨c, before⟩
    · obtain ⟨rfl, rfl⟩ := List.cons.inj hsplit
      exact Or.inr ⟨rfl, ha, hafter⟩
    · obtain ⟨-, rfl⟩ := List.cons.inj hsplit
      exact Or.inl ⟨before, after, rfl, ha, hafter⟩
  · intro h
    obtain ⟨before, after, rfl, ha, hafter⟩ | ⟨rfl, ha, has⟩ := h
    · exact ⟨b :: before, after, rfl, ha, hafter⟩
    · exact ⟨[], as, rfl, ha, has⟩

/-- The last element of a mapped list is the image of the last one whose image has the property. -/
lemma lastWith_map {f : γ → α} {cs : List γ} :
    LastWith p (cs.map f) a ↔ ∃ c, LastWith (fun c => p (f c)) cs c ∧ f c = a := by
  induction cs with
  | nil => simp [lastWith_nil]
  | cons c cs ih =>
      simp only [List.map_cons, lastWith_cons, ih, List.forall_mem_map]
      constructor
      · intro h
        obtain ⟨d, hd, hfd⟩ | ⟨hc, ha, hcs⟩ := h
        · exact ⟨d, Or.inl hd, hfd⟩
        · exact ⟨c, Or.inr ⟨rfl, by rwa [hc], hcs⟩, hc⟩
      · intro h
        obtain ⟨d, hd | ⟨rfl, hd, hcs⟩, hfd⟩ := h
        · exact Or.inl ⟨d, hd, hfd⟩
        · exact Or.inr ⟨hfd, by rwa [hfd] at hd, hcs⟩

/-- The last element of a filtered list is the last one that is kept and has the property. -/
lemma lastWith_filter {q : α → Bool} :
    LastWith p (as.filter q) a ↔ LastWith (fun b => q b = true ∧ p b) as a := by
  induction as with
  | nil => simp [lastWith_nil]
  | cons b as ih =>
      rw [lastWith_cons, ← ih]
      by_cases hb : q b = true
      · rw [List.filter_cons_of_pos hb, lastWith_cons]
        refine or_congr_right (and_congr_right fun heq => ?_)
        simp only [← heq, hb, true_and, List.mem_filter, not_and, and_imp]
      · have hkept : ¬ (b = a ∧ (q a = true ∧ p a) ∧ ∀ c ∈ as, ¬ (q c = true ∧ p c)) := by
          rintro ⟨rfl, ⟨ha, -⟩, -⟩
          exact hb ha
        rw [List.filter_cons_of_neg hb, or_iff_left hkept]

/-- The property may be stated differently. -/
lemma lastWith_congr {q : α → Prop} (h : ∀ b ∈ as, (p b ↔ q b)) :
    LastWith p as a ↔ LastWith q as a := by
  induction as with
  | nil => simp only [lastWith_nil]
  | cons b as ih =>
      obtain ⟨hb, has⟩ := List.forall_mem_cons.mp h
      rw [lastWith_cons, lastWith_cons, ih has]
      refine or_congr_right (and_congr_right fun heq => ?_)
      rw [← heq, hb]
      exact and_congr_right fun _ => forall₂_congr fun c hc => not_congr (has c hc)

end lastWith

section lastValue

variable {K V : Type} [DecidableEq K]

/-- **The last value of a key** is that of the last entry with the key. -/
theorem lastValue_eq_some_iff {k : K} {v : V} {l : List (K × V)} :
    lastValue k l = some v ↔ LastWith (fun e => e.1 = k) l (k, v) := by
  induction l with
  | nil => simp [lastValue, lastWith_nil]
  | cons e rest ih =>
      rw [lastWith_cons, ← ih, lastValue]
      rcases hrest : lastValue k rest with _ | w
      · have hnone : ∀ c ∈ rest, ¬ c.1 = k := lastValue_eq_none_iff.mp hrest
        rw [and_iff_left hnone]
        by_cases he : e.1 = k <;> simp [he, Prod.ext_iff]
      · have hmem : ¬ ∀ c ∈ rest, ¬ c.1 = k := by
          intro hnone
          rw [lastValue_eq_none_iff.mpr hnone] at hrest
          cases hrest
        rw [or_iff_left fun h => hmem h.2.2, Option.some_or]

variable [Ord K] [Std.TransOrd K] [Std.LawfulEqOrd K]

/-- **A collected map holds the value of the last element with each key**, and nothing else. -/
theorem getElem?_of_collect_map {f : α → Except E (K × V)} {as : List α} {m : BTreeMap K V}
    (h : collect (as.map f) = .ok m) {k : K} {v : V} :
    m[k]? = some v ↔
      ∃ a, LastWith (fun a => ∃ w, f a = .ok (k, w)) as a ∧ f a = .ok (k, v) := by
  obtain ⟨es, hes, rfl⟩ := collect_eq_ok_iff.mp h
  have hkey : LastWith (fun e : K × V => e.1 = k) es (k, v) ↔
      LastWith (fun r : Except E (K × V) => ∃ w, r = .ok (k, w)) (es.map .ok) (.ok (k, v)) := by
    rw [lastWith_map]
    simp only [Except.ok.injEq, Prod.ext_iff, exists_and_left, exists_eq', and_true]
    constructor
    · exact fun hlast => ⟨(k, v), hlast, rfl, rfl⟩
    · rintro ⟨⟨_, _⟩, hlast, rfl, rfl⟩
      exact hlast
  rw [getElem?_ofList, lastValue_eq_some_iff, hkey, ← hes, lastWith_map]

end lastValue

/-! ## Lines that are not blank -/

section nonBlank

variable {text line : Str} {p : Str → Prop}

/-- A line is skipped exactly when nothing is left of it without white space around. -/
lemma not_isBlank_iff : (!isBlank line) = true ↔ trim line ≠ [] := by
  unfold isBlank
  simp

/-- The lines read are those that are not blank. -/
lemma forall_nonBlankLines :
    (∀ line ∈ nonBlankLines text, p line) ↔ ∀ line ∈ lines text, trim line ≠ [] → p line := by
  unfold nonBlankLines
  simp only [List.mem_filter, not_isBlank_iff, and_imp]

/-- The first rejected line is the first one that is not blank and is rejected. -/
lemma firstRejected_nonBlankLines :
    FirstRejected p (nonBlankLines text) line ↔
      FirstRejected (fun line => trim line ≠ [] → p line) (lines text) line := by
  unfold nonBlankLines
  rw [firstRejected_filter]
  simp only [not_isBlank_iff]

/-- The last line of a kind is the last one that is not blank and of the kind. -/
lemma lastWith_nonBlankLines :
    LastWith p (nonBlankLines text) line ↔
      LastWith (fun line => trim line ≠ [] ∧ p line) (lines text) line := by
  unfold nonBlankLines
  rw [lastWith_filter]
  simp only [not_isBlank_iff]

/-- **A line that is not blank has a token**: ASCII white space is Unicode white space. -/
lemma tokens_ne_nil (h : trim line ≠ []) : splitAsciiWhitespace line ≠ [] := by
  rw [Ne, trim_eq_nil_iff] at h
  push Not at h
  obtain ⟨c, hc, hvisible⟩ := h
  apply splitAsciiWhitespace_ne_nil hc
  rw [← Bool.not_eq_true]
  exact fun hws => hvisible (isWhitespace_of_isAsciiWhitespace hws)

end nonBlank

end Sakai.Lib
