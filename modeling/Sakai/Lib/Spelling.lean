import Sakai.Lib.Keyed

/-!
# Keys with several spellings

A row's key may be one of several spellings of the object it names. Rows can be converted first and
collected by object, or collected by spelling first and then converted.

* `IsLast p rows e`: the row `e` is the last one whose key has the property.
* `lastRowWins_of_collect`: rows that are converted and then collected leave each object the value
  of the last row that names it.
* `isLast_toList_iff`: rows that are collected by spelling first are in the order of the spellings,
  so that the greatest spelling of an object comes last.
* `lastRowWins_iff`: exactly when the last row that names an object wins all the same.
-/

namespace Sakai.Lib

variable {S V : Type}

/-! ## The last row -/

/-- The row is the last one whose key has the property. -/
def IsLast (p : S → Prop) (rows : List (S × V)) (e : S × V) : Prop :=
  ∃ before after, rows = before ++ e :: after ∧ p e.1 ∧ ∀ later ∈ after, ¬ p later.1

/-- The last row is the last one of the tail, or the head if no later row has the property. -/
lemma isLast_cons_iff {p : S → Prop} {row e : S × V} {rows : List (S × V)} :
    IsLast p (row :: rows) e ↔
      IsLast p rows e ∨ row = e ∧ p e.1 ∧ ∀ later ∈ rows, ¬ p later.1 := by
  constructor
  · rintro ⟨before, after, hsplit, hp, hlater⟩
    rcases before with _ | ⟨first, before⟩
    · obtain ⟨rfl, rfl⟩ := List.cons.inj hsplit
      exact Or.inr ⟨rfl, hp, hlater⟩
    · obtain ⟨rfl, rfl⟩ := List.cons.inj hsplit
      exact Or.inl ⟨before, after, rfl, hp, hlater⟩
  · rintro (⟨before, after, rfl, hp, hlater⟩ | ⟨rfl, hp, hlater⟩)
    · exact ⟨row :: before, after, rfl, hp, hlater⟩
    · exact ⟨[], rows, rfl, hp, hlater⟩

/-- The last row is one of the rows, and has the property. -/
lemma IsLast.mem {p : S → Prop} {rows : List (S × V)} {e : S × V} (h : IsLast p rows e) :
    e ∈ rows ∧ p e.1 := by
  obtain ⟨before, after, rfl, hp, -⟩ := h
  exact ⟨List.mem_append_right before List.mem_cons_self, hp⟩

/-- **There is at most one last row.** -/
lemma IsLast.unique {p : S → Prop} {rows : List (S × V)} {e e' : S × V} (h : IsLast p rows e)
    (h' : IsLast p rows e') : e = e' := by
  induction rows with
  | nil => exact absurd h.mem.1 List.not_mem_nil
  | cons row rows ih =>
      rcases isLast_cons_iff.mp h with h | ⟨rfl, -, hlater⟩
      · rcases isLast_cons_iff.mp h' with h' | ⟨-, -, hlater'⟩
        · exact ih h h'
        · exact absurd h.mem.2 (hlater' e h.mem.1)
      · rcases isLast_cons_iff.mp h' with h' | ⟨rfl, -, -⟩
        · exact absurd h'.mem.2 (hlater e' h'.mem.1)
        · rfl

/-- **A property that some key has is that of a last row.** -/
lemma exists_isLast {p : S → Prop} {rows : List (S × V)} (h : ∃ e ∈ rows, p e.1) :
    ∃ e, IsLast p rows e := by
  induction rows with
  | nil =>
      obtain ⟨e, he, -⟩ := h
      cases he
  | cons row rows ih =>
      by_cases hrows : ∃ e ∈ rows, p e.1
      · obtain ⟨e, he⟩ := ih hrows
        exact ⟨e, isLast_cons_iff.mpr (Or.inl he)⟩
      · obtain ⟨e, he, hp⟩ := h
        push Not at hrows
        rcases List.mem_cons.mp he with rfl | he
        · exact ⟨e, isLast_cons_iff.mpr (Or.inr ⟨rfl, hp, hrows⟩)⟩
        · exact absurd hp (hrows e he)

/-- A row that does not have the property is not the last one. -/
lemma isLast_cons_of_not {p : S → Prop} {row e : S × V} {rows : List (S × V)} (h : ¬ p row.1) :
    IsLast p (row :: rows) e ↔ IsLast p rows e := by
  rw [isLast_cons_iff]
  constructor
  · rintro (hlast | ⟨rfl, hp, -⟩)
    · exact hlast
    · exact absurd hp h
  · exact Or.inl

/-- A row is not the last one when a later one has the property. -/
lemma isLast_cons_of_later {p : S → Prop} {row e : S × V} {rows : List (S × V)}
    (h : ∃ later ∈ rows, p later.1) : IsLast p (row :: rows) e ↔ IsLast p rows e := by
  obtain ⟨later, hmem, hlater⟩ := h
  rw [isLast_cons_iff]
  constructor
  · rintro (hlast | ⟨-, -, hnone⟩)
    · exact hlast
    · exact absurd hlater (hnone later hmem)
  · exact Or.inl

/-- A row that no later one replaces is the last one if it has the property. -/
lemma isLast_cons_of_none {p : S → Prop} {row e : S × V} {rows : List (S × V)}
    (h : ∀ later ∈ rows, ¬ p later.1) : IsLast p (row :: rows) e ↔ row = e ∧ p row.1 := by
  rw [isLast_cons_iff]
  constructor
  · rintro (hlast | ⟨rfl, hp, -⟩)
    · exact absurd hlast.mem.2 (h e hlast.mem.1)
    · exact ⟨rfl, hp⟩
  · rintro ⟨rfl, hp⟩
    exact Or.inr ⟨rfl, hp, h⟩

/-! ## Converting rows -/

section convert

variable {K W E : Type} {names : S → K → Prop} {reads : V → W → Prop}
  {convert : S × V → Option (Except E (K × W))}

/-- How rows are converted: a row whose key names no object is skipped or an error, and any other
one is converted to its object and what its value is read as. -/
structure Converts (names : S → K → Prop) (reads : V → W → Prop)
    (convert : S × V → Option (Except E (K × W))) (rows : List (S × V)) : Prop where
  /-- A row that is skipped names no object. -/
  skipped : ∀ e ∈ rows, convert e = none → ∀ k, ¬ names e.1 k
  /-- What a row is converted to. -/
  converted : ∀ e ∈ rows, ∀ k w, convert e = some (.ok (k, w)) ↔ names e.1 k ∧ reads e.2 w

variable {rows : List (S × V)} {entries : List (K × W)}

/-- Fewer rows are converted in the same way. -/
lemma Converts.mono (h : Converts names reads convert rows) {rows' : List (S × V)}
    (hrows : ∀ e ∈ rows', e ∈ rows) : Converts names reads convert rows' :=
  ⟨fun e he => h.skipped e (hrows e he), fun e he => h.converted e (hrows e he)⟩

/-- A row that names an object is not skipped, so that it is converted with the others. -/
lemma Converts.exists_reads (h : Converts names reads convert rows)
    (hentries : rows.filterMap convert = entries.map .ok) {e : S × V} (he : e ∈ rows) {k : K}
    (hk : names e.1 k) : ∃ w, reads e.2 w := by
  rcases hconvert : convert e with _ | result
  · exact absurd hk (h.skipped e he hconvert k)
  · have hmem : result ∈ entries.map .ok := by
      rw [← hentries]
      exact List.mem_filterMap.mpr ⟨e, he, hconvert⟩
    obtain ⟨⟨k', w⟩, -, rfl⟩ := List.mem_map.mp hmem
    exact ⟨w, ((h.converted e he k' w).mp hconvert).2⟩

/-- A value that is read at all is read as one value. -/
lemma Converts.reads_unique (h : Converts names reads convert rows) {e : S × V} (he : e ∈ rows)
    {k : K} (hk : names e.1 k) {w w' : W} (hw : reads e.2 w) (hw' : reads e.2 w') : w = w' := by
  have heq := (h.converted e he k w).mpr ⟨hk, hw⟩
  rw [(h.converted e he k w').mpr ⟨hk, hw'⟩] at heq
  cases heq
  rfl

variable [DecidableEq K]

/-- The object of a converted row has the value of the row, and no other object has one. -/
lemma Converts.single_eq_some_iff (h : Converts names reads convert rows) {row : S × V}
    (hin : row ∈ rows) {k k' : K} {w w' : W} (hrow : convert row = some (.ok (k', w'))) :
    (if k' = k then some w' else none) = some w ↔ names row.1 k ∧ reads row.2 w := by
  rw [← h.converted row hin k w, hrow]
  split_ifs with heq
  · subst heq
    simp
  · simp [heq]

/-- **Converted rows**: an object has the value of the last row that names it. -/
theorem Converts.lastValue_entries (h : Converts names reads convert rows)
    (hentries : rows.filterMap convert = entries.map .ok) {k : K} {w : W} :
    lastValue k entries = some w ↔ ∃ e, IsLast (names · k) rows e ∧ reads e.2 w := by
  induction rows generalizing entries w with
  | nil =>
      rw [List.filterMap_nil, eq_comm, List.map_eq_nil_iff] at hentries
      subst hentries
      constructor
      · intro hnone
        cases hnone
      · rintro ⟨e, he, -⟩
        exact absurd he.mem.1 List.not_mem_nil
  | cons row rows ih =>
      have hin := List.mem_cons_self (a := row) (l := rows)
      have hrows := h.mono fun e he => List.mem_cons_of_mem row he
      rcases hrow : convert row with _ | result
      · rw [List.filterMap_cons_none hrow] at hentries
        simp only [isLast_cons_of_not (p := (names · k)) (h.skipped row hin hrow k)]
        exact ih hrows hentries
      · rw [List.filterMap_cons_some hrow] at hentries
        rcases entries with _ | ⟨⟨k', w'⟩, entries⟩
        · cases hentries
        · obtain ⟨rfl, hrest⟩ := List.cons.inj hentries
          have htail : ∀ {v}, lastValue k entries = some v ↔
              ∃ e, IsLast (names · k) rows e ∧ reads e.2 v := ih hrows hrest
          rw [lastValue]
          by_cases hlater : ∃ e ∈ rows, names e.1 k
          · -- A later row names the object, and replaces this one.
            obtain ⟨e, he⟩ := exists_isLast (p := (names · k)) hlater
            obtain ⟨v, hv⟩ := hrows.exists_reads hrest he.mem.1 he.mem.2
            simp only [isLast_cons_of_later (p := (names · k)) hlater, ← htail]
            rw [htail.mpr ⟨e, he, hv⟩, Option.some_or]
          · push Not at hlater
            have hnone : lastValue k entries = none := by
              rw [Option.eq_none_iff_forall_ne_some]
              intro v hv
              obtain ⟨e, he, -⟩ := htail.mp hv
              exact hlater e he.mem.1 he.mem.2
            simp only [isLast_cons_of_none (p := (names · k)) hlater, and_assoc, exists_eq_left']
            rw [hnone, Option.none_or]
            exact h.single_eq_some_iff hin hrow

variable [Ord K] [Std.TransOrd K] [Std.LawfulEqOrd K] {m : BTreeMap K W}

/-- An object is held exactly with the value of the last row that names it. -/
lemma Converts.getElem?_ofList (h : Converts names reads convert rows)
    (hentries : rows.filterMap convert = entries.map .ok) {k : K} {w : W} :
    (Std.ExtTreeMap.ofList entries compare)[k]? = some w ↔
      ∃ e, IsLast (names · k) rows e ∧ reads e.2 w := by
  rw [Lib.getElem?_ofList, h.lastValue_entries hentries]

/-- Each object has the value of the last row that names it. -/
def LastRowWins (names : S → K → Prop) (reads : V → W → Prop) (rows : List (S × V))
    (m : BTreeMap K W) : Prop :=
  ∀ k w, m[k]? = some w → ∃ e, IsLast (names · k) rows e ∧ reads e.2 w

/-- **The last row of each object wins** when rows are converted before they are collected. -/
theorem lastRowWins_of_collect (h : Converts names reads convert rows)
    (hm : collect (rows.filterMap convert) = .ok m) : LastRowWins names reads rows m := by
  obtain ⟨entries, hentries, rfl⟩ := collect_eq_ok_iff.mp hm
  exact fun k w hkw => (h.getElem?_ofList hentries).mp hkw

end convert

/-! ## Collecting by spelling first -/

section spelling

variable [Ord S] [Std.TransOrd S] [Std.LawfulEqOrd S]

/-- The spelling occurs, names the object, and is the greatest that does. -/
structure IsGreatest (p : S → Prop) (rows : List (S × V)) (s : S) : Prop where
  /-- It occurs. -/
  occurs : ∃ v, (s, v) ∈ rows
  /-- It names the object. -/
  names : p s
  /-- No other that occurs and names the object is greater. -/
  greatest : ∀ e ∈ rows, p e.1 → compare e.1 s ≠ .gt

variable [DecidableEq S]

/-- Collected rows hold the last value of each key. -/
lemma mem_toList_ofList {rows : List (S × V)} {e : S × V} :
    e ∈ (Std.ExtTreeMap.ofList rows compare).toList ↔ lastValue e.1 rows = some e.2 := by
  rw [Std.ExtTreeMap.mem_toList_iff_getElem?_eq_some, getElem?_ofList]

/-- **Rows collected by spelling** are in the order of the spellings, so the last one is that of the
greatest spelling. -/
lemma isLast_toList_iff {p : S → Prop} {rows : List (S × V)} {e : S × V} :
    IsLast p (Std.ExtTreeMap.ofList rows compare).toList e ↔
      IsGreatest p rows e.1 ∧ lastValue e.1 rows = some e.2 := by
  have hordered := Std.ExtTreeMap.ordered_keys_toList (t := Std.ExtTreeMap.ofList rows compare)
  constructor
  · rintro ⟨before, after, hsplit, hp, hlater⟩
    have hlast : lastValue e.1 rows = some e.2 := by
      rw [← mem_toList_ofList, hsplit]
      exact List.mem_append_right before List.mem_cons_self
    refine ⟨⟨⟨e.2, mem_of_lastValue hlast⟩, hp, fun e' he' hp' => ?_⟩, hlast⟩
    -- A greater spelling would come after this one.
    obtain ⟨v, hv⟩ : ∃ v, lastValue e'.1 rows = some v := by
      apply Option.ne_none_iff_exists'.mp
      intro hnone
      exact lastValue_eq_none_iff.mp hnone e' he' rfl
    have hin : (e'.1, v) ∈ (Std.ExtTreeMap.ofList rows compare).toList := mem_toList_ofList.mpr hv
    rw [hsplit] at hin hordered
    rcases List.mem_append.mp hin with hin | hin
    · rw [(List.pairwise_append.mp hordered).2.2 _ hin e List.mem_cons_self]
      decide
    · rcases List.mem_cons.mp hin with heq | hin
      · rw [← heq, Std.ReflOrd.compare_self]
        decide
      · exact absurd hp' (hlater (e'.1, v) hin)
  · rintro ⟨hgreatest, hlast⟩
    obtain ⟨before, after, hsplit⟩ := List.append_of_mem (mem_toList_ofList.mpr hlast)
    refine ⟨before, after, hsplit, hgreatest.names, fun later hlater hp => ?_⟩
    have hin : later ∈ (Std.ExtTreeMap.ofList rows compare).toList := by
      rw [hsplit]
      exact List.mem_append_right before (List.mem_cons_of_mem e hlater)
    have hrow := mem_of_lastValue (mem_toList_ofList.mp hin)
    rw [hsplit] at hordered
    have hlt := (List.pairwise_cons.mp (List.pairwise_append.mp hordered).2.1).1 later hlater
    exact hgreatest.greatest later hrow hp (Std.OrientedCmp.gt_of_lt hlt)

variable {K W E : Type} [Ord K] [Std.TransOrd K] [Std.LawfulEqOrd K] [DecidableEq K]
  {names : S → K → Prop} {reads : V → W → Prop} {convert : S × V → Option (Except E (K × W))}
  {rows : List (S × V)} {m : BTreeMap K W}

/-- The last row that names an object has the value of the last row of its greatest spelling. -/
def SpellingsAgree (names : S → K → Prop) (reads : V → W → Prop) (rows : List (S × V)) : Prop :=
  ∀ k s v e, IsGreatest (names · k) rows s → lastValue s rows = some v →
    IsLast (names · k) rows e → ∃ w, reads v w ∧ reads e.2 w

/-- **The last row of each object wins exactly when the spellings agree**, when rows are collected
by spelling before they are converted. -/
theorem lastRowWins_iff (h : Converts names reads convert rows)
    (hm : collect ((Std.ExtTreeMap.ofList rows compare).toList.filterMap convert) = .ok m) :
    LastRowWins names reads rows m ↔ SpellingsAgree names reads rows := by
  obtain ⟨entries, hentries, rfl⟩ := collect_eq_ok_iff.mp hm
  have hlist := h.mono fun e he => mem_of_lastValue (mem_toList_ofList.mp he)
  have hget : ∀ {k w}, (Std.ExtTreeMap.ofList entries compare)[k]? = some w ↔
      ∃ e, IsLast (names · k) (Std.ExtTreeMap.ofList rows compare).toList e ∧ reads e.2 w :=
    hlist.getElem?_ofList hentries
  constructor
  · intro hwins k s v e hgreatest hv he
    have hlast : IsLast (names · k) (Std.ExtTreeMap.ofList rows compare).toList (s, v) :=
      isLast_toList_iff.mpr ⟨hgreatest, hv⟩
    obtain ⟨w, hw⟩ := hlist.exists_reads hentries hlast.mem.1 hlast.mem.2
    obtain ⟨e', he', hw'⟩ := hwins k w (hget.mpr ⟨(s, v), hlast, hw⟩)
    obtain rfl := he.unique he'
    exact ⟨w, hw, hw'⟩
  · intro hagree k w hkw
    obtain ⟨⟨s, v⟩, hlast, hw⟩ := hget.mp hkw
    obtain ⟨hgreatest, hv⟩ := isLast_toList_iff.mp hlast
    have hmem : (s, v) ∈ rows := mem_of_lastValue hv
    obtain ⟨e, he⟩ := exists_isLast (p := (names · k)) ⟨(s, v), hmem, hgreatest.names⟩
    obtain ⟨w', hvw', hew'⟩ := hagree k s v e hgreatest hv he
    obtain rfl := hlist.reads_unique hlast.mem.1 hgreatest.names hw hvw'
    exact ⟨e, he, hew'⟩

end spelling

end Sakai.Lib
