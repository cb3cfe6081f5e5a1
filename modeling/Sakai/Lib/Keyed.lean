import Mathlib.Data.List.Perm.Basic
import Mathlib.Data.List.Nodup
import Mathlib.Data.List.Forall2
import Std.Data.ExtHashMap
import Std.Data.ExtTreeMap
import Sakai.Lib.Text
import Sakai.Lib.Result

/-!
# Last-wins maps: collecting key/value pairs, and named fields

* `BTreeMap K V` is the ordered map; `collect` builds one from a sequence of results, stopping at
  the first error, a later pair replacing an earlier one with its key.
* `lastValue k entries` is the value of the last pair with key `k`: `getElem?_ofList` says that it
  is what a collected map holds. It only depends on the pairs with that key
  (`lastValue_filter`), and on their order only when a key repeats (`lastValue_perm`).
* A map is recovered from any order of its entries (`ofList_of_perm_toList`), and from rows that
  show them (`collect_of_listsMap`); the entries of a map under a key predicate depend on its
  values there only (`filter_toList_congr`).
* `NamedEnum F` is an enumeration with pairwise distinct names, parsed by name (`fromStr?`).
  `Shows enc entries` says that `entries` give each field `f` its value `enc f`, fields without
  value being absent, in any order and among any other keys; `lastValue_of_shows` reads it back.
-/

namespace Sakai.Lib

/-- An ordered map with extensional equality. -/
abbrev BTreeMap (K V : Type) [Ord K] := Std.ExtTreeMap K V compare

/-! ## The last value of a key -/

section lastValue

variable {K V : Type} [DecidableEq K]

/-- The value of the last entry with key `k`. -/
def lastValue (k : K) : List (K × V) → Option V
  | [] => none
  | e :: rest => (lastValue k rest).or (if e.1 = k then some e.2 else none)

/-- A later list of entries takes precedence. -/
lemma lastValue_append (k : K) (as bs : List (K × V)) :
    lastValue k (as ++ bs) = (lastValue k bs).or (lastValue k as) := by
  induction as with
  | nil => simp [lastValue]
  | cons a as ih => rw [List.cons_append, lastValue, ih, lastValue, Option.or_assoc]

/-- An entry that no later one replaces holds the last value of its key. -/
lemma lastValue_append_cons {k : K} {v : V} {after : List (K × V)} (h : lastValue k after = none)
    (before : List (K × V)) : lastValue k (before ++ (k, v) :: after) = some v := by
  rw [lastValue_append, lastValue, h, if_pos rfl]
  rfl

/-- The last value of a key is the value of one of its entries. -/
lemma mem_of_lastValue {k : K} {v : V} {l : List (K × V)} (h : lastValue k l = some v) :
    (k, v) ∈ l := by
  induction l with
  | nil => cases h
  | cons e rest ih =>
      rw [lastValue] at h
      rcases hr : lastValue k rest with _ | w
      · rw [hr, Option.none_or] at h
        split_ifs at h with he
        cases h
        subst he
        exact List.mem_cons_self
      · rw [hr, Option.some_or] at h
        cases h
        exact List.mem_cons_of_mem _ (ih hr)

/-- A key has no value exactly when no entry names it. -/
lemma lastValue_eq_none_iff {k : K} {l : List (K × V)} :
    lastValue k l = none ↔ ∀ e ∈ l, e.1 ≠ k := by
  induction l with
  | nil => simp [lastValue]
  | cons e rest ih => by_cases he : e.1 = k <;> simp [lastValue, ih, he]

/-- Entries with other keys do not matter. -/
lemma lastValue_filter {p : K → Bool} {k : K} (hk : p k = true) (l : List (K × V)) :
    lastValue k (l.filter fun e => p e.1) = lastValue k l := by
  induction l with
  | nil => rfl
  | cons e rest ih =>
      by_cases he : p e.1 = true
      · rw [List.filter_cons_of_pos (by simpa using he), lastValue, ih, lastValue]
      · have hek : e.1 ≠ k := fun h => he (h ▸ hk)
        rw [List.filter_cons_of_neg (by simpa using he), ih, lastValue, if_neg hek,
          Option.or_none]

/-- When no key repeats, the last value is the only one. -/
lemma lastValue_eq_some_iff_mem {k : K} {v : V} {l : List (K × V)} (hl : (l.map Prod.fst).Nodup) :
    lastValue k l = some v ↔ (k, v) ∈ l := by
  refine ⟨mem_of_lastValue, fun hmem => ?_⟩
  rcases hv : lastValue k l with _ | w
  · exact absurd rfl (lastValue_eq_none_iff.mp hv (k, v) hmem)
  · have heq := List.inj_on_of_nodup_map hl (mem_of_lastValue hv) hmem rfl
    rw [Prod.mk.injEq] at heq
    rw [heq.2]

/-- When no key repeats, the first entry with a key holds its last value. -/
lemma findSome?_eq_lastValue {l : List (K × V)} (hl : (l.map Prod.fst).Nodup) (k : K) :
    l.findSome? (fun e => if e.1 = k then some e.2 else none) = lastValue k l := by
  induction l with
  | nil => rfl
  | cons e rest ih =>
      obtain ⟨hnot, hrest⟩ := List.nodup_cons.mp hl
      rw [lastValue, ← ih hrest, List.findSome?_cons]
      by_cases he : e.1 = k
      · have hnone : rest.findSome? (fun e => if e.1 = k then some e.2 else none) = none := by
          rw [ih hrest, lastValue_eq_none_iff]
          intro e' he' heq
          exact hnot (List.mem_map.mpr ⟨e', he', heq.trans he.symm⟩)
        rw [if_pos he, hnone]
        rfl
      · rw [if_neg he, Option.or_none]

/-- When no key repeats, the order of the entries does not matter. -/
lemma lastValue_perm {k : K} {l₁ l₂ : List (K × V)} (hperm : l₁.Perm l₂)
    (hl : (l₁.map Prod.fst).Nodup) : lastValue k l₁ = lastValue k l₂ := by
  have hl₂ : (l₂.map Prod.fst).Nodup := (hperm.map Prod.fst).nodup_iff.mp hl
  apply Option.ext
  intro v
  rw [lastValue_eq_some_iff_mem hl, lastValue_eq_some_iff_mem hl₂, hperm.mem_iff]

/-- Inserting entries into a hash map one after the other leaves the last value of each key. -/
lemma getElem?_hashMap_insertMany [Hashable K] (m : Std.ExtHashMap K V) (l : List (K × V)) (k : K) :
    (m.insertMany l)[k]? = (lastValue k l).or m[k]? := by
  induction l generalizing m with
  | nil => simp [lastValue]
  | cons e rest ih =>
      obtain ⟨key, v⟩ := e
      rw [Std.ExtHashMap.insertMany_cons, ih, Std.ExtHashMap.getElem?_insert, lastValue,
        Option.or_assoc]
      by_cases hk : key = k
      · simp [hk]
      · simp [hk]

/-- A collected hash map holds the last value of each key. -/
lemma getElem?_hashMap_ofList [Hashable K] (l : List (K × V)) (k : K) :
    (Std.ExtHashMap.ofList l)[k]? = lastValue k l := by
  rw [Std.ExtHashMap.ofList_eq_insertMany_empty, getElem?_hashMap_insertMany]
  simp

end lastValue

/-! ## Collecting results into a map -/

section collect

variable {K V E : Type} [Ord K]

/-- `collect::<Result<BTreeMap<_, _>, _>>()`: the first error, or the map of all pairs. -/
def collect (results : List (Except E (K × V))) : Except E (BTreeMap K V) :=
  (results.mapM id).map fun entries => Std.ExtTreeMap.ofList entries compare

/-- **What is collected**: every result is a pair, and the map is built from the pairs. -/
theorem collect_eq_ok_iff {results : List (Except E (K × V))} {m : BTreeMap K V} :
    collect results = .ok m ↔
      ∃ entries : List (K × V), results = entries.map .ok ∧
        Std.ExtTreeMap.ofList entries compare = m := by
  rw [collect, map_eq_ok]
  exact exists_congr fun entries => and_congr_left fun _ => mapM_id_eq_ok_iff

/-- A collection fails with the error of one result, or is built from their pairs. -/
lemma ends_collect {p : E → Prop} {q : K × V → Prop} {results : List (Except E (K × V))}
    (h : ∀ r ∈ results, Ends p q r) :
    Ends p (fun m => ∃ entries : List (K × V), Std.ExtTreeMap.ofList entries compare = m ∧
      ∀ e ∈ entries, q e) (collect results) := by
  unfold collect
  exact (ends_mapM_id h).map fun entries hentries => ⟨entries, rfl, hentries⟩

/-- The first error of a collection is renamed with the results. -/
lemma collect_mapError {E' : Type} {results : List (Except E (K × V))} {g : E → E'} :
    (collect results).mapError g = collect (results.map fun r => r.mapError g) := by
  rw [collect, collect, ← mapM_mapError]
  cases results.mapM id <;> rfl

variable [Std.TransOrd K] [Std.LawfulEqOrd K]

section lookup

variable [DecidableEq K]

/-- Inserting entries one after the other leaves the last value of each key. -/
lemma getElem?_insertMany (m : BTreeMap K V) (l : List (K × V)) (k : K) :
    (m.insertMany l)[k]? = (lastValue k l).or m[k]? := by
  induction l generalizing m with
  | nil => simp [lastValue]
  | cons e rest ih =>
      obtain ⟨key, v⟩ := e
      rw [Std.ExtTreeMap.insertMany_cons, ih, Std.ExtTreeMap.getElem?_insert, lastValue,
        Option.or_assoc]
      by_cases hk : key = k
      · simp [hk]
      · simp [hk]

/-- **A collected map holds the last value of each key.** -/
theorem getElem?_ofList (l : List (K × V)) (k : K) :
    (Std.ExtTreeMap.ofList l compare)[k]? = lastValue k l := by
  rw [Std.ExtTreeMap.ofList_eq_insertMany_empty, getElem?_insertMany]
  simp

end lookup

/-- The keys of a map's entries are pairwise distinct. -/
lemma nodup_keys_toList (m : BTreeMap K V) : (m.toList.map Prod.fst).Nodup := by
  rw [List.nodup_iff_pairwise_ne, List.pairwise_map]
  refine (Std.ExtTreeMap.distinct_keys_toList (t := m)).imp fun h heq => h ?_
  rw [heq]
  exact Std.ReflOrd.compare_self

/-- The entries of a map hold the value of each key. -/
lemma lastValue_toList [DecidableEq K] (m : BTreeMap K V) (k : K) :
    lastValue k m.toList = m[k]? := by
  apply Option.ext
  intro v
  rw [lastValue_eq_some_iff_mem (nodup_keys_toList m),
    Std.ExtTreeMap.mem_toList_iff_getElem?_eq_some]

/-- **Any order of a map's entries collects to the map.** -/
theorem ofList_of_perm_toList [DecidableEq K] {l : List (K × V)} {m : BTreeMap K V}
    (h : l.Perm m.toList) : Std.ExtTreeMap.ofList l compare = m := by
  have hl : (l.map Prod.fst).Nodup := (h.map Prod.fst).nodup_iff.mpr (nodup_keys_toList m)
  refine Std.ExtTreeMap.ext_getElem? fun k => Option.ext fun v => ?_
  rw [getElem?_ofList, lastValue_eq_some_iff_mem hl, h.mem_iff,
    Std.ExtTreeMap.mem_toList_iff_getElem?_eq_some]

/-- The rows show the entries of the map, one row an entry, in any order. -/
def ListsMap {I : Type} (R : K × V → I → Prop) (m : BTreeMap K V) (rows : List I) : Prop :=
  ∃ order : List (K × V), order.Perm m.toList ∧ List.Forall₂ R order rows

/-- **Rows that show a map are collected to the map.** -/
theorem collect_of_listsMap [DecidableEq K] {I : Type} {R : K × V → I → Prop}
    {parse : I → Except E (K × V)} {m : BTreeMap K V} {rows : List I} (h : ListsMap R m rows)
    (hparse : ∀ e row, m[e.1]? = some e.2 → R e row → parse row = .ok e) :
    collect (rows.map parse) = .ok m := by
  obtain ⟨order, hperm, hrows⟩ := h
  have hmem : ∀ e ∈ order, m[e.1]? = some e.2 := fun e he =>
    Std.ExtTreeMap.mem_toList_iff_getElem?_eq_some.mp (hperm.mem_iff.mp he)
  refine collect_eq_ok_iff.mpr ⟨order, ?_, ofList_of_perm_toList hperm⟩
  clear hperm
  induction hrows with
  | nil => rfl
  | @cons e row order rows hrow _ ih =>
      have htail := ih fun e he => hmem e (List.mem_cons_of_mem _ he)
      rw [List.map_cons, List.map_cons, htail, hparse e row (hmem e List.mem_cons_self) hrow]

/-- The rows of a map have distinct keys, when different names have different keys. -/
lemma ListsMap.nodup_map {I J : Type} {R : K × V → I → Prop} {m : BTreeMap K V} {rows : List I}
    (h : ListsMap R m rows) {key : I → J} {ofName : K → J} (hname : Function.Injective ofName)
    (hkey : ∀ e row, R e row → key row = ofName e.1) : (rows.map key).Nodup := by
  obtain ⟨order, horder, hrows⟩ := h
  have hkeys : rows.map key = (order.map Prod.fst).map ofName := by
    clear horder
    induction hrows with
    | nil => rfl
    | @cons e row order rows hrow _ ih =>
        rw [List.map_cons, ih, hkey e row hrow, List.map_cons, List.map_cons]
  rw [hkeys]
  exact ((horder.map Prod.fst).nodup_iff.mpr (nodup_keys_toList m)).map hname

omit [Std.LawfulEqOrd K] in
/-- A map is shown by its rows in any order. -/
lemma ListsMap.perm {I : Type} {R : K × V → I → Prop} {m : BTreeMap K V} {rows rows' : List I}
    (h : ListsMap R m rows) (hperm : rows.Perm rows') : ListsMap R m rows' := by
  obtain ⟨order, horder, hrows⟩ := h
  have hcomp : Relation.Comp (List.Forall₂ R) List.Perm order rows' := ⟨rows, hrows, hperm⟩
  rw [List.forall₂_comp_perm_eq_perm_comp_forall₂] at hcomp
  obtain ⟨order', hperm', hrows'⟩ := hcomp
  exact ⟨order', hperm'.symm.trans horder, hrows'⟩

omit [Std.LawfulEqOrd K] in
/-- A map is shown by what its rows are turned into. -/
lemma ListsMap.filterMap {I J : Type} {R : K × V → I → Prop} {R' : K × V → J → Prop}
    {f : I → Option J} {m : BTreeMap K V} {rows : List I} (h : ListsMap R m rows)
    (hf : ∀ e row, R e row → ∃ row', f row = some row' ∧ R' e row') :
    ListsMap R' m (rows.filterMap f) := by
  obtain ⟨order, horder, hrows⟩ := h
  refine ⟨order, horder, ?_⟩
  clear horder
  induction hrows with
  | nil => exact List.Forall₂.nil
  | @cons e row order rows hrow _ ih =>
      obtain ⟨row', hrow', hR⟩ := hf e row hrow
      rw [List.filterMap_cons_some hrow']
      exact List.Forall₂.cons hR ih

/-- The entries collected from rows with distinct keys are these rows, in key order. -/
lemma toList_ofList_perm [DecidableEq K] {l : List (K × V)} (h : (l.map Prod.fst).Nodup) :
    (Std.ExtTreeMap.ofList l compare).toList.Perm l := by
  have hkeys := nodup_keys_toList (Std.ExtTreeMap.ofList l compare)
  refine (List.perm_ext_iff_of_nodup (List.Nodup.of_map _ hkeys) (List.Nodup.of_map _ h)).mpr ?_
  intro e
  rw [Std.ExtTreeMap.mem_toList_iff_getElem?_eq_some, getElem?_ofList,
    lastValue_eq_some_iff_mem h]

/-- Rows with distinct keys show the map that is collected from them. -/
lemma listsMap_ofList [DecidableEq K] {I : Type} {R : K × V → I → Prop} {order : List (K × V)}
    {rows : List I} (hkeys : (order.map Prod.fst).Nodup) (hrows : List.Forall₂ R order rows) :
    ListsMap R (Std.ExtTreeMap.ofList order compare) rows :=
  ⟨order, (toList_ofList_perm hkeys).symm, hrows⟩

/-- What holds of all entries holds of those of the map that is collected from them. -/
lemma of_getElem?_ofList [DecidableEq K] {P : K → V → Prop} {l : List (K × V)}
    (h : ∀ e ∈ l, P e.1 e.2) (k : K) (v : V)
    (hget : (Std.ExtTreeMap.ofList l compare)[k]? = some v) : P k v := by
  rw [getElem?_ofList] at hget
  exact h _ (mem_of_lastValue hget)

/-- The entries under a key predicate depend on the values of those keys only. -/
lemma filter_toList_congr {m₁ m₂ : BTreeMap K V} {p : K → Bool}
    (h : ∀ k, p k = true → m₁[k]? = m₂[k]?) :
    m₁.toList.filter (fun e => p e.1) = m₂.toList.filter fun e => p e.1 := by
  have hfilter : m₁.filter (fun k _ => p k) = m₂.filter fun k _ => p k := by
    refine Std.ExtTreeMap.ext_getElem? fun k => ?_
    rw [Std.ExtTreeMap.getElem?_filter', Std.ExtTreeMap.getElem?_filter']
    by_cases hk : p k = true
    · rw [h k hk]
    · simp [hk]
  have hlist := congrArg Std.ExtTreeMap.toList hfilter
  rwa [Std.ExtTreeMap.toList_filter, Std.ExtTreeMap.toList_filter] at hlist

end collect

/-! ## Enumerations with names -/

/-- An enumeration whose values have pairwise distinct names. -/
class NamedEnum (F : Type) [DecidableEq F] where
  /-- The values, in declaration order. -/
  all : List F
  /-- The name of a value. -/
  name : F → String
  /-- Every value is listed. -/
  mem_all : ∀ f, f ∈ all
  /-- No name belongs to two values. -/
  nodup_names : (all.map name).Nodup

namespace NamedEnum

variable {F : Type} [DecidableEq F] [NamedEnum F]

/-- The name of a field as text. -/
def key (f : F) : Str := (name f).toList

/-- The value with the given name. -/
def fromStr? (s : Str) : Option F := (all (F := F)).find? fun f => key f = s

/-- Distinct values have distinct names. -/
lemma key_injective : Function.Injective (key (F := F)) :=
  fun f g h => List.inj_on_of_nodup_map nodup_names (mem_all f) (mem_all g) (String.toList_inj.mp h)

/-- The listing has no duplicates. -/
lemma nodup_all : (all (F := F)).Nodup := List.Nodup.of_map _ nodup_names

/-- **A value is recovered from its own name, and from no other text.** -/
theorem fromStr?_eq_some_iff {s : Str} {f : F} : fromStr? s = some f ↔ key f = s := by
  constructor
  · intro h
    simpa using List.find?_some h
  · rintro rfl
    rcases h : fromStr? (F := F) (key f) with _ | g
    · exact absurd (List.find?_eq_none.mp h f (mem_all f)) (by simp)
    · have hg : key g = key f := by simpa using List.find?_some h
      rw [key_injective hg]

/-- A value is recovered from its own name. -/
@[simp] lemma fromStr?_key (f : F) : fromStr? (key f) = some f := fromStr?_eq_some_iff.mpr rfl

/-- A text is unknown exactly when it is no value's name. -/
lemma fromStr?_eq_none_iff {s : Str} : fromStr? (F := F) s = none ↔ ∀ f : F, key f ≠ s := by
  rw [Option.eq_none_iff_forall_ne_some]
  exact forall_congr' fun f => not_congr fromStr?_eq_some_iff

/-- Values are ordered as they are declared. -/
instance instOrd : Ord F := ⟨compareOn fun f => (all (F := F)).idxOf f⟩

instance instTransOrd : Std.TransOrd F :=
  inferInstanceAs (Std.TransCmp (compareOn fun f => (all (F := F)).idxOf f))

instance instLawfulEqOrd : Std.LawfulEqOrd F where
  compare_self := Std.ReflOrd.compare_self (α := ℕ)
  eq_of_compare {f g} h := by
    have hidx := Std.LawfulEqOrd.eq_of_compare (α := ℕ) h
    exact (List.idxOf_inj (mem_all f)).mp hidx

/-! ### Rows of known names -/

section knownRows

variable {X V E : Type} (parse : X → Except E V)

/-- What a row with a known name is parsed to; a row with any other name is skipped. -/
def knownRow (row : Str × X) : Option (Except E (F × V)) :=
  (fromStr? row.1).map fun f => (parse row.2).map fun v => (f, v)

/-- What the rows with a known name are parsed to. -/
def knownRows (rows : List (Str × X)) : List (Except E (F × V)) := rows.filterMap (knownRow parse)

variable {parse}

/-- A row with an unknown name is skipped. -/
lemma knownRow_eq_none {row : Str × X} (h : fromStr? (F := F) row.1 = none) :
    knownRow (F := F) parse row = none := by
  rw [knownRow, h]
  rfl

/-- A row with the name of a value is parsed for it. -/
lemma knownRow_key (g : F) (x : X) :
    knownRow parse (key g, x) = some ((parse x).map fun v => (g, v)) := by
  rw [knownRow, fromStr?_key]
  rfl

/-- The rows are parsed exactly when those with a known name are. -/
lemma exists_knownRows_iff {rows : List (Str × X)} :
    (∃ entries : List (F × V), knownRows parse rows = entries.map .ok) ↔
      ∀ (f : F) x, (key f, x) ∈ rows → ∃ v, parse x = .ok v := by
  rw [exists_eq_map_ok]
  unfold knownRows knownRow
  simp only [List.mem_filterMap, Option.map_eq_some_iff]
  constructor
  · intro h f x hrow
    obtain ⟨_, hread⟩ := h _ ⟨_, hrow, f, fromStr?_key f, rfl⟩
    obtain ⟨v, hv, -⟩ := map_eq_ok.mp hread
    exact ⟨v, hv⟩
  · rintro h _ ⟨⟨name, x⟩, hrow, f, hname, rfl⟩
    obtain rfl := fromStr?_eq_some_iff.mp hname
    obtain ⟨v, hv⟩ := h f x hrow
    exact ⟨(f, v), by rw [hv]; rfl⟩

/-- The last entry of a name is that of its last row. -/
lemma lastValue_knownRows {rows : List (Str × X)} {entries : List (F × V)}
    (h : knownRows parse rows = entries.map .ok) (f : F) :
    lastValue f entries = (lastValue (key f) rows).bind fun x => (parse x).toOption := by
  induction rows generalizing entries with
  | nil =>
      rw [knownRows, List.filterMap_nil, eq_comm, List.map_eq_nil_iff] at h
      rw [h]
      rfl
  | cons row rows ih =>
      obtain ⟨name, x⟩ := row
      have hparsed := exists_knownRows_iff.mp ⟨entries, h⟩
      rcases hname : fromStr? (F := F) name with _ | g
      · have hne : name ≠ key f := fun hk => fromStr?_eq_none_iff.mp hname f hk.symm
        rw [knownRows, List.filterMap_cons_none (knownRow_eq_none hname)] at h
        rw [ih h, lastValue, if_neg hne, Option.or_none]
      · obtain rfl := fromStr?_eq_some_iff.mp hname
        obtain ⟨v, hv⟩ := hparsed g x List.mem_cons_self
        rw [knownRows, List.filterMap_cons_some (knownRow_key g x), hv] at h
        rcases entries with _ | ⟨e, entries⟩
        · cases h
        · obtain ⟨hhead, hrest⟩ := List.cons.inj h
          obtain rfl : (g, v) = e := Except.ok.inj hhead
          have htail := ih hrest
          rw [lastValue, lastValue, htail]
          rcases hlast : lastValue (key f) rows with _ | y
          · by_cases hg : g = f
            · simp [hg, hv, Except.toOption]
            · have hkey : key g ≠ key f := fun hk => hg (key_injective hk)
              simp [hg, hkey]
          · obtain ⟨w, hw⟩ := hparsed f y (List.mem_cons_of_mem _ (mem_of_lastValue hlast))
            simp [hw, Except.toOption]

/-- **Collecting the rows of known names**: all of them must be parsed, and the map holds what the
last row of each name is parsed to. -/
theorem collect_knownRows_eq_ok_iff {rows : List (Str × X)} {m : BTreeMap F V} :
    collect (knownRows parse rows) = .ok m ↔
      (∀ (f : F) x, (key f, x) ∈ rows → ∃ v, parse x = .ok v) ∧
        ∀ f : F, m[f]? = (lastValue (key f) rows).bind fun x => (parse x).toOption := by
  rw [collect_eq_ok_iff]
  constructor
  · rintro ⟨entries, hentries, rfl⟩
    refine ⟨exists_knownRows_iff.mp ⟨entries, hentries⟩, fun f => ?_⟩
    rw [getElem?_ofList, lastValue_knownRows hentries]
  · rintro ⟨hparsed, hget⟩
    obtain ⟨entries, hentries⟩ := exists_knownRows_iff.mpr hparsed
    refine ⟨entries, hentries, Std.ExtTreeMap.ext_getElem? fun f => ?_⟩
    rw [getElem?_ofList, lastValue_knownRows hentries, hget]

end knownRows

/-- The entries of a record of optional fields. -/
def entriesOf {V : Type} (enc : F → Option V) : List (Str × V) :=
  (all (F := F)).filterMap fun f => (enc f).map fun v => (key f, v)

/-- `entries` give each field its value, in any order and among entries of other keys; a field
without a value is absent. -/
def Shows {V : Type} (enc : F → Option V) (entries : List (Str × V)) : Prop :=
  (entries.filter fun e => (fromStr? (F := F) e.1).isSome).Perm (entriesOf enc)

instance {V : Type} [DecidableEq V] (enc : F → Option V) (entries : List (Str × V)) :
    Decidable (Shows enc entries) :=
  inferInstanceAs (Decidable (List.Perm _ _))

/-- An entry of a record is the value of one of its fields. -/
lemma mem_entriesOf {V : Type} {enc : F → Option V} {e : Str × V} :
    e ∈ entriesOf enc ↔ ∃ f, key f = e.1 ∧ enc f = some e.2 := by
  obtain ⟨k, v⟩ := e
  simp only [entriesOf, List.mem_filterMap, Option.map_eq_some_iff, Prod.mk.injEq]
  constructor
  · rintro ⟨f, -, w, hw, hk, rfl⟩
    exact ⟨f, hk, hw⟩
  · rintro ⟨f, hk, hv⟩
    exact ⟨f, mem_all f, v, hv, hk, rfl⟩

/-- No key repeats among the entries of a record. -/
lemma nodup_entriesOf {V : Type} (enc : F → Option V) :
    ((entriesOf enc).map Prod.fst).Nodup := by
  unfold entriesOf
  rw [List.map_filterMap]
  refine List.Nodup.filterMap (fun f g k hf hg => ?_) nodup_all
  simp only [Option.map_map, Option.mem_def, Option.map_eq_some_iff, Function.comp_apply] at hf hg
  obtain ⟨-, -, rfl⟩ := hf
  obtain ⟨-, -, hk⟩ := hg
  exact key_injective hk.symm

/-- **Reading a record back**: the last value of a field's key is the field's value. -/
theorem lastValue_of_shows {V : Type} {enc : F → Option V} {entries : List (Str × V)}
    (h : Shows enc entries) (f : F) : lastValue (key f) entries = enc f := by
  have hknown : (fromStr? (F := F) (key f)).isSome = true := by rw [fromStr?_key]; rfl
  have hnodup := (h.map Prod.fst).nodup_iff.mpr (nodup_entriesOf enc)
  rw [← lastValue_filter (p := fun k => (fromStr? (F := F) k).isSome) hknown entries]
  apply Option.ext
  intro v
  rw [lastValue_eq_some_iff_mem hnodup, h.mem_iff, mem_entriesOf]
  constructor
  · rintro ⟨g, hg, hv⟩
    rwa [key_injective hg] at hv
  · exact fun hv => ⟨f, rfl, hv⟩

end NamedEnum

end Sakai.Lib
