import Mathlib.Algebra.GroupWithZero.Nat
import Mathlib.Data.List.Chain
import Sakai.Lib.Iterator
import Sakai.Parse

/-!
# CPU and memory-node lists

The placement lists of cpusets: decimal IDs and inclusive ranges, separated by commas, ascending
and without overlap. An `IdRange` carries the order of its ends, and an `IdList` the order of its
ranges.

* `IdList.Spells text items`: the text is a comma-separated list of items `d` or `d-d` with these
  ends, each range in order and each before the one that follows.
* `IdList.parse_eq_ok_iff`: a text is accepted exactly when, without the white space around it, it
  spells a list.
* `IdList.spells_render`: the printed form of a list spells it.
* `IdList.yields_ids`: iterating a list flattens its ranges.
* `placement_lists_parse`, `placement_ids`: both kinds of list are parsed by exactly their grammar,
  and iterated to the end in ascending order.
-/

namespace Sakai

open Lib

/-! ## Ranges -/

/-- An inclusive range of IDs, with its ends in order.
Source: `cpuset/list.rs`, `RangeInclusive<u32>` as `IdList::parse` builds it. -/
structure IdRange where
  /-- The smallest ID. -/
  start : UInt32
  /-- The largest ID. -/
  stop : UInt32
  /-- The ends are in order. -/
  le : start ≤ stop
  deriving DecidableEq, Repr

namespace IdRange

/-- The range precedes the other one, without touching its IDs. -/
def Before (a b : IdRange) : Prop := a.stop < b.start

instance (a b : IdRange) : Decidable (a.Before b) := inferInstanceAs (Decidable (a.stop < b.start))

instance : Trans Before Before Before where
  trans {a b c} hab hbc := by
    unfold Before at *
    have hb := b.le
    rw [UInt32.lt_iff_toNat_lt] at *
    rw [UInt32.le_iff_toNat_le] at hb
    omega

/-- The iterator over the IDs of the range. -/
def iter (r : IdRange) : RangeInclusive := RangeInclusive.new r.start r.stop

/-- The ends, as numbers. -/
def ends (r : IdRange) : ℕ × ℕ := (r.start.toNat, r.stop.toNat)

end IdRange

/-! ## Lists -/

/-- Ascending, non-overlapping ranges of IDs.
Source: `cpuset/list.rs`, `IdList`. -/
structure IdList where
  /-- The ranges. -/
  ranges : List IdRange
  /-- Each range is before every later one. -/
  ascending : ranges.Pairwise IdRange.Before
  deriving DecidableEq, Repr

namespace IdList

/-- The check of neighbouring ranges.
Source: `cpuset/list.rs`, the last step of `IdList::parse`. -/
def neighboursAscend (ranges : List IdRange) : Bool :=
  (ranges.zip (ranges.drop 1)).all fun p => decide (p.1.stop < p.2.start)

/-- Ranges whose neighbours ascend are ascending. -/
lemma neighboursAscend_iff {ranges : List IdRange} :
    neighboursAscend ranges = true ↔ ranges.Pairwise IdRange.Before := by
  rw [← List.isChain_iff_pairwise]
  unfold neighboursAscend
  induction ranges with
  | nil => simp
  | cons a rest ih =>
      rcases rest with _ | ⟨b, rest⟩
      · simp
      · rw [List.isChain_cons_cons, ← ih]
        simp only [List.drop_one, List.tail_cons, List.zip_cons_cons, List.all_cons,
          Bool.and_eq_true, decide_eq_true_iff]
        rfl

section parse

variable (raw : Str) (field : String)

/-- A number of an item: ASCII digits only.
Source: `cpuset/list.rs`, the closure `number` of `IdList::parse`. -/
def number (part text : Str) : Parsed UInt32 :=
  if !text.isEmpty && text.all Char.isDigit then
    (parseU32 text).mapError fun error => .invalid raw field part (.integer error)
  else .error (.invalid raw field part .outOfRange)

/-- The ends of an item, split at its first `-`.
Source: `cpuset/list.rs`, the closure over the parts of `IdList::parse`. -/
def parseEnds (part : Str) : Parsed (UInt32 × UInt32) :=
  match splitOnce '-' part with
  | some (start, stop) => do return (← number raw field part start, ← number raw field part stop)
  | none => do
    let id ← number raw field part part
    return (id, id)

/-- One item: the ends must be in order.
Source: `cpuset/list.rs`, the closure over the parts of `IdList::parse`. -/
def parsePart (part : Str) : Parsed IdRange := do
  let (start, stop) ← parseEnds raw field part
  if h : start ≤ stop then .ok ⟨start, stop, h⟩ else .error (.invalid raw field part .outOfRange)

/-- The ranges of a text, before their order is checked.
Source: `cpuset/list.rs`, the `match` of `IdList::parse`. -/
def parseRanges (value : Str) : Parsed (List IdRange) :=
  match value.isEmpty with
  | true => .ok []
  | false => ((split ',' value).map (parsePart raw field)).mapM id

/-- Source: `cpuset/list.rs`, `IdList::parse`. -/
def parse : Parsed IdList := do
  let value := trim raw
  let ranges ← parseRanges raw field value
  if h : neighboursAscend ranges = true then .ok ⟨ranges, neighboursAscend_iff.mp h⟩
  else .error (.invalid raw field value .outOfRange)

end parse

/-! ### What is accepted -/

/-- The part is `d` or `d-d` with these ends. -/
def IsItem (part : Str) (ends : ℕ × ℕ) : Prop :=
  (IsDigits part ends.1 ∧ ends.2 = ends.1) ∨
  ∃ lo hi, part = lo ++ '-' :: hi ∧ IsDigits lo ends.1 ∧ IsDigits hi ends.2

/-- `Spells text items`: the text is a comma-separated list of items with these ends, all of them
32-bit numbers; in each item the ends are in order, and each item is before its neighbour. An empty
text spells no items. -/
structure Spells (text : Str) (items : List (ℕ × ℕ)) : Prop where
  /-- The text is made of the items. -/
  parts : ∃ parts, text = [','].intercalate parts ∧ List.Forall₂ IsItem parts items
  /-- The ends of each item are in order and fit 32 bits. -/
  ordered : ∀ i ∈ items, i.1 ≤ i.2 ∧ i.2 < 2 ^ 32
  /-- Each item ends before its neighbour starts. -/
  ascending : items.IsChain fun a b => a.2 < b.1

/-- The ends of the ranges of a list, as numbers. -/
def items (list : IdList) : List (ℕ × ℕ) := list.ranges.map IdRange.ends

/-- A separator does not occur in a digit run. -/
lemma not_mem_of_isDigits {s : Str} {n : ℕ} {c : Char} (h : IsDigits s n)
    (hc : c.isDigit = false) : c ∉ s := by
  intro hmem
  rw [h.digits c hmem] at hc
  cases hc

section accepted

variable {raw : Str} {field : String}

/-- A number is accepted exactly when it is a digit run that fits. -/
lemma number_eq_ok_iff {part text : Str} {v : UInt32} :
    number raw field part text = .ok v ↔ IsDigits text v.toNat := by
  unfold number
  by_cases hdigits : (!text.isEmpty && text.all Char.isDigit) = true
  · rw [if_pos hdigits, mapError_eq_ok, parseU32_eq_ok_iff]
    rw [Bool.and_eq_true, List.all_eq_true] at hdigits
    constructor
    · rintro (h | ⟨ds, rfl, -⟩)
      · exact h
      · exact absurd (hdigits.2 '+' List.mem_cons_self) (by decide)
    · exact Or.inl
  · rw [if_neg hdigits]
    constructor
    · intro h
      cases h
    · intro h
      have hall : text.all Char.isDigit = true := List.all_eq_true.mpr h.digits
      have hne : text.isEmpty = false := List.isEmpty_eq_false_iff.mpr h.ne_nil
      exact absurd (by rw [hall, hne]; rfl) hdigits

/-- The ends of an item are accepted exactly when it has the form `d` or `d-d`. -/
lemma parseEnds_eq_ok_iff {part : Str} {start stop : UInt32} :
    parseEnds raw field part = .ok (start, stop) ↔ IsItem part (start.toNat, stop.toNat) := by
  unfold parseEnds IsItem
  have hdash : ('-' : Char).isDigit = false := by decide
  rcases hsplit : splitOnce '-' part with _ | ⟨lo, hi⟩
  · simp only [bind_eq_ok, pure_eq_ok, Prod.mk.injEq, number_eq_ok_iff]
    constructor
    · rintro ⟨id, hid, rfl, rfl⟩
      exact Or.inl ⟨hid, rfl⟩
    · rintro (⟨hid, heq⟩ | ⟨lo, hi, rfl, hlo, -⟩)
      · exact ⟨start, hid, rfl, (UInt32.toNat_inj.mp heq).symm⟩
      · rw [splitOnce_append_cons (not_mem_of_isDigits hlo hdash)] at hsplit
        cases hsplit
  · obtain ⟨hpart, -⟩ := splitOnce_eq_some_iff.mp hsplit
    simp only [bind_eq_ok, pure_eq_ok, Prod.mk.injEq, number_eq_ok_iff]
    constructor
    · rintro ⟨_, hlo, _, hhi, rfl, rfl⟩
      exact Or.inr ⟨lo, hi, hpart, hlo, hhi⟩
    · rintro (⟨hid, -⟩ | ⟨lo', hi', hpart', hlo, hhi⟩)
      · refine absurd ?_ (not_mem_of_isDigits hid hdash)
        rw [hpart]
        simp
      · rw [hpart', splitOnce_append_cons (not_mem_of_isDigits hlo hdash)] at hsplit
        cases hsplit
        exact ⟨start, hlo, stop, hhi, rfl, rfl⟩

/-- An item is accepted exactly when it has the form `d` or `d-d`. -/
lemma parsePart_eq_ok_iff {part : Str} {r : IdRange} :
    parsePart raw field part = .ok r ↔ IsItem part r.ends := by
  unfold parsePart IdRange.ends
  rw [bind_eq_ok]
  constructor
  · rintro ⟨⟨start, stop⟩, hends, h⟩
    simp only at h
    split_ifs at h with hle
    cases h
    exact parseEnds_eq_ok_iff.mp hends
  · intro h
    refine ⟨(r.start, r.stop), parseEnds_eq_ok_iff.mpr h, ?_⟩
    simp only [dif_pos r.le]

/-- Items are accepted exactly when each has its form. -/
lemma map_parsePart_eq_ok_iff {parts : List Str} {ranges : List IdRange} :
    parts.map (parsePart raw field) = ranges.map .ok ↔
      List.Forall₂ IsItem parts (ranges.map IdRange.ends) := by
  induction parts generalizing ranges with
  | nil => cases ranges <;> simp
  | cons part parts ih =>
      cases ranges with
      | nil => simp
      | cons r ranges => simp [ih, parsePart_eq_ok_iff]

/-- Parts of the items of a list hold no separator. -/
lemma IsItem.not_mem {part : Str} {ends : ℕ × ℕ} (h : IsItem part ends) {c : Char}
    (hdigit : c.isDigit = false) (hdash : c ≠ '-') : c ∉ part := by
  rcases h with ⟨h, -⟩ | ⟨lo, hi, rfl, hlo, hhi⟩
  · exact not_mem_of_isDigits h hdigit
  · rw [List.mem_append, List.mem_cons, not_or, not_or]
    exact ⟨not_mem_of_isDigits hlo hdigit, hdash, not_mem_of_isDigits hhi hdigit⟩

/-- An item is not empty. -/
lemma IsItem.ne_nil {part : Str} {ends : ℕ × ℕ} (h : IsItem part ends) : part ≠ [] := by
  rcases h with ⟨h, -⟩ | ⟨lo, hi, rfl, -, -⟩
  · exact h.ne_nil
  · simp

/-- What holds of every item holds of the parts of a list. -/
lemma forall_part {p : Str → Prop} {parts : List Str} {items : List (ℕ × ℕ)}
    (h : List.Forall₂ IsItem parts items) (hp : ∀ part ends, IsItem part ends → p part) :
    ∀ part ∈ parts, p part :=
  ((List.forall₂_and_left _ _).mp (h.imp fun part ends hitem => ⟨hp part ends hitem, hitem⟩)).1

/-- The items of a text that is not empty are its parts. -/
lemma forall₂_split_iff {value : Str} {items : List (ℕ × ℕ)} (hvalue : value ≠ []) :
    List.Forall₂ IsItem (split ',' value) items ↔
      ∃ parts, value = [','].intercalate parts ∧ List.Forall₂ IsItem parts items := by
  constructor
  · intro h
    exact ⟨_, (intercalate_split ',' value).symm, h⟩
  · rintro ⟨parts, rfl, hitems⟩
    have hsep : ∀ part ∈ parts, ',' ∉ part :=
      forall_part hitems fun part ends hitem => hitem.not_mem (by decide) (by decide)
    have hne : parts ≠ [] := by
      rintro rfl
      exact hvalue rfl
    rwa [split_intercalate hsep hne]

/-- An empty text has no items. -/
lemma forall₂_nil_iff {items : List (ℕ × ℕ)} :
    (∃ parts, [] = [','].intercalate parts ∧ List.Forall₂ IsItem parts items) ↔ items = [] := by
  constructor
  · rintro ⟨parts, hparts, hitems⟩
    have hne := forall_part hitems fun part ends hitem => hitem.ne_nil
    rcases parts with _ | ⟨part, _ | ⟨part', parts⟩⟩
    · exact List.forall₂_nil_left_iff.mp hitems
    · rw [List.intercalate_singleton] at hparts
      exact absurd hparts.symm (hne part List.mem_cons_self)
    · simp [List.intercalate] at hparts
  · rintro rfl
    exact ⟨[], rfl, List.Forall₂.nil⟩

/-- The ranges of a text are those of its items. -/
lemma parseRanges_eq_ok_iff {value : Str} {ranges : List IdRange} :
    parseRanges raw field value = .ok ranges ↔
      ∃ parts, value = [','].intercalate parts ∧
        List.Forall₂ IsItem parts (ranges.map IdRange.ends) := by
  rcases value with _ | ⟨c, cs⟩
  · rw [forall₂_nil_iff, List.map_eq_nil_iff]
    unfold parseRanges
    simp only [List.isEmpty_nil, Except.ok.injEq, eq_comm]
  · rw [← forall₂_split_iff (List.cons_ne_nil c cs), ← @map_parsePart_eq_ok_iff raw field,
      ← mapM_id_eq_ok_iff]
    rfl

/-- The ends of a list are in order, and its ranges ascend. -/
lemma ordered_items (list : IdList) : ∀ i ∈ list.items, i.1 ≤ i.2 ∧ i.2 < 2 ^ 32 := by
  intro i hi
  obtain ⟨r, -, rfl⟩ := List.mem_map.mp hi
  exact ⟨UInt32.le_iff_toNat_le.mp r.le, r.stop.toNat_lt⟩

/-- The ranges of a list ascend. -/
lemma isChain_items (list : IdList) : list.items.IsChain fun a b => a.2 < b.1 := by
  unfold items
  rw [List.isChain_map]
  exact (List.isChain_iff_pairwise.mpr list.ascending).imp fun a b h => UInt32.lt_iff_toNat_lt.mp h

/-- **A text is accepted exactly when, without the white space around it, it spells a list.** -/
theorem parse_eq_ok_iff {list : IdList} :
    parse raw field = .ok list ↔ Spells (trim raw) list.items := by
  unfold parse
  simp only [bind_eq_ok, parseRanges_eq_ok_iff]
  constructor
  · rintro ⟨ranges, hranges, h⟩
    split_ifs at h with hascend
    cases h
    exact ⟨hranges, ordered_items _, isChain_items _⟩
  · intro h
    refine ⟨list.ranges, h.parts, ?_⟩
    rw [dif_pos (neighboursAscend_iff.mpr list.ascending)]

/-- Ordered, ascending ends are those of a list. -/
lemma exists_items_eq {items : List (ℕ × ℕ)} (hordered : ∀ i ∈ items, i.1 ≤ i.2 ∧ i.2 < 2 ^ 32)
    (hascending : items.IsChain fun a b => a.2 < b.1) : ∃ list : IdList, list.items = items := by
  have hranges : ∃ ranges : List IdRange, ranges.map IdRange.ends = items := by
    clear hascending
    induction items with
    | nil => exact ⟨[], rfl⟩
    | cons i items ih =>
        obtain ⟨hle, hlt⟩ := hordered i List.mem_cons_self
        obtain ⟨ranges, hranges⟩ := ih fun j hj => hordered j (List.mem_cons_of_mem i hj)
        have hstart : (UInt32.ofNat i.1).toNat = i.1 := UInt32.toNat_ofNat_of_lt' (by
          rw [UInt32.size]
          omega)
        have hstop : (UInt32.ofNat i.2).toNat = i.2 := UInt32.toNat_ofNat_of_lt' hlt
        have hends : UInt32.ofNat i.1 ≤ UInt32.ofNat i.2 := by
          rw [UInt32.le_iff_toNat_le, hstart, hstop]
          exact hle
        refine ⟨⟨_, _, hends⟩ :: ranges, ?_⟩
        rw [List.map_cons, hranges, IdRange.ends, hstart, hstop]
  obtain ⟨ranges, rfl⟩ := hranges
  rw [List.isChain_map] at hascending
  have hbefore : ranges.IsChain IdRange.Before :=
    hascending.imp fun a b h => UInt32.lt_iff_toNat_lt.mpr h
  exact ⟨⟨ranges, List.isChain_iff_pairwise.mp hbefore⟩, rfl⟩

/-- **What is accepted**: a list of any items. -/
theorem exists_parse_iff :
    (∃ list, parse raw field = .ok list) ↔ ∃ items, Spells (trim raw) items := by
  simp only [parse_eq_ok_iff]
  constructor
  · rintro ⟨list, h⟩
    exact ⟨list.items, h⟩
  · rintro ⟨items, h⟩
    obtain ⟨list, rfl⟩ := exists_items_eq h.ordered h.ascending
    exact ⟨list, h⟩

end accepted

/-! ### Printing -/

/-- The printed form of a range: one number when its ends are equal. -/
def renderRange (r : IdRange) : Str :=
  if r.start = r.stop then decimal r.start.toNat
  else decimal r.start.toNat ++ '-' :: decimal r.stop.toNat

/-- The printed form of a list. -/
def render (list : IdList) : Str := [','].intercalate (list.ranges.map renderRange)

/-- A printed range is an item with its ends. -/
lemma isItem_renderRange (r : IdRange) : IsItem (renderRange r) r.ends := by
  unfold renderRange IdRange.ends
  split_ifs with heq
  · exact Or.inl ⟨isDigits_decimal _, by rw [heq]⟩
  · exact Or.inr ⟨_, _, rfl, isDigits_decimal _, isDigits_decimal _⟩

/-- **The printed form of a list spells it.** -/
theorem spells_render (list : IdList) : Spells list.render list.items := by
  refine ⟨⟨list.ranges.map renderRange, rfl, ?_⟩, ordered_items list, isChain_items list⟩
  unfold items
  rw [List.forall₂_map_left_iff, List.forall₂_map_right_iff]
  exact List.forall₂_same.mpr fun r _ => isItem_renderRange r

/-- A text that spells a list holds no white space. -/
lemma Spells.trimmed {text : Str} {items : List (ℕ × ℕ)} (h : Spells text items) :
    Trimmed text := by
  obtain ⟨parts, rfl, hitems⟩ := h.parts
  refine Trimmed.of_forall (forall_mem_intercalate (by decide) fun part hpart c hc => ?_)
  rw [← Bool.not_eq_true]
  intro hws
  have hdigit : c.isDigit = false := not_isDigit_of_isWhitespace hws
  have hdash : c ≠ '-' := by
    rintro rfl
    exact absurd hws (by decide)
  exact forall_part (p := fun part => c ∉ part) hitems
    (fun part ends hitem => hitem.not_mem hdigit hdash) part hpart hc

/-- **A printed list is read back**, with any white space around it. -/
theorem parse_render (field : String) (list : IdList) {before after : Str}
    (hbefore : ∀ c ∈ before, isWhitespace c = true)
    (hafter : ∀ c ∈ after, isWhitespace c = true) :
    parse (before ++ (list.render ++ after)) field = .ok list := by
  have hspells := spells_render list
  rw [parse_eq_ok_iff, trim_append_append hbefore hspells.trimmed hafter]
  exact hspells

/-! ### Iterating -/

/-- The state of the iterator over the IDs of a list.
Source: `cpuset/list.rs`, `ids`. -/
def ids (list : IdList) : Flatten RangeInclusive := ⟨none, list.ranges.map IdRange.iter⟩

/-- The next ID.
Source: `cpuset/list.rs`, the iterator `ids` returns. -/
def nextId : Flatten RangeInclusive → Option (UInt32 × Flatten RangeInclusive) :=
  Flatten.step RangeInclusive.next

/-- Source: `cpuset/list.rs`, `contains`. -/
def contains (list : IdList) (id : UInt32) : Bool :=
  list.ranges.any fun range => range.iter.contains id

/-- The IDs of a list, range by range. -/
def values (list : IdList) : List UInt32 :=
  (list.ranges.map fun r => RangeInclusive.values r.start r.stop).flatten

/-- **Iterating a list flattens its ranges.** -/
theorem yields_ids (list : IdList) : Yields nextId list.ids list.values := by
  apply Flatten.yields_flatten
  rw [List.forall₂_map_left_iff, List.forall₂_map_right_iff]
  exact List.forall₂_same.mpr fun r _ => RangeInclusive.yields_new r.le

/-- An ID is in the list exactly when it is in one of its ranges. -/
lemma mem_values {list : IdList} {id : UInt32} :
    id ∈ list.values ↔ ∃ r ∈ list.ranges, r.start ≤ id ∧ id ≤ r.stop := by
  simp only [values, List.mem_flatten, List.mem_map, exists_exists_and_eq_and,
    RangeInclusive.mem_values]

/-- Membership is that of the IDs. -/
lemma contains_iff {list : IdList} {id : UInt32} :
    list.contains id = true ↔ id ∈ list.values := by
  unfold contains
  rw [List.any_eq_true, mem_values]
  exact exists_congr fun r => and_congr_right fun _ => RangeInclusive.contains_new

/-- The IDs of a list ascend: those of a range do, and a range is before every later one. -/
lemma pairwise_values (list : IdList) : list.values.Pairwise (· < ·) := by
  unfold values
  rw [List.pairwise_flatten, List.pairwise_map]
  constructor
  · intro l hl
    obtain ⟨r, -, rfl⟩ := List.mem_map.mp hl
    exact RangeInclusive.pairwise_values r.start r.stop
  · refine list.ascending.imp fun {a b} hab x hx y hy => ?_
    have hxa := (RangeInclusive.mem_values.mp hx).2
    have hby := (RangeInclusive.mem_values.mp hy).1
    unfold IdRange.Before at hab
    rw [UInt32.le_iff_toNat_le] at hxa hby
    rw [UInt32.lt_iff_toNat_lt] at *
    omega

/-- The number of IDs of a list. -/
lemma length_values (list : IdList) :
    list.values.length = (list.ranges.map fun r => r.stop.toNat - r.start.toNat + 1).sum := by
  unfold values
  rw [List.length_flatten, List.map_map]
  exact congrArg List.sum
    (List.map_congr_left fun r _ => RangeInclusive.length_values r.le)

end IdList

/-! ## The two kinds of list -/

/-- A snapshot of CPU IDs.
Source: `cpuset/list.rs`, `CpuList`. -/
structure CpuList where
  /-- The IDs. -/
  list : IdList
  deriving DecidableEq, Repr

/-- A snapshot of memory-node IDs.
Source: `cpuset/list.rs`, `MemoryNodeList`. -/
structure MemoryNodeList where
  /-- The IDs. -/
  list : IdList
  deriving DecidableEq, Repr

namespace CpuList

/-- Source: `cpuset/list.rs`, `CpuList::from_str`. -/
def fromStr (raw : Str) : Parsed CpuList := (IdList.parse raw "cpus").map mk

/-- Source: `cpuset/list.rs`, `CpuList::ids`. -/
def ids (self : CpuList) : Flatten RangeInclusive := self.list.ids

/-- Source: `cpuset/list.rs`, `CpuList::contains`. -/
def contains (self : CpuList) (id : UInt32) : Bool := self.list.contains id

/-- CPU IDs are accepted as their list is. -/
lemma fromStr_eq_ok_iff {raw : Str} {list : IdList} :
    fromStr raw = .ok ⟨list⟩ ↔ IdList.parse raw "cpus" = .ok list := by
  simp [fromStr, map_eq_ok]

end CpuList

namespace MemoryNodeList

/-- Source: `cpuset/list.rs`, `MemoryNodeList::from_str`. -/
def fromStr (raw : Str) : Parsed MemoryNodeList := (IdList.parse raw "mems").map mk

/-- Source: `cpuset/list.rs`, `MemoryNodeList::ids`. -/
def ids (self : MemoryNodeList) : Flatten RangeInclusive := self.list.ids

/-- Source: `cpuset/list.rs`, `MemoryNodeList::contains`. -/
def contains (self : MemoryNodeList) (id : UInt32) : Bool := self.list.contains id

/-- Node IDs are accepted as their list is. -/
lemma fromStr_eq_ok_iff {raw : Str} {list : IdList} :
    fromStr raw = .ok ⟨list⟩ ↔ IdList.parse raw "mems" = .ok list := by
  simp [fromStr, map_eq_ok]

end MemoryNodeList

/-- **Placement lists are parsed by exactly their grammar.** A text is accepted exactly when,
without the white space around it, it spells some list of items; it is then read as the list with
exactly these items, whose ranges ascend without overlap. Every ascending list of ranges is read
back from its printed form, with any white space around it. -/
theorem placement_lists_parse :
    (∀ raw, ((∃ cpus, CpuList.fromStr raw = .ok cpus) ↔
        ∃ items, IdList.Spells (trim raw) items) ∧
      ((∃ nodes, MemoryNodeList.fromStr raw = .ok nodes) ↔
        ∃ items, IdList.Spells (trim raw) items)) ∧
    (∀ raw (cpus : CpuList), CpuList.fromStr raw = .ok cpus →
      IdList.Spells (trim raw) (cpus.list.ranges.map fun r => (r.start.toNat, r.stop.toNat)) ∧
      cpus.list.ranges.Pairwise fun a b => a.stop < b.start) ∧
    (∀ raw (nodes : MemoryNodeList), MemoryNodeList.fromStr raw = .ok nodes →
      IdList.Spells (trim raw) (nodes.list.ranges.map fun r => (r.start.toNat, r.stop.toNat)) ∧
      nodes.list.ranges.Pairwise fun a b => a.stop < b.start) ∧
    ∀ (list : IdList) (before after : Str), (∀ c ∈ before, isWhitespace c = true) →
      (∀ c ∈ after, isWhitespace c = true) →
      CpuList.fromStr (before ++ (list.render ++ after)) = .ok ⟨list⟩ ∧
      MemoryNodeList.fromStr (before ++ (list.render ++ after)) = .ok ⟨list⟩ := by
  refine ⟨fun raw => ⟨?_, ?_⟩, fun raw cpus h => ⟨?_, cpus.list.ascending⟩,
    fun raw nodes h => ⟨?_, nodes.list.ascending⟩, fun list before after hbefore hafter => ⟨?_, ?_⟩⟩
  · rw [← @IdList.exists_parse_iff raw "cpus"]
    exact ⟨fun ⟨cpus, h⟩ => ⟨cpus.list, CpuList.fromStr_eq_ok_iff.mp h⟩,
      fun ⟨list, h⟩ => ⟨⟨list⟩, CpuList.fromStr_eq_ok_iff.mpr h⟩⟩
  · rw [← @IdList.exists_parse_iff raw "mems"]
    exact ⟨fun ⟨nodes, h⟩ => ⟨nodes.list, MemoryNodeList.fromStr_eq_ok_iff.mp h⟩,
      fun ⟨list, h⟩ => ⟨⟨list⟩, MemoryNodeList.fromStr_eq_ok_iff.mpr h⟩⟩
  · exact IdList.parse_eq_ok_iff.mp (CpuList.fromStr_eq_ok_iff.mp h)
  · exact IdList.parse_eq_ok_iff.mp (MemoryNodeList.fromStr_eq_ok_iff.mp h)
  · exact CpuList.fromStr_eq_ok_iff.mpr (IdList.parse_render "cpus" list hbefore hafter)
  · exact MemoryNodeList.fromStr_eq_ok_iff.mpr (IdList.parse_render "mems" list hbefore hafter)

/-- Three ranges, of which the last one holds the largest ID. -/
def threeRanges : IdList where
  ranges := [⟨0, 2, by decide⟩, ⟨5, 5, by decide⟩, ⟨4294967295, 4294967295, by decide⟩]
  ascending := by decide

/-- The ranges are read back, with white space around. -/
theorem placement_lists_parse_spaced :
    CpuList.fromStr " 0-2,5,4294967295\n".toList = .ok ⟨threeRanges⟩ ∧
    MemoryNodeList.fromStr " 0-2,5,4294967295\n".toList = .ok ⟨threeRanges⟩ :=
  placement_lists_parse.2.2.2 threeRanges " ".toList "\n".toList (List.all_eq_true.mp rfl)
    (List.all_eq_true.mp rfl)

/-- What iterating a list means: from its first state the iterator yields `ids` and ends; they
ascend, and are exactly the IDs of the ranges and those that membership finds. -/
structure IdList.Enumerates (state : Flatten RangeInclusive) (contains : UInt32 → Bool)
    (ranges : List IdRange) (ids : List UInt32) : Prop where
  /-- The iterator yields the IDs, and ends. -/
  yields : Yields nextId state ids
  /-- Each ID is above all earlier ones. -/
  ascending : ids.Pairwise (· < ·)
  /-- The IDs are those of the ranges. -/
  stored : ∀ id, id ∈ ids ↔ ∃ r ∈ ranges, r.start ≤ id ∧ id ≤ r.stop
  /-- Membership finds exactly the IDs. -/
  membership : ∀ id, contains id = true ↔ id ∈ ids
  /-- There are as many IDs as the ranges hold. -/
  length : ids.length = (ranges.map fun r => r.stop.toNat - r.start.toNat + 1).sum

/-- Every list is enumerated by its IDs. -/
lemma IdList.enumerates (list : IdList) :
    Enumerates list.ids list.contains list.ranges list.values :=
  ⟨list.yields_ids, list.pairwise_values, fun _ => mem_values, fun _ => contains_iff,
    list.length_values⟩

/-- **A parsed list is iterated to its end**, each stored ID once and in ascending order, whatever
its last range ends with. -/
theorem placement_ids (raw : Str) :
    (∀ cpus, CpuList.fromStr raw = .ok cpus →
      ∃ ids, IdList.Enumerates cpus.ids cpus.contains cpus.list.ranges ids) ∧
    ∀ nodes, MemoryNodeList.fromStr raw = .ok nodes →
      ∃ ids, IdList.Enumerates nodes.ids nodes.contains nodes.list.ranges ids :=
  ⟨fun cpus _ => ⟨_, cpus.list.enumerates⟩, fun nodes _ => ⟨_, nodes.list.enumerates⟩⟩

/-- A list whose last range ends at the largest ID. -/
theorem placement_ids_max :
    (∃ cpus, CpuList.fromStr " 0-2,5,4294967295\n".toList = .ok cpus ∧
      ∃ ids, IdList.Enumerates cpus.ids cpus.contains cpus.list.ranges ids) ∧
    ∃ nodes, MemoryNodeList.fromStr "1,2-2,3".toList = .ok nodes ∧
      ∃ ids, IdList.Enumerates nodes.ids nodes.contains nodes.list.ranges ids :=
  ⟨⟨⟨⟨[⟨0, 2, by decide⟩, ⟨5, 5, by decide⟩, ⟨4294967295, 4294967295, by decide⟩], by decide⟩⟩, rfl,
      (placement_ids " 0-2,5,4294967295\n".toList).1 _ rfl⟩,
    ⟨⟨⟨[⟨1, 1, by decide⟩, ⟨2, 2, by decide⟩, ⟨3, 3, by decide⟩], by decide⟩⟩, rfl,
      (placement_ids "1,2-2,3".toList).2 _ rfl⟩⟩

end Sakai
