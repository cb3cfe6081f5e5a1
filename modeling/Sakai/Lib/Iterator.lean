import Mathlib.Algebra.Group.Nat.Defs
import Mathlib.Data.List.Basic

/-!
# Iterators: what they yield

An iterator is a state with a step function `next : σ → Option (α × σ)`.

* `Yields next s as`: stepping from `s` gives the elements `as` in order, and then ends.
* `Flatten` is the iterator over the elements of a list of iterators, one after the other:
  `yields_flatten` says that it yields the concatenation of what they yield.
* `RangeInclusive` is the iterator over the integers of a closed 32-bit interval. Its `exhausted`
  flag lets it end at the largest value of the type without stepping over it; `yields_new` says
  that it yields exactly the integers of the interval, in ascending order.
-/

namespace Sakai.Lib

variable {σ α : Type}

/-! ## What an iterator yields -/

/-- `Yields next s as`: stepping from `s` gives the elements `as`, in order, and then ends. -/
inductive Yields (next : σ → Option (α × σ)) : σ → List α → Prop
  | done {s : σ} : next s = none → Yields next s []
  | step {s s' : σ} {a : α} {as : List α} :
      next s = some (a, s') → Yields next s' as → Yields next s (a :: as)

namespace Yields

variable {next : σ → Option (α × σ)} {s s' : σ} {as : List α}

/-- States with the same step yield the same elements. -/
lemma congr (hnext : next s = next s') (h : Yields next s as) : Yields next s' as := by
  cases h with
  | done hnone => exact done (hnext ▸ hnone)
  | step hsome hrest => exact step (hnext ▸ hsome) hrest

end Yields

/-! ## Flattening -/

/-- The state of a flattened iterator: the inner iterator in use, and those that follow.
Source: the standard library's `Flatten`. -/
structure Flatten (σ : Type) where
  /-- The inner iterator in use. -/
  front : Option σ
  /-- The inner iterators that follow. -/
  rest : List σ

namespace Flatten

variable {next : σ → Option (α × σ)}

/-- The next element: the inner iterator in use is stepped, and dropped for the one that follows
when it has ended. -/
def advance (next : σ → Option (α × σ)) (front : Option σ) : List σ → Option (α × Flatten σ)
  | [] => (front.bind next).map fun p => (p.1, ⟨some p.2, []⟩)
  | s :: rest =>
    match front.bind next with
    | some (a, s') => some (a, ⟨some s', s :: rest⟩)
    | none => advance next (some s) rest

/-- `Flatten::next`. -/
def step (next : σ → Option (α × σ)) (self : Flatten σ) : Option (α × Flatten σ) :=
  advance next self.front self.rest

/-- An element of the inner iterator in use is the next element. -/
lemma advance_of_some {front : Option σ} {rest : List σ} {a : α} {s' : σ}
    (h : front.bind next = some (a, s')) :
    advance next front rest = some (a, ⟨some s', rest⟩) := by
  cases rest with
  | nil => simp [advance, h]
  | cons s rest => simp [advance, h]

/-- An inner iterator that has ended is as good as none. -/
lemma advance_of_none {front : Option σ} {rest : List σ} (h : front.bind next = none) :
    advance next front rest = advance next none rest := by
  cases rest with
  | nil => simp [advance, h]
  | cons s rest => simp [advance, h]

/-- The inner iterator in use is yielded before what follows it. -/
lemma yields_front {s : σ} {rest : List σ} {as bs : List α} (h : Yields next s as)
    (hrest : Yields (step next) ⟨none, rest⟩ bs) :
    Yields (step next) ⟨some s, rest⟩ (as ++ bs) := by
  induction h with
  | @done s hnone =>
      have hstep : step next ⟨some s, rest⟩ = step next ⟨none, rest⟩ := advance_of_none hnone
      exact hrest.congr hstep.symm
  | step hsome _ ih => exact Yields.step (advance_of_some hsome) ih

/-- **A flattened iterator yields the concatenation of what its parts yield.** -/
theorem yields_flatten {states : List σ} {lists : List (List α)}
    (h : List.Forall₂ (Yields next) states lists) :
    Yields (step next) ⟨none, states⟩ lists.flatten := by
  induction h with
  | nil => exact Yields.done rfl
  | @cons s _ states _ hhead _ ih =>
      have hfront : step next ⟨some s, states⟩ = step next ⟨none, s :: states⟩ := rfl
      rw [List.flatten_cons]
      exact (yields_front hhead ih).congr hfront

end Flatten

/-! ## Closed intervals -/

/-- An iterator over a closed interval.
Source: the standard library's `RangeInclusive<u32>`. -/
structure RangeInclusive where
  /-- The smallest integer left. -/
  start : UInt32
  /-- The largest integer. -/
  stop : UInt32
  /-- The largest integer has been yielded. -/
  exhausted : Bool
  deriving DecidableEq, Repr

namespace RangeInclusive

/-- `start..=stop`. -/
def new (start stop : UInt32) : RangeInclusive := ⟨start, stop, false⟩

/-- `RangeInclusive::is_empty`. -/
def isEmpty (self : RangeInclusive) : Bool := self.exhausted || !decide (self.start ≤ self.stop)

/-- `RangeInclusive::next`: the start advances until it meets the end, which is then yielded
without advancing. -/
def next (self : RangeInclusive) : Option (UInt32 × RangeInclusive) :=
  if self.isEmpty then none
  else if self.start < self.stop then some (self.start, { self with start := self.start + 1 })
  else some (self.start, { self with exhausted := true })

/-- `RangeInclusive::contains`: an exhausted range leaves out its end. -/
def contains (self : RangeInclusive) (id : UInt32) : Bool :=
  decide (self.start ≤ id) &&
    if self.exhausted then decide (id < self.stop) else decide (id ≤ self.stop)

/-- The integers of the interval, in ascending order. -/
def values (start stop : UInt32) : List UInt32 :=
  (List.range' start.toNat (stop.toNat + 1 - start.toNat)).map UInt32.ofNat

/-- An integer of the interval is a 32-bit integer. -/
lemma toNat_ofNat_of_mem {start stop : UInt32} {n : ℕ}
    (h : n ∈ List.range' start.toNat (stop.toNat + 1 - start.toNat)) :
    (UInt32.ofNat n).toNat = n ∧ start.toNat ≤ n ∧ n ≤ stop.toNat := by
  have hbounds := List.mem_range'_1.mp h
  have hstop := stop.toNat_lt
  have hsize : UInt32.size = 2 ^ 32 := rfl
  refine ⟨UInt32.toNat_ofNat_of_lt' ?_, hbounds.1, ?_⟩
  · omega
  · omega

/-- The interval holds exactly the integers between its ends. -/
lemma mem_values {start stop id : UInt32} : id ∈ values start stop ↔ start ≤ id ∧ id ≤ stop := by
  unfold values
  rw [List.mem_map, UInt32.le_iff_toNat_le, UInt32.le_iff_toNat_le]
  constructor
  · rintro ⟨n, hn, rfl⟩
    obtain ⟨hto, hlo, hhi⟩ := toNat_ofNat_of_mem hn
    rw [hto]
    exact ⟨hlo, hhi⟩
  · rintro ⟨hlo, hhi⟩
    refine ⟨id.toNat, List.mem_range'_1.mpr ⟨hlo, by omega⟩, UInt32.ofNat_toNat⟩

/-- The integers of the interval ascend. -/
lemma pairwise_values (start stop : UInt32) : (values start stop).Pairwise (· < ·) := by
  unfold values
  rw [List.pairwise_map]
  refine List.Pairwise.imp_of_mem (fun {m n} hm hn hlt => ?_) List.pairwise_lt_range'
  rw [UInt32.lt_iff_toNat_lt, (toNat_ofNat_of_mem hm).1, (toNat_ofNat_of_mem hn).1]
  exact hlt

/-- The number of integers of the interval. -/
lemma length_values {start stop : UInt32} (h : start ≤ stop) :
    (values start stop).length = stop.toNat - start.toNat + 1 := by
  have hle := UInt32.le_iff_toNat_le.mp h
  rw [values, List.length_map, List.length_range']
  omega

/-- The interval from a start below the end is the start and the interval after it. -/
lemma values_of_lt {start stop : UInt32} (h : start < stop) :
    values start stop = start :: values (start + 1) stop := by
  have hlt := UInt32.lt_iff_toNat_lt.mp h
  have hstop := stop.toNat_lt
  have hsucc : (start + 1).toNat = start.toNat + 1 := by
    rw [UInt32.toNat_add, UInt32.toNat_one, Nat.mod_eq_of_lt (by omega)]
  have hcount : stop.toNat + 1 - start.toNat = (stop.toNat + 1 - (start.toNat + 1)) + 1 := by omega
  unfold values
  rw [hsucc, hcount, List.range'_succ, List.map_cons, UInt32.ofNat_toNat]

/-- The interval of one integer. -/
lemma values_self (id : UInt32) : values id id = [id] := by
  have hcount : id.toNat + 1 - id.toNat = 1 := by omega
  unfold values
  rw [hcount, List.range'_one, List.map_singleton, UInt32.ofNat_toNat]

/-- A fresh range contains exactly the integers between its ends. -/
lemma contains_new {start stop id : UInt32} :
    (new start stop).contains id = true ↔ start ≤ id ∧ id ≤ stop := by
  unfold contains new
  rw [Bool.and_eq_true, decide_eq_true_iff, if_neg Bool.false_ne_true, decide_eq_true_iff]

/-- A range whose start is below its end yields it and advances. -/
lemma next_new_of_lt {start stop : UInt32} (h : start < stop) :
    (new start stop).next = some (start, new (start + 1) stop) := by
  have hle : start ≤ stop := UInt32.le_of_lt h
  simp [next, isEmpty, new, h, hle]

/-- A range of one integer yields it and is exhausted. -/
lemma yields_self (id : UInt32) : Yields next (new id id) [id] := by
  have hnext : (new id id).next = some (id, ⟨id, id, true⟩) := by simp [next, isEmpty, new]
  exact Yields.step hnext (Yields.done (by simp [next, isEmpty]))

/-- **A range yields exactly the integers of its interval, in ascending order.** -/
theorem yields_new {start stop : UInt32} (h : start ≤ stop) :
    Yields next (new start stop) (values start stop) := by
  -- The induction is on the distance of the ends; the range of one integer does not advance.
  induction hn : stop.toNat - start.toNat generalizing start with
  | zero =>
      have hle := UInt32.le_iff_toNat_le.mp h
      have heq : start = stop := UInt32.toNat_inj.mp (by omega)
      rw [heq, values_self]
      exact yields_self stop
  | succ n ih =>
      have hlt : start < stop := UInt32.lt_iff_toNat_lt.mpr (by omega)
      have hstop := stop.toNat_lt
      have hsucc : (start + 1).toNat = start.toNat + 1 := by
        rw [UInt32.toNat_add, UInt32.toNat_one, Nat.mod_eq_of_lt (by omega)]
      have hle : start + 1 ≤ stop := UInt32.le_iff_toNat_le.mpr (by omega)
      rw [values_of_lt hlt]
      exact Yields.step (next_new_of_lt hlt) (ih hle (by omega))

end RangeInclusive

end Sakai.Lib
