import Mathlib.Algebra.Group.Nat.Defs
import Mathlib.Data.Nat.Basic

/-!
# Quantities

The stored quantities, each an unsigned 64-bit value in the base unit of its dimension: time in
nanoseconds, memory in bytes, bandwidth in bytes per second, rates in operations per second, and
the two dimensionless kinds, event counts and pages. A `NonZeroTime` carries the proof that it is
not zero. `MaxOr` keeps the kernel's `max` token apart from a value.
-/

namespace Sakai

/-- Time stored as `u64` nanoseconds.
Source: `unit.rs`, `Time`. -/
structure Time where
  /-- Nanoseconds. -/
  value : UInt64
  deriving DecidableEq, Repr

/-- An amount of memory stored as `u64` bytes.
Source: `unit.rs`, `Bytes`. -/
structure Bytes where
  /-- Bytes. -/
  value : UInt64
  deriving DecidableEq, Repr

/-- An integer bandwidth stored in bytes per second.
Source: `unit.rs`, `BytesPerSecond`. -/
structure BytesPerSecond where
  /-- Bytes per second. -/
  value : UInt64
  deriving DecidableEq, Repr

/-- An integer operation rate stored in operations per second.
Source: `unit.rs`, `OperationsPerSecond`. -/
structure OperationsPerSecond where
  /-- Operations per second. -/
  value : UInt64
  deriving DecidableEq, Repr

/-- An event count.
Source: `unit.rs`, `Count`. -/
structure Count where
  /-- Events. -/
  value : UInt64
  deriving DecidableEq, Repr

/-- A number of memory pages.
Source: `unit.rs`, `Pages`. -/
structure Pages where
  /-- Pages. -/
  value : UInt64
  deriving DecidableEq, Repr

/-- A nonzero time.
Source: `unit.rs`, `NonZeroTime`. -/
structure NonZeroTime where
  /-- The time. -/
  time : Time
  /-- It is not zero. -/
  ne_zero : time.value ≠ 0
  deriving DecidableEq, Repr

/-- A zero duration is rejected.
Source: `unit.rs`, `NonZeroTime::try_new`. -/
def NonZeroTime.tryNew (time : Time) : Option NonZeroTime :=
  if h : time.value ≠ 0 then some ⟨time, h⟩ else none

/-- Rejecting zero keeps every other duration. -/
@[simp] lemma NonZeroTime.tryNew_eq_some_iff {t : Time} {n : NonZeroTime} :
    NonZeroTime.tryNew t = some n ↔ n.time = t := by
  unfold tryNew
  constructor
  · intro h
    split_ifs at h
    cases h
    rfl
  · rintro rfl
    rw [dif_pos n.ne_zero]

/-- A cgroup value that preserves the kernel's `max` token or a concrete value.
Source: `limit.rs`, `MaxOr`. -/
inductive MaxOr (T : Type)
  | max
  | value (v : T)
  deriving DecidableEq, Repr

/-- `u64::checked_mul`: the product, unless it overflows. -/
def checkedMul (a b : UInt64) : Option UInt64 :=
  if a.toNat * b.toNat < 2 ^ 64 then some (a * b) else none

/-- The checked product is the product of the values. -/
lemma checkedMul_eq_some_iff {a b c : UInt64} :
    checkedMul a b = some c ↔ c.toNat = a.toNat * b.toNat := by
  unfold checkedMul
  have hmul : (a * b).toNat = a.toNat * b.toNat % 2 ^ 64 := UInt64.toNat_mul a b
  by_cases hlt : a.toNat * b.toNat < 2 ^ 64
  · rw [if_pos hlt, Option.some.injEq, ← UInt64.toNat_inj, hmul, Nat.mod_eq_of_lt hlt, eq_comm]
  · rw [if_neg hlt]
    have hc := c.toNat_lt
    constructor
    · intro h
      cases h
    · intro h
      omega

end Sakai
