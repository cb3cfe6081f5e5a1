import Mathlib.Data.BitVec

/-!
# Sets of flags in a machine word

A word is the set of the flags whose bits are set. `contains` and `intersects` are the usual tests
against another word; against a single bit both read that bit (`contains_bit`, `intersects_bit`),
and a union of flags is met exactly when one of them is (`intersects_or`).
-/

namespace Sakai.Lib

/-- A set of flags in a word of `w` bits. -/
abbrev Flags (w : ℕ) := BitVec w

namespace Flags

variable {w : ℕ}

/-- Every flag of `other` is set. -/
def contains (self other : Flags w) : Bool := self &&& other == other

/-- Some flag of `other` is set. -/
def intersects (self other : Flags w) : Bool := self &&& other != 0#w

/-- The set of one flag. -/
def bit (w i : ℕ) : Flags w := BitVec.twoPow w i

/-- A flag of the word is not the empty set. -/
lemma twoPow_ne_zero {i : ℕ} (hi : i < w) : BitVec.twoPow w i ≠ 0#w := by
  intro h
  have hbit := congrArg (fun x => BitVec.getLsbD x i) h
  simp [hi] at hbit

/-- A single flag is met exactly when it is set. -/
lemma intersects_bit (self : Flags w) {i : ℕ} (hi : i < w) :
    self.intersects (bit w i) = self.getLsbD i := by
  unfold intersects bit
  rw [BitVec.and_twoPow]
  have hne := twoPow_ne_zero hi
  cases self.getLsbD i <;> simp [hne]

/-- A single flag is contained exactly when it is set. -/
lemma contains_bit (self : Flags w) {i : ℕ} (hi : i < w) :
    self.contains (bit w i) = self.getLsbD i := by
  unfold contains bit
  rw [BitVec.and_twoPow]
  have hne := (twoPow_ne_zero hi).symm
  cases self.getLsbD i <;> simp [hne]

/-- A union of flags is met exactly when one of them is. -/
lemma intersects_or (self a b : Flags w) :
    self.intersects (a ||| b) = (self.intersects a || self.intersects b) := by
  unfold intersects
  rw [Bool.eq_iff_iff, Bool.or_eq_true, bne_iff_ne, bne_iff_ne, bne_iff_ne,
    BitVec.and_or_distrib_left, Ne, BitVec.or_eq_zero_iff]
  tauto

end Flags

end Sakai.Lib
