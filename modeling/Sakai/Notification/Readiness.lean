import Sakai.Error
import Sakai.Lib.Flags

/-!
# Readiness

The `poll` system call behind both notification handles: the timeout it is given
(`Readiness.timespec`) and what its outcome means (`Readiness.readiness`).

* `Readiness.verdict_of_readiness`: a poll that does not fail, nor reports an invalid or hung-up
  descriptor, is ready exactly when it reports the interest or `ERR`.
-/

namespace Sakai

open Lib

/-! ## Poll -/

/-- Events of a polled descriptor.
Source: `rustix::event::PollFlags`. -/
abbrev PollFlags := Flags 16

namespace PollFlags

/-- There is data to read. -/
def IN : PollFlags := Flags.bit 16 0

/-- There is an exceptional condition. -/
def PRI : PollFlags := Flags.bit 16 1

/-- There is an error condition. -/
def ERR : PollFlags := Flags.bit 16 3

/-- The descriptor hung up. -/
def HUP : PollFlags := Flags.bit 16 4

/-- The descriptor is not open. -/
def NVAL : PollFlags := Flags.bit 16 5

end PollFlags

/-- A duration of the standard library. -/
structure Duration where
  /-- Whole seconds. -/
  secs : UInt64
  /-- Nanoseconds below one second. -/
  nanos : UInt32
  deriving DecidableEq, Repr

/-- A timeout of the kernel, whose seconds are a nonnegative signed 64-bit number.
Source: `rustix::event::Timespec`. -/
structure Timespec where
  /-- Whole seconds. -/
  secs : UInt64
  /-- Nanoseconds below one second. -/
  nanos : UInt32
  /-- The seconds are in the signed range. -/
  inRange : secs.toNat < 2 ^ 63
  deriving DecidableEq, Repr

/-- The outcome of polling one descriptor: a failure, or the number of ready descriptors and the
events reported for this one. -/
abbrev PollOutcome := Except Errno (ℕ × PollFlags)

namespace Readiness

/-- The timeout for the kernel; no timeout waits indefinitely.
Source: `notification.rs`, `Readiness::wait`, up to the call of `poll`. -/
def timespec : Option Duration → Except Error (Option Timespec)
  | none => .ok none
  | some timeout =>
    if h : timeout.secs.toNat < 2 ^ 63 then .ok (some ⟨timeout.secs, timeout.nanos, h⟩)
    else .error (.io .invalidInput)

/-- Whether the descriptor is ready.
Source: `notification.rs`, `Readiness::wait`, from the outcome of `poll`. -/
def readiness (interest : PollFlags) : PollOutcome → Except Error Bool
  | .error errno => .error (.io (.os errno))
  | .ok (0, _) => .ok false
  | .ok (_ + 1, flags) =>
    if flags.contains PollFlags.NVAL then .error (.io (.os .BADF))
    else if flags.contains PollFlags.HUP then .error (.io (.os .PIPE))
    else .ok (flags.intersects (interest ||| PollFlags.ERR))

/-- **The verdict of a poll**: the descriptor was reported with the interest or with `ERR`. -/
theorem verdict_of_readiness {interest flags : PollFlags} {count : ℕ} {ready : Bool}
    (h : readiness interest (.ok (count, flags)) = .ok ready) :
    ready = true ↔
      count ≠ 0 ∧ (flags.intersects interest = true ∨ flags.intersects PollFlags.ERR = true) := by
  rw [← Bool.or_eq_true, ← Flags.intersects_or]
  cases count with
  | zero =>
      cases h
      simp
  | succ count =>
      have hmet : flags.intersects (interest ||| PollFlags.ERR) = ready := by
        simp only [readiness] at h
        split_ifs at h
        exact Except.ok.inj h
      rw [hmet]
      exact (and_iff_right (Nat.succ_ne_zero count)).symm

end Readiness

end Sakai
