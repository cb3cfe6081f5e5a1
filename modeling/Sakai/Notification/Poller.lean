import Sakai.Lib.Machine
import Sakai.Notification.Readiness

/-!
# The event poller

A poller holds a descriptor of an interface. The kernel counts the changes of the interface; a
read from the start of the file records the count in the descriptor, and `poll` reports the
descriptor exactly when the recorded count is not the current one. `PollSystem` is the kernel
state with one poller and a client that takes snapshots through other descriptors; a run
interleaves changes, snapshots and the system calls of the poller, each with its outcome.

* `PollSystem.Step.of_step`: what each action does, and in which phase it is possible.
* `PollSystem.step_inv`: every action keeps the invariant `PollSystem.Inv`.
* `PollSystem.step_traces`: the counts that a wait saw are those that the actions alone show.
* `event_poller_run`: so in every run a wait that returns `Ok` reports exactly whether the interface
  changed since the last read from its start, and a client that renews its snapshot after every
  wait that returned `true`, or failed after such a read, holds the current content whenever a wait
  returns `false`.
* `failed_acknowledgement_hides_change`: renewing it after `true` only is not enough, because an
  acknowledgement can fail after its read from the start.
-/

namespace Sakai

open Lib

/-! ## The system -/

/-- The call that an acknowledgement belongs to. -/
inductive AckOrigin
  | opening
  | waiting
  deriving DecidableEq, Repr

/-- Where the poller stands: not opened, between calls, before the `poll` of a wait, or in an
acknowledgement, before its seek or before a read. -/
inductive PollerPhase
  | closed
  | idle
  | poll
  | seek (origin : AckOrigin)
  | copy (origin : AckOrigin)
  deriving DecidableEq, Repr

/-- What a wait saw. -/
structure PollerView where
  /-- The count recorded in the descriptor when it was called, by the last read from the start. -/
  seen : ℕ
  /-- The count recorded by the last successful acknowledgement before it. -/
  acked : ℕ
  /-- The count when its `poll` returned. -/
  polled : ℕ
  /-- The count at the client's latest snapshot when its `poll` returned. -/
  snapshot : Option ℕ
  deriving DecidableEq, Repr

/-- A finished wait. -/
structure PollerCall where
  /-- What it returned. -/
  result : Except Error Bool
  /-- What it saw. -/
  view : PollerView
  /-- The count recorded in the descriptor when it returned. -/
  after : ℕ
  deriving DecidableEq, Repr

/-- An interface with a poller and a client, with the history of both. -/
structure PollSystem where
  /-- The number of changes of the interface. -/
  counter : ℕ
  /-- The count recorded in the descriptor. -/
  recorded : ℕ
  /-- The offset of the descriptor. -/
  offset : ℕ
  /-- Where the poller stands. -/
  phase : PollerPhase
  /-- The count recorded by the last successful acknowledgement. -/
  acked : ℕ
  /-- What the wait in progress saw. -/
  view : PollerView
  /-- The count at the client's latest snapshot. -/
  snapshot : Option ℕ
  /-- A snapshot is due: none was taken since the poller was opened, or since the last wait that
  returned `true` or failed with another count recorded. -/
  stale : Bool
  /-- No wait was called while a snapshot was due. -/
  diligent : Bool
  /-- The finished waits, oldest first. -/
  calls : List PollerCall
  deriving DecidableEq, Repr

/-- What can happen next: the interface changes, the client takes a snapshot or calls `open` or
`wait`, or the call in progress makes its next system call. -/
inductive PollerAction
  | change
  | snapshot
  | openat (outcome : Except Errno Unit)
  | seek (outcome : Except Errno Unit)
  | read (outcome : Except Errno ℕ)
  | wait (timeout : Option Duration)
  | poll (outcome : PollOutcome)

/-- What the kernel can answer to `poll`: an error, or whether the descriptor is behind. -/
def PollAnswers (behind : Prop) : PollOutcome → Prop
  | .error _ => True
  | .ok (count, flags) => (count = 0 ↔ flags = 0#16) ∧
      (flags.intersects PollFlags.PRI = true ↔ behind) ∧
      (flags.intersects PollFlags.ERR = true ↔ behind)

instance (behind : Prop) [Decidable behind] (outcome : PollOutcome) :
    Decidable (PollAnswers behind outcome) := by
  unfold PollAnswers
  rcases outcome with errno | ⟨count, flags⟩ <;> infer_instance

/-- **The verdict of a poll for priority events** is whether the descriptor is behind. -/
lemma verdict_of_pollAnswers {behind : Prop} {outcome : PollOutcome} {ready : Bool}
    (hanswers : PollAnswers behind outcome)
    (h : Readiness.readiness PollFlags.PRI outcome = .ok ready) : ready = true ↔ behind := by
  rcases outcome with errno | ⟨count, flags⟩
  · cases h
  · obtain ⟨hcount, hpri, herr⟩ := hanswers
    rw [Readiness.verdict_of_readiness h, hpri, herr, or_self]
    refine and_iff_right_of_imp fun hbehind hzero => ?_
    rw [hcount.mp hzero] at hpri
    exact absurd (hpri.mpr hbehind) (by decide)

namespace PollSystem

/-- An interface after `start` changes, before a poller is opened. -/
def init (start : ℕ) : PollSystem where
  counter := start
  recorded := 0
  offset := 0
  phase := .closed
  acked := 0
  view := ⟨0, 0, 0, none⟩
  snapshot := none
  stale := true
  diligent := true
  calls := []

/-- The wait in progress returns. Its client must renew its snapshot when it returned `true`, or
failed after its acknowledgement had recorded the count. -/
def finish (s : PollSystem) (result : Except Error Bool) : PollSystem :=
  { s with
    phase := .idle
    stale := match result with
      | .ok false => s.stale
      | .ok true => true
      | .error _ => s.stale || s.recorded != s.view.seen
    calls := s.calls ++ [⟨result, s.view, s.recorded⟩] }

/-- The acknowledgement in progress fails, and with it the call it belongs to.
Source: `notification.rs`, `EventPoller::open` and `EventPoller::wait` on a failed
`EventPoller::acknowledge`. -/
def fail (s : PollSystem) (error : Error) : AckOrigin → PollSystem
  | .opening => { s with phase := .closed }
  | .waiting => s.finish (.error error)

/-- The acknowledgement in progress succeeds.
Source: `notification.rs`, `EventPoller::open` and `EventPoller::wait` after a successful
`EventPoller::acknowledge`. -/
def acknowledged (s : PollSystem) : AckOrigin → PollSystem
  | .opening => { s with phase := .idle, acked := s.recorded, stale := true }
  | .waiting => { s with acked := s.recorded }.finish (.ok true)

/-- A read of `n` bytes; one from the start records the count. -/
def advance (s : PollSystem) (n : ℕ) : PollSystem :=
  { s with recorded := if s.offset = 0 then s.counter else s.recorded, offset := s.offset + n }

/-- `io::copy` made a read: an interrupted one is made again, an empty one ends the copy.
Source: `notification.rs`, the `io::copy` of `EventPoller::acknowledge`. -/
def copied (s : PollSystem) (path : Str) (origin : AckOrigin) : Except Errno ℕ → PollSystem
  | .error errno => if errno = .INTR then s else s.fail (Error.read path errno) origin
  | .ok 0 => (s.advance 0).acknowledged origin
  | .ok (n + 1) => s.advance (n + 1)

/-- The wait begins.
Source: `notification.rs`, `EventPoller::wait`, up to `poll`. -/
def enter (s : PollSystem) (timeout : Option Duration) : PollSystem :=
  let s := { s with
    view := ⟨s.recorded, s.acked, s.counter, s.snapshot⟩
    diligent := s.diligent && !s.stale }
  match Readiness.timespec timeout with
  | .error error => s.finish (.error error)
  | .ok _ => { s with phase := .poll }

/-- `poll` returned; a ready descriptor is acknowledged.
Source: `notification.rs`, `EventPoller::wait`, from `poll`. -/
def polled (s : PollSystem) (outcome : PollOutcome) : PollSystem :=
  let s := { s with view := { s.view with polled := s.counter, snapshot := s.snapshot } }
  match Readiness.readiness PollFlags.PRI outcome with
  | .error error => s.finish (.error error)
  | .ok false => s.finish (.ok false)
  | .ok true => { s with phase := .seek .waiting }

/-- The state after an action, when it is possible. -/
def step (path : Str) (s : PollSystem) : PollerAction → Option PollSystem
  | .change => some { s with counter := s.counter + 1 }
  | .snapshot => some { s with snapshot := some s.counter, stale := false }
  | .openat outcome =>
    match s.phase, outcome with
    | .closed, .error _ => some s
    | .closed, .ok () => some { s with phase := .seek .opening, offset := 0 }
    | _, _ => none
  | .seek outcome =>
    match s.phase, outcome with
    | .seek origin, .error errno => some (s.fail (Error.read path errno) origin)
    | .seek origin, .ok () => some { s with phase := .copy origin, offset := 0 }
    | _, _ => none
  | .read outcome =>
    match s.phase with
    | .copy origin => some (s.copied path origin outcome)
    | _ => none
  | .wait timeout =>
    match s.phase with
    | .idle => some (s.enter timeout)
    | _ => none
  | .poll outcome =>
    match s.phase with
    | .poll =>
      if PollAnswers (s.recorded ≠ s.counter) outcome then some (s.polled outcome) else none
    | _ => none

/-- What an action does, and in which phase it is possible. -/
inductive Step (path : Str) (s : PollSystem) : PollerAction → PollSystem → Prop
  /-- The kernel counts a change. -/
  | change : Step path s .change { s with counter := s.counter + 1 }
  /-- The client renews its snapshot. -/
  | snapshot : Step path s .snapshot { s with snapshot := some s.counter, stale := false }
  /-- The interface is not opened. -/
  | openFailed {errno : Errno} (hphase : s.phase = .closed) : Step path s (.openat (.error errno)) s
  /-- The interface is opened. -/
  | opened (hphase : s.phase = .closed) :
      Step path s (.openat (.ok ())) { s with phase := .seek .opening, offset := 0 }
  /-- An acknowledgement fails at its seek. -/
  | seekFailed {origin : AckOrigin} {errno : Errno} (hphase : s.phase = .seek origin) :
      Step path s (.seek (.error errno)) (s.fail (Error.read path errno) origin)
  /-- An acknowledgement is at the start of the interface. -/
  | sought {origin : AckOrigin} (hphase : s.phase = .seek origin) :
      Step path s (.seek (.ok ())) { s with phase := .copy origin, offset := 0 }
  /-- An acknowledgement made a read. -/
  | copied {origin : AckOrigin} {outcome : Except Errno ℕ} (hphase : s.phase = .copy origin) :
      Step path s (.read outcome) (s.copied path origin outcome)
  /-- A wait begins. -/
  | entered {timeout : Option Duration} (hphase : s.phase = .idle) :
      Step path s (.wait timeout) (s.enter timeout)
  /-- `poll` returned. -/
  | polled {outcome : PollOutcome} (hphase : s.phase = .poll)
      (hanswers : PollAnswers (s.recorded ≠ s.counter) outcome) :
      Step path s (.poll outcome) (s.polled outcome)

/-- **What a step does.** -/
lemma Step.of_step {path : Str} {s s' : PollSystem} {a : PollerAction}
    (h : step path s a = some s') : Step path s a s' := by
  cases a with
  | change =>
      cases h
      exact change
  | snapshot =>
      cases h
      exact snapshot
  | openat outcome =>
      rcases hphase : s.phase with _ | _ | _ | origin | origin
      case closed =>
        rcases outcome with errno | _
        · simp only [step, hphase] at h
          cases h
          exact openFailed hphase
        · simp only [step, hphase] at h
          cases h
          exact opened hphase
      all_goals simp [step, hphase] at h
  | seek outcome =>
      rcases hphase : s.phase with _ | _ | _ | origin | origin
      case seek =>
        rcases outcome with errno | _
        · simp only [step, hphase] at h
          cases h
          exact seekFailed hphase
        · simp only [step, hphase] at h
          cases h
          exact sought hphase
      all_goals simp [step, hphase] at h
  | read outcome =>
      rcases hphase : s.phase with _ | _ | _ | origin | origin
      case copy =>
        simp only [step, hphase] at h
        cases h
        exact copied hphase
      all_goals simp [step, hphase] at h
  | wait timeout =>
      rcases hphase : s.phase with _ | _ | _ | origin | origin
      case idle =>
        simp only [step, hphase] at h
        cases h
        exact entered hphase
      all_goals simp [step, hphase] at h
  | poll outcome =>
      rcases hphase : s.phase with _ | _ | _ | origin | origin
      case poll =>
        simp only [step, hphase] at h
        split_ifs at h with hanswers
        cases h
        exact polled hphase hanswers
      all_goals simp [step, hphase] at h

end PollSystem

/-! ## The invariant -/

/-- A wait that returned `Ok` reported whether the count differed from the recorded one; when it
did, the descriptor was brought up to date, and otherwise left alone. -/
structure PollerCall.Sound (c : PollerCall) : Prop where
  /-- The last read from the start is no older than that of the last acknowledgement. -/
  acked_le : c.view.acked ≤ c.view.seen
  /-- The verdict. -/
  verdict : ∀ ready, c.result = .ok ready → (ready = true ↔ c.view.seen < c.view.polled)
  /-- Nothing to acknowledge. -/
  unchanged : c.result = .ok false → c.after = c.view.seen
  /-- What was reported is acknowledged. -/
  acknowledged : c.result = .ok true → c.view.polled ≤ c.after

namespace PollSystem

/-- No wait that failed had recorded another count. -/
def Faultless (calls : List PollerCall) : Prop :=
  ∀ c ∈ calls, ∀ error, c.result = .error error → c.after = c.view.seen

variable {s : PollSystem} {result : Except Error Bool} {path : Str}

/-- What holds between waits: the client's snapshot, unless one is due, is no older than the
recorded count, which without such failures is that of the last acknowledgement. -/
structure Settled (s : PollSystem) : Prop where
  /-- The snapshot. -/
  fresh : s.stale = false → ∃ n, s.snapshot = some n ∧ s.recorded ≤ n
  /-- The acknowledgement. -/
  clean : Faultless s.calls → s.recorded = s.acked

/-- What holds after a `poll` that was ready. -/
structure Ready (s : PollSystem) : Prop where
  /-- There was a change. -/
  seen_lt : s.view.seen < s.view.polled
  /-- The `poll` is in the past. -/
  polled_le : s.view.polled ≤ s.counter
  /-- The last acknowledgement is no newer than the last read from the start. -/
  acked_le : s.view.acked ≤ s.view.seen
  /-- No acknowledgement has succeeded since. -/
  acked : s.view.acked = s.acked
  /-- The snapshot. -/
  fresh : s.stale = false → ∃ n, s.snapshot = some n ∧ s.view.seen ≤ n
  /-- Without such failures the last acknowledgement is the last read from the start. -/
  clean : Faultless s.calls → s.view.seen = s.view.acked

/-- What the call in progress satisfies. -/
def Progress (s : PollSystem) : Prop :=
  match s.phase with
  | .closed | .seek .opening | .copy .opening => True
  | .idle => s.Settled
  | .poll => s.Settled ∧ s.view.seen = s.recorded ∧ s.view.acked = s.acked ∧
      (s.diligent = true → s.stale = false)
  | .seek .waiting => s.Ready
  | .copy .waiting => s.Ready ∧ (s.offset ≠ 0 → s.view.polled ≤ s.recorded)

/-- What holds wherever the call in progress stands. -/
structure Base (s : PollSystem) : Prop where
  /-- The recorded count is in the past. -/
  recorded_le : s.recorded ≤ s.counter
  /-- The last acknowledgement is no newer than the last read from the start. -/
  acked_le : s.acked ≤ s.recorded
  /-- The snapshot is in the past. -/
  snapshot_le : ∀ n, s.snapshot = some n → n ≤ s.counter
  /-- The finished waits. -/
  sound : ∀ c ∈ s.calls, c.Sound
  /-- Without such failures, the last read from the start is that of the last acknowledgement. -/
  clean : Faultless s.calls → ∀ c ∈ s.calls, c.view.seen = c.view.acked
  /-- A diligent client's snapshot is current whenever a wait returned `false`. -/
  current : s.diligent = true →
    ∀ c ∈ s.calls, c.result = .ok false → c.view.snapshot = some c.view.polled

/-- The invariant of a poller. -/
structure Inv (s : PollSystem) : Prop extends Base s where
  /-- The call in progress. -/
  progress : s.Progress

/-- An unopened poller satisfies the invariant. -/
lemma init_inv (start : ℕ) : (init start).Inv := by
  refine ⟨⟨Nat.zero_le start, le_refl 0, ?_, ?_, ?_, ?_⟩, trivial⟩
  · intro n hn
    cases hn
  · intro c hc
    cases hc
  · intro _ c hc
    cases hc
  · intro _ c hc
    cases hc

/-- The waits before another one, and this one. -/
lemma faultless_append {calls : List PollerCall} {c : PollerCall}
    (h : Faultless (calls ++ [c])) :
    Faultless calls ∧ ∀ error, c.result = .error error → c.after = c.view.seen := by
  constructor
  · intro d hd
    exact h d (List.mem_append_left _ hd)
  · exact h c (by simp)

/-- No other count is recorded unless a wait has succeeded. -/
def Kept (s : PollSystem) (result : Except Error Bool) : Prop :=
  ∀ error, result = .error error → s.recorded = s.view.seen

/-- A finished wait keeps the invariant, when it is sound, no newer acknowledgement is forgotten
without a failure, the snapshot is no older than what is recorded unless one becomes due, and a wait
that returns `false` leaves a current one. -/
lemma finish_inv (h : s.Base) (hsound : PollerCall.Sound ⟨result, s.view, s.recorded⟩)
    (hclean : s.Kept result → Faultless s.calls →
      s.recorded = s.acked ∧ s.view.seen = s.view.acked)
    (hfresh : result ≠ .ok true → s.Kept result → s.stale = false →
      ∃ n, s.snapshot = some n ∧ s.recorded ≤ n)
    (hcurrent : result = .ok false → s.diligent = true → s.view.snapshot = some s.view.polled) :
    (s.finish result).Inv := by
  have hfaultless : Faultless (s.finish result).calls →
      s.recorded = s.acked ∧ s.view.seen = s.view.acked ∧ Faultless s.calls := by
    intro hcalls
    obtain ⟨hbefore, hkept⟩ := faultless_append hcalls
    obtain ⟨hrecorded, hseen⟩ := hclean hkept hbefore
    exact ⟨hrecorded, hseen, hbefore⟩
  refine ⟨⟨h.recorded_le, h.acked_le, h.snapshot_le, ?_, ?_, ?_⟩, ?_, ?_⟩
  · intro c hc
    rcases List.mem_append.mp hc with hc | hc
    · exact h.sound c hc
    · rw [List.mem_singleton.mp hc]
      exact hsound
  · intro hcalls c hc
    obtain ⟨_, hseen, hbefore⟩ := hfaultless hcalls
    rcases List.mem_append.mp hc with hc | hc
    · exact h.clean hbefore c hc
    · rw [List.mem_singleton.mp hc]
      exact hseen
  · intro hdiligent c hc hresult
    rcases List.mem_append.mp hc with hc | hc
    · exact h.current hdiligent c hc hresult
    · rw [List.mem_singleton.mp hc] at hresult ⊢
      exact hcurrent hresult hdiligent
  · intro hstale
    rcases result with error | _ | _
    · obtain ⟨hbefore, hrecorded⟩ := Bool.or_eq_false_iff.mp hstale
      refine hfresh (fun hresult => ?_) (fun _ _ => ?_) hbefore
      · cases hresult
      · exact bne_eq_false_iff_eq.mp hrecorded
    · refine hfresh (fun hresult => ?_) (fun _ hresult => ?_) hstale
      · cases hresult
      · cases hresult
    · cases hstale
  · intro hcalls
    exact (hfaultless hcalls).1

/-- A failed wait is sound. -/
lemma sound_error {error : Error} {n : ℕ} (hacked : s.view.acked ≤ s.view.seen) :
    PollerCall.Sound ⟨.error error, s.view, n⟩ := by
  refine ⟨hacked, ?_, ?_, ?_⟩
  · intro ready hready
    cases hready
  · intro hready
    cases hready
  · intro hready
    cases hready

/-- A wait that fails before its acknowledgement keeps the invariant. -/
lemma finish_error_inv {error : Error} (h : s.Base) (hsettled : s.Settled)
    (hseen : s.view.seen = s.recorded) (hacked : s.view.acked = s.acked) :
    (s.finish (.error error)).Inv := by
  refine finish_inv h (sound_error ?_) ?_ ?_ ?_
  · rw [hseen, hacked]
    exact h.acked_le
  · intro _ hcalls
    refine ⟨hsettled.clean hcalls, ?_⟩
    rw [hseen, hacked]
    exact hsettled.clean hcalls
  · intro _ _ hstale
    exact hsettled.fresh hstale
  · intro hready
    cases hready

/-- A failed acknowledgement keeps the invariant. -/
lemma fail_inv {error : Error} {origin : AckOrigin} (h : s.Base)
    (hready : origin = .waiting → s.Ready) : (s.fail error origin).Inv := by
  cases origin with
  | opening =>
      exact ⟨⟨h.recorded_le, h.acked_le, h.snapshot_le, h.sound, h.clean, h.current⟩, trivial⟩
  | waiting =>
      have hs := hready rfl
      refine finish_inv h (sound_error hs.acked_le) ?_ ?_ ?_
      · intro hkept hcalls
        have hclean := hs.clean hcalls
        refine ⟨?_, hclean⟩
        rw [hkept error rfl, hclean, hs.acked]
      · intro _ hkept hstale
        rw [hkept error rfl]
        exact hs.fresh hstale
      · intro hresult
        cases hresult

/-- A read keeps the inequalities; after one from the start the record is as new as the `poll`. -/
lemma advance_inv {origin : AckOrigin} {n : ℕ} (h : s.Inv) (hphase : s.phase = .copy origin) :
    (s.advance n).Inv ∧ (origin = .waiting →
      (s.advance n).Ready ∧ (s.advance n).view.polled ≤ (s.advance n).recorded) := by
  have hrecorded : s.recorded ≤ (s.advance n).recorded ∧ (s.advance n).recorded ≤ s.counter := by
    unfold advance
    have hle := h.recorded_le
    by_cases hoffset : s.offset = 0
    · simp [hoffset, hle]
    · simp [hoffset, hle]
  have hwaiting : origin = .waiting →
      s.Ready ∧ (s.advance n).view.polled ≤ (s.advance n).recorded := by
    rintro rfl
    have hprogress := h.progress
    unfold Progress at hprogress
    rw [hphase] at hprogress
    obtain ⟨hready, hpolled⟩ := hprogress
    refine ⟨hready, ?_⟩
    unfold advance
    by_cases hoffset : s.offset = 0
    · simp [hoffset, hready.polled_le]
    · simp [hoffset, hpolled hoffset]
  have hready : origin = .waiting → (s.advance n).Ready := fun horigin =>
    let hs := (hwaiting horigin).1
    ⟨hs.seen_lt, hs.polled_le, hs.acked_le, hs.acked, hs.fresh, hs.clean⟩
  refine ⟨⟨⟨hrecorded.2, le_trans h.acked_le hrecorded.1, h.snapshot_le, h.sound, h.clean,
    h.current⟩, ?_⟩, fun horigin => ⟨hready horigin, (hwaiting horigin).2⟩⟩
  have hphase' : (s.advance n).phase = .copy origin := hphase
  unfold Progress
  rw [hphase']
  cases origin with
  | opening => trivial
  | waiting => exact ⟨hready rfl, fun _ => (hwaiting rfl).2⟩

/-- A successful acknowledgement keeps the invariant. -/
lemma acknowledged_inv {origin : AckOrigin} (h : s.Base)
    (hready : origin = .waiting → s.Ready ∧ s.view.polled ≤ s.recorded) :
    (s.acknowledged origin).Inv := by
  cases origin with
  | opening =>
      refine ⟨⟨h.recorded_le, le_refl _, h.snapshot_le, h.sound, h.clean, h.current⟩, ?_,
        fun _ => rfl⟩
      intro hstale
      cases hstale
  | waiting =>
      obtain ⟨hready, hpolled⟩ := hready rfl
      have hacked : ({ s with acked := s.recorded } : PollSystem).Base :=
        ⟨h.recorded_le, le_refl _, h.snapshot_le, h.sound, h.clean, h.current⟩
      show (({ s with acked := s.recorded } : PollSystem).finish (.ok true)).Inv
      refine finish_inv hacked ⟨hready.acked_le, ?_, ?_, fun _ => hpolled⟩ ?_ ?_ ?_
      · intro ready hresult
        cases hresult
        exact iff_of_true rfl hready.seen_lt
      · intro hresult
        cases hresult
      · intro _ hcalls
        exact ⟨rfl, hready.clean hcalls⟩
      · intro hresult
        exact absurd rfl hresult
      · intro hresult
        cases hresult

/-- `io::copy` made a read. -/
lemma copied_inv {origin : AckOrigin} {outcome : Except Errno ℕ} (h : s.Inv)
    (hphase : s.phase = .copy origin) : (s.copied path origin outcome).Inv := by
  rcases outcome with errno | n
  · simp only [copied]
    split_ifs with hintr
    · exact h
    · apply fail_inv h.toBase
      rintro rfl
      have hprogress := h.progress
      unfold Progress at hprogress
      rw [hphase] at hprogress
      exact hprogress.1
  · obtain ⟨hadvance, hready⟩ := advance_inv (n := n) h hphase
    cases n with
    | zero => exact acknowledged_inv hadvance.toBase hready
    | succ n => exact hadvance

/-- A wait begins. -/
lemma enter_inv {timeout : Option Duration} (h : s.Inv) (hphase : s.phase = .idle) :
    (s.enter timeout).Inv := by
  obtain ⟨hfresh, hclean⟩ : s.Settled := by
    have hprogress := h.progress
    unfold Progress at hprogress
    rwa [hphase] at hprogress
  have hbase : ({ s with
      view := ⟨s.recorded, s.acked, s.counter, s.snapshot⟩
      diligent := s.diligent && !s.stale } : PollSystem).Base := by
    refine ⟨h.recorded_le, h.acked_le, h.snapshot_le, h.sound, h.clean, fun hdiligent => ?_⟩
    exact h.current (Bool.and_eq_true_iff.mp hdiligent).1
  unfold enter
  cases Readiness.timespec timeout with
  | error error => exact finish_error_inv hbase ⟨hfresh, hclean⟩ rfl rfl
  | ok timespec =>
      refine ⟨⟨hbase.recorded_le, hbase.acked_le, hbase.snapshot_le, hbase.sound, hbase.clean,
        hbase.current⟩, ⟨hfresh, hclean⟩, rfl, rfl, fun hdiligent => ?_⟩
      simpa using (Bool.and_eq_true_iff.mp hdiligent).2

/-- Without a change to report, a snapshot that is not stale is the current count: it lies between
the recorded count and the current one. -/
lemma Settled.snapshot_eq (hsettled : s.Settled) (h : s.Base) (hstale : s.stale = false)
    (heq : s.recorded = s.counter) : s.snapshot = some s.counter := by
  obtain ⟨n, hn, hrecorded⟩ := hsettled.fresh hstale
  have hcounter := h.snapshot_le n hn
  rw [hn, Option.some.injEq]
  omega

/-- `poll` returned. -/
lemma polled_inv {outcome : PollOutcome} (h : s.Inv) (hphase : s.phase = .poll)
    (hanswers : PollAnswers (s.recorded ≠ s.counter) outcome) : (s.polled outcome).Inv := by
  obtain ⟨hsettled, hseen, hacked, hdue⟩ : s.Settled ∧ s.view.seen = s.recorded ∧
      s.view.acked = s.acked ∧ (s.diligent = true → s.stale = false) := by
    have hprogress := h.progress
    unfold Progress at hprogress
    rwa [hphase] at hprogress
  have hle : s.view.acked ≤ s.view.seen := by
    rw [hseen, hacked]
    exact h.acked_le
  have hbase : ({ s with
      view := { s.view with polled := s.counter, snapshot := s.snapshot } } : PollSystem).Base :=
    ⟨h.recorded_le, h.acked_le, h.snapshot_le, h.sound, h.clean, h.current⟩
  unfold polled
  rcases hready : Readiness.readiness PollFlags.PRI outcome with error | ready
  · exact finish_error_inv hbase ⟨hsettled.fresh, hsettled.clean⟩ hseen hacked
  · have hverdict := verdict_of_pollAnswers hanswers hready
    cases ready with
    | false =>
        have heq : s.recorded = s.counter := by
          by_contra hne
          cases hverdict.mpr hne
        refine finish_inv hbase ⟨hle, ?_, fun _ => hseen.symm, ?_⟩ ?_ ?_ ?_
        · intro verdict hresult
          cases hresult
          apply iff_of_false Bool.false_ne_true
          show ¬ s.view.seen < s.counter
          omega
        · intro hresult
          cases hresult
        · intro _ hcalls
          have hrecorded := hsettled.clean hcalls
          refine ⟨hrecorded, ?_⟩
          show s.view.seen = s.view.acked
          omega
        · intro _ _ hstale
          exact hsettled.fresh hstale
        · intro _ hdiligent
          exact hsettled.snapshot_eq h.toBase (hdue hdiligent) heq
    | true =>
        have hne : s.recorded ≠ s.counter := hverdict.mp rfl
        have hrecorded := h.recorded_le
        refine ⟨⟨hbase.recorded_le, hbase.acked_le, hbase.snapshot_le, hbase.sound, hbase.clean,
          hbase.current⟩, ?_, le_refl _, hle, hacked, fun hstale => ?_, fun hcalls => ?_⟩
        · show s.view.seen < s.counter
          omega
        · obtain ⟨n, hn, hle⟩ := hsettled.fresh hstale
          exact ⟨n, hn, hseen.trans_le hle⟩
        · have hclean := hsettled.clean hcalls
          show s.view.seen = s.view.acked
          omega

/-- The call in progress is not disturbed by what happens outside the poller. -/
lemma Progress.transfer {t : PollSystem} (h : s.Progress) (hphase : t.phase = s.phase)
    (hoffset : t.offset = s.offset) (hrecorded : t.recorded = s.recorded)
    (hacked : t.acked = s.acked) (hview : t.view = s.view) (hsettled : s.Settled → t.Settled)
    (hready : s.Ready → t.Ready)
    (hdue : (s.diligent = true → s.stale = false) → t.diligent = true → t.stale = false) :
    t.Progress := by
  unfold Progress at h ⊢
  rw [hphase]
  rcases hs : s.phase with _ | _ | _ | ⟨_ | _⟩ | ⟨_ | _⟩ <;> rw [hs] at h
  · trivial
  · exact hsettled h
  · obtain ⟨hs, hseen, hack, hfresh⟩ := h
    rw [hview, hrecorded, hacked]
    exact ⟨hsettled hs, hseen, hack, hdue hfresh⟩
  · trivial
  · exact hready h
  · trivial
  · rw [hoffset, hview, hrecorded]
    exact ⟨hready h.1, h.2⟩

/-- The interface changes. -/
lemma change_inv (h : s.Inv) : ({ s with counter := s.counter + 1 } : PollSystem).Inv := by
  refine ⟨⟨Nat.le_succ_of_le h.recorded_le, h.acked_le,
    fun n hn => Nat.le_succ_of_le (h.snapshot_le n hn), h.sound, h.clean, h.current⟩, ?_⟩
  refine h.progress.transfer rfl rfl rfl rfl rfl ?_ ?_ id
  · intro hsettled
    exact ⟨hsettled.fresh, hsettled.clean⟩
  · intro hready
    exact ⟨hready.seen_lt, Nat.le_succ_of_le hready.polled_le, hready.acked_le, hready.acked,
      hready.fresh, hready.clean⟩

/-- The client takes a snapshot. -/
lemma snapshot_inv (h : s.Inv) :
    ({ s with snapshot := some s.counter, stale := false } : PollSystem).Inv := by
  refine ⟨⟨h.recorded_le, h.acked_le, ?_, h.sound, h.clean, h.current⟩, ?_⟩
  · intro n hn
    exact le_of_eq (Option.some.inj hn).symm
  · refine h.progress.transfer rfl rfl rfl rfl rfl ?_ ?_ fun _ _ => rfl
    · intro hsettled
      exact ⟨fun _ => ⟨s.counter, rfl, h.recorded_le⟩, hsettled.clean⟩
    · intro hready
      have hseen : s.view.seen ≤ s.counter :=
        le_trans (le_of_lt hready.seen_lt) hready.polled_le
      exact ⟨hready.seen_lt, hready.polled_le, hready.acked_le, hready.acked,
        fun _ => ⟨s.counter, rfl, hseen⟩, hready.clean⟩

/-- An acknowledgement made its seek. -/
lemma seek_inv {origin : AckOrigin} (h : s.Inv) (hphase : s.phase = .seek origin) :
    ({ s with phase := .copy origin, offset := 0 } : PollSystem).Inv ∧
      ∀ error, (s.fail error origin).Inv := by
  have hready : origin = .waiting → s.Ready := by
    rintro rfl
    have hprogress := h.progress
    unfold Progress at hprogress
    rwa [hphase] at hprogress
  refine ⟨⟨⟨h.recorded_le, h.acked_le, h.snapshot_le, h.sound, h.clean, h.current⟩, ?_⟩,
    fun error => fail_inv h.toBase hready⟩
  cases origin with
  | opening => trivial
  | waiting =>
      have hs := hready rfl
      exact ⟨⟨hs.seen_lt, hs.polled_le, hs.acked_le, hs.acked, hs.fresh, hs.clean⟩,
        fun hne => absurd rfl hne⟩

/-- **Every action keeps the invariant.** -/
theorem step_inv (path : Str) (s : PollSystem) (a : PollerAction) (s' : PollSystem) (h : s.Inv)
    (hstep : step path s a = some s') : s'.Inv := by
  cases Step.of_step hstep with
  | change => exact change_inv h
  | snapshot => exact snapshot_inv h
  | openFailed => exact h
  | opened =>
      exact ⟨⟨h.recorded_le, h.acked_le, h.snapshot_le, h.sound, h.clean, h.current⟩, trivial⟩
  | seekFailed hphase => exact (seek_inv h hphase).2 _
  | sought hphase => exact (seek_inv h hphase).1
  | copied hphase => exact copied_inv h hphase
  | entered hphase => exact enter_inv h hphase
  | polled hphase hanswers => exact polled_inv h hphase hanswers

/-- The invariant holds in every run of a poller. -/
lemma inv_of_run {start : ℕ} {actions : List PollerAction}
    (h : run (step path) (init start) actions = some s) : s.Inv :=
  invariant_of_run (step_inv path) (init_inv start) h

end PollSystem

/-! ## What the actions alone show -/

/-- An interface and a descriptor of it, with the latest snapshot, after some actions. -/
structure Observed where
  /-- The number of changes of the interface. -/
  counter : ℕ
  /-- The count at the last read from the start. -/
  recorded : ℕ
  /-- The offset of the descriptor. -/
  offset : ℕ
  /-- The count at the last read from the start that was followed up to the end of the file. -/
  acked : ℕ
  /-- The count at the latest snapshot. -/
  snapshot : Option ℕ
  deriving DecidableEq, Repr

/-- After one more action. -/
def Observed.next (o : Observed) : PollerAction → Observed
  | .change => { o with counter := o.counter + 1 }
  | .snapshot => { o with snapshot := some o.counter }
  | .openat (.ok ()) | .seek (.ok ()) => { o with offset := 0 }
  | .read (.ok n) =>
    let recorded := if o.offset = 0 then o.counter else o.recorded
    { o with
      recorded := recorded
      offset := o.offset + n
      acked := if n = 0 then recorded else o.acked }
  | _ => o

/-- After all actions, on an interface after `start` changes. -/
def observe (start : ℕ) (actions : List PollerAction) : Observed :=
  actions.foldl Observed.next ⟨start, 0, 0, 0, none⟩

/-- One more action. -/
lemma observe_concat (start : ℕ) (actions : List PollerAction) (a : PollerAction) :
    observe start (actions ++ [a]) = (observe start actions).next a := by
  unfold observe
  rw [List.foldl_append]
  rfl

namespace PollerAction

/-- The action begins a wait. -/
def isWait : PollerAction → Bool
  | .wait _ => true
  | _ => false

/-- The action is the `poll` of a wait. -/
def isPoll : PollerAction → Bool
  | .poll _ => true
  | _ => false

end PollerAction

/-- The wait is number `i` of a run: the actions before it show what was recorded and acknowledged
when it was called, those up to its `poll` what was there then, and those up to its end what it
left recorded. -/
def PollerCall.Traced (start : ℕ) (actions : List PollerAction) (i : ℕ) (c : PollerCall) : Prop :=
  ∃ before timeout during after,
    actions = before ++ .wait timeout :: (during ++ after) ∧
    before.countP PollerAction.isWait = i ∧ (∀ a ∈ during, a.isWait = false) ∧
    c.view.seen = (observe start before).recorded ∧
    c.view.acked = (observe start before).acked ∧
    c.after = (observe start (before ++ .wait timeout :: during)).recorded ∧
    ∀ ready, c.result = .ok ready → ∃ waiting outcome rest,
      during = waiting ++ .poll outcome :: rest ∧ (∀ a ∈ waiting, a.isPoll = false) ∧
      c.view.polled = (observe start (before ++ .wait timeout :: waiting)).counter ∧
      c.view.snapshot = (observe start (before ++ .wait timeout :: waiting)).snapshot

/-- Later actions do not matter. -/
lemma PollerCall.Traced.append {start i : ℕ} {actions : List PollerAction} {c : PollerCall}
    (h : c.Traced start actions i) (more : List PollerAction) :
    c.Traced start (actions ++ more) i := by
  obtain ⟨before, timeout, during, after, rfl, hrest⟩ := h
  exact ⟨before, timeout, during, after ++ more, by simp, hrest⟩

namespace PollSystem

variable {s t : PollSystem} {result : Except Error Bool} {path : Str}

/-- The state as it is observed. -/
def observed (s : PollSystem) : Observed := ⟨s.counter, s.recorded, s.offset, s.acked, s.snapshot⟩

/-- **An action does what it shows.** -/
lemma observed_step {a : PollerAction} (h : Step path s a t) :
    t.observed = s.observed.next a := by
  cases h with
  | change => rfl
  | snapshot => rfl
  | openFailed _ => rfl
  | opened _ => rfl
  | seekFailed _ =>
      rename_i origin errno _
      cases origin <;> rfl
  | sought _ => rfl
  | copied _ =>
      rename_i origin outcome _
      rcases outcome with errno | _ | n
      · simp only [copied]
        split_ifs
        · rfl
        · cases origin <;> rfl
      · cases origin <;> rfl
      · rfl
  | entered _ =>
      rename_i timeout _
      unfold enter
      cases Readiness.timespec timeout <;> rfl
  | polled _ _ =>
      rename_i outcome _ _
      unfold polled
      rcases Readiness.readiness PollFlags.PRI outcome with error | _ | _ <;> rfl

/-- The wait in progress was called after the actions `before`. -/
structure Called (start : ℕ) (before during : List PollerAction) (s : PollSystem) : Prop where
  /-- All waits before it have finished. -/
  number : before.countP PollerAction.isWait = s.calls.length
  /-- No other one was called since. -/
  during : ∀ a ∈ during, a.isWait = false
  /-- What was recorded. -/
  seen : s.view.seen = (observe start before).recorded
  /-- What was acknowledged. -/
  acked : s.view.acked = (observe start before).acked

/-- The `poll` of the wait in progress returned after the actions `passed`. -/
structure Asked (start : ℕ) (passed : List PollerAction) (s : PollSystem) : Prop where
  /-- The count. -/
  polled : s.view.polled = (observe start passed).counter
  /-- The latest snapshot. -/
  snapshot : s.view.snapshot = (observe start passed).snapshot

/-- A wait in progress has not made its `poll`. -/
def Polls (start : ℕ) (actions : List PollerAction) (s : PollSystem) : Prop :=
  ∃ before timeout during, actions = before ++ .wait timeout :: during ∧
    s.Called start before during ∧ ∀ a ∈ during, a.isPoll = false

/-- A wait in progress has made its `poll`. -/
def Acknowledges (start : ℕ) (actions : List PollerAction) (s : PollSystem) : Prop :=
  ∃ before timeout waiting outcome rest,
    actions = before ++ .wait timeout :: (waiting ++ .poll outcome :: rest) ∧
    s.Called start before (waiting ++ .poll outcome :: rest) ∧
    (∀ a ∈ waiting, a.isPoll = false) ∧ s.Asked start (before ++ .wait timeout :: waiting)

/-- Where the wait in progress stands in the actions. -/
def Tracks (start : ℕ) (actions : List PollerAction) (s : PollSystem) : Prop :=
  match s.phase with
  | .poll => s.Polls start actions
  | .seek .waiting | .copy .waiting => s.Acknowledges start actions
  | _ => actions.countP PollerAction.isWait = s.calls.length

/-- The state is what the actions show. -/
structure Traces (start : ℕ) (actions : List PollerAction) (s : PollSystem) : Prop where
  /-- The interface and the descriptor. -/
  observed : s.observed = observe start actions
  /-- The finished waits. -/
  calls : ∀ (i : ℕ) (c : PollerCall), s.calls[i]? = some c → c.Traced start actions i
  /-- The wait in progress. -/
  progress : s.Tracks start actions

section traces

variable {start : ℕ} {actions before during : List PollerAction} {a : PollerAction}

/-- A wait in progress goes on. -/
lemma Called.concat (h : s.Called start before during) (ha : a.isWait = false)
    (hcalls : t.calls = s.calls) (hseen : t.view.seen = s.view.seen)
    (hacked : t.view.acked = s.view.acked) : t.Called start before (during ++ [a]) := by
  refine ⟨?_, fun b hb => ?_, hseen.trans h.seen, hacked.trans h.acked⟩
  · rw [hcalls]
    exact h.number
  · rcases List.mem_append.mp hb with hb | hb
    · exact h.during b hb
    · rw [List.mem_singleton.mp hb]
      exact ha

/-- A wait before its `poll` goes on. -/
lemma Polls.concat (h : s.Polls start actions) (ha : a.isWait = false) (ha' : a.isPoll = false)
    (hcalls : t.calls = s.calls) (hview : t.view = s.view) : t.Polls start (actions ++ [a]) := by
  obtain ⟨before, timeout, during, rfl, hcalled, hduring⟩ := h
  refine ⟨before, timeout, during ++ [a], by simp,
    hcalled.concat ha hcalls (by rw [hview]) (by rw [hview]), fun b hb => ?_⟩
  rcases List.mem_append.mp hb with hb | hb
  · exact hduring b hb
  · rw [List.mem_singleton.mp hb]
    exact ha'

/-- A wait after its `poll` goes on. -/
lemma Acknowledges.concat (h : s.Acknowledges start actions) (ha : a.isWait = false)
    (hcalls : t.calls = s.calls) (hview : t.view = s.view) :
    t.Acknowledges start (actions ++ [a]) := by
  obtain ⟨before, timeout, waiting, outcome, rest, rfl, hcalled, hwaiting, hasked⟩ := h
  have hcalled' := hcalled.concat ha hcalls (by rw [hview]) (by rw [hview])
  rw [List.append_assoc, List.cons_append] at hcalled'
  refine ⟨before, timeout, waiting, outcome, rest ++ [a], by simp, hcalled', hwaiting, ?_⟩
  exact ⟨hview ▸ hasked.polled, hview ▸ hasked.snapshot⟩

/-- The actions so far show all the waits. -/
lemma countP_concat (h : actions.countP PollerAction.isWait = s.calls.length)
    (ha : a.isWait = false) (hcalls : t.calls = s.calls) :
    (actions ++ [a]).countP PollerAction.isWait = t.calls.length := by
  rw [List.countP_append, hcalls, h]
  simp [ha]

/-- The wait in progress goes on in its phase. -/
lemma Tracks.concat (h : s.Tracks start actions) (ha : a.isWait = false) (ha' : a.isPoll = false)
    (hphase : t.phase = s.phase) (hcalls : t.calls = s.calls) (hview : t.view = s.view) :
    t.Tracks start (actions ++ [a]) := by
  unfold Tracks at h ⊢
  rw [hphase]
  rcases hs : s.phase with _ | _ | _ | ⟨_ | _⟩ | ⟨_ | _⟩ <;> rw [hs] at h
  case poll => exact h.concat ha ha' hcalls hview
  case seek.waiting => exact h.concat ha hcalls hview
  case copy.waiting => exact h.concat ha hcalls hview
  all_goals exact countP_concat h ha hcalls

/-- The finished waits are what they were. -/
lemma calls_concat (h : s.Traces start actions) (hcalls : t.calls = s.calls) (i : ℕ)
    (c : PollerCall) (hc : t.calls[i]? = some c) : c.Traced start (actions ++ [a]) i := by
  rw [hcalls] at hc
  exact (h.calls i c hc).append [a]

/-- **A wait that finishes** is what the actions show. -/
lemma traces_finish {timeout : Option Duration} (hobserved : s.observed = observe start actions)
    (hcalls : ∀ (i : ℕ) (c : PollerCall), s.calls[i]? = some c → c.Traced start actions i)
    (hactions : actions = before ++ .wait timeout :: during)
    (hcalled : s.Called start before during)
    (hasked : ∀ ready, result = .ok ready → ∃ waiting outcome rest,
      during = waiting ++ .poll outcome :: rest ∧ (∀ a ∈ waiting, a.isPoll = false) ∧
      s.Asked start (before ++ .wait timeout :: waiting)) :
    (s.finish result).Traces start actions := by
  have hrecorded : s.recorded = (observe start actions).recorded :=
    congrArg Observed.recorded hobserved
  refine ⟨hobserved, fun i c hc => ?_, ?_⟩
  · have hcalls' : (s.calls ++ [⟨result, s.view, s.recorded⟩])[i]? = some c := hc
    rcases Nat.lt_or_ge i s.calls.length with hlt | hge
    · rw [List.getElem?_append_left hlt] at hcalls'
      exact hcalls i c hcalls'
    · rw [List.getElem?_append_right hge, List.getElem?_singleton] at hcalls'
      split_ifs at hcalls' with hi
      cases hcalls'
      have hlast : i = s.calls.length := by omega
      subst hlast
      refine ⟨before, timeout, during, [], by simpa using hactions, hcalled.number, hcalled.during,
        hcalled.seen, hcalled.acked, hactions ▸ hrecorded, fun ready hready => ?_⟩
      obtain ⟨waiting, outcome, rest, hduring, hwaiting, hpolled, hsnapshot⟩ := hasked ready hready
      exact ⟨waiting, outcome, rest, hduring, hwaiting, hpolled, hsnapshot⟩
  · show actions.countP PollerAction.isWait = (s.calls ++ [_]).length
    have hduring : during.countP PollerAction.isWait = 0 :=
      List.countP_eq_zero.mpr fun b hb => by rw [hcalled.during b hb]; exact Bool.false_ne_true
    rw [hactions, List.countP_append, hcalled.number, List.countP_cons, hduring]
    simp [PollerAction.isWait]

/-- An acknowledgement that fails, and with it the call it belongs to. -/
lemma traces_fail {error : Error} {origin : AckOrigin} (h : s.Traces start actions)
    (hwaiting : origin = .waiting → s.Acknowledges start actions)
    (hopening : origin = .opening → actions.countP PollerAction.isWait = s.calls.length)
    (ha : a.isWait = false)
    (hobserved : (s.fail error origin).observed = observe start (actions ++ [a])) :
    (s.fail error origin).Traces start (actions ++ [a]) := by
  cases origin with
  | opening => exact ⟨hobserved, calls_concat h rfl, countP_concat (hopening rfl) ha rfl⟩
  | waiting =>
      obtain ⟨before, timeout, waiting, outcome, rest, hactions, hcalled, -, -⟩ :=
        (hwaiting rfl).concat (t := s) ha rfl rfl
      show (s.finish (.error error)).Traces start (actions ++ [a])
      refine traces_finish hobserved (calls_concat h rfl) hactions hcalled ?_
      intro ready hready
      cases hready

/-- An acknowledgement that succeeds, and with it the call it belongs to. -/
lemma traces_acknowledged {origin : AckOrigin} (h : s.Traces start actions)
    (hcalls : t.calls = s.calls) (hview : t.view = s.view)
    (hwaiting : origin = .waiting → s.Acknowledges start actions)
    (hopening : origin = .opening → actions.countP PollerAction.isWait = s.calls.length)
    (ha : a.isWait = false)
    (hobserved : (t.acknowledged origin).observed = observe start (actions ++ [a])) :
    (t.acknowledged origin).Traces start (actions ++ [a]) := by
  cases origin with
  | opening => exact ⟨hobserved, calls_concat h hcalls, countP_concat (hopening rfl) ha hcalls⟩
  | waiting =>
      obtain ⟨before, timeout, waiting, outcome, rest, hactions, hcalled, hbefore, hasked⟩ :=
        (hwaiting rfl).concat (t := t) ha hcalls hview
      show (({ t with acked := t.recorded } : PollSystem).finish (.ok true)).Traces start
        (actions ++ [a])
      refine traces_finish hobserved (calls_concat h hcalls) hactions
        ⟨hcalled.number, hcalled.during, hcalled.seen, hcalled.acked⟩ ?_
      intro _ _
      exact ⟨waiting, outcome, rest, rfl, hbefore, hasked.polled, hasked.snapshot⟩

/-- `io::copy` made a read. -/
lemma copied_traces {origin : AckOrigin} {outcome : Except Errno ℕ} (h : s.Traces start actions)
    (hphase : s.phase = .copy origin)
    (hobserved : (s.copied path origin outcome).observed =
      observe start (actions ++ [.read outcome])) :
    (s.copied path origin outcome).Traces start (actions ++ [.read outcome]) := by
  have hwaiting : origin = .waiting → s.Acknowledges start actions := by
    rintro rfl
    have hprogress := h.progress
    unfold Tracks at hprogress
    rwa [hphase] at hprogress
  have hopening : origin = .opening → actions.countP PollerAction.isWait = s.calls.length := by
    rintro rfl
    have hprogress := h.progress
    unfold Tracks at hprogress
    rwa [hphase] at hprogress
  rcases outcome with errno | _ | n
  · simp only [copied] at hobserved ⊢
    split_ifs at hobserved ⊢
    · exact ⟨hobserved, calls_concat h rfl, h.progress.concat rfl rfl rfl rfl rfl⟩
    · exact traces_fail h hwaiting hopening rfl hobserved
  · exact traces_acknowledged (t := s.advance 0) h rfl rfl hwaiting hopening rfl hobserved
  · exact ⟨hobserved, calls_concat h rfl, h.progress.concat rfl rfl rfl rfl rfl⟩

/-- A wait begins. -/
lemma enter_traces {timeout : Option Duration} (h : s.Traces start actions)
    (hphase : s.phase = .idle)
    (hobserved : (s.enter timeout).observed = observe start (actions ++ [.wait timeout])) :
    (s.enter timeout).Traces start (actions ++ [.wait timeout]) := by
  have hcount : actions.countP PollerAction.isWait = s.calls.length := by
    have hprogress := h.progress
    unfold Tracks at hprogress
    rwa [hphase] at hprogress
  have hseen : s.recorded = (observe start actions).recorded :=
    congrArg Observed.recorded h.observed
  have hacked : s.acked = (observe start actions).acked := congrArg Observed.acked h.observed
  unfold enter at hobserved ⊢
  cases htimespec : Readiness.timespec timeout with
  | error error =>
      rw [htimespec] at hobserved
      refine traces_finish hobserved (calls_concat h rfl)
        (rfl : actions ++ [.wait timeout] = actions ++ .wait timeout :: [])
        ⟨hcount, List.forall_mem_nil _, hseen, hacked⟩ ?_
      intro ready hready
      cases hready
  | ok timespec =>
      rw [htimespec] at hobserved
      exact ⟨hobserved, calls_concat h rfl, actions, timeout, [], rfl,
        ⟨hcount, List.forall_mem_nil _, hseen, hacked⟩, List.forall_mem_nil _⟩

/-- `poll` returned. -/
lemma polled_traces {outcome : PollOutcome} (h : s.Traces start actions) (hphase : s.phase = .poll)
    (hobserved : (s.polled outcome).observed = observe start (actions ++ [.poll outcome])) :
    (s.polled outcome).Traces start (actions ++ [.poll outcome]) := by
  obtain ⟨before, timeout, waiting, rfl, hcalled, hwaiting⟩ : s.Polls start actions := by
    have hprogress := h.progress
    unfold Tracks at hprogress
    rwa [hphase] at hprogress
  have hcounter := congrArg Observed.counter h.observed
  have hsnapshot := congrArg Observed.snapshot h.observed
  have hcalled' := hcalled.concat
    (t := { s with view := { s.view with polled := s.counter, snapshot := s.snapshot } })
    (a := .poll outcome) rfl rfl rfl rfl
  have hactions : before ++ .wait timeout :: waiting ++ [.poll outcome] =
      before ++ .wait timeout :: (waiting ++ [.poll outcome]) := by simp
  unfold polled at hobserved ⊢
  rcases hready : Readiness.readiness PollFlags.PRI outcome with error | _ | _
  · rw [hready] at hobserved
    refine traces_finish hobserved (calls_concat h rfl) hactions hcalled' ?_
    intro ready hresult
    cases hresult
  · rw [hready] at hobserved
    refine traces_finish hobserved (calls_concat h rfl) hactions hcalled' ?_
    intro _ _
    exact ⟨waiting, outcome, [], rfl, hwaiting, hcounter, hsnapshot⟩
  · rw [hready] at hobserved
    refine ⟨hobserved, calls_concat h rfl, before, timeout, waiting, outcome, [], hactions, ?_,
      hwaiting, hcounter, hsnapshot⟩
    exact ⟨hcalled'.number, hcalled'.during, hcalled'.seen, hcalled'.acked⟩

/-- **Every action is traced.** -/
lemma step_traces (start : ℕ) (actions : List PollerAction) (s : PollSystem) (a : PollerAction)
    (t : PollSystem) (h : s.Traces start actions) (hstep : step path s a = some t) :
    t.Traces start (actions ++ [a]) := by
  have hobserved : t.observed = observe start (actions ++ [a]) := by
    rw [observed_step (Step.of_step hstep), observe_concat, h.observed]
  cases Step.of_step hstep with
  | change => exact ⟨hobserved, calls_concat h rfl, h.progress.concat rfl rfl rfl rfl rfl⟩
  | snapshot => exact ⟨hobserved, calls_concat h rfl, h.progress.concat rfl rfl rfl rfl rfl⟩
  | openFailed _ => exact ⟨hobserved, calls_concat h rfl, h.progress.concat rfl rfl rfl rfl rfl⟩
  | opened hphase =>
      have hprogress := h.progress
      unfold Tracks at hprogress
      rw [hphase] at hprogress
      exact ⟨hobserved, calls_concat h rfl, countP_concat hprogress rfl rfl⟩
  | seekFailed hphase =>
      rename_i origin errno
      have hprogress := h.progress
      unfold Tracks at hprogress
      rw [hphase] at hprogress
      refine traces_fail h ?_ ?_ rfl hobserved
      · rintro rfl
        exact hprogress
      · rintro rfl
        exact hprogress
  | sought hphase =>
      rename_i origin
      have hprogress := h.progress
      unfold Tracks at hprogress
      rw [hphase] at hprogress
      refine ⟨hobserved, calls_concat h rfl, ?_⟩
      cases origin with
      | opening => exact countP_concat hprogress rfl rfl
      | waiting => exact Acknowledges.concat hprogress rfl rfl rfl
  | copied hphase => exact copied_traces h hphase hobserved
  | entered hphase => exact enter_traces h hphase hobserved
  | polled hphase _ => exact polled_traces h hphase hobserved

end traces

/-- The finished waits of a run are what its actions show. -/
lemma traced_of_run {start : ℕ} {actions : List PollerAction}
    (h : run (step path) (init start) actions = some s) (i : ℕ) (c : PollerCall)
    (hc : s.calls[i]? = some c) : c.Traced start actions i := by
  have hinit : (init start).Traces start [] := by
    refine ⟨rfl, fun i c hc => ?_, rfl⟩
    cases hc
  exact (invariant_of_run_of_trace (step_traces start) hinit h).calls i c hc

end PollSystem

/-! ## Runs -/

/-- **A poller loses no wake-up that it does not report as a failure.** In every run, the waits saw
what its actions show at their call, at their `poll` and at their end. One that returned `Ok`
returned `true` exactly when the interface changed between the last read from its start and the
moment the `poll` returned; it then brought the record up to date, and otherwise left it alone.
Unless a wait fails after a read from the start, that read is the one of the last successful
acknowledgement. A client that takes a snapshot after opening the poller, and a new one after every
wait that returned `true` or failed after such a read, holds the content of the moment of the `poll`
whenever a wait returned `false`. -/
theorem event_poller_run {Content : Type} (content : ℕ → Content) (path : Str) (start : ℕ)
    (actions : List PollerAction) (s : PollSystem)
    (h : run (PollSystem.step path) (PollSystem.init start) actions = some s) :
    (∀ (i : ℕ) (c : PollerCall), s.calls[i]? = some c → c.Traced start actions i) ∧
    (∀ c ∈ s.calls, ∀ ready, c.result = .ok ready →
      (ready = true ↔ c.view.seen < c.view.polled) ∧
      (ready = false → c.after = c.view.seen) ∧ (ready = true → c.view.polled ≤ c.after)) ∧
    (PollSystem.Faultless s.calls → ∀ c ∈ s.calls, c.view.seen = c.view.acked) ∧
    (s.diligent = true → ∀ c ∈ s.calls, c.result = .ok false →
      c.view.snapshot.map content = some (content c.view.polled)) := by
  have hinv := PollSystem.inv_of_run h
  refine ⟨PollSystem.traced_of_run h, ?_, hinv.clean, ?_⟩
  · intro c hc ready hresult
    have hsound := hinv.sound c hc
    refine ⟨hsound.verdict ready hresult, ?_, ?_⟩
    · rintro rfl
      exact hsound.unchanged hresult
    · rintro rfl
      exact hsound.acknowledged hresult
  · intro hdiligent c hc hresult
    rw [hinv.current hdiligent c hc hresult]
    rfl

/-- Opening a poller on an unchanged interface, and a first snapshot. -/
def openedRun : List PollerAction :=
  [.openat (.ok ()), .seek (.ok ()), .read (.ok 9), .read (.ok 0), .snapshot]

/-- A wait that finds the interface changed. -/
def changedRun : List PollerAction :=
  [.change, .wait none, .poll (.ok (1, PollFlags.PRI ||| PollFlags.ERR)), .seek (.ok ())]

/-- A wait that finds nothing. -/
def quietRun : List PollerAction := [.wait none, .poll (.ok (0, 0#16))]

/-- A change that is reported, after an interrupted read, and acknowledged. -/
def reportedState : PollSystem where
  counter := 1
  recorded := 1
  offset := 9
  phase := .idle
  acked := 1
  view := ⟨1, 1, 1, some 1⟩
  snapshot := some 1
  stale := false
  diligent := true
  calls := [⟨.ok true, ⟨0, 0, 1, some 0⟩, 1⟩, ⟨.ok false, ⟨1, 1, 1, some 1⟩, 1⟩]

/-- After the change was reported and a new snapshot taken, nothing is left to report. -/
theorem event_poller_reported :
    run (PollSystem.step "pids.events".toList) (PollSystem.init 0)
      (openedRun ++ changedRun ++
        [.read (.error .INTR), .read (.ok 9), .read (.ok 0), .snapshot] ++ quietRun) =
      some reportedState ∧
    ∀ c ∈ reportedState.calls, c.result = .ok false →
      c.view.snapshot.map id = some (id c.view.polled) := by
  have hrun : run (PollSystem.step "pids.events".toList) (PollSystem.init 0)
      (openedRun ++ changedRun ++
        [.read (.error .INTR), .read (.ok 9), .read (.ok 0), .snapshot] ++ quietRun) =
      some reportedState := by decide
  exact ⟨hrun, (event_poller_run id _ 0 _ reportedState hrun).2.2.2 rfl⟩

/-- The acknowledgement of a change fails on the read after the one from the start. -/
def hiddenState : PollSystem where
  counter := 1
  recorded := 1
  offset := 9
  phase := .idle
  acked := 0
  view := ⟨1, 0, 1, some 0⟩
  snapshot := some 0
  stale := true
  diligent := false
  calls := [⟨.error (Error.read "pids.events".toList ⟨5⟩), ⟨0, 0, 1, some 0⟩, 1⟩,
    ⟨.ok false, ⟨1, 0, 1, some 0⟩, 1⟩]

/-- **A failed acknowledgement hides a change from the next wait**: it returns `false`, although
the interface changed since the last successful acknowledgement, and although the client, which
renewed its snapshot after no wait because none returned `true`, holds an old one. -/
theorem failed_acknowledgement_hides_change :
    run (PollSystem.step "pids.events".toList) (PollSystem.init 0)
      (openedRun ++ changedRun ++ [.read (.ok 9), .read (.error ⟨5⟩)] ++ quietRun) =
      some hiddenState ∧
    (∀ c ∈ hiddenState.calls, c.result ≠ .ok true) ∧
    ∃ c ∈ hiddenState.calls, c.result = .ok false ∧ c.view.acked < c.view.polled ∧
      c.view.snapshot ≠ some c.view.polled := by
  refine ⟨by decide, by decide, ⟨.ok false, ⟨1, 0, 1, some 0⟩, 1⟩, ?_⟩
  decide

end Sakai
