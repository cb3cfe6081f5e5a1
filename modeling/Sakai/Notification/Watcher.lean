import Mathlib.Data.List.Pairwise
import Sakai.Lib.Machine
import Sakai.Notification.Readiness

/-!
# The configuration watcher

A watcher consumes the events that the kernel queues for it. `WatchState` is the kernel queue with
one watcher; its actions are the enqueuing of an event and the system calls of `wait`, each with its
outcome, so that a run interleaves them in any order.

* `ChangeNotification.Reports.includeFlags`: the flags folded from events are those of their union.
* `WatchState.Step.of_step`: what each action does, and in which phase it is possible.
* `WatchState.step_inv`: every action keeps the invariant `WatchState.Inv`: the events enqueued so
  far are those delivered by finished calls, those of the call in progress, and those still queued.
* `configuration_watcher_run`: so in every run the calls that return `Ok` deliver the events in
  queue order and once each, a failed call consumes nothing, and removal is terminal.
-/

namespace Sakai

open Lib

/-! ## Events -/

/-- The flags of one inotify event.
Source: `rustix::fs::inotify::ReadFlags`. -/
abbrev ReadFlags := Flags 32

namespace ReadFlags

/-- The file was written. -/
def MODIFY : ReadFlags := Flags.bit 32 1

/-- The watched file was deleted. -/
def DELETE_SELF : ReadFlags := Flags.bit 32 10

/-- The filesystem was unmounted. -/
def UNMOUNT : ReadFlags := Flags.bit 32 13

/-- The queue overflowed. -/
def QUEUE_OVERFLOW : ReadFlags := Flags.bit 32 14

/-- The watch was removed. -/
def IGNORED : ReadFlags := Flags.bit 32 15

end ReadFlags

/-- Coalesced flags of one batch of events.
Source: `notification.rs`, `ChangeNotification`. -/
structure ChangeNotification where
  /-- A write was observed. -/
  modified : Bool
  /-- The watch is gone. -/
  removed : Bool
  /-- Events were lost by the kernel. -/
  overflowed : Bool
  deriving DecidableEq, Repr

namespace ChangeNotification

/-- No flag is set.
Source: `notification.rs`, the derived `Default` of `ChangeNotification`. -/
def empty : ChangeNotification := ⟨false, false, false⟩

/-- Source: `notification.rs`, `ChangeNotification::include`. -/
def includeFlags (self : ChangeNotification) (flags : ReadFlags) : ChangeNotification where
  modified := self.modified || flags.contains ReadFlags.MODIFY
  removed := self.removed ||
    flags.intersects (ReadFlags.DELETE_SELF ||| ReadFlags.IGNORED ||| ReadFlags.UNMOUNT)
  overflowed := self.overflowed || flags.contains ReadFlags.QUEUE_OVERFLOW

/-- The notification reports exactly the union of the events' flags. -/
structure Reports (n : ChangeNotification) (events : List ReadFlags) : Prop where
  /-- A write. -/
  modified : n.modified = true ↔ ∃ e ∈ events, e.contains ReadFlags.MODIFY = true
  /-- A deletion, the end of the watch, or an unmount. -/
  removed : n.removed = true ↔ ∃ e ∈ events, e.contains ReadFlags.DELETE_SELF = true ∨
    e.contains ReadFlags.IGNORED = true ∨ e.contains ReadFlags.UNMOUNT = true
  /-- An overflow. -/
  overflowed : n.overflowed = true ↔ ∃ e ∈ events, e.contains ReadFlags.QUEUE_OVERFLOW = true

/-- The three ways to lose the watch. -/
lemma intersects_removal (e : ReadFlags) :
    e.intersects (ReadFlags.DELETE_SELF ||| ReadFlags.IGNORED ||| ReadFlags.UNMOUNT) = true ↔
      e.contains ReadFlags.DELETE_SELF = true ∨ e.contains ReadFlags.IGNORED = true ∨
        e.contains ReadFlags.UNMOUNT = true := by
  unfold ReadFlags.DELETE_SELF ReadFlags.IGNORED ReadFlags.UNMOUNT
  rw [Flags.intersects_or, Flags.intersects_or, Flags.intersects_bit e (by decide),
    Flags.intersects_bit e (by decide), Flags.intersects_bit e (by decide),
    Flags.contains_bit e (by decide), Flags.contains_bit e (by decide),
    Flags.contains_bit e (by decide), Bool.or_eq_true, Bool.or_eq_true, or_assoc]

/-- An included event is reported with the events before it. -/
lemma Reports.includeFlags {n : ChangeNotification} {events : List ReadFlags} (h : n.Reports events)
    (e : ReadFlags) : (n.includeFlags e).Reports (events ++ [e]) := by
  have hlast : ∀ P : ReadFlags → Prop, (∃ x ∈ events ++ [e], P x) ↔ (∃ x ∈ events, P x) ∨ P e := by
    intro P
    simp only [List.mem_append, List.mem_singleton, or_and_right, exists_or, exists_eq_left]
  constructor
  · rw [hlast, ← h.modified]
    exact Bool.or_eq_true_iff
  · rw [hlast, ← h.removed, ← intersects_removal]
    exact Bool.or_eq_true_iff
  · rw [hlast, ← h.overflowed]
    exact Bool.or_eq_true_iff

/-- Nothing is reported of no events. -/
lemma reports_empty : empty.Reports [] := by
  constructor <;> simp [empty]

/-- A notification is empty exactly when no flag is set. -/
lemma eq_empty_iff {n : ChangeNotification} :
    n = empty ↔ n.modified = false ∧ n.removed = false ∧ n.overflowed = false := by
  cases n
  simp [empty]

end ChangeNotification

/-! ## The system -/

/-- Where the watcher stands: between calls of `wait`, before the `poll` of a call, or before
`Reader::next`, with the events left in the reader's buffer and the flags folded so far. -/
inductive WatchPhase
  | idle
  | poll
  | next (buffer : List ReadFlags) (notification : ChangeNotification)
  deriving DecidableEq, Repr

/-- The events in the reader's buffer. -/
def WatchPhase.buffer : WatchPhase → List ReadFlags
  | .next buffer _ => buffer
  | _ => []

/-- A finished call of `wait`. -/
structure WatchCall where
  /-- What it returned. -/
  result : Except Error (Option ChangeNotification)
  /-- The events it consumed. -/
  events : List ReadFlags
  /-- The watcher's flag when it was called. -/
  before : Bool
  /-- The watcher's flag when it returned. -/
  after : Bool
  deriving DecidableEq, Repr

/-- The kernel queue and a watcher, with the history of both. -/
structure WatchState where
  /-- The events queued in the kernel, oldest first. -/
  queue : List ReadFlags
  /-- The watcher's flag.
  Source: `notification.rs`, `ConfigurationWatcher::removed`. -/
  removed : Bool
  /-- Where the watcher stands. -/
  phase : WatchPhase
  /-- All events enqueued so far. -/
  sent : List ReadFlags
  /-- The events consumed by the call in progress. -/
  batch : List ReadFlags
  /-- The flag when the call in progress was made. -/
  entry : Bool
  /-- The finished calls, oldest first. -/
  calls : List WatchCall
  deriving DecidableEq, Repr

/-- What can happen next: the kernel enqueues an event, the caller calls `wait`, or the call in
progress makes its next system call or takes an event from the reader's buffer. A read that
succeeds moves a number of events into the buffer. -/
inductive WatchAction
  | enqueue (event : ReadFlags)
  | wait (timeout : Option Duration)
  | poll (outcome : PollOutcome)
  | read (outcome : Except Errno ℕ)
  | next
  deriving DecidableEq

namespace WatchState

/-- A watcher as it is opened.
Source: `notification.rs`, the result of `ConfigurationWatcher::open`. -/
def init : WatchState := ⟨[], false, .idle, [], [], false, []⟩

/-- The call in progress returns, leaving the flag. -/
def finish (s : WatchState) (result : Except Error (Option ChangeNotification)) (removed : Bool) :
    WatchState :=
  { s with
    removed := removed
    phase := .idle
    batch := []
    calls := s.calls ++ [⟨result, s.batch, s.entry, removed⟩] }

/-- The call in progress returns an error. -/
def fail (s : WatchState) (error : Error) : WatchState := s.finish (.error error) s.removed

/-- The flag is recorded at the beginning of a call. -/
def entered (s : WatchState) : WatchState := { s with entry := s.removed }

/-- The call begins: it fails on a removed watch, and on a timeout out of range.
Source: `notification.rs`, `ConfigurationWatcher::wait`, up to `poll`. -/
def enter (s : WatchState) (timeout : Option Duration) : WatchState :=
  match s.removed with
  | true => s.entered.fail (.io (.os .PIPE))
  | false =>
    match Readiness.timespec timeout with
    | .error error => s.entered.fail error
    | .ok _ => { s.entered with phase := .poll }

/-- `poll` returned; a ready descriptor gets a reader with an empty buffer.
Source: `notification.rs`, `ConfigurationWatcher::wait`, from `poll` to the loop. -/
def polled (s : WatchState) (outcome : PollOutcome) : WatchState :=
  match Readiness.readiness PollFlags.IN outcome with
  | .error error => s.fail error
  | .ok false => s.finish (.ok none) s.removed
  | .ok true => { s with phase := .next [] ChangeNotification.empty }

/-- The loop is left.
Source: `notification.rs`, `ConfigurationWatcher::wait`, after the loop. -/
def close (s : WatchState) (notification : ChangeNotification) : WatchState :=
  s.finish (.ok (if notification ≠ ChangeNotification.empty then some notification else none))
    notification.removed

/-- `Reader::next` returned an event, leaving `rest` in the buffer; an empty buffer ends the loop.
Source: `notification.rs`, `ConfigurationWatcher::wait`, the loop on `Ok`. -/
def received (s : WatchState) (notification : ChangeNotification) (event : ReadFlags)
    (rest : List ReadFlags) : WatchState :=
  let notification := notification.includeFlags event
  let s := { s with batch := s.batch ++ [event] }
  match rest with
  | [] => s.close notification
  | _ :: _ => { s with phase := .next rest notification }

/-- `Reader::next` found its buffer empty and made a read: the read fails, or moves events from
the queue into the buffer, of which the first is returned.
Source: `notification.rs`, `ConfigurationWatcher::wait`, the loop on `reader.next()`. -/
def read (s : WatchState) (notification : ChangeNotification) :
    Except Errno ℕ → Option WatchState
  | .error errno =>
    if errno = .AGAIN then some (s.close notification) else some (s.fail (.io (.os errno)))
  | .ok n =>
    match s.queue.take n with
    | [] => none
    | event :: rest => some ({ s with queue := s.queue.drop n }.received notification event rest)

/-- The state after an action, when it is possible. -/
def step (s : WatchState) : WatchAction → Option WatchState
  | .enqueue event => some { s with queue := s.queue ++ [event], sent := s.sent ++ [event] }
  | .wait timeout =>
    match s.phase with
    | .idle => some (s.enter timeout)
    | _ => none
  | .poll outcome =>
    match s.phase with
    | .poll => some (s.polled outcome)
    | _ => none
  | .read outcome =>
    match s.phase with
    | .next [] notification => s.read notification outcome
    | _ => none
  | .next =>
    match s.phase with
    | .next (event :: rest) notification => some (s.received notification event rest)
    | _ => none

/-- What an action does, and in which phase it is possible. -/
inductive Step (s : WatchState) : WatchAction → WatchState → Prop
  /-- The kernel queues an event. -/
  | enqueue {event : ReadFlags} :
      Step s (.enqueue event) { s with queue := s.queue ++ [event], sent := s.sent ++ [event] }
  /-- A call begins. -/
  | entered {timeout : Option Duration} (hphase : s.phase = .idle) :
      Step s (.wait timeout) (s.enter timeout)
  /-- `poll` returned. -/
  | polled {outcome : PollOutcome} (hphase : s.phase = .poll) :
      Step s (.poll outcome) (s.polled outcome)
  /-- The reader made a read, its buffer being empty. -/
  | read {notification : ChangeNotification} {outcome : Except Errno ℕ} {s' : WatchState}
      (hphase : s.phase = .next [] notification) (hread : s.read notification outcome = some s') :
      Step s (.read outcome) s'
  /-- The reader returned the next event of its buffer. -/
  | received {notification : ChangeNotification} {event : ReadFlags} {rest : List ReadFlags}
      (hphase : s.phase = .next (event :: rest) notification) :
      Step s .next (s.received notification event rest)

/-- **What a step does.** -/
lemma Step.of_step {s s' : WatchState} {a : WatchAction} (h : s.step a = some s') :
    Step s a s' := by
  cases a with
  | enqueue event =>
      cases h
      exact enqueue
  | wait timeout =>
      rcases hphase : s.phase with _ | _ | ⟨buffer, notification⟩
      case idle =>
        simp only [step, hphase] at h
        cases h
        exact entered hphase
      all_goals simp [step, hphase] at h
  | poll outcome =>
      rcases hphase : s.phase with _ | _ | ⟨buffer, notification⟩
      case poll =>
        simp only [step, hphase] at h
        cases h
        exact polled hphase
      all_goals simp [step, hphase] at h
  | read outcome =>
      rcases hphase : s.phase with _ | _ | ⟨_ | ⟨event, rest⟩, notification⟩
      case next.nil =>
        simp only [step, hphase] at h
        exact read hphase h
      all_goals simp [step, hphase] at h
  | next =>
      rcases hphase : s.phase with _ | _ | ⟨_ | ⟨event, rest⟩, notification⟩
      case next.cons =>
        simp only [step, hphase] at h
        cases h
        exact received hphase
      all_goals simp [step, hphase] at h

end WatchState

/-! ## The invariant -/

namespace WatchCall

/-- The call reported that the watch is gone. -/
def ReportsRemoval (c : WatchCall) : Prop := ∃ n, c.result = .ok (some n) ∧ n.removed = true

/-- A failed call consumed nothing and left the flag; any other returned the union of the events it
consumed, or nothing when none of them sets a flag, and the flag tells whether it reported
removal. -/
def Sound (c : WatchCall) : Prop :=
  match c.result with
  | .error _ => c.events = [] ∧ c.after = c.before
  | .ok o => ∃ n : ChangeNotification, n.Reports c.events ∧ c.after = n.removed ∧
      o = if n ≠ ChangeNotification.empty then some n else none

/-- A call with a sound result reported removal exactly when it left the flag set. -/
lemma reportsRemoval_of_ok {n : ChangeNotification} {events : List ReadFlags} {before : Bool} :
    ReportsRemoval ⟨.ok (if n ≠ ChangeNotification.empty then some n else none), events, before,
      n.removed⟩ ↔ n.removed = true := by
  unfold ReportsRemoval
  constructor
  · intro ⟨m, hm, hremoved⟩
    have hsome : (if n ≠ ChangeNotification.empty then some n else none) = some m :=
      Except.ok.inj hm
    split_ifs at hsome
    cases hsome
    exact hremoved
  · intro h
    have hne : n ≠ ChangeNotification.empty := by
      rintro rfl
      cases h
    exact ⟨n, by rw [if_pos hne], h⟩

end WatchCall

namespace WatchState

/-- What the finished calls of a watcher satisfy. -/
structure History (s : WatchState) : Prop where
  /-- Each of them is sound. -/
  sound : ∀ c ∈ s.calls, c.Sound
  /-- The flag is set exactly when one of them reported removal. -/
  flag : s.removed = true ↔ ∃ c ∈ s.calls, c.ReportsRemoval
  /-- Those after a reported removal fail and consume nothing. -/
  terminal : s.calls.Pairwise fun c d =>
    c.ReportsRemoval → d.result = .error (.io (.os .PIPE)) ∧ d.events = []

/-- What the call in progress satisfies: it was made on a live watch, the folded flags report what
it consumed, and before its read it consumed nothing. -/
def Progress (s : WatchState) : Prop :=
  match s.phase with
  | .idle => s.batch = []
  | .poll => s.batch = [] ∧ s.removed = false ∧ s.entry = false
  | .next buffer notification => notification.Reports s.batch ∧ (buffer = [] → s.batch = []) ∧
      s.removed = false ∧ s.entry = false

/-- The invariant of a watcher. -/
structure Inv (s : WatchState) : Prop where
  /-- The events enqueued are those delivered, in progress and queued, in this order. -/
  conserved : s.sent = s.calls.flatMap WatchCall.events ++ (s.batch ++ (s.phase.buffer ++ s.queue))
  /-- The finished calls. -/
  history : s.History
  /-- The call in progress. -/
  progress : s.Progress

/-- Between calls nothing is consumed. -/
lemma Inv.of_idle {s : WatchState} (h : s.Inv) (hphase : s.phase = .idle) : s.batch = [] := by
  simpa only [Progress, hphase] using h.progress

/-- Before it reads, a call has consumed nothing on a live watch. -/
lemma Inv.of_poll {s : WatchState} (h : s.Inv) (hphase : s.phase = .poll) :
    s.batch = [] ∧ s.removed = false ∧ s.entry = false := by
  simpa only [Progress, hphase] using h.progress

/-- While it reads, the folded flags report what a call has consumed on a live watch. -/
lemma Inv.of_next {s : WatchState} {buffer : List ReadFlags} {notification : ChangeNotification}
    (h : s.Inv) (hphase : s.phase = .next buffer notification) :
    notification.Reports s.batch ∧ (buffer = [] → s.batch = []) ∧
      s.removed = false ∧ s.entry = false := by
  simpa only [Progress, hphase] using h.progress

/-- A watcher as it is opened satisfies the invariant. -/
lemma init_inv : init.Inv := by
  refine ⟨rfl, ⟨?_, ?_, List.Pairwise.nil⟩, rfl⟩
  · intro c hc
    cases hc
  · simp [init]

variable {s : WatchState} {result : Except Error (Option ChangeNotification)} {removed : Bool}

/-- A finished call extends the history, when it is sound, sets the flag exactly when it reports
removal, and fails with nothing consumed on a removed watch. -/
lemma History.finish (h : s.History)
    (hsound : WatchCall.Sound ⟨result, s.batch, s.entry, removed⟩)
    (hlive : s.removed = false →
      (removed = true ↔ WatchCall.ReportsRemoval ⟨result, s.batch, s.entry, removed⟩))
    (hgone : s.removed = true →
      removed = true ∧ result = .error (.io (.os .PIPE)) ∧ s.batch = []) :
    (s.finish result removed).History := by
  have hmem : ∀ P : WatchCall → Prop, (∃ c ∈ (s.finish result removed).calls, P c) ↔
      (∃ c ∈ s.calls, P c) ∨ P ⟨result, s.batch, s.entry, removed⟩ := by
    intro P
    unfold WatchState.finish
    simp only [List.mem_append, List.mem_singleton, or_and_right, exists_or, exists_eq_left]
  refine ⟨?_, ?_, ?_⟩
  · intro c hc
    rcases List.mem_append.mp hc with hc | hc
    · exact h.sound c hc
    · rw [List.mem_singleton.mp hc]
      exact hsound
  · rw [hmem, ← h.flag]
    show removed = true ↔ _
    cases hremoved : s.removed with
    | false => simp [hlive hremoved]
    | true => simp [(hgone hremoved).1]
  · refine List.pairwise_append.mpr ⟨h.terminal, List.pairwise_singleton _ _, ?_⟩
    intro c hc d hd hreports
    rw [List.mem_singleton.mp hd]
    exact (hgone (h.flag.mpr ⟨c, hc, hreports⟩)).2

/-- The events of a finished call are delivered. -/
lemma conserved_finish
    (h : s.sent = s.calls.flatMap WatchCall.events ++ (s.batch ++ s.queue)) :
    (s.finish result removed).sent =
      (s.finish result removed).calls.flatMap WatchCall.events ++
        ((s.finish result removed).batch ++
          ((s.finish result removed).phase.buffer ++ (s.finish result removed).queue)) := by
  show s.sent = _
  rw [h]
  simp [finish, WatchPhase.buffer]

/-- A call that fails before it consumed anything keeps the invariant; on a removed watch it must
fail as such. -/
lemma fail_inv {error : Error} (hhistory : s.History)
    (hconserved : s.sent = s.calls.flatMap WatchCall.events ++ s.queue) (hbatch : s.batch = [])
    (hentry : s.entry = s.removed) (hgone : s.removed = true → error = .io (.os .PIPE)) :
    (s.fail error).Inv := by
  refine ⟨conserved_finish (by rw [hconserved, hbatch, List.nil_append]), ?_, rfl⟩
  refine hhistory.finish ⟨hbatch, hentry.symm⟩ ?_ ?_
  · intro hlive
    rw [hlive]
    apply iff_of_false Bool.false_ne_true
    intro ⟨n, hn, _⟩
    cases hn
  · intro hremoved
    exact ⟨hremoved, by rw [hgone hremoved], hbatch⟩

/-- A call that leaves its loop keeps the invariant. -/
lemma close_inv {notification : ChangeNotification} (hhistory : s.History)
    (hconserved : s.sent = s.calls.flatMap WatchCall.events ++ (s.batch ++ s.queue))
    (hreports : notification.Reports s.batch) (hlive : s.removed = false) :
    (s.close notification).Inv := by
  refine ⟨conserved_finish hconserved, ?_, rfl⟩
  refine hhistory.finish ⟨notification, hreports, rfl, rfl⟩ ?_ ?_
  · intro _
    exact WatchCall.reportsRemoval_of_ok.symm
  · intro hremoved
    rw [hlive] at hremoved
    cases hremoved

/-- A call begins. -/
lemma enter_inv {timeout : Option Duration} (h : s.Inv) (hphase : s.phase = .idle) :
    (s.enter timeout).Inv := by
  have hbatch := h.of_idle hphase
  have hconserved := h.conserved
  rw [hphase, hbatch] at hconserved
  have hhistory : s.entered.History := ⟨h.history.sound, h.history.flag, h.history.terminal⟩
  unfold enter
  cases hremoved : s.removed with
  | true => exact fail_inv hhistory hconserved hbatch rfl fun _ => rfl
  | false =>
      cases Readiness.timespec timeout with
      | error error =>
          apply fail_inv hhistory hconserved hbatch rfl
          intro htrue
          cases hremoved.symm.trans htrue
      | ok timespec =>
          refine ⟨?_, ⟨hhistory.sound, hhistory.flag, hhistory.terminal⟩, hbatch, hremoved,
            hremoved⟩
          show s.sent = _ ++ (s.batch ++ _)
          rw [hconserved, hbatch]
          rfl

/-- `poll` returned. -/
lemma polled_inv {outcome : PollOutcome} (h : s.Inv) (hphase : s.phase = .poll) :
    (s.polled outcome).Inv := by
  obtain ⟨hbatch, hremoved, hentry⟩ := h.of_poll hphase
  have hconserved := h.conserved
  rw [hphase, hbatch] at hconserved
  unfold polled
  rcases Readiness.readiness PollFlags.IN outcome with error | ready
  · apply fail_inv h.history hconserved hbatch (hentry.trans hremoved.symm)
    intro htrue
    cases hremoved.symm.trans htrue
  · cases ready with
    | false =>
        -- Nothing was consumed: the call returns the notification of no events.
        have hclose := close_inv (s := s) h.history (by rw [hconserved, hbatch]; rfl)
          (hbatch ▸ ChangeNotification.reports_empty) hremoved
        unfold close at hclose
        rw [if_neg (by simp)] at hclose
        show (s.finish (.ok none) s.removed).Inv
        rw [hremoved]
        exact hclose
    | true =>
        refine ⟨?_, ⟨h.history.sound, h.history.flag, h.history.terminal⟩, ?_, fun _ => hbatch,
          hremoved, hentry⟩
        · show s.sent = _ ++ (s.batch ++ _)
          rw [hconserved, hbatch]
          rfl
        · show ChangeNotification.empty.Reports s.batch
          rw [hbatch]
          exact ChangeNotification.reports_empty

/-- An event was returned by the reader. -/
lemma received_inv {notification : ChangeNotification} {event : ReadFlags} {rest : List ReadFlags}
    (hhistory : s.History)
    (hconserved : s.sent =
      s.calls.flatMap WatchCall.events ++ (s.batch ++ (event :: rest ++ s.queue)))
    (hreports : notification.Reports s.batch) (hremoved : s.removed = false)
    (hentry : s.entry = false) : (s.received notification event rest).Inv := by
  have hbatch := hreports.includeFlags event
  have hhistory' : ({ s with batch := s.batch ++ [event] } : WatchState).History :=
    ⟨hhistory.sound, hhistory.flag, hhistory.terminal⟩
  unfold received
  cases rest with
  | nil =>
      refine close_inv hhistory' ?_ hbatch hremoved
      rw [hconserved]
      simp
  | cons event' rest =>
      refine ⟨?_, ⟨hhistory.sound, hhistory.flag, hhistory.terminal⟩, hbatch, ?_, hremoved, hentry⟩
      · show s.sent = _
        rw [hconserved]
        simp [WatchPhase.buffer]
      · intro hnil
        cases hnil

/-- The reader made a read. -/
lemma read_inv {notification : ChangeNotification} {outcome : Except Errno ℕ} {s' : WatchState}
    (h : s.Inv) (hphase : s.phase = .next [] notification)
    (hread : s.read notification outcome = some s') : s'.Inv := by
  obtain ⟨hreports, hbatch, hremoved, hentry⟩ := h.of_next hphase
  have hnil := hbatch rfl
  have hconserved := h.conserved
  rw [hphase] at hconserved
  rcases outcome with errno | n
  · simp only [read] at hread
    split_ifs at hread with hagain
    · cases hread
      exact close_inv h.history hconserved hreports hremoved
    · cases hread
      rw [hnil] at hconserved
      apply fail_inv h.history hconserved hnil (hentry.trans hremoved.symm)
      intro htrue
      cases hremoved.symm.trans htrue
  · simp only [read] at hread
    cases hmoved : s.queue.take n with
    | nil =>
        rw [hmoved] at hread
        cases hread
    | cons event rest =>
        rw [hmoved] at hread
        cases hread
        refine received_inv ⟨h.history.sound, h.history.flag, h.history.terminal⟩ ?_ hreports
          hremoved hentry
        show s.sent = _
        rw [hconserved, ← hmoved, List.take_append_drop]
        rfl

/-- **Every action keeps the invariant.** -/
theorem step_inv (s : WatchState) (a : WatchAction) (s' : WatchState) (h : s.Inv)
    (hstep : s.step a = some s') : s'.Inv := by
  cases Step.of_step hstep with
  | enqueue =>
      refine ⟨?_, ⟨h.history.sound, h.history.flag, h.history.terminal⟩, h.progress⟩
      rw [h.conserved]
      simp
  | entered hphase => exact enter_inv h hphase
  | polled hphase => exact polled_inv h hphase
  | read hphase hread => exact read_inv h hphase hread
  | received hphase =>
      obtain ⟨hreports, -, hremoved, hentry⟩ := h.of_next hphase
      refine received_inv h.history ?_ hreports hremoved hentry
      rw [h.conserved, hphase]
      rfl

/-! ## Runs -/

/-- The invariant holds in every run of a watcher. -/
lemma inv_of_run {actions : List WatchAction} (h : run step init actions = some s) : s.Inv :=
  invariant_of_run step_inv init_inv h

/-- The calls that returned `Ok`. -/
def returned (s : WatchState) : List WatchCall := s.calls.filter fun c => c.result.isOk

/-- The events that no finished call has delivered: those of the call in progress, and those still
queued. -/
def pending (s : WatchState) : List ReadFlags := s.batch ++ (s.phase.buffer ++ s.queue)

/-- Only calls that returned `Ok` deliver events. -/
lemma flatMap_events_returned (h : s.History) :
    s.returned.flatMap WatchCall.events = s.calls.flatMap WatchCall.events := by
  have hsound := h.sound
  unfold returned
  generalize s.calls = calls at hsound ⊢
  induction calls with
  | nil => rfl
  | cons c calls ih =>
      have htail := ih fun d hd => hsound d (List.mem_cons_of_mem c hd)
      have hc := hsound c List.mem_cons_self
      unfold WatchCall.Sound at hc
      rcases hresult : c.result with error | o
      · rw [hresult] at hc
        rw [List.filter_cons_of_neg (by simp [hresult, Except.isOk, Except.toBool]), htail,
          List.flatMap_cons, hc.1, List.nil_append]
      · rw [List.filter_cons_of_pos (by simp [hresult, Except.isOk, Except.toBool]),
          List.flatMap_cons, List.flatMap_cons, htail]

/-- No call is in progress on a removed watch. -/
lemma idle_of_removed (h : s.Inv) (hremoved : s.removed = true) : s.phase = .idle := by
  cases hphase : s.phase with
  | idle => rfl
  | poll =>
      have hlive := (h.of_poll hphase).2.1
      cases hremoved.symm.trans hlive
  | next buffer notification =>
      have hlive := (h.of_next hphase).2.2.1
      cases hremoved.symm.trans hlive

end WatchState

/-- A call that returned `Ok` reports the union of the events it consumed, and nothing exactly when
none of them sets a flag. -/
lemma WatchCall.Sound.reports {c : WatchCall} (h : c.Sound) {o : Option ChangeNotification}
    (hresult : c.result = .ok o) :
    (∀ n, o = some n → n.Reports c.events) ∧
      (o = none ↔ ChangeNotification.empty.Reports c.events) := by
  unfold WatchCall.Sound at h
  rw [hresult] at h
  obtain ⟨n, hreports, -, rfl⟩ := h
  by_cases hempty : n = ChangeNotification.empty
  · subst hempty
    refine ⟨fun m hm => ?_, iff_of_true (if_neg (by simp)) hreports⟩
    rw [if_neg (by simp)] at hm
    cases hm
  · rw [if_pos hempty]
    refine ⟨fun m hm => Option.some.inj hm ▸ hreports, iff_of_false (by simp) fun h => hempty ?_⟩
    rw [ChangeNotification.eq_empty_iff, ← Bool.not_eq_true, ← Bool.not_eq_true, ← Bool.not_eq_true,
      hreports.modified, hreports.removed, hreports.overflowed, ← h.modified, ← h.removed,
      ← h.overflowed]
    exact ⟨Bool.false_ne_true, Bool.false_ne_true, Bool.false_ne_true⟩

/-- **A watcher loses no event and is terminal after removal.** In every run, the calls that
returned `Ok` have consumed, in queue order and once each, the events that are no longer pending;
a failed call consumed nothing and left the flag; a call that returned `Ok` reported the union of
its events, or nothing when they set no flag; the flag is set exactly when a call reported
removal, and then no call is in progress and every later one failed without consuming anything. -/
theorem configuration_watcher_run (actions : List WatchAction) (s : WatchState)
    (h : run WatchState.step WatchState.init actions = some s) :
    s.sent = s.returned.flatMap WatchCall.events ++ s.pending ∧
    (∀ c ∈ s.calls, ∀ error, c.result = .error error → c.events = [] ∧ c.after = c.before) ∧
    (∀ c ∈ s.calls, ∀ o, c.result = .ok o →
      (∀ n, o = some n → n.Reports c.events) ∧
      (o = none ↔ ChangeNotification.empty.Reports c.events)) ∧
    (s.removed = true ↔ ∃ c ∈ s.calls, c.ReportsRemoval) ∧
    (s.removed = true → s.phase = .idle) ∧
    s.calls.Pairwise fun c d =>
      c.ReportsRemoval → d.result = .error (.io (.os .PIPE)) ∧ d.events = [] := by
  have hinv := WatchState.inv_of_run h
  refine ⟨?_, ?_, ?_, hinv.history.flag, WatchState.idle_of_removed hinv, hinv.history.terminal⟩
  · rw [WatchState.flatMap_events_returned hinv.history]
    exact hinv.conserved
  · intro c hc error hresult
    have hsound := hinv.history.sound c hc
    unfold WatchCall.Sound at hsound
    rwa [hresult] at hsound
  · intro c hc o hresult
    exact (hinv.history.sound c hc).reports hresult

/-- A read of two of three events, of which one ends the watch, a call after that, and an event
that stays queued. -/
def removedRun : List WatchAction :=
  [.enqueue ReadFlags.MODIFY, .wait none, .poll (.error .INTR), .enqueue ReadFlags.IGNORED,
    .wait none, .poll (.ok (1, PollFlags.IN)), .read (.ok 2), .enqueue ReadFlags.QUEUE_OVERFLOW,
    .next, .wait none]

/-- The state after it. -/
def removedState : WatchState where
  queue := [ReadFlags.QUEUE_OVERFLOW]
  removed := true
  phase := .idle
  sent := [ReadFlags.MODIFY, ReadFlags.IGNORED, ReadFlags.QUEUE_OVERFLOW]
  batch := []
  entry := true
  calls := [⟨.error (.io (.os .INTR)), [], false, false⟩,
    ⟨.ok (some ⟨true, true, false⟩), [ReadFlags.MODIFY, ReadFlags.IGNORED], false, true⟩,
    ⟨.error (.io (.os .PIPE)), [], true, true⟩]

/-- The run delivers the first two events once and keeps the third. -/
theorem configuration_watcher_removed :
    run WatchState.step WatchState.init removedRun = some removedState ∧
    removedState.sent =
      removedState.returned.flatMap WatchCall.events ++ [ReadFlags.QUEUE_OVERFLOW] := by
  have hrun : run WatchState.step WatchState.init removedRun = some removedState := by decide
  exact ⟨hrun, (configuration_watcher_run removedRun removedState hrun).1⟩

end Sakai
