import Sakai.Lib.Exclusive
import Sakai.Notification.Poller
import Sakai.Notification.Watcher

/-!
# The monitors of the Python module

A monitor is shared between the threads of an interpreter: a wait checks its timeout, tries the
lock of the monitor, and raises an exception at once when another wait holds it. `watchMachine` and
`pollMachine` are the watcher and the poller as machines of calls, so that `Exclusive` is the
monitor.

* `WaitTimeout.timespec_of_parse`: a timeout that is accepted is one the kernel accepts.
* `watchMachine_lawful`, `pollMachine_lawful`: what `Exclusive` asks of both; no call fails for a
  timeout in range.
* `watcher_monitor_run`: in every run of any number of threads, the waits finish under the lock in
  the order in which they have begun, and are returned once each to the thread that called; they
  have delivered the events in queue order and once each, and none failed for its timeout; after a
  wait that reported removal every later one failed as a broken pipe.
* `poller_monitor_run`: the waits of a shared poller report exactly whether the interface changed
  since the last read from its start.
-/

namespace Sakai

open Lib

/-! ## Timeouts -/

/-- The exception of an invalid timeout.
Source: `sakai-python`, `notification.rs`, the `PyValueError` of `WaitTimeout::parse`. -/
def WaitTimeout.message : String :=
  "timeout must be finite, nonnegative seconds within the supported duration range"

/-- The timeout of a wait. Numbers of seconds are converted by the standard library.
Source: `sakai-python`, `notification.rs`, `WaitTimeout::parse`. -/
def WaitTimeout.parse {F : Type} (tryFromSecs : F → Option Duration) :
    Option F → Except String (Option Duration)
  | none => .ok none
  | some seconds =>
    match (tryFromSecs seconds).filter fun duration => duration.secs.toNat < 2 ^ 63 with
    | some duration => .ok (some duration)
    | none => .error WaitTimeout.message

/-- **An accepted timeout is in the range of the kernel.** -/
lemma WaitTimeout.timespec_of_parse {F : Type} {tryFromSecs : F → Option Duration}
    {seconds : Option F} {timeout : Option Duration}
    (h : WaitTimeout.parse tryFromSecs seconds = .ok timeout) :
    ∃ timespec, Readiness.timespec timeout = .ok timespec := by
  cases seconds with
  | none =>
      cases h
      exact ⟨none, rfl⟩
  | some seconds =>
      simp only [WaitTimeout.parse] at h
      rcases hfilter : (tryFromSecs seconds).filter
        (fun duration => duration.secs.toNat < 2 ^ 63) with _ | duration
      · rw [hfilter] at h
        cases h
      · rw [hfilter] at h
        cases h
        have hrange : duration.secs.toNat < 2 ^ 63 := by
          simpa using (Option.filter_eq_some_iff.mp hfilter).2
        exact ⟨some ⟨duration.secs, duration.nanos, hrange⟩, dif_pos hrange⟩

/-- The error of a timeout out of range. -/
def Error.outOfRange : Error := .io .invalidInput

/-- A failed poll reports an error number. -/
lemma Readiness.readiness_ne_outOfRange {interest : PollFlags} {outcome : PollOutcome} :
    Readiness.readiness interest outcome ≠ .error Error.outOfRange := by
  rcases outcome with errno | ⟨_ | count, flags⟩
  · intro h
    cases h
  · intro h
    cases h
  · simp only [Readiness.readiness]
    split_ifs <;> intro h <;> cases h

/-- A failed read is no error of a timeout. -/
lemma Error.read_ne_outOfRange (path : Str) (errno : Errno) :
    Error.read path errno ≠ Error.outOfRange := by
  unfold Error.read
  split_ifs <;> intro h <;> cases h

/-! ## The watcher -/

/-- The watcher between calls. -/
def WatchPhase.isIdle : WatchPhase → Bool
  | .idle => true
  | _ => false

/-- The watcher as a machine of calls. -/
def watchMachine : CallMachine WatchState WatchAction WatchCall where
  step := WatchState.step
  calls := WatchState.calls
  idle s := s.phase.isIdle
  begins
    | .wait _ => true
    | _ => false

namespace WatchState

variable {s t : WatchState}

/-- The action is not a wait with a timeout out of range. -/
def InRange (a : WatchAction) : Prop :=
  ∀ timeout, a = .wait timeout → ∃ timespec, Readiness.timespec timeout = .ok timespec

/-- The call did not fail for its timeout. -/
def Timely (c : WatchCall) : Prop := c.result ≠ .error Error.outOfRange

/-- A call that finishes. -/
lemma goesOn_finish {result : Except Error (Option ChangeNotification)} {removed : Bool}
    (hresult : result ≠ .error Error.outOfRange) :
    watchMachine.GoesOn Timely s (s.finish result removed) := .inr ⟨_, rfl, rfl, hresult⟩

/-- A call that begins. -/
lemma goesOn_enter (s : WatchState) (timeout : Option Duration) :
    watchMachine.GoesOn (fun c => InRange (.wait timeout) → Timely c) s (s.enter timeout) := by
  unfold enter
  cases s.removed with
  | true =>
      refine .inr ⟨_, rfl, rfl, fun _ hresult => ?_⟩
      cases hresult
  | false =>
      rcases htimespec : Readiness.timespec timeout with error | timespec
      · refine .inr ⟨_, rfl, rfl, fun hrange _ => ?_⟩
        obtain ⟨timespec, hok⟩ := hrange timeout rfl
        cases htimespec.symm.trans hok
      · exact .inl ⟨rfl, rfl⟩

/-- A call after its `poll`. -/
lemma goesOn_polled (s : WatchState) (outcome : PollOutcome) :
    watchMachine.GoesOn Timely s (s.polled outcome) := by
  unfold polled
  rcases hready : Readiness.readiness PollFlags.IN outcome with error | _ | _
  · apply goesOn_finish
    intro hresult
    cases hresult
    exact Readiness.readiness_ne_outOfRange hready
  · apply goesOn_finish
    intro hresult
    cases hresult
  · exact .inl ⟨rfl, rfl⟩

/-- A call whose reader returned an event. -/
lemma goesOn_received (s : WatchState) (notification : ChangeNotification) (event : ReadFlags)
    (rest : List ReadFlags) :
    watchMachine.GoesOn Timely s (s.received notification event rest) := by
  unfold received
  cases rest with
  | nil =>
      refine .inr ⟨_, rfl, rfl, fun hresult => ?_⟩
      cases hresult
  | cons event' rest => exact .inl ⟨rfl, rfl⟩

/-- A call whose reader made a read. -/
lemma goesOn_read {notification : ChangeNotification} {outcome : Except Errno ℕ}
    (h : s.read notification outcome = some t) : watchMachine.GoesOn Timely s t := by
  rcases outcome with errno | n
  · simp only [read] at h
    split_ifs at h with hagain
    · cases h
      apply goesOn_finish
      intro hresult
      cases hresult
    · cases h
      apply goesOn_finish
      intro hresult
      cases hresult
  · simp only [read] at h
    rcases hmoved : s.queue.take n with _ | ⟨event, rest⟩
    · rw [hmoved] at h
      cases h
    · rw [hmoved] at h
      cases h
      exact goesOn_received { s with queue := s.queue.drop n } notification event rest

end WatchState

/-- **A watcher serves one call after another**, and none fails for a timeout in range. -/
lemma watchMachine_lawful : watchMachine.Lawful WatchState.InRange WatchState.Timely := by
  refine ⟨?_, ?_, ?_, ?_⟩
  · intro s a t hstep hbegins
    cases WatchState.Step.of_step hstep with
    | entered hphase =>
        show s.phase.isIdle = true
        rw [hphase]
        rfl
    | enqueue => cases hbegins
    | polled _ => cases hbegins
    | read _ _ => cases hbegins
    | received _ => cases hbegins
  · intro s a t hstep hbegins
    cases WatchState.Step.of_step hstep with
    | entered _ => exact WatchState.goesOn_enter s _
    | enqueue => cases hbegins
    | polled _ => cases hbegins
    | read _ _ => cases hbegins
    | received _ => cases hbegins
  · intro s a t hstep hbegins hidle
    cases WatchState.Step.of_step hstep with
    | entered _ => cases hbegins
    | enqueue => exact .inl ⟨rfl, hidle⟩
    | polled _ => exact WatchState.goesOn_polled s _
    | read _ hread => exact WatchState.goesOn_read hread
    | received _ => exact WatchState.goesOn_received s _ _ _
  · intro s a t hstep hbegins hidle
    have hidle' : s.phase.isIdle = true := hidle
    cases WatchState.Step.of_step hstep with
    | entered _ => cases hbegins
    | enqueue => exact ⟨rfl, hidle⟩
    | polled hphase =>
        rw [hphase] at hidle'
        cases hidle'
    | read hphase _ =>
        rw [hphase] at hidle'
        cases hidle'
    | received hphase =>
        rw [hphase] at hidle'
        cases hidle'

/-! ## The poller -/

/-- The poller between waits; opening it is no wait. -/
def PollerPhase.isIdle : PollerPhase → Bool
  | .poll => false
  | .seek .waiting => false
  | .copy .waiting => false
  | _ => true

/-- The poller as a machine of calls. -/
def pollMachine (path : Str) : CallMachine PollSystem PollerAction PollerCall where
  step := PollSystem.step path
  calls := PollSystem.calls
  idle s := s.phase.isIdle
  begins
    | .wait _ => true
    | _ => false

namespace PollSystem

variable {s : PollSystem} {path : Str}

/-- The action is not a wait with a timeout out of range. -/
def InRange (a : PollerAction) : Prop :=
  ∀ timeout, a = .wait timeout → ∃ timespec, Readiness.timespec timeout = .ok timespec

/-- The wait did not fail for its timeout. -/
def Timely (c : PollerCall) : Prop := c.result ≠ .error Error.outOfRange

/-- A wait that begins. -/
lemma goesOn_enter (s : PollSystem) (timeout : Option Duration) :
    (pollMachine path).GoesOn (fun c => InRange (.wait timeout) → Timely c) s
      (s.enter timeout) := by
  unfold enter
  rcases htimespec : Readiness.timespec timeout with error | timespec
  · refine .inr ⟨_, rfl, rfl, fun hrange _ => ?_⟩
    obtain ⟨timespec, hok⟩ := hrange timeout rfl
    cases htimespec.symm.trans hok
  · exact .inl ⟨rfl, rfl⟩

/-- A wait after its `poll`. -/
lemma goesOn_polled (s : PollSystem) (outcome : PollOutcome) :
    (pollMachine path).GoesOn Timely s (s.polled outcome) := by
  unfold polled
  rcases hready : Readiness.readiness PollFlags.PRI outcome with error | _ | _
  · refine .inr ⟨_, rfl, rfl, fun hresult => ?_⟩
    cases hresult
    exact Readiness.readiness_ne_outOfRange hready
  · refine .inr ⟨_, rfl, rfl, fun hresult => ?_⟩
    cases hresult
  · exact .inl ⟨rfl, rfl⟩

/-- A wait whose acknowledgement fails. -/
lemma goesOn_fail (s : PollSystem) (errno : Errno) :
    (pollMachine path).GoesOn Timely s (s.fail (Error.read path errno) .waiting) := by
  refine .inr ⟨_, rfl, rfl, fun hresult => ?_⟩
  exact Error.read_ne_outOfRange path errno (Except.error.inj hresult)

/-- A read of an acknowledgement, in a wait or when the poller is opened. -/
lemma copied_spec {origin : AckOrigin} (outcome : Except Errno ℕ)
    (hphase : s.phase = .copy origin) :
    (origin = .waiting → (pollMachine path).GoesOn Timely s (s.copied path origin outcome)) ∧
      (origin = .opening → (pollMachine path).Rests s (s.copied path origin outcome)) := by
  have hidle : s.phase.isIdle = (PollerPhase.copy origin).isIdle := by rw [hphase]
  rcases outcome with errno | _ | n
  · simp only [copied]
    split_ifs
    · constructor
      · rintro rfl
        exact .inl ⟨rfl, hidle⟩
      · rintro rfl
        exact ⟨rfl, hidle⟩
    · constructor
      · rintro rfl
        exact goesOn_fail s errno
      · rintro rfl
        exact ⟨rfl, rfl⟩
  · constructor
    · rintro rfl
      refine .inr ⟨_, rfl, rfl, fun hresult => ?_⟩
      cases hresult
    · rintro rfl
      exact ⟨rfl, rfl⟩
  · constructor
    · rintro rfl
      exact .inl ⟨rfl, hidle⟩
    · rintro rfl
      exact ⟨rfl, hidle⟩

end PollSystem

/-- **A poller serves one wait after another**, and none fails for a timeout in range. -/
lemma pollMachine_lawful (path : Str) :
    (pollMachine path).Lawful PollSystem.InRange PollSystem.Timely := by
  refine ⟨?_, ?_, ?_, ?_⟩
  · intro s a t hstep hbegins
    cases PollSystem.Step.of_step hstep with
    | entered hphase =>
        show s.phase.isIdle = true
        rw [hphase]
        rfl
    | change => cases hbegins
    | snapshot => cases hbegins
    | openFailed _ => cases hbegins
    | opened _ => cases hbegins
    | seekFailed _ => cases hbegins
    | sought _ => cases hbegins
    | copied _ => cases hbegins
    | polled _ _ => cases hbegins
  · intro s a t hstep hbegins
    cases PollSystem.Step.of_step hstep with
    | entered _ => exact PollSystem.goesOn_enter s _
    | change => cases hbegins
    | snapshot => cases hbegins
    | openFailed _ => cases hbegins
    | opened _ => cases hbegins
    | seekFailed _ => cases hbegins
    | sought _ => cases hbegins
    | copied _ => cases hbegins
    | polled _ _ => cases hbegins
  · intro s a t hstep hbegins hidle
    have hbusy : s.phase.isIdle = false := hidle
    cases PollSystem.Step.of_step hstep with
    | entered _ => cases hbegins
    | change => exact .inl ⟨rfl, hidle⟩
    | snapshot => exact .inl ⟨rfl, hidle⟩
    | openFailed hphase =>
        rw [hphase] at hbusy
        cases hbusy
    | opened hphase =>
        rw [hphase] at hbusy
        cases hbusy
    | seekFailed hphase =>
        rename_i origin errno
        cases origin with
        | opening =>
            rw [hphase] at hbusy
            cases hbusy
        | waiting => exact PollSystem.goesOn_fail s errno
    | sought hphase =>
        rename_i origin
        cases origin with
        | opening =>
            rw [hphase] at hbusy
            cases hbusy
        | waiting => exact .inl ⟨rfl, rfl⟩
    | copied hphase =>
        rename_i origin outcome
        cases origin with
        | opening =>
            rw [hphase] at hbusy
            cases hbusy
        | waiting => exact (PollSystem.copied_spec outcome hphase).1 rfl
    | polled _ _ => exact PollSystem.goesOn_polled s _
  · intro s a t hstep hbegins hidle
    have hidle' : s.phase.isIdle = true := hidle
    cases PollSystem.Step.of_step hstep with
    | entered _ => cases hbegins
    | change => exact ⟨rfl, hidle⟩
    | snapshot => exact ⟨rfl, hidle⟩
    | openFailed _ => exact ⟨rfl, hidle⟩
    | opened _ => exact ⟨rfl, rfl⟩
    | seekFailed hphase =>
        rename_i origin errno
        cases origin with
        | opening => exact ⟨rfl, rfl⟩
        | waiting =>
            rw [hphase] at hidle'
            cases hidle'
    | sought hphase =>
        rename_i origin
        cases origin with
        | opening => exact ⟨rfl, rfl⟩
        | waiting =>
            rw [hphase] at hidle'
            cases hidle'
    | copied hphase =>
        rename_i origin outcome
        cases origin with
        | opening => exact (PollSystem.copied_spec outcome hphase).2 rfl
        | waiting =>
            rw [hphase] at hidle'
            cases hidle'
    | polled hphase _ =>
        rw [hphase] at hidle'
        cases hidle'

/-! ## Monitors -/

section Monitors

variable {T F : Type} (tryFromSecs : F → Option Duration)

/-- A wait on a shared watcher, up to the lock.
Source: `sakai-python`, `notification.rs`, `ConfigurationWatcher::wait`. -/
def watchRequest (seconds : Option F) : Except String WatchAction :=
  (WaitTimeout.parse tryFromSecs seconds).map WatchAction.wait

/-- A wait on a shared poller, up to the lock.
Source: `sakai-python`, `notification.rs`, `EventPoller::wait`. -/
def pollRequest (seconds : Option F) : Except String PollerAction :=
  (WaitTimeout.parse tryFromSecs seconds).map PollerAction.wait

/-- The request of a shared watcher begins a wait with a timeout in range. -/
lemma watchRequest_eq_ok {seconds : Option F} {action : WatchAction}
    (h : watchRequest tryFromSecs seconds = .ok action) :
    watchMachine.begins action = true ∧ WatchState.InRange action := by
  unfold watchRequest at h
  rcases hparse : WaitTimeout.parse tryFromSecs seconds with message | timeout
  · rw [hparse] at h
    cases h
  · rw [hparse] at h
    cases h
    refine ⟨rfl, ?_⟩
    intro timeout' htimeout
    cases htimeout
    exact WaitTimeout.timespec_of_parse hparse

/-- The request of a shared poller begins a wait with a timeout in range. -/
lemma pollRequest_eq_ok {path : Str} {seconds : Option F} {action : PollerAction}
    (h : pollRequest tryFromSecs seconds = .ok action) :
    (pollMachine path).begins action = true ∧ PollSystem.InRange action := by
  unfold pollRequest at h
  rcases hparse : WaitTimeout.parse tryFromSecs seconds with message | timeout
  · rw [hparse] at h
    cases h
  · rw [hparse] at h
    cases h
    refine ⟨rfl, ?_⟩
    intro timeout' htimeout
    cases htimeout
    exact WaitTimeout.timespec_of_parse hparse

end Monitors

/-- **A watcher shared between threads delivers every event once.** In every run of any number of
threads, each with any timeouts: the waits finish under the lock in the order in which they have
begun, with at most one that holds the lock, without which none is in progress, and each thread
returns from its own, once each and in order; their events are those no longer pending, in queue
order; a wait that finished as `Ok` reports the union of its events, a failed one consumed nothing
and did not fail for its timeout; and after a wait that reported removal every later one failed as a
broken pipe. -/
theorem watcher_monitor_run {T F : Type} [DecidableEq T] (tryFromSecs : F → Option Duration)
    (actions : List (ExclusiveAction T (Option F) WatchAction))
    (s : Exclusive WatchState WatchCall T String)
    (h : run (Exclusive.step watchMachine (watchRequest tryFromSecs))
      (Exclusive.init WatchState.init) actions = some s) :
    s.begun = s.finished.map Prod.fst ++ s.holder.toList ∧
    (s.inner.phase ≠ .idle → s.holder.isSome = true) ∧
    (∀ thread, ∃ unreturned : List WatchCall, unreturned.length ≤ 1 ∧
      Exclusive.callsOf thread s.finished = Exclusive.returnedTo thread s.answers ++ unreturned) ∧
    (∃ held : List WatchCall, held.length ≤ s.holder.toList.length ∧
      s.inner.sent = (s.finished.map Prod.snd ++ held).flatMap WatchCall.events ++
        s.inner.pending) ∧
    (∀ p ∈ s.finished, ∀ error, p.2.result = .error error →
      p.2.events = [] ∧ error ≠ Error.outOfRange) ∧
    (∀ p ∈ s.finished, ∀ o, p.2.result = .ok o →
      (∀ n, o = some n → n.Reports p.2.events) ∧
      (o = none ↔ ChangeNotification.empty.Reports p.2.events)) ∧
    s.finished.Pairwise fun p q =>
      p.2.ReportsRemoval → q.2.result = .error (.io (.os .PIPE)) ∧ q.2.events = [] := by
  obtain ⟨hinv, htimely, history, -, hrun⟩ :=
    exclusive_run watchMachine_lawful (fun _ _ => watchRequest_eq_ok tryFromSecs) rfl rfl h
  have hwatch : s.inner.Inv := WatchState.inv_of_run hrun
  obtain ⟨held, hlength, hcalls⟩ := hinv.calls
  have hcalls' : s.inner.calls = s.finished.map Prod.snd ++ held := hcalls
  refine ⟨hinv.threads, ?_, hinv.returnedTo, ⟨held, hlength, ?_⟩, ?_, ?_, ?_⟩
  · intro hphase
    apply hinv.isSome_holder
    show s.inner.phase.isIdle = false
    rcases hs : s.inner.phase with _ | _ | ⟨buffer, notification⟩
    · exact absurd hs hphase
    · rfl
    · rfl
  · rw [← hcalls']
    exact hwatch.conserved
  · intro p hp error hresult
    have hsound := hwatch.history.sound p.2 (hinv.mem_calls hp)
    unfold WatchCall.Sound at hsound
    rw [hresult] at hsound
    refine ⟨hsound.1, ?_⟩
    rintro rfl
    exact htimely p.2 (hinv.mem_calls hp) hresult
  · intro p hp o hresult
    exact (hwatch.history.sound p.2 (hinv.mem_calls hp)).reports hresult
  · have hterminal := hwatch.history.terminal
    rw [hcalls'] at hterminal
    exact List.pairwise_map.mp (List.pairwise_append.mp hterminal).1

/-- The conversion of whole numbers of seconds. -/
def wholeSecs (seconds : ℤ) : Option Duration :=
  if 0 ≤ seconds ∧ seconds < 2 ^ 64 then some ⟨UInt64.ofNat seconds.toNat, 0⟩ else none

/-- A refused thread, a rejected timeout, and a wait that delivers an event, which returns after a
later one. -/
def sharedRun : List (ExclusiveAction Bool (Option ℤ) WatchAction) :=
  [.call true (some 9), .call false none, .leave false, .call false (some (-1)), .leave false,
    .inner (.enqueue ReadFlags.MODIFY), .inner (.poll (.ok (1, PollFlags.IN))),
    .inner (.read (.ok 1)), .unlock, .call false (some 0), .inner (.poll (.ok (0, 0#16))), .unlock,
    .leave false, .leave true]

/-- The state after it. -/
def sharedState : Exclusive WatchState WatchCall Bool String where
  inner :=
    { queue := []
      removed := false
      phase := .idle
      sent := [ReadFlags.MODIFY]
      batch := []
      entry := false
      calls := [⟨.ok (some ⟨true, false, false⟩), [ReadFlags.MODIFY], false, false⟩,
        ⟨.ok none, [], false, false⟩] }
  holder := none
  begun := [true, false]
  finished := [(true, ⟨.ok (some ⟨true, false, false⟩), [ReadFlags.MODIFY], false, false⟩),
    (false, ⟨.ok none, [], false, false⟩)]
  leaving := []
  answers := [(false, .busy), (false, .rejected WaitTimeout.message),
    (false, .returned ⟨.ok none, [], false, false⟩),
    (true, .returned ⟨.ok (some ⟨true, false, false⟩), [ReadFlags.MODIFY], false, false⟩)]

/-- The event is delivered to the thread that called. -/
theorem watcher_monitor_shared :
    run (Exclusive.step watchMachine (watchRequest wholeSecs))
      (Exclusive.init WatchState.init) sharedRun = some sharedState ∧
    sharedState.begun = sharedState.finished.map Prod.fst ++ sharedState.holder.toList := by
  have hrun : run (Exclusive.step watchMachine (watchRequest wholeSecs))
      (Exclusive.init WatchState.init) sharedRun = some sharedState := by decide
  exact ⟨hrun, (watcher_monitor_run _ sharedRun sharedState hrun).1⟩

/-- **A poller shared between threads.** In every run of any number of threads, each with any
timeouts, the waits finish under the lock in the order in which they have begun, with at most one
that holds the lock, without which none is in progress, and each thread returns from its own, once
each and in order. The poller makes the actions of the run without some of the waits, which show
what every wait saw: one that finished as `Ok` returns `true` exactly when the interface changed
between the last read from its start and its `poll`, it brought the record up to date if so and left
it alone if not; and none failed for its timeout. -/
theorem poller_monitor_run {T F : Type} [DecidableEq T] (tryFromSecs : F → Option Duration)
    (path : Str) (start : ℕ) (actions : List (ExclusiveAction T (Option F) PollerAction))
    (s : Exclusive PollSystem PollerCall T String)
    (h : run (Exclusive.step (pollMachine path) (pollRequest tryFromSecs))
      (Exclusive.init (PollSystem.init start)) actions = some s) :
    s.begun = s.finished.map Prod.fst ++ s.holder.toList ∧
    (s.inner.phase.isIdle = false → s.holder.isSome = true) ∧
    (∀ thread, ∃ unreturned : List PollerCall, unreturned.length ≤ 1 ∧
      Exclusive.callsOf thread s.finished = Exclusive.returnedTo thread s.answers ++ unreturned) ∧
    (∃ history, Exclusive.History (pollMachine path) (pollRequest tryFromSecs) actions history ∧
      ∀ (i : ℕ) (p : T × PollerCall), s.finished[i]? = some p → p.2.Traced start history i) ∧
    (∀ p ∈ s.finished, ∀ ready, p.2.result = .ok ready →
      (ready = true ↔ p.2.view.seen < p.2.view.polled) ∧
      (ready = false → p.2.after = p.2.view.seen) ∧
      (ready = true → p.2.view.polled ≤ p.2.after)) ∧
    (∀ p ∈ s.finished, p.2.result ≠ .error Error.outOfRange) := by
  obtain ⟨hinv, htimely, history, hhistory, hrun⟩ :=
    exclusive_run (pollMachine_lawful path) (fun _ _ => pollRequest_eq_ok tryFromSecs) rfl rfl h
  have hpoll : s.inner.Inv := PollSystem.inv_of_run hrun
  refine ⟨hinv.threads, hinv.isSome_holder, hinv.returnedTo, ⟨history, hhistory, ?_⟩, ?_, ?_⟩
  · intro i p hp
    exact PollSystem.traced_of_run hrun i p.2 (hinv.getElem?_calls hp)
  · intro p hp ready hresult
    have hsound := hpoll.sound p.2 (hinv.mem_calls hp)
    refine ⟨hsound.verdict ready hresult, ?_, ?_⟩
    · rintro rfl
      exact hsound.unchanged hresult
    · rintro rfl
      exact hsound.acknowledged hresult
  · intro p hp
    exact htimely p.2 (hinv.mem_calls hp)

/-- A poller is opened, and a wait that finds nothing is shared with one that is refused. -/
def sharedPolls : List (ExclusiveAction Bool (Option ℤ) PollerAction) :=
  [.inner (.openat (.ok ())), .inner (.seek (.ok ())), .inner (.read (.ok 0)), .call true none,
    .call false none, .inner (.poll (.ok (0, 0#16))), .unlock, .leave true]

/-- The state after it. -/
def sharedPoller : Exclusive PollSystem PollerCall Bool String where
  inner :=
    { counter := 0
      recorded := 0
      offset := 0
      phase := .idle
      acked := 0
      view := ⟨0, 0, 0, none⟩
      snapshot := none
      stale := true
      diligent := false
      calls := [⟨.ok false, ⟨0, 0, 0, none⟩, 0⟩] }
  holder := none
  begun := [true]
  finished := [(true, ⟨.ok false, ⟨0, 0, 0, none⟩, 0⟩)]
  leaving := [(false, .busy)]
  answers := [(true, .returned ⟨.ok false, ⟨0, 0, 0, none⟩, 0⟩)]

/-- The thread that called is told that nothing changed. -/
theorem poller_monitor_shared :
    run (Exclusive.step (pollMachine "pids.events".toList) (pollRequest wholeSecs))
      (Exclusive.init (PollSystem.init 0)) sharedPolls = some sharedPoller ∧
    sharedPoller.begun = sharedPoller.finished.map Prod.fst ++ sharedPoller.holder.toList := by
  have hrun : run (Exclusive.step (pollMachine "pids.events".toList) (pollRequest wholeSecs))
      (Exclusive.init (PollSystem.init 0)) sharedPolls = some sharedPoller := by decide
  exact ⟨hrun, (poller_monitor_run _ _ 0 sharedPolls sharedPoller hrun).1⟩

end Sakai
