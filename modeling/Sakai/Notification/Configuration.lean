import Sakai.Notification.Watcher

/-!
# Following a configuration

Notifications are hints to read again. A client registers a watch, takes a snapshot, and takes a
new one after every call of `wait` that reports a modification or an overflow. `ConfigState` is
the watched interface with its watcher and such a client: a write leaves a hint in the kernel
queue, unless one that is not yet read already stands for it, and a run interleaves writes, the
end of the watch, the snapshots and all actions of the watcher. A write and its event are one
action here; the kernel queues the event after the value has changed, so until a write has returned
the value that it replaces counts as current.

* `ConfigState.watch_run`: the watcher in a run is a run of `WatchState`.
* `WatchState.pending_run`: what was pending is delivered by finished calls or still pending.
* `ConfigState.fresh_step`: every action keeps `ConfigState.Fresh`: while the kernel watches, the
  snapshot is current, or a new one is due, or a hint is pending.
* `configuration_followed`: so in every run a client with no snapshot due holds the current value,
  as long as no hint is pending on a watch that the kernel has not ended.
-/

namespace Sakai

open Lib

/-! ## Hints -/

/-- The event asks for a new snapshot: a write, or lost events. -/
def ReadFlags.isHint (e : ReadFlags) : Bool :=
  e.contains ReadFlags.MODIFY || e.contains ReadFlags.QUEUE_OVERFLOW

/-- The call tells its client to read again.
Source: `README.md`, `change.modified() || change.overflowed()`. -/
def WatchCall.rereads (c : WatchCall) : Bool :=
  match c.result with
  | .ok (some n) => n.modified || n.overflowed
  | _ => false

/-- A sound call that consumed a hint tells its client to read again, and no other does. -/
lemma WatchCall.Sound.rereads_iff {c : WatchCall} (h : c.Sound) :
    c.rereads = true ↔ ∃ e ∈ c.events, e.isHint = true := by
  unfold WatchCall.rereads
  rcases hresult : c.result with error | _ | n
  · unfold WatchCall.Sound at h
    rw [hresult] at h
    simp [h.1]
  · have hempty := (h.reports hresult).2.mp rfl
    apply iff_of_false Bool.false_ne_true
    intro ⟨e, he, hhint⟩
    rcases Bool.or_eq_true_iff.mp hhint with hmodify | hoverflow
    · cases hempty.modified.mpr ⟨e, he, hmodify⟩
    · cases hempty.overflowed.mpr ⟨e, he, hoverflow⟩
  · have hreports := (h.reports hresult).1 n rfl
    show (n.modified || n.overflowed) = true ↔ _
    rw [Bool.or_eq_true, hreports.modified, hreports.overflowed]
    simp only [ReadFlags.isHint, Bool.or_eq_true, and_or_left, exists_or]

/-! ## What an action of the watcher delivers -/

/-- The events that the kernel queues in an action. -/
def WatchAction.enqueued : WatchAction → List ReadFlags
  | .enqueue event => [event]
  | _ => []

namespace WatchState

variable {s t : WatchState}

/-- The reader returns an event, with no new event sent. -/
lemma received_extends (notification : ChangeNotification) (event : ReadFlags)
    (rest : List ReadFlags) :
    (s.received notification event rest).sent = s.sent ∧
      ∃ calls, (s.received notification event rest).calls = s.calls ++ calls := by
  unfold received
  cases rest with
  | nil => exact ⟨rfl, _, rfl⟩
  | cons event' rest => exact ⟨rfl, [], (List.append_nil _).symm⟩

/-- An action sends the events it enqueues, and extends the finished calls. -/
lemma step_extends {a : WatchAction} (h : s.step a = some t) :
    t.sent = s.sent ++ a.enqueued ∧ ∃ calls, t.calls = s.calls ++ calls := by
  cases Step.of_step h with
  | enqueue => exact ⟨rfl, [], (List.append_nil _).symm⟩
  | entered _ =>
      unfold enter
      cases s.removed with
      | true => exact ⟨(List.append_nil _).symm, _, rfl⟩
      | false =>
          rename_i timeout _
          cases Readiness.timespec timeout with
          | error error => exact ⟨(List.append_nil _).symm, _, rfl⟩
          | ok timespec => exact ⟨(List.append_nil _).symm, [], (List.append_nil _).symm⟩
  | polled _ =>
      rename_i outcome _
      unfold polled
      rcases Readiness.readiness PollFlags.IN outcome with error | _ | _
      · exact ⟨(List.append_nil _).symm, _, rfl⟩
      · exact ⟨(List.append_nil _).symm, _, rfl⟩
      · exact ⟨(List.append_nil _).symm, [], (List.append_nil _).symm⟩
  | read _ hread =>
      rename_i notification outcome _
      rcases outcome with errno | n
      · simp only [read] at hread
        split_ifs at hread with hagain
        · cases hread
          exact ⟨(List.append_nil _).symm, _, rfl⟩
        · cases hread
          exact ⟨(List.append_nil _).symm, _, rfl⟩
      · simp only [read] at hread
        cases hmoved : s.queue.take n with
        | nil =>
            rw [hmoved] at hread
            cases hread
        | cons event rest =>
            rw [hmoved] at hread
            cases hread
            obtain ⟨hsent, hcalls⟩ :=
              received_extends (s := { s with queue := s.queue.drop n }) notification event rest
            exact ⟨hsent.trans (List.append_nil _).symm, hcalls⟩
  | received _ =>
      obtain ⟨hsent, hcalls⟩ := received_extends (s := s) _ _ _
      exact ⟨hsent.trans (List.append_nil _).symm, hcalls⟩

/-- The actions of a run send the events they enqueue, and extend the finished calls. -/
lemma run_extends {actions : List WatchAction} (h : run step s actions = some t) :
    t.sent = s.sent ++ actions.flatMap WatchAction.enqueued ∧
      ∃ calls, t.calls = s.calls ++ calls := by
  induction actions generalizing s with
  | nil =>
      cases h
      exact ⟨(List.append_nil _).symm, [], (List.append_nil _).symm⟩
  | cons a actions ih =>
      obtain ⟨s', hfirst, hrest⟩ := run_cons_eq_some_iff.mp h
      obtain ⟨hsent, calls, hcalls⟩ := step_extends hfirst
      obtain ⟨hsent', calls', hcalls'⟩ := ih hrest
      refine ⟨?_, calls ++ calls', ?_⟩
      · rw [hsent', hsent, List.flatMap_cons, List.append_assoc]
      · rw [hcalls', hcalls, List.append_assoc]

/-- **Nothing pending is lost in a run**: what was pending, and what the run enqueues, is delivered
by the calls that finish in the run, or still pending. -/
lemma pending_run {actions : List WatchAction} (hs : s.Inv) (h : run step s actions = some t) :
    ∃ calls, t.calls = s.calls ++ calls ∧
      s.pending ++ actions.flatMap WatchAction.enqueued =
        calls.flatMap WatchCall.events ++ t.pending := by
  obtain ⟨hsent, calls, hcalls⟩ := run_extends h
  refine ⟨calls, hcalls, ?_⟩
  have hbefore : s.sent = s.calls.flatMap WatchCall.events ++ s.pending := hs.conserved
  have hafter : t.sent = t.calls.flatMap WatchCall.events ++ t.pending :=
    (invariant_of_run step_inv hs h).conserved
  rw [hsent, hbefore, hcalls, List.flatMap_append, List.append_assoc, List.append_assoc] at hafter
  exact List.append_cancel_left hafter

end WatchState

/-! ## The system -/

/-- A watched interface whose content is a value, with its watcher and a client. -/
structure ConfigState (V : Type) where
  /-- The watcher. -/
  watch : WatchState
  /-- The content of the interface. -/
  value : V
  /-- The kernel still watches the interface. -/
  attached : Bool
  /-- What the client read last. -/
  snapshot : Option V
  /-- A snapshot is due: none was taken since the watch was registered, or since the last call that
  told its client to read again. -/
  stale : Bool
  deriving DecidableEq, Repr

/-- What can happen next: a write, with the event that it queues if any; the end of the kernel's
watch, with or without an event; an action of the watcher; or a snapshot. -/
inductive ConfigAction (V : Type)
  | write (value : V) (event : Option ReadFlags)
  | detach (event : Option ReadFlags)
  | watch (action : WatchAction)
  | snapshot

/-- What an action is for the watcher. -/
def ConfigAction.watchActions {V : Type} : ConfigAction V → List WatchAction
  | .write _ event => (event.map WatchAction.enqueue).toList
  | .detach event => (event.map WatchAction.enqueue).toList
  | .watch action => [action]
  | .snapshot => []

namespace ConfigState

variable {V : Type}

/-- A watch as it is registered, before the first snapshot.
Source: `notification.rs`, the result of `ConfigurationWatcher::open`. -/
def init (value : V) : ConfigState V := ⟨WatchState.init, value, true, none, true⟩

/-- A write on a live watch queues a hint, or finds one in the queue that it is merged with or that
reports it lost. -/
def notifies (s : ConfigState V) : Option ReadFlags → Bool
  | some event => !s.attached || event.isHint
  | none => !s.attached || s.watch.queue.any ReadFlags.isHint

/-- The action can happen. -/
def possible (s : ConfigState V) : ConfigAction V → Bool
  | .write _ event => s.notifies event
  | _ => true

/-- A call that finished between the two states tells the client to read again. -/
def due (before after : WatchState) : Bool :=
  (after.calls.drop before.calls.length).any WatchCall.rereads

/-- The state after an action, given that of the watcher. -/
def after (s : ConfigState V) (watch : WatchState) : ConfigAction V → ConfigState V
  | .write value _ => { s with watch := watch, value := value }
  | .detach _ => { s with watch := watch, attached := false }
  | .watch _ => { s with watch := watch, stale := s.stale || due s.watch watch }
  | .snapshot => { s with watch := watch, snapshot := some s.value, stale := false }

/-- The state after an action, when it is possible. -/
def step (s : ConfigState V) (a : ConfigAction V) : Option (ConfigState V) :=
  if s.possible a then
    (run WatchState.step s.watch a.watchActions).map fun watch => s.after watch a
  else none

/-- **What a step does.** -/
lemma step_eq_some_iff {s t : ConfigState V} {a : ConfigAction V} :
    s.step a = some t ↔ s.possible a = true ∧
      ∃ watch, run WatchState.step s.watch a.watchActions = some watch ∧ s.after watch a = t := by
  unfold step
  split_ifs with h
  · simp [h]
  · simp [h]

/-- The watcher after an action. -/
lemma watch_after (s : ConfigState V) (watch : WatchState) (a : ConfigAction V) :
    (s.after watch a).watch = watch := by
  cases a <;> rfl

/-! ## The watcher in the system -/

/-- **The watcher's part of a run is a run of the watcher.** -/
theorem watch_run {s t : ConfigState V} {actions : List (ConfigAction V)}
    (h : run step s actions = some t) :
    run WatchState.step s.watch (actions.flatMap ConfigAction.watchActions) = some t.watch := by
  induction actions generalizing s with
  | nil =>
      cases h
      rfl
  | cons a actions ih =>
      obtain ⟨s', hstep, hrest⟩ := run_cons_eq_some_iff.mp h
      obtain ⟨-, watch, hwatch, rfl⟩ := step_eq_some_iff.mp hstep
      have hlast := ih hrest
      rw [watch_after] at hlast
      exact run_append_eq_some_iff.mpr ⟨watch, hwatch, hlast⟩

/-! ## Freshness -/

/-- An event that no finished call has delivered asks for a new snapshot. -/
def HintPending (s : ConfigState V) : Prop := ∃ e ∈ s.watch.pending, e.isHint = true

/-- While the kernel watches, the snapshot is current, or a new one is due, or a hint is pending. -/
def Fresh (s : ConfigState V) : Prop :=
  s.attached = true → s.snapshot = some s.value ∨ s.stale = true ∨ s.HintPending

/-- The invariant of a followed configuration. -/
structure Inv (s : ConfigState V) : Prop where
  /-- The watcher. -/
  watch : s.watch.Inv
  /-- The snapshot. -/
  fresh : s.Fresh

/-- A registered watch satisfies the invariant. -/
lemma init_inv (value : V) : (init value).Inv := ⟨WatchState.init_inv, fun _ => .inr (.inl rfl)⟩

variable {s t : ConfigState V}

/-- A hint that the kernel queues is pending. -/
lemma exists_pending_of_enqueue {watch watch' : WatchState} {e : ReadFlags}
    (h : watch.step (.enqueue e) = some watch') : e ∈ watch'.pending := by
  cases h
  simp [WatchState.pending]

/-- The calls that finished between two states. -/
lemma due_of_calls {before after : WatchState} {calls : List WatchCall}
    (h : after.calls = before.calls ++ calls) : due before after = calls.any WatchCall.rereads := by
  rw [due, h, List.drop_left]

/-- A hint that finished calls have delivered makes one of them tell its client to read again. -/
lemma any_rereads {watch : WatchState} {calls delivered : List WatchCall} (h : watch.Inv)
    (hcalls : watch.calls = delivered ++ calls) {e : ReadFlags}
    (he : e ∈ calls.flatMap WatchCall.events) (hise : e.isHint = true) :
    calls.any WatchCall.rereads = true := by
  obtain ⟨c, hc, hec⟩ := List.mem_flatMap.mp he
  have hsound : c.Sound := h.history.sound c (hcalls ▸ List.mem_append_right _ hc)
  exact List.any_eq_true.mpr ⟨c, hc, hsound.rereads_iff.mpr ⟨e, hec, hise⟩⟩

/-- **A hint is not lost by the watcher**: an action that leaves none pending told the client to
read again. -/
lemma stale_or_hintPending {watch : WatchState} {a : WatchAction} (hs : s.watch.Inv)
    (h : s.watch.step a = some watch) (hhint : s.HintPending) :
    (s.after watch (.watch a)).stale = true ∨ (s.after watch (.watch a)).HintPending := by
  obtain ⟨e, he, hise⟩ := hhint
  have hrun : run WatchState.step s.watch [a] = some watch :=
    run_cons_eq_some_iff.mpr ⟨watch, h, rfl⟩
  obtain ⟨calls, hcalls, hpending⟩ := WatchState.pending_run hs hrun
  have hmem : e ∈ calls.flatMap WatchCall.events ++ watch.pending := by
    rw [← hpending]
    exact List.mem_append_left _ he
  rcases List.mem_append.mp hmem with hdelivered | hlater
  · left
    show (s.stale || due s.watch watch) = true
    rw [due_of_calls hcalls, any_rereads (WatchState.step_inv _ _ _ hs h) hcalls hdelivered hise,
      Bool.or_true]
  · exact .inr ⟨e, hlater, hise⟩

/-- **Every action keeps the snapshot current, due or hinted at.** -/
lemma fresh_step {a : ConfigAction V} (h : s.Inv) (hstep : s.step a = some t) : t.Fresh := by
  obtain ⟨hpossible, watch, hwatch, rfl⟩ := step_eq_some_iff.mp hstep
  intro hattached
  cases a with
  | write value event =>
      have hlive : s.attached = true := hattached
      right; right
      cases event with
      | some event =>
          -- The write queued its own hint.
          have hhint : event.isHint = true := by
            simpa [possible, notifies, hlive] using hpossible
          obtain ⟨watch', henqueue, hnil⟩ := run_cons_eq_some_iff.mp hwatch
          cases hnil
          exact ⟨event, exists_pending_of_enqueue henqueue, hhint⟩
      | none =>
          -- A hint that is still queued stands for the write.
          have hqueued : s.watch.queue.any ReadFlags.isHint = true := by
            simpa [possible, notifies, hlive] using hpossible
          cases hwatch
          obtain ⟨e, he, hise⟩ := List.any_eq_true.mp hqueued
          exact ⟨e, List.mem_append_right _ (List.mem_append_right _ he), hise⟩
  | detach event => cases hattached
  | watch action =>
      obtain ⟨watch', haction, hnil⟩ := run_cons_eq_some_iff.mp hwatch
      cases hnil
      rcases h.fresh hattached with hcurrent | hstale | hhint
      · exact .inl hcurrent
      · right; left
        show (s.stale || due s.watch watch) = true
        rw [hstale, Bool.true_or]
      · exact .inr (stale_or_hintPending h.watch haction hhint)
  | snapshot => exact .inl rfl

/-- Every action keeps the invariant. -/
lemma step_inv (s : ConfigState V) (a : ConfigAction V) (t : ConfigState V) (h : s.Inv)
    (hstep : s.step a = some t) : t.Inv := by
  refine ⟨?_, fresh_step h hstep⟩
  obtain ⟨-, watch, hwatch, rfl⟩ := step_eq_some_iff.mp hstep
  rw [watch_after]
  exact invariant_of_run WatchState.step_inv h.watch hwatch

/-- The invariant holds in every run. -/
lemma inv_of_run {value : V} {actions : List (ConfigAction V)}
    (h : run step (init value) actions = some s) : s.Inv :=
  invariant_of_run step_inv (init_inv value) h

end ConfigState

/-! ## Taking what is pending -/

namespace WatchState

variable {s : WatchState}

/-- The reader returns all events of its buffer, and the call ends. -/
lemma run_received (s : WatchState) (notification : ChangeNotification) (event : ReadFlags)
    (rest : List ReadFlags) :
    ∃ t, run step (s.received notification event rest) (List.replicate rest.length .next) = some t ∧
      t.phase = .idle ∧ t.queue = s.queue := by
  induction rest generalizing s notification event with
  | nil => exact ⟨_, rfl, rfl, rfl⟩
  | cons event' rest ih =>
      obtain ⟨t, hrun, hphase, hqueue⟩ :=
        ih { s with
          batch := s.batch ++ [event]
          phase := .next (event' :: rest) (notification.includeFlags event) }
          (notification.includeFlags event) event'
      exact ⟨t, run_cons_eq_some_iff.mpr ⟨_, rfl, hrun⟩, hphase, hqueue⟩

/-- Between calls only queued events are pending. -/
lemma pending_of_idle (h : s.Inv) (hphase : s.phase = .idle) : s.pending = s.queue := by
  simp [pending, h.of_idle hphase, hphase, WatchPhase.buffer]

/-- The system calls of a wait that finds the queue ready and reads up to `n` events of it. -/
def take (s : WatchState) (n : ℕ) : List WatchAction :=
  [.wait none, .poll (.ok (1, PollFlags.IN)), .read (.ok n)] ++
    List.replicate ((s.queue.take n).length - 1) .next

/-- A wait enqueues nothing. -/
lemma enqueued_take (s : WatchState) (n : ℕ) : (s.take n).flatMap WatchAction.enqueued = [] := by
  refine List.flatMap_eq_nil_iff.mpr fun a ha => ?_
  rcases List.mem_append.mp ha with hcalls | hnext
  · simp only [List.mem_cons, List.not_mem_nil, or_false] at hcalls
    rcases hcalls with rfl | rfl | rfl <;> rfl
  · rw [List.eq_of_mem_replicate hnext]
    rfl

/-- **A wait on a live watch takes what it reads**: the rest of the queue is what is pending
afterwards. -/
lemma run_take {n : ℕ} (h : s.Inv) (hphase : s.phase = .idle) (hlive : s.removed = false)
    (hsome : s.queue.take n ≠ []) : ∃ t, run step s (s.take n) = some t ∧
      t.pending = s.queue.drop n := by
  obtain ⟨event, rest, hcons⟩ := List.exists_cons_of_ne_nil hsome
  have hwait : s.step (.wait none) = some { s.entered with phase := .poll } := by
    simp [step, hphase, enter, hlive, Readiness.timespec]
  have hready : Readiness.readiness PollFlags.IN (.ok (1, PollFlags.IN)) = .ok true := by decide
  have hpoll : step { s.entered with phase := .poll } (.poll (.ok (1, PollFlags.IN))) =
      some { s.entered with phase := .next [] ChangeNotification.empty } := by
    simp [step, polled, hready]
  have hread : step { s.entered with phase := .next [] ChangeNotification.empty } (.read (.ok n)) =
      some (({ s.entered with
        phase := .next [] ChangeNotification.empty
        queue := s.queue.drop n } : WatchState).received ChangeNotification.empty event rest) := by
    simp [step, read, entered, hcons]
  obtain ⟨t, hrun, hidle, hqueue⟩ := run_received ({ s.entered with
    phase := .next [] ChangeNotification.empty
    queue := s.queue.drop n } : WatchState) ChangeNotification.empty event rest
  have htake : run step s (s.take n) = some t := by
    unfold take
    rw [show (s.queue.take n).length - 1 = rest.length by simp [hcons]]
    exact run_cons_eq_some_iff.mpr ⟨_, hwait, run_cons_eq_some_iff.mpr
      ⟨_, hpoll, run_cons_eq_some_iff.mpr ⟨_, hread, hrun⟩⟩⟩
  refine ⟨t, htake, ?_⟩
  rw [pending_of_idle (invariant_of_run step_inv h htake) hidle, hqueue]

end WatchState

namespace ConfigState

variable {V : Type} {s : ConfigState V}

/-- The watcher's actions alone: a snapshot becomes due exactly when a call that finished told the
client to read again. -/
lemma run_watch {actions : List WatchAction} {watch : WatchState}
    (h : run WatchState.step s.watch actions = some watch) :
    ∃ t, run step s (actions.map ConfigAction.watch) = some t ∧ t.watch = watch ∧
      t.stale = (s.stale || due s.watch watch) := by
  induction actions generalizing s with
  | nil =>
      cases h
      exact ⟨s, rfl, rfl, by simp [due]⟩
  | cons a actions ih =>
      obtain ⟨w, hfirst, hrest⟩ := run_cons_eq_some_iff.mp h
      have hstep : s.step (.watch a) = some (s.after w (.watch a)) :=
        step_eq_some_iff.mpr ⟨rfl, w, run_cons_eq_some_iff.mpr ⟨w, hfirst, rfl⟩, rfl⟩
      obtain ⟨t, hrun, hwatch, hstale⟩ := ih (s := s.after w (.watch a)) hrest
      refine ⟨t, run_cons_eq_some_iff.mpr ⟨_, hstep, hrun⟩, hwatch, hstale.trans ?_⟩
      obtain ⟨-, calls, hcalls⟩ := WatchState.step_extends hfirst
      obtain ⟨-, calls', hcalls'⟩ := WatchState.run_extends hrest
      have hboth : watch.calls = s.watch.calls ++ (calls ++ calls') := by
        rw [hcalls', hcalls, List.append_assoc]
      show ((s.stale || due s.watch w) || due w watch) = _
      rw [due_of_calls hcalls, due_of_calls hcalls', due_of_calls hboth, List.any_append,
        Bool.or_assoc]

/-- A wait on a live watch that reads a hint makes a snapshot due. -/
lemma run_take {n : ℕ} (h : s.Inv) (hphase : s.watch.phase = .idle)
    (hlive : s.watch.removed = false) {e : ReadFlags} (he : e ∈ s.watch.queue.take n)
    (hise : e.isHint = true) :
    ∃ t, run step s ((s.watch.take n).map ConfigAction.watch) = some t ∧
      t.stale = true ∧ t.watch.pending = s.watch.queue.drop n := by
  obtain ⟨watch, hrun, hpending⟩ :=
    WatchState.run_take h.watch hphase hlive (List.ne_nil_of_mem he)
  obtain ⟨t, ht, rfl, hstale⟩ := run_watch hrun
  obtain ⟨calls, hcalls, hconserved⟩ := WatchState.pending_run h.watch hrun
  rw [WatchState.enqueued_take, WatchState.pending_of_idle h.watch hphase, hpending,
    List.append_nil] at hconserved
  have hdelivered : s.watch.queue.take n = calls.flatMap WatchCall.events :=
    List.append_cancel_right ((List.take_append_drop n s.watch.queue).trans hconserved)
  refine ⟨t, ht, ?_, hpending⟩
  rw [hstale, due_of_calls hcalls, any_rereads (invariant_of_run WatchState.step_inv h.watch hrun)
    hcalls (hdelivered ▸ he) hise, Bool.or_true]

end ConfigState

/-- **Following a configuration.** In every run of writes, snapshots, the end of the watch and the
system calls of the watcher, the watcher's part is a run of the watcher; while the kernel watches,
a client for whom no snapshot is due holds the current value unless a hint is still pending; and
between calls on a live watch, a wait that reads up to `n` events, however many fit its buffer,
leaves the others, and makes a snapshot due when one of those it read is a hint. -/
theorem configuration_followed {V : Type} (value : V) (actions : List (ConfigAction V))
    (s : ConfigState V) (h : run ConfigState.step (ConfigState.init value) actions = some s) :
    run WatchState.step WatchState.init (actions.flatMap ConfigAction.watchActions) =
      some s.watch ∧
    (s.attached = true → s.stale = false → ¬ s.HintPending → s.snapshot = some s.value) ∧
    (s.watch.phase = .idle → s.watch.removed = false →
      ∀ n, ∀ e ∈ s.watch.queue.take n, e.isHint = true →
        ∃ t, run ConfigState.step s ((s.watch.take n).map ConfigAction.watch) = some t ∧
          t.stale = true ∧ t.watch.pending = s.watch.queue.drop n) := by
  have hinv := ConfigState.inv_of_run h
  refine ⟨ConfigState.watch_run h, ?_, ?_⟩
  · intro hattached hstale hhint
    rcases hinv.fresh hattached with hcurrent | hdue | hpending
    · exact hcurrent
    · rw [hstale] at hdue
      cases hdue
    · exact absurd hpending hhint
  · intro hphase hlive n e he hise
    exact ConfigState.run_take hinv hphase hlive he hise

/-- A write that is merged with the one before it while a call reads, and its new snapshot. -/
def followedRun : List (ConfigAction ℕ) :=
  [.snapshot, .write 1 (some ReadFlags.MODIFY), .write 2 none, .watch (.wait none),
    .watch (.poll (.ok (1, PollFlags.IN))), .watch (.read (.ok 1)), .snapshot]

/-- The state after it. -/
def followedState : ConfigState ℕ where
  watch :=
    { queue := []
      removed := false
      phase := .idle
      sent := [ReadFlags.MODIFY]
      batch := []
      entry := false
      calls := [⟨.ok (some ⟨true, false, false⟩), [ReadFlags.MODIFY], false, false⟩] }
  value := 2
  attached := true
  snapshot := some 2
  stale := false

/-- Both writes are in the client's snapshot. -/
theorem configuration_followed_merged :
    run ConfigState.step (ConfigState.init 0) followedRun = some followedState ∧
    followedState.snapshot = some followedState.value := by
  have hrun : run ConfigState.step (ConfigState.init 0) followedRun = some followedState := by
    decide
  refine ⟨hrun, (configuration_followed 0 followedRun followedState hrun).2.1 rfl rfl ?_⟩
  intro ⟨e, he, _⟩
  cases he

end Sakai
