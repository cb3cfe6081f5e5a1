import Mathlib.Data.List.Nodup
import Mathlib.Tactic.SplitIfs
import Sakai.Lib.Machine

/-!
# A machine of calls behind a lock that is only tried

`CallMachine` is a machine that serves one call after another: an action begins a call, other
actions carry it on until it finishes, and the finished calls are kept in order. `Exclusive` shares
one such machine between any number of threads: a request is checked, then the lock is tried, and
a thread that finds it held is refused at once. The lock is released after the call has finished;
its thread returns some time later, so that calls can be returned in another order than they
finished in.

* `CallMachine.Lawful.forall_calls`: what the calls finished by one step satisfy, all calls of a run
  satisfy.
* `Exclusive.step_inv`: every action keeps `Exclusive.Inv`: a call is in progress only under the
  lock, the finished calls are those of the machine, with at most one that still holds the lock, and
  those of a thread are returned to it once each, in order.
* `exclusive_run`: in every run of the threads the machine makes a run of its own, of which only
  refused calls are left out.
-/

namespace Sakai.Lib

/-! ## Machines of calls -/

/-- A machine that serves one call after another. -/
structure CallMachine (S A C : Type) where
  /-- The state after an action, when it is possible. -/
  step : S → A → Option S
  /-- The finished calls, oldest first. -/
  calls : S → List C
  /-- No call is in progress. -/
  idle : S → Bool
  /-- The action begins a call. -/
  begins : A → Bool

variable {S A C : Type}

namespace CallMachine

variable {M : CallMachine S A C} {P Q : C → Prop} {s t : S}

/-- A call in progress goes on, or finishes as a call that satisfies `P`. -/
def GoesOn (M : CallMachine S A C) (P : C → Prop) (s t : S) : Prop :=
  M.calls t = M.calls s ∧ M.idle t = false ∨
    ∃ c, M.calls t = M.calls s ++ [c] ∧ M.idle t = true ∧ P c

/-- Nothing finishes, and no call is in progress. -/
def Rests (M : CallMachine S A C) (s t : S) : Prop :=
  M.calls t = M.calls s ∧ M.idle t = true

/-- A finished call satisfies less. -/
lemma GoesOn.mono (h : M.GoesOn P s t) (hPQ : ∀ c, P c → Q c) : M.GoesOn Q s t := by
  rcases h with hsame | ⟨c, hc, hidle, hP⟩
  · exact .inl hsame
  · exact .inr ⟨c, hc, hidle, hPQ c hP⟩

/-- The call that is in progress, or that an action begins, goes on or finishes; otherwise nothing
finishes and no call is in progress afterwards. A call that was begun by an action that is `fit`,
or was in progress, finishes as one that satisfies `P`. -/
structure Lawful (M : CallMachine S A C) (fit : A → Prop) (P : C → Prop) : Prop where
  /-- A call begins between calls. -/
  begins_idle : ∀ {s a s'}, M.step s a = some s' → M.begins a = true → M.idle s = true
  /-- A call begins, and possibly finishes. -/
  begun : ∀ {s a s'}, M.step s a = some s' → M.begins a = true →
    M.GoesOn (fun c => fit a → P c) s s'
  /-- A call goes on or finishes. -/
  active : ∀ {s a s'}, M.step s a = some s' → M.begins a = false → M.idle s = false →
    M.GoesOn P s s'
  /-- Between calls nothing finishes. -/
  inactive : ∀ {s a s'}, M.step s a = some s' → M.begins a = false → M.idle s = true →
    M.Rests s s'

variable {fit : A → Prop}

/-- What a step that begins a call of the kind, or none, does to the finished calls. -/
lemma Lawful.calls_step (hM : M.Lawful fit P) {a : A} (h : M.step s a = some t)
    (ha : M.begins a = true → fit a) :
    M.calls t = M.calls s ∨ ∃ c, M.calls t = M.calls s ++ [c] ∧ P c := by
  have hgoes (hgoes : M.GoesOn P s t) :
      M.calls t = M.calls s ∨ ∃ c, M.calls t = M.calls s ++ [c] ∧ P c := by
    rcases hgoes with ⟨hsame, -⟩ | ⟨c, hc, -, hP⟩
    · exact .inl hsame
    · exact .inr ⟨c, hc, hP⟩
  cases hbegins : M.begins a with
  | true => exact hgoes ((hM.begun h hbegins).mono fun c hc => hc (ha hbegins))
  | false =>
      cases hidle : M.idle s with
      | true => exact .inl (hM.inactive h hbegins hidle).1
      | false => exact hgoes (hM.active h hbegins hidle)

/-- **What every call that finishes satisfies**, all finished calls of a run satisfy. -/
theorem Lawful.forall_calls (hM : M.Lawful fit P) {actions : List A}
    (hactions : ∀ a ∈ actions, M.begins a = true → fit a) (hs : M.calls s = [])
    (h : run M.step s actions = some t) : ∀ c ∈ M.calls t, P c := by
  refine invariant_of_run_of_forall (I := fun u => ∀ c ∈ M.calls u, P c) ?_ hactions ?_ h
  · intro u a u' ha hu hstep c hc
    rcases hM.calls_step hstep ha with hsame | ⟨d, hd, hP⟩
    · exact hu c (hsame ▸ hc)
    · rw [hd] at hc
      rcases List.mem_append.mp hc with hc | hc
      · exact hu c hc
      · rw [List.mem_singleton.mp hc]
        exact hP
  · intro c hc
    rw [hs] at hc
    cases hc

end CallMachine

/-! ## Threads -/

/-- What a thread is told: its request is rejected, the machine is in use, or the result of its
call. -/
inductive Answer (R C : Type)
  | rejected (reason : R)
  | busy
  | returned (call : C)
  deriving DecidableEq, Repr

/-- The call an answer returns. -/
def Answer.call? {R : Type} : Answer R C → Option C
  | .returned call => some call
  | _ => none

/-- A machine shared between threads. -/
structure Exclusive (S C T R : Type) where
  /-- The machine. -/
  inner : S
  /-- The thread that holds the lock. -/
  holder : Option T
  /-- The threads whose calls have begun, in order. -/
  begun : List T
  /-- The calls that have finished and released the lock, in order, with their threads. -/
  finished : List (T × C)
  /-- The threads that have not returned yet, with what they will be told. -/
  leaving : List (T × Answer R C)
  /-- What threads were told, in order. -/
  answers : List (T × Answer R C)
  deriving DecidableEq, Repr

/-- What can happen next: a thread makes a request, the machine makes an action that begins no
call, the holder of the lock releases it after its call has finished, or a thread returns. -/
inductive ExclusiveAction (T Q A : Type)
  | call (thread : T) (request : Q)
  | inner (action : A)
  | unlock
  | leave (thread : T)
  deriving DecidableEq, Repr

namespace Exclusive

variable {T R Q : Type} [DecidableEq T] (M : CallMachine S A C) (begin : Q → Except R A)

/-- A machine before any request. -/
def init (s : S) : Exclusive S C T R := ⟨s, none, [], [], [], []⟩

/-- The threads that are in a call. -/
def inside (s : Exclusive S C T R) : List T := s.leaving.map Prod.fst ++ s.holder.toList

/-- The thread will be told something. -/
def tell (s : Exclusive S C T R) (thread : T) (answer : Answer R C) : Exclusive S C T R :=
  { s with leaving := s.leaving ++ [(thread, answer)] }

/-- The state after an action, when it is possible. -/
def step (s : Exclusive S C T R) : ExclusiveAction T Q A → Option (Exclusive S C T R)
  | .call thread request =>
    if thread ∈ s.inside then none
    else
      match begin request with
      | .error reason => some (s.tell thread (.rejected reason))
      | .ok action =>
        match s.holder with
        | some _ => some (s.tell thread .busy)
        | none => (M.step s.inner action).map fun inner =>
            { s with inner := inner, holder := some thread, begun := s.begun ++ [thread] }
  | .inner action =>
    if M.begins action then none
    else (M.step s.inner action).map fun inner => { s with inner := inner }
  | .unlock =>
    match s.holder, M.idle s.inner, (M.calls s.inner).getLast? with
    | some thread, true, some call =>
      some ({ s with holder := none, finished := s.finished ++ [(thread, call)] }.tell thread
        (.returned call))
    | _, _, _ => none
  | .leave thread =>
    (s.leaving.find? fun p => p.1 = thread).map fun p =>
      { s with
        leaving := s.leaving.eraseP fun p => p.1 = thread
        answers := s.answers ++ [p] }

/-- What an action does, and when it is possible. -/
inductive Step (s : Exclusive S C T R) :
    ExclusiveAction T Q A → Exclusive S C T R → Prop
  /-- The request is rejected before the lock is tried. -/
  | rejected {thread : T} {request : Q} {reason : R} (houtside : thread ∉ s.inside)
      (hbegin : begin request = .error reason) :
      Step s (.call thread request) (s.tell thread (.rejected reason))
  /-- The lock is held. -/
  | busy {thread holder : T} {request : Q} {action : A} (houtside : thread ∉ s.inside)
      (hbegin : begin request = .ok action) (hholder : s.holder = some holder) :
      Step s (.call thread request) (s.tell thread .busy)
  /-- The lock is taken, and the call begins. -/
  | begun {thread : T} {request : Q} {action : A} {inner : S} (houtside : thread ∉ s.inside)
      (hbegin : begin request = .ok action) (hholder : s.holder = none)
      (hinner : M.step s.inner action = some inner) :
      Step s (.call thread request)
        { s with inner := inner, holder := some thread, begun := s.begun ++ [thread] }
  /-- The machine makes an action that begins no call. -/
  | inner {action : A} {inner : S} (hbegins : M.begins action = false)
      (hinner : M.step s.inner action = some inner) :
      Step s (.inner action) { s with inner := inner }
  /-- The lock is released. -/
  | unlocked {thread : T} {call : C} (hholder : s.holder = some thread)
      (hidle : M.idle s.inner = true) (hlast : (M.calls s.inner).getLast? = some call) :
      Step s .unlock
        ({ s with holder := none, finished := s.finished ++ [(thread, call)] }.tell thread
          (.returned call))
  /-- A thread returns with the first answer it has not returned with. -/
  | left {thread : T} {answer : Answer R C} {before after : List (T × Answer R C)}
      (hbefore : ∀ p ∈ before, p.1 ≠ thread)
      (hleaving : s.leaving = before ++ (thread, answer) :: after) :
      Step s (.leave thread)
        { s with leaving := before ++ after, answers := s.answers ++ [(thread, answer)] }

variable {M begin} {s t : Exclusive S C T R}

/-- **What a step does.** -/
lemma Step.of_step {a : ExclusiveAction T Q A} (h : step M begin s a = some t) :
    Step M begin s a t := by
  cases a with
  | call thread request =>
      simp only [step] at h
      split_ifs at h with houtside
      rcases hbegin : begin request with reason | action
      · rw [hbegin] at h
        cases h
        exact rejected houtside hbegin
      · rw [hbegin] at h
        rcases hholder : s.holder with _ | holder
        · rw [hholder] at h
          obtain ⟨inner, hinner, rfl⟩ := Option.map_eq_some_iff.mp h
          exact begun houtside hbegin hholder hinner
        · rw [hholder] at h
          cases h
          exact busy houtside hbegin hholder
  | inner action =>
      simp only [step] at h
      split_ifs at h with hbegins
      obtain ⟨inner', hinner, rfl⟩ := Option.map_eq_some_iff.mp h
      exact inner (Bool.not_eq_true _ ▸ hbegins) hinner
  | unlock =>
      simp only [step] at h
      rcases hholder : s.holder with _ | thread
      · simp [hholder] at h
      rcases hidle : M.idle s.inner with _ | _
      · simp [hholder, hidle] at h
      rcases hlast : (M.calls s.inner).getLast? with _ | call
      · simp [hholder, hidle, hlast] at h
      simp only [hholder, hidle, hlast] at h
      cases h
      exact unlocked hholder hidle hlast
  | leave thread =>
      simp only [step] at h
      obtain ⟨⟨thread', answer⟩, hfind, rfl⟩ := Option.map_eq_some_iff.mp h
      obtain ⟨hthread, before, after, hleaving, hbefore⟩ := List.find?_eq_some_iff_append.mp hfind
      have hthread' : thread' = thread := by simpa using hthread
      subst hthread'
      have herase : (s.leaving.eraseP fun p => p.1 = thread') = before ++ after := by
        rw [hleaving, List.eraseP_append_right _ (by simpa using hbefore),
          List.eraseP_cons_of_pos (by simp)]
      rw [herase]
      exact left (by simpa using hbefore) hleaving

/-! ## The invariant -/

/-- The calls of a thread. -/
def callsOf (thread : T) (calls : List (T × C)) : List C :=
  (calls.filter fun p => p.1 = thread).map Prod.snd

/-- The calls that answers return to a thread. -/
def returnedTo (thread : T) (answers : List (T × Answer R C)) : List C :=
  (answers.filter fun p => p.1 = thread).filterMap fun p => p.2.call?

/-- Under the lock a call is in progress, or has finished; without it none is in progress. A thread
is in one call at a time, and its finished calls are returned to it, or not yet. -/
structure Inv (M : CallMachine S A C) (s : Exclusive S C T R) : Prop where
  /-- Every call that has begun has finished, or holds the lock. -/
  threads : s.begun = s.finished.map Prod.fst ++ s.holder.toList
  /-- Without the lock. -/
  free : s.holder = none → M.idle s.inner = true ∧ M.calls s.inner = s.finished.map Prod.snd
  /-- Under the lock, during a call. -/
  during : M.idle s.inner = false → M.calls s.inner = s.finished.map Prod.snd
  /-- Under the lock, after a call. -/
  after : s.holder ≠ none → M.idle s.inner = true →
    ∃ c, M.calls s.inner = s.finished.map Prod.snd ++ [c]
  /-- A thread is in one call at a time. -/
  alone : s.inside.Nodup
  /-- The finished calls of a thread. -/
  order : ∀ thread, callsOf thread s.finished =
    returnedTo thread s.answers ++ returnedTo thread s.leaving

/-- A machine with no call begun satisfies the invariant. -/
lemma init_inv {s₀ : S} (hidle : M.idle s₀ = true) (hcalls : M.calls s₀ = []) :
    (init s₀ : Exclusive S C T R).Inv M := by
  refine ⟨rfl, fun _ => ⟨hidle, hcalls⟩, fun h => ?_, fun h => absurd rfl h, List.nodup_nil,
    fun _ => rfl⟩
  cases hidle.symm.trans h

/-- One more answer. -/
lemma returnedTo_concat (thread : T) (answers : List (T × Answer R C)) (p : T × Answer R C) :
    returnedTo thread (answers ++ [p]) =
      returnedTo thread answers ++ if p.1 = thread then p.2.call?.toList else [] := by
  unfold returnedTo
  rw [List.filter_append, List.filterMap_append]
  by_cases hp : p.1 = thread
  · cases hcall : p.2.call? <;> simp [hp, hcall]
  · simp [hp]

/-- A request of a thread outside that is answered at once keeps the invariant. -/
lemma tell_inv {thread : T} {answer : Answer R C} (h : s.Inv M) (houtside : thread ∉ s.inside)
    (hanswer : answer.call? = none) : (s.tell thread answer).Inv M := by
  refine ⟨h.threads, h.free, h.during, h.after, ?_, fun thread' => ?_⟩
  · have hperm : (s.tell thread answer).inside.Perm (thread :: s.inside) := by
      unfold inside tell
      rw [List.map_append, List.append_assoc]
      exact List.perm_middle
    exact hperm.nodup_iff.mpr (List.nodup_cons.mpr ⟨houtside, h.alone⟩)
  · show _ = returnedTo thread' s.answers ++ returnedTo thread' (s.leaving ++ [(thread, answer)])
    rw [returnedTo_concat, hanswer]
    show callsOf thread' s.finished = _
    simpa using h.order thread'

/-- An action of the machine keeps the invariant, when the call in progress, or the one that it
begins, goes on or finishes. -/
lemma goesOn_inv {P : C → Prop} {inner : S} {holder : T} {begun : List T} (h : s.Inv M)
    (hcalls : M.calls s.inner = s.finished.map Prod.snd) (hgoes : M.GoesOn P s.inner inner)
    (hthreads : begun = s.finished.map Prod.fst ++ [holder])
    (halone : (s.leaving.map Prod.fst ++ [holder]).Nodup) :
    ({ s with inner := inner, holder := some holder, begun := begun } :
      Exclusive S C T R).Inv M := by
  refine ⟨hthreads, fun hnone => ?_, fun hduring => ?_, fun _ hidle => ?_, halone, h.order⟩
  · cases hnone
  · rcases hgoes with ⟨hsame, -⟩ | ⟨c, -, hidle, -⟩
    · exact hsame.trans hcalls
    · cases hidle.symm.trans hduring
  · rcases hgoes with ⟨-, hduring⟩ | ⟨c, hfinished, -, -⟩
    · cases hidle.symm.trans hduring
    · rw [hcalls] at hfinished
      exact ⟨c, hfinished⟩

/-- The lock is released: the finished call is its holder's. -/
lemma unlock_inv {thread : T} {call : C} (h : s.Inv M) (hholder : s.holder = some thread)
    (hidle : M.idle s.inner = true) (hlast : (M.calls s.inner).getLast? = some call) :
    ({ s with holder := none, finished := s.finished ++ [(thread, call)] }.tell thread
      (.returned call) : Exclusive S C T R).Inv M := by
  obtain ⟨c, hc⟩ := h.after (by rw [hholder]; exact Option.some_ne_none _) hidle
  have hcall : c = call := by
    rw [hc, List.getLast?_concat] at hlast
    exact Option.some.inj hlast
  subst hcall
  refine ⟨?_, fun _ => ⟨hidle, ?_⟩, fun hduring => ?_, fun hnone => absurd rfl hnone, ?_,
    fun thread' => ?_⟩
  · show s.begun = (s.finished ++ [(thread, c)]).map Prod.fst ++ []
    rw [h.threads, hholder, List.map_append, List.append_nil]
    rfl
  · show M.calls s.inner = (s.finished ++ [(thread, c)]).map Prod.snd
    rw [hc, List.map_append]
    rfl
  · cases hidle.symm.trans hduring
  · have halone := h.alone
    unfold inside at halone ⊢
    rw [hholder] at halone
    simpa [tell] using halone
  · show callsOf thread' (s.finished ++ [(thread, c)]) = returnedTo thread' s.answers ++
      returnedTo thread' (s.leaving ++ [(thread, .returned c)])
    have hcalls : callsOf thread' (s.finished ++ [(thread, c)]) =
        callsOf thread' s.finished ++ if thread = thread' then [c] else [] := by
      unfold callsOf
      rw [List.filter_append, List.map_append]
      by_cases hthread : thread = thread'
      · simp [hthread]
      · simp [hthread]
    rw [hcalls, h.order thread', returnedTo_concat, List.append_assoc]
    rfl

/-- A thread returns. -/
lemma leave_inv {thread : T} {answer : Answer R C} {before after : List (T × Answer R C)}
    (h : s.Inv M) (hbefore : ∀ p ∈ before, p.1 ≠ thread)
    (hleaving : s.leaving = before ++ (thread, answer) :: after) :
    ({ s with leaving := before ++ after, answers := s.answers ++ [(thread, answer)] } :
      Exclusive S C T R).Inv M := by
  refine ⟨h.threads, h.free, h.during, h.after, ?_, fun thread' => ?_⟩
  · refine h.alone.sublist ?_
    unfold inside
    rw [hleaving]
    refine List.Sublist.append_right (List.Sublist.map Prod.fst ?_) _
    exact List.Sublist.append_left (List.sublist_cons_self _ _) before
  · have hnone : returnedTo thread before = [] := by
      unfold returnedTo
      rw [List.filter_eq_nil_iff.mpr (by simpa using hbefore)]
      rfl
    have hsplit : ∀ rest, returnedTo thread' (before ++ rest) =
        returnedTo thread' before ++ returnedTo thread' rest := by
      intro rest
      unfold returnedTo
      rw [List.filter_append, List.filterMap_append]
    show callsOf thread' s.finished = returnedTo thread' (s.answers ++ [(thread, answer)]) ++
      returnedTo thread' (before ++ after)
    rw [h.order thread', hleaving, hsplit, hsplit, returnedTo_concat]
    by_cases hthread : thread = thread'
    · subst hthread
      rw [hnone]
      cases hcall : answer.call? <;> simp [returnedTo, hcall]
    · simp [returnedTo, hthread]

variable {fit : A → Prop} {P : C → Prop}

/-- **Every action keeps the invariant.** -/
theorem step_inv (hM : M.Lawful fit P) (hbegins : ∀ q a, begin q = .ok a → M.begins a = true)
    (s : Exclusive S C T R) (a : ExclusiveAction T Q A) (t : Exclusive S C T R) (h : s.Inv M)
    (hstep : step M begin s a = some t) : t.Inv M := by
  cases Step.of_step hstep with
  | rejected houtside _ => exact tell_inv h houtside rfl
  | busy houtside _ _ => exact tell_inv h houtside rfl
  | begun houtside hbegin hholder hinner =>
      rename_i thread request action inner
      have hthreads : s.begun = s.finished.map Prod.fst := by
        rw [h.threads, hholder]
        exact List.append_nil _
      have hinside : s.inside = s.leaving.map Prod.fst := by
        unfold inside
        rw [hholder]
        exact List.append_nil _
      refine goesOn_inv h (h.free hholder).2 (hM.begun hinner (hbegins _ _ hbegin))
        (congrArg (· ++ [thread]) hthreads) ?_
      have halone := h.alone
      rw [hinside] at halone houtside
      exact List.nodup_append.mpr ⟨halone, List.nodup_singleton thread, by
        rintro _ hmem _ hthread rfl
        exact houtside (List.mem_singleton.mp hthread ▸ hmem)⟩
  | inner hnot hinner =>
      rename_i action inner
      cases hidle : M.idle s.inner with
      | true =>
          obtain ⟨hcalls, hidle'⟩ := hM.inactive hinner hnot hidle
          refine ⟨h.threads, fun hholder => ?_, fun hduring => ?_, fun hholder _ => ?_, h.alone,
            h.order⟩
          · exact ⟨hidle', hcalls.trans (h.free hholder).2⟩
          · cases hidle'.symm.trans hduring
          · obtain ⟨c, hc⟩ := h.after hholder hidle
            exact ⟨c, hcalls.trans hc⟩
      | false =>
          rcases hholder : s.holder with _ | holder
          · cases hidle.symm.trans (h.free hholder).1
          · have hthreads := h.threads
            have halone := h.alone
            unfold inside at halone
            rw [hholder] at hthreads halone
            exact goesOn_inv h (h.during hidle) (hM.active hinner hnot hidle) hthreads halone
  | unlocked hholder hidle hlast => exact unlock_inv h hholder hidle hlast
  | left hbefore hleaving => exact leave_inv h hbefore hleaving

/-! ## Runs -/

/-- The action of the machine that an action of the threads makes, if it is not refused. -/
def innerAction (M : CallMachine S A C) (begin : Q → Except R A) :
    ExclusiveAction T Q A → Option A
  | .call _ request => (begin request).toOption
  | .inner action => if M.begins action then none else some action
  | .unlock => none
  | .leave _ => none

omit [DecidableEq T] in
/-- A call that the machine begins is the one of an accepted request. -/
lemma exists_request_of_innerAction {a : ExclusiveAction T Q A} {action : A}
    (h : innerAction M begin a = some action) (hbegins : M.begins action = true) :
    ∃ request, begin request = .ok action := by
  cases a with
  | call thread request =>
      refine ⟨request, ?_⟩
      simp only [innerAction] at h
      rcases hbegin : begin request with reason | action'
      · rw [hbegin] at h
        cases h
      · rw [hbegin] at h
        cases h
        rfl
  | inner action' =>
      simp only [innerAction] at h
      split_ifs at h with hnot
      cases h
      exact absurd hbegins hnot
  | unlock => cases h
  | leave thread => cases h

/-- A step of the threads is one step of the machine, or none; only a call can be left out. -/
lemma inner_step (hbegins : ∀ q a, begin q = .ok a → M.begins a = true)
    {a : ExclusiveAction T Q A} (h : step M begin s a = some t) :
    (t.inner = s.inner ∧ ∀ action, innerAction M begin a = some action → M.begins action = true) ∨
      ∃ action, innerAction M begin a = some action ∧ M.step s.inner action = some t.inner := by
  cases Step.of_step h with
  | rejected _ hbegin =>
      refine .inl ⟨rfl, fun action haction => ?_⟩
      simp only [innerAction, hbegin, Except.toOption] at haction
      cases haction
  | busy _ hbegin _ =>
      refine .inl ⟨rfl, fun action haction => ?_⟩
      simp only [innerAction, hbegin, Except.toOption] at haction
      cases haction
      exact hbegins _ _ hbegin
  | begun _ hbegin _ hinner =>
      exact .inr ⟨_, by simp [innerAction, hbegin, Except.toOption], hinner⟩
  | inner hnot hinner => exact .inr ⟨_, by simp [innerAction, hnot], hinner⟩
  | unlocked _ _ _ =>
      refine .inl ⟨rfl, fun action haction => ?_⟩
      cases haction
  | left _ _ =>
      refine .inl ⟨rfl, fun action haction => ?_⟩
      cases haction

/-- The actions that a machine made are those of the threads without some of their calls. -/
structure History (M : CallMachine S A C) (begin : Q → Except R A)
    (actions : List (ExclusiveAction T Q A)) (history : List A) : Prop where
  /-- In order. -/
  sublist : history.Sublist (actions.filterMap (innerAction M begin))
  /-- With all actions that begin no call. -/
  kept : (history.filter fun a => !M.begins a) =
    (actions.filterMap (innerAction M begin)).filter fun a => !M.begins a

/-- **The machine makes a run of its own**: the actions of the threads without some of their
calls. -/
lemma inner_run (hbegins : ∀ q a, begin q = .ok a → M.begins a = true)
    {actions : List (ExclusiveAction T Q A)} (h : run (step M begin) s actions = some t) :
    ∃ history, History M begin actions history ∧ run M.step s.inner history = some t.inner := by
  induction actions generalizing s with
  | nil =>
      cases h
      exact ⟨[], ⟨List.Sublist.refl _, rfl⟩, rfl⟩
  | cons a actions ih =>
      obtain ⟨s', hfirst, hrest⟩ := run_cons_eq_some_iff.mp h
      obtain ⟨history, hhistory, hrun⟩ := ih hrest
      rcases inner_step hbegins hfirst with ⟨hsame, hout⟩ | ⟨action, haction, hinner⟩
      · rw [hsame] at hrun
        refine ⟨history, ⟨hhistory.sublist.trans ?_, ?_⟩, hrun⟩
        · exact (List.sublist_cons_self a actions).filterMap _
        · rw [hhistory.kept, List.filterMap_cons]
          rcases haction : innerAction M begin a with _ | action
          · rfl
          · simp [hout action haction]
      · refine ⟨action :: history, ⟨?_, ?_⟩, run_cons_eq_some_iff.mpr ⟨_, hinner, hrun⟩⟩
        · rw [List.filterMap_cons_some haction]
          exact hhistory.sublist.cons_cons action
        · rw [List.filterMap_cons_some haction, List.filter_cons, List.filter_cons, hhistory.kept]

/-- The calls of the machine are the finished ones, in order, with at most one whose thread still
holds the lock. -/
lemma Inv.calls (h : s.Inv M) : ∃ held, held.length ≤ s.holder.toList.length ∧
    M.calls s.inner = s.finished.map Prod.snd ++ held := by
  cases hidle : M.idle s.inner with
  | false => exact ⟨[], Nat.zero_le _, (h.during hidle).trans (List.append_nil _).symm⟩
  | true =>
      rcases hholder : s.holder with _ | thread
      · exact ⟨[], Nat.le_refl 0, (h.free hholder).2.trans (List.append_nil _).symm⟩
      · obtain ⟨c, hc⟩ := h.after (by rw [hholder]; exact Option.some_ne_none _) hidle
        exact ⟨[c], Nat.le_refl 1, hc⟩

/-- A finished call is one of the machine. -/
lemma Inv.mem_calls (h : s.Inv M) {p : T × C} (hp : p ∈ s.finished) : p.2 ∈ M.calls s.inner := by
  obtain ⟨held, -, hcalls⟩ := h.calls
  rw [hcalls]
  exact List.mem_append_left _ (List.mem_map_of_mem hp)

/-- The finished calls are the first ones of the machine. -/
lemma Inv.getElem?_calls (h : s.Inv M) {i : ℕ} {p : T × C} (hp : s.finished[i]? = some p) :
    (M.calls s.inner)[i]? = some p.2 := by
  obtain ⟨held, -, hcalls⟩ := h.calls
  obtain ⟨hlt, -⟩ := List.getElem?_eq_some_iff.mp hp
  rw [hcalls, List.getElem?_append_left (by simpa using hlt), List.getElem?_map, hp]
  rfl

/-- A call is in progress only under the lock. -/
lemma Inv.isSome_holder (h : s.Inv M) (hidle : M.idle s.inner = false) :
    s.holder.isSome = true := by
  rcases hholder : s.holder with _ | thread
  · cases hidle.symm.trans (h.free hholder).1
  · rfl

/-- **The finished calls of a thread are returned to it once each, in order**; at most one is not
returned yet. -/
lemma Inv.returnedTo (h : s.Inv M) (thread : T) : ∃ unreturned, unreturned.length ≤ 1 ∧
    callsOf thread s.finished = returnedTo thread s.answers ++ unreturned := by
  refine ⟨Exclusive.returnedTo thread s.leaving, ?_, h.order thread⟩
  have hcount : (s.leaving.filter fun p => p.1 = thread).length ≤ 1 := by
    have hnodup : (s.leaving.map Prod.fst).Nodup := (List.nodup_append.mp h.alone).1
    have hle := List.nodup_iff_count_le_one.mp hnodup thread
    rw [List.count, List.countP_map, List.countP_eq_length_filter] at hle
    simpa [Function.comp_def, beq_eq_decide] using hle
  exact Nat.le_trans (List.length_filterMap_le _ _) hcount

end Exclusive

/-- **Threads that try a lock use the machine one after another.** -/
theorem exclusive_run {M : CallMachine S A C} {T R Q : Type} [DecidableEq T]
    {begin : Q → Except R A} {fit : A → Prop} {P : C → Prop} (hM : M.Lawful fit P)
    (hbegins : ∀ q a, begin q = .ok a → M.begins a = true ∧ fit a) {s₀ : S}
    (hidle : M.idle s₀ = true) (hcalls : M.calls s₀ = [])
    {actions : List (ExclusiveAction T Q A)} {s : Exclusive S C T R}
    (h : run (Exclusive.step M begin) (Exclusive.init s₀) actions = some s) :
    s.Inv M ∧ (∀ c ∈ M.calls s.inner, P c) ∧ ∃ history,
      Exclusive.History M begin actions history ∧ run M.step s₀ history = some s.inner := by
  have hbegins' : ∀ q a, begin q = .ok a → M.begins a = true := fun q a hq => (hbegins q a hq).1
  obtain ⟨history, hhistory, hrun⟩ := Exclusive.inner_run hbegins' h
  refine ⟨invariant_of_run (Exclusive.step_inv hM hbegins') (Exclusive.init_inv hidle hcalls) h,
    hM.forall_calls (fun a ha hbegin => ?_) hcalls hrun, history, hhistory, hrun⟩
  obtain ⟨b, -, hb⟩ := List.mem_filterMap.mp (hhistory.sublist.subset ha)
  obtain ⟨request, hrequest⟩ := Exclusive.exists_request_of_innerAction hb hbegin
  exact (hbegins request a hrequest).2

end Sakai.Lib
