import Mathlib.Data.List.Basic
import Mathlib.Logic.Function.Basic
import Sakai.Error
import Sakai.Lib.Machine
import Sakai.Release

/-!
# The cache of kernel images

An image is downloaded once and kept in a cache that any number of processes share. A process takes
the lock of the image, returns at once when the image is there, and otherwise downloads it into a
file of its own that it renames at the end. `ImageCache` is the cache of one image with its
processes; a run interleaves their system calls and the answers of the server in any order, and a
process can be killed at any point. Two processes can have had the same number.

* `RetryAfter.parse_digits`: an interval in seconds is taken as it is, if the timer can represent
  it.
* `ImageCache.Step.of_step`: what each action does, and in which phase it is possible.
* `ImageCache.step_inv`: every action keeps the invariant `ImageCache.Inv`.
* `ImageCache.step_traces`: the waits and the bodies are those that the actions alone show.
* `kernel_image_run`: so in every run the image is what it was or a completely received body, it is
  installed at most once, no two processes are past the lock, each makes at most three requests,
  and waits between them as long as the answer asks for.
-/

namespace Sakai.Vmtest

open Lib

/-! ## The interval that a server asks for -/

/-- The interval of a header in nanoseconds, if the timer can represent it. Dates are nanoseconds
since the epoch; a date in the past asks for no wait. The parser of dates and the range of the
timer are parameters.
Source: `vmtest/kernel.rs`, `RetryAfter::parse`. -/
def RetryAfter.parse (httpDate : Str → Option ℕ) (timer : ℕ → Bool) (value : Str) (now : ℕ) :
    Option ℕ :=
  let value := trim value
  let delay :=
    if value.all Char.isDigit then
      (parseU64 value).toOption.map fun seconds => seconds.toNat * 10 ^ 9
    else (httpDate value).map fun date => date - now
  delay.filter timer

/-- **An interval in seconds** is taken exactly when it fits 64 bits and the timer. -/
lemma RetryAfter.parse_digits {httpDate : Str → Option ℕ} {timer : ℕ → Bool} {value : Str}
    {now seconds : ℕ} (h : IsDigits (trim value) seconds) :
    RetryAfter.parse httpDate timer value now =
      if seconds < 2 ^ 64 ∧ timer (seconds * 10 ^ 9) = true then some (seconds * 10 ^ 9)
      else none := by
  have hall : (trim value).all Char.isDigit = true := List.all_eq_true.mpr h.digits
  unfold RetryAfter.parse
  simp only [hall, if_true]
  by_cases hrange : seconds < 2 ^ 64
  · have hparse : parseU64 (trim value) = .ok (UInt64.ofNat seconds) := by
      rw [parseU64_eq_ok_iff, UInt64.toNat_ofNat_of_lt' hrange]
      exact .inl h
    rw [hparse, if_congr (and_iff_right hrange) rfl rfl]
    simp [Except.toOption, UInt64.toNat_ofNat_of_lt' hrange, Option.filter]
  · have hparse : (parseU64 (trim value)).toOption = none := by
      rcases hvalue : parseU64 (trim value) with kind | v
      · rfl
      · have hv := IsNumeral.unique (parseU64_eq_ok_iff.mp hvalue) (.inl h)
        have hlt := v.toNat_lt
        omega
    rw [hparse, if_neg fun hboth => hrange hboth.1]
    rfl

/-! ## One attempt -/

/-- A response up to its body, as far as it is read here: the status, and the header
`Retry-After` when it is there and a text. -/
structure Reply where
  /-- The status. -/
  status : StatusCode
  /-- The header. -/
  retryAfter : Option Str
  deriving DecidableEq, Repr

/-- The error of an attempt; one of HTTP has the server's interval as its context, if any. -/
inductive DownloadError
  | reqwest (error : ReqwestError) (retryAfter : Option ℕ)
  | io (errno : Errno)
  deriving DecidableEq, Repr

/-- Source: `http.rs`, `retryable`, on the error of an attempt. -/
def DownloadError.retryable : DownloadError → Bool
  | .reqwest error _ => Sakai.retryable (.reqwest error)
  | .io _ => false

/-- Source: `vmtest/kernel.rs`, `RetryAfter::delay`. -/
def RetryAfter.delay (error : DownloadError) (fallback : ℕ) : ℕ :=
  match error with
  | .reqwest _ (some delay) => delay
  | _ => fallback

/-- Source: `vmtest/kernel.rs`, `Kernel::MAX_DOWNLOAD_ATTEMPTS`. -/
def MAX_DOWNLOAD_ATTEMPTS : ℕ := 3

/-- Ten seconds.
Source: `vmtest/kernel.rs`, `Kernel::RETRY_DELAY`. -/
def RETRY_DELAY : ℕ := 10 * 10 ^ 9

/-- What sending a request comes to: the body can be read, or the attempt failed.
Source: `vmtest/kernel.rs`, `Kernel::download_once`, up to `File::create`. -/
def respond (retryAfter : Str → ℕ → Option ℕ) (now : ℕ) :
    Except ReqwestError Reply → Except DownloadError Unit
  | .error error => .error (.reqwest error none)
  | .ok reply =>
    let interval :=
      if reply.status = .TOO_MANY_REQUESTS then reply.retryAfter.bind fun value =>
        retryAfter value now
      else none
    if reply.status.isClientError || reply.status.isServerError then
      .error (.reqwest (.ofStatus reply.status) interval)
    else .ok ()

/-! ## The system -/

/-- The bytes of a file, or of a chunk of a body. -/
abbrev Bytes := List UInt8

/-- Why `image` failed: before the download, in an attempt, or when the client is built. -/
inductive ImageError
  | io (errno : Errno)
  | client (error : ReqwestError)
  | download (attempt : ℕ) (error : DownloadError)
  deriving DecidableEq, Repr

/-- Where a process stands in `image`: before the system call or the request that it makes next,
with the attempt and the chunks received in it; returned; or killed. -/
inductive ImagePhase
  | lock
  | tryExists
  | build
  | send (attempt : ℕ)
  | sleep (attempt : ℕ) (delay : ℕ)
  | create (attempt : ℕ)
  | chunk (attempt : ℕ) (received : List Bytes)
  | write (attempt : ℕ) (received : List Bytes) (chunk : Bytes)
  | rename (received : List Bytes)
  | remove (error : ImageError)
  | returned (result : Except ImageError Unit)
  | killed
  deriving DecidableEq, Repr

/-- The process holds the lock. -/
def ImagePhase.critical : ImagePhase → Bool
  | .lock | .returned _ | .killed => false
  | _ => true

/-- The process found no image. -/
def ImagePhase.downloads : ImagePhase → Bool
  | .lock | .tryExists | .returned _ | .killed => false
  | _ => true

/-- A process that downloads is past the lock. -/
lemma ImagePhase.critical_of_downloads {phase : ImagePhase} (h : phase.downloads = true) :
    phase.critical = true := by
  cases phase <;> first | rfl | cases h

/-- The cache of one image, with its processes. -/
structure ImageCache (P : Type) where
  /-- The image. -/
  destination : Option Bytes
  /-- The unfinished files, by the number of the process in their names. -/
  partials : ℕ → Option Bytes
  /-- The process that holds the lock. -/
  holder : Option P
  /-- Where each process stands. -/
  phase : P → ImagePhase
  /-- The requests each process has made. -/
  requests : P → ℕ
  /-- The bodies received up to their end, each as its chunks. -/
  bodies : List (List Bytes)
  /-- How often a file was renamed to the image. -/
  installs : ℕ

/-- What a process does next, with the outcome. A write that fails can have written some bytes. -/
inductive ImageAction
  | lock (outcome : Except Errno Unit)
  | tryExists (outcome : Except Errno Unit)
  | build (outcome : Except ReqwestError Unit)
  | send (now : ℕ) (outcome : Except ReqwestError Reply)
  | wake
  | create (outcome : Except Errno Unit)
  | chunk (outcome : Except ReqwestError (Option Bytes))
  | write (outcome : Except (Errno × ℕ) Unit)
  | rename (outcome : Except Errno Unit)
  | remove (outcome : Except Errno Unit)
  | kill
  deriving DecidableEq

namespace ImageCache

variable {P : Type} [DecidableEq P]

/-- A cache before any process has started, with whatever files are there. -/
def init (destination : Option Bytes) (partials : ℕ → Option Bytes) : ImageCache P where
  destination := destination
  partials := partials
  holder := none
  phase _ := .lock
  requests _ := 0
  bodies := []
  installs := 0

/-- The process goes on. -/
def go (s : ImageCache P) (p : P) (phase : ImagePhase) : ImageCache P :=
  { s with phase := Function.update s.phase p phase }

/-- The process returns, and its lock is released. -/
def leave (s : ImageCache P) (p : P) (result : Except ImageError Unit) : ImageCache P :=
  { s.go p (.returned result) with holder := none }

/-- The unfinished file of a process gets other content. -/
def setPartial (s : ImageCache P) (number : ℕ) (content : Option Bytes) : ImageCache P :=
  { s with partials := Function.update s.partials number content }

/-- Bytes are written at the end of the unfinished file. -/
def append (s : ImageCache P) (number : ℕ) (bytes : Bytes) : ImageCache P :=
  s.setPartial number ((s.partials number).map (· ++ bytes))

/-- The attempt failed: there is another one after a wait, or the download fails.
Source: `vmtest/kernel.rs`, `Kernel::download`, on the error of an attempt. -/
def failed (s : ImageCache P) (p : P) (attempt : ℕ) (error : DownloadError) : ImageCache P :=
  if attempt < MAX_DOWNLOAD_ATTEMPTS ∧ error.retryable = true then
    s.go p (.sleep attempt (RetryAfter.delay error (RETRY_DELAY * attempt)))
  else s.go p (.remove (.download attempt error))

/-- A request was made. -/
def sent (s : ImageCache P) (p : P) : ImageCache P :=
  { s with requests := Function.update s.requests p (s.requests p + 1) }

/-- The state after an action of a process, when it is possible: a lock that is held blocks.
Source: `vmtest/kernel.rs`, `Kernel::image`, `Kernel::download` and `Kernel::download_once`. -/
def step (retryAfter : Str → ℕ → Option ℕ) (number : P → ℕ) (s : ImageCache P) :
    P × ImageAction → Option (ImageCache P)
  | (p, action) =>
    match s.phase p, action with
    | .lock, .lock (.error errno) => some (s.go p (.returned (.error (.io errno))))
    | .lock, .lock (.ok ()) =>
      if s.holder = none then some { s.go p .tryExists with holder := some p } else none
    | .tryExists, .tryExists (.error errno) => some (s.leave p (.error (.io errno)))
    | .tryExists, .tryExists (.ok ()) =>
      if s.destination.isSome then some (s.leave p (.ok ())) else some (s.go p .build)
    | .build, .build (.error error) => some (s.go p (.remove (.client error)))
    | .build, .build (.ok ()) => some (s.go p (.send 1))
    | .send attempt, .send now outcome =>
      match respond retryAfter now outcome with
      | .error error => some ((s.sent p).failed p attempt error)
      | .ok () => some ((s.sent p).go p (.create attempt))
    | .sleep attempt _, .wake => some (s.go p (.send (attempt + 1)))
    | .create attempt, .create (.error errno) => some (s.failed p attempt (.io errno))
    | .create attempt, .create (.ok ()) =>
      some ((s.setPartial (number p) (some [])).go p (.chunk attempt []))
    | .chunk attempt _, .chunk (.error error) => some (s.failed p attempt (.reqwest error none))
    | .chunk attempt received, .chunk (.ok (some chunk)) =>
      some (s.go p (.write attempt received chunk))
    | .chunk _ received, .chunk (.ok none) =>
      some { s.go p (.rename received) with bodies := s.bodies ++ [received] }
    | .write attempt _ chunk, .write (.error (errno, written)) =>
      some ((s.append (number p) (chunk.take written)).failed p attempt (.io errno))
    | .write attempt received chunk, .write (.ok ()) =>
      some ((s.append (number p) chunk).go p (.chunk attempt (received ++ [chunk])))
    | .rename _, .rename (.error errno) => some (s.go p (.remove (.io errno)))
    | .rename _, .rename (.ok ()) =>
      match s.partials (number p) with
      | some content =>
        some { (s.setPartial (number p) none).leave p (.ok ()) with
          destination := some content
          installs := s.installs + 1 }
      | none => none
    | .remove error, .remove (.error _) => some (s.leave p (.error error))
    | .remove error, .remove (.ok ()) =>
      some ((s.setPartial (number p) none).leave p (.error error))
    | .returned _, .kill => none
    | .killed, .kill => none
    | _, .kill =>
      some { s.go p .killed with holder := if s.holder = some p then none else s.holder }
    | _, _ => none

/-- What a process does, and in which phase it is possible. -/
inductive Step (retryAfter : Str → ℕ → Option ℕ) (number : P → ℕ) (s : ImageCache P) (p : P) :
    ImageAction → ImageCache P → Prop
  /-- The lock file cannot be made or locked. -/
  | unlocked {errno : Errno} (hphase : s.phase p = .lock) :
      Step retryAfter number s p (.lock (.error errno))
        (s.go p (.returned (.error (.io errno))))
  /-- The lock is taken. -/
  | locked (hphase : s.phase p = .lock) (hholder : s.holder = none) :
      Step retryAfter number s p (.lock (.ok ())) { s.go p .tryExists with holder := some p }
  /-- The cache cannot be searched. -/
  | unknown {errno : Errno} (hphase : s.phase p = .tryExists) :
      Step retryAfter number s p (.tryExists (.error errno)) (s.leave p (.error (.io errno)))
  /-- The image is there. -/
  | found (hphase : s.phase p = .tryExists) (hthere : s.destination.isSome = true) :
      Step retryAfter number s p (.tryExists (.ok ())) (s.leave p (.ok ()))
  /-- The image is not there. -/
  | absent (hphase : s.phase p = .tryExists) (habsent : s.destination = none) :
      Step retryAfter number s p (.tryExists (.ok ())) (s.go p .build)
  /-- The client cannot be built. -/
  | unbuilt {error : ReqwestError} (hphase : s.phase p = .build) :
      Step retryAfter number s p (.build (.error error)) (s.go p (.remove (.client error)))
  /-- The client is built. -/
  | built (hphase : s.phase p = .build) :
      Step retryAfter number s p (.build (.ok ())) (s.go p (.send 1))
  /-- A request failed, or its response has an error status. -/
  | refused {attempt now : ℕ} {outcome : Except ReqwestError Reply} {error : DownloadError}
      (hphase : s.phase p = .send attempt)
      (hrespond : respond retryAfter now outcome = .error error) :
      Step retryAfter number s p (.send now outcome) ((s.sent p).failed p attempt error)
  /-- A request brought a body. -/
  | accepted {attempt now : ℕ} {outcome : Except ReqwestError Reply}
      (hphase : s.phase p = .send attempt) (hrespond : respond retryAfter now outcome = .ok ()) :
      Step retryAfter number s p (.send now outcome) ((s.sent p).go p (.create attempt))
  /-- The wait before the next attempt is over. -/
  | woken {attempt delay : ℕ} (hphase : s.phase p = .sleep attempt delay) :
      Step retryAfter number s p .wake (s.go p (.send (attempt + 1)))
  /-- The unfinished file cannot be made. -/
  | uncreated {attempt : ℕ} {errno : Errno} (hphase : s.phase p = .create attempt) :
      Step retryAfter number s p (.create (.error errno)) (s.failed p attempt (.io errno))
  /-- The unfinished file is made, or emptied. -/
  | created {attempt : ℕ} (hphase : s.phase p = .create attempt) :
      Step retryAfter number s p (.create (.ok ()))
        ((s.setPartial (number p) (some [])).go p (.chunk attempt []))
  /-- The body breaks off. -/
  | broken {attempt : ℕ} {received : List Bytes} {error : ReqwestError}
      (hphase : s.phase p = .chunk attempt received) :
      Step retryAfter number s p (.chunk (.error error)) (s.failed p attempt (.reqwest error none))
  /-- A chunk is received. -/
  | received {attempt : ℕ} {received : List Bytes} {chunk : Bytes}
      (hphase : s.phase p = .chunk attempt received) :
      Step retryAfter number s p (.chunk (.ok (some chunk)))
        (s.go p (.write attempt received chunk))
  /-- The body ends. -/
  | ended {attempt : ℕ} {received : List Bytes} (hphase : s.phase p = .chunk attempt received) :
      Step retryAfter number s p (.chunk (.ok none))
        { s.go p (.rename received) with bodies := s.bodies ++ [received] }
  /-- A write fails. -/
  | unwritten {attempt written : ℕ} {received : List Bytes} {chunk : Bytes} {errno : Errno}
      (hphase : s.phase p = .write attempt received chunk) :
      Step retryAfter number s p (.write (.error (errno, written)))
        ((s.append (number p) (chunk.take written)).failed p attempt (.io errno))
  /-- A chunk is written. -/
  | written {attempt : ℕ} {received : List Bytes} {chunk : Bytes}
      (hphase : s.phase p = .write attempt received chunk) :
      Step retryAfter number s p (.write (.ok ()))
        ((s.append (number p) chunk).go p (.chunk attempt (received ++ [chunk])))
  /-- The file cannot be renamed. -/
  | unrenamed {received : List Bytes} {errno : Errno} (hphase : s.phase p = .rename received) :
      Step retryAfter number s p (.rename (.error errno)) (s.go p (.remove (.io errno)))
  /-- The file is renamed to the image. -/
  | renamed {received : List Bytes} {content : Bytes} (hphase : s.phase p = .rename received)
      (hcontent : s.partials (number p) = some content) :
      Step retryAfter number s p (.rename (.ok ()))
        { (s.setPartial (number p) none).leave p (.ok ()) with
          destination := some content
          installs := s.installs + 1 }
  /-- The unfinished file cannot be removed, which is ignored. -/
  | unremoved {error : ImageError} {errno : Errno} (hphase : s.phase p = .remove error) :
      Step retryAfter number s p (.remove (.error errno)) (s.leave p (.error error))
  /-- The unfinished file is removed. -/
  | removed {error : ImageError} (hphase : s.phase p = .remove error) :
      Step retryAfter number s p (.remove (.ok ()))
        ((s.setPartial (number p) none).leave p (.error error))
  /-- The process is killed. -/
  | killed (hphase : s.phase p ≠ .killed) (hlive : ∀ result, s.phase p ≠ .returned result) :
      Step retryAfter number s p .kill
        { s.go p .killed with holder := if s.holder = some p then none else s.holder }

variable {retryAfter : Str → ℕ → Option ℕ} {number : P → ℕ} {s t : ImageCache P}

/-- **What a step does.** -/
lemma Step.of_step {p : P} {action : ImageAction}
    (h : step retryAfter number s (p, action) = some t) :
    Step retryAfter number s p action t := by
  simp only [step] at h
  split at h
  · cases h
    exact unlocked ‹_›
  · split_ifs at h with hholder
    cases h
    exact locked ‹_› hholder
  · cases h
    exact unknown ‹_›
  · split_ifs at h with hthere
    · cases h
      exact found ‹_› hthere
    · cases h
      exact absent ‹_› (Option.not_isSome_iff_eq_none.mp hthere)
  · cases h
    exact unbuilt ‹_›
  · cases h
    exact built ‹_›
  · split at h
    · cases h
      exact refused ‹_› ‹_›
    · cases h
      exact accepted ‹_› ‹_›
  · cases h
    exact woken ‹_›
  · cases h
    exact uncreated ‹_›
  · cases h
    exact created ‹_›
  · cases h
    exact broken ‹_›
  · cases h
    exact received ‹_›
  · cases h
    exact ended ‹_›
  · cases h
    exact unwritten ‹_›
  · cases h
    exact written ‹_›
  · cases h
    exact unrenamed ‹_›
  · split at h
    · cases h
      exact renamed ‹_› ‹_›
    · cases h
  · cases h
    exact unremoved ‹_›
  · cases h
    exact removed ‹_›
  · cases h
  · cases h
  · cases h
    exact killed ‹_› ‹_›
  · cases h

/-! ## The invariant -/

/-- What the cache is for a process that stands in a phase, having made some requests. While it
receives a body, its unfinished file is what it has received. -/
def Holds (destination : Option Bytes) (content : Option Bytes)
    (bodies : List (List Bytes)) (requests : ℕ) : ImagePhase → Prop
  | .lock | .tryExists | .build => requests = 0
  | .send attempt => requests + 1 = attempt ∧ attempt ≤ MAX_DOWNLOAD_ATTEMPTS
  | .sleep attempt _ => requests = attempt ∧ attempt < MAX_DOWNLOAD_ATTEMPTS
  | .create attempt => requests = attempt ∧ attempt ≤ MAX_DOWNLOAD_ATTEMPTS
  | .chunk attempt received | .write attempt received _ =>
    requests = attempt ∧ attempt ≤ MAX_DOWNLOAD_ATTEMPTS ∧ content = some received.flatten
  | .rename received =>
    requests ≤ MAX_DOWNLOAD_ATTEMPTS ∧ content = some received.flatten ∧ received ∈ bodies
  | .returned (.ok ()) => requests ≤ MAX_DOWNLOAD_ATTEMPTS ∧ destination.isSome = true
  | .remove _ | .returned (.error _) | .killed => requests ≤ MAX_DOWNLOAD_ATTEMPTS

/-- What the cache is for a process. -/
def Process (number : P → ℕ) (s : ImageCache P) (p : P) : Prop :=
  Holds s.destination (s.partials (number p)) s.bodies (s.requests p) (s.phase p)

/-- The invariant of a cache that held `start` at first. -/
structure Inv (number : P → ℕ) (start : Option Bytes) (s : ImageCache P) : Prop where
  /-- The processes past the lock hold it. -/
  lock : ∀ p, (s.phase p).critical = true ↔ s.holder = some p
  /-- A process downloads only while there is no image. -/
  vacant : ∀ p, (s.phase p).downloads = true → s.destination = none
  /-- What every process relies on. -/
  process : ∀ p, s.Process number p
  /-- Requests are made only when there was no image at first. -/
  asked : ∀ p, s.requests p ≠ 0 → start = none
  /-- The image is the first one, or a complete body that was installed once. -/
  image : s.destination = start ∧ s.installs = 0 ∨
    start = none ∧ s.installs = 1 ∧ ∃ received ∈ s.bodies, s.destination = some received.flatten

omit [DecidableEq P] in
/-- A cache with no process satisfies the invariant. -/
lemma init_inv (number : P → ℕ) (start : Option Bytes) (partials : ℕ → Option Bytes) :
    (init start partials : ImageCache P).Inv number start := by
  refine ⟨fun p => ?_, fun p h => ?_, fun p => rfl, fun p h => absurd rfl h, .inl ⟨rfl, rfl⟩⟩
  · simp [init, ImagePhase.critical]
  · cases h

/-- What a process relies on survives longer histories, and an image that stays; the unfinished
file matters only to a process past the lock. -/
lemma Holds.mono {destination destination' content content' : Option Bytes}
    {bodies bodies' : List (List Bytes)} {requests : ℕ} {phase : ImagePhase}
    (h : Holds destination content bodies requests phase)
    (hdestination : destination.isSome = true → destination'.isSome = true)
    (hcontent : phase.critical = true → content' = content)
    (hbodies : ∀ received ∈ bodies, received ∈ bodies') :
    Holds destination' content' bodies' requests phase := by
  cases phase with
  | chunk attempt received => exact ⟨h.1, h.2.1, (hcontent rfl).trans h.2.2⟩
  | write attempt received chunk => exact ⟨h.1, h.2.1, (hcontent rfl).trans h.2.2⟩
  | rename received => exact ⟨h.1, (hcontent rfl).trans h.2.1, hbodies _ h.2.2⟩
  | returned result =>
      rcases result with error | _
      · exact h
      · exact ⟨h.1, hdestination h.2⟩
  | _ => exact h

/-- A process makes at most three requests. -/
lemma Holds.requests_le {destination content : Option Bytes} {bodies : List (List Bytes)}
    {requests : ℕ} {phase : ImagePhase}
    (h : Holds destination content bodies requests phase) :
    requests ≤ MAX_DOWNLOAD_ATTEMPTS := by
  cases phase with
  | lock => exact (Nat.le_of_eq h).trans (Nat.zero_le _)
  | tryExists => exact (Nat.le_of_eq h).trans (Nat.zero_le _)
  | build => exact (Nat.le_of_eq h).trans (Nat.zero_le _)
  | send attempt => exact (Nat.le_succ requests).trans (h.1.le.trans h.2)
  | sleep attempt delay => exact h.1.le.trans h.2.le
  | create attempt => exact h.1.le.trans h.2
  | chunk attempt received => exact h.1.le.trans h.2.1
  | write attempt received chunk => exact h.1.le.trans h.2.1
  | rename received => exact h.1
  | remove error => exact h
  | returned result =>
      rcases result with error | _
      · exact h
      · exact h.1
  | killed => exact h

/-- What a step of a process leaves alone, and how it moves the lock and the image. -/
structure Moves (number : P → ℕ) (s : ImageCache P) (p : P) (t : ImageCache P) : Prop where
  /-- The other processes stand where they stood. -/
  phase : ∀ q, q ≠ p → t.phase q = s.phase q
  /-- Their requests. -/
  requests : ∀ q, q ≠ p → t.requests q = s.requests q
  /-- Only a process that found no image makes a request. -/
  asked : t.requests p = s.requests p ∨ (s.phase p).downloads = true
  /-- Only a process past the lock changes an unfinished file. -/
  partials : (s.phase p).critical = false → t.partials = s.partials
  /-- No body is forgotten. -/
  bodies : ∀ received ∈ s.bodies, received ∈ t.bodies
  /-- The lock stays, is taken, or is released. -/
  holder : t.holder = s.holder ∧ (t.phase p).critical = (s.phase p).critical ∨
    s.holder = none ∧ t.holder = some p ∧ (t.phase p).critical = true ∨
    s.holder = some p ∧ t.holder = none ∧ (t.phase p).critical = false
  /-- The image stays, or is installed, and then the process downloads no more. -/
  image : t.destination = s.destination ∧ t.installs = s.installs ∧
      ((t.phase p).downloads = true → (s.phase p).downloads = true ∨ s.destination = none) ∨
    (s.phase p).downloads = true ∧ t.installs = s.installs + 1 ∧ (t.phase p).critical = false ∧
      ∃ received ∈ s.bodies, t.destination = some received.flatten

omit [DecidableEq P] in
/-- Without an image there was none at first. -/
lemma Inv.start_eq_none {start : Option Bytes} (h : s.Inv number start)
    (hvacant : s.destination = none) : start = none := by
  rcases h.image with ⟨hsame, -⟩ | ⟨hstart, -⟩
  · exact hsame.symm.trans hvacant
  · exact hstart

/-- **A step that moves the cache so, and leaves the process itself in order, keeps the
invariant.** -/
lemma Moves.inv {start : Option Bytes} {p : P} (hmoves : Moves number s p t)
    (h : s.Inv number start) (hown : t.Process number p) :
    t.Inv number start := by
  have hstays : s.destination.isSome = true → t.destination.isSome = true := by
    intro hthere
    rcases hmoves.image with ⟨hsame, -⟩ | ⟨-, -, -, received, -, hnew⟩
    · rwa [hsame]
    · rw [hnew]
      rfl
  have hothers : ∀ q, q ≠ p → (s.phase q).critical = true → (s.phase p).critical = false := by
    intro q hq hcritical
    rw [← Bool.not_eq_true]
    intro hp
    have hholder := (h.lock q).mp hcritical
    rw [(h.lock p).mp hp] at hholder
    exact hq (Option.some.inj hholder).symm
  refine ⟨?_, ?_, ?_, ?_, ?_⟩
  · intro q
    by_cases hq : q = p
    · subst hq
      rcases hmoves.holder with ⟨hholder, hcritical⟩ | ⟨-, hholder, hcritical⟩ |
        ⟨-, hholder, hcritical⟩
      · rw [hholder, hcritical]
        exact h.lock q
      · simp [hholder, hcritical]
      · simp [hholder, hcritical]
    · rw [hmoves.phase q hq, h.lock q]
      rcases hmoves.holder with ⟨hholder, -⟩ | ⟨hbefore, hholder, -⟩ | ⟨hbefore, hholder, -⟩
      · rw [hholder]
      · simp [hbefore, hholder, Ne.symm hq]
      · simp [hbefore, hholder, Ne.symm hq]
  · intro q hdownloads
    by_cases hq : q = p
    · subst hq
      rcases hmoves.image with ⟨hsame, -, hvacant⟩ | ⟨-, -, hcritical, -⟩
      · rw [hsame]
        exact (hvacant hdownloads).elim (h.vacant q) id
      · rw [ImagePhase.critical_of_downloads hdownloads] at hcritical
        cases hcritical
    · rw [hmoves.phase q hq] at hdownloads
      rcases hmoves.image with ⟨hsame, -⟩ | ⟨hp, -⟩
      · rw [hsame]
        exact h.vacant q hdownloads
      · -- Both would hold the lock.
        have hfree := hothers q hq (ImagePhase.critical_of_downloads hdownloads)
        rw [ImagePhase.critical_of_downloads hp] at hfree
        cases hfree
  · intro q
    by_cases hq : q = p
    · rw [hq]
      exact hown
    · have hq' := h.process q
      unfold Process at hq' ⊢
      rw [hmoves.phase q hq, hmoves.requests q hq]
      refine hq'.mono hstays ?_ hmoves.bodies
      intro hcritical
      rw [hmoves.partials (hothers q hq hcritical)]
  · intro q hrequests
    by_cases hq : q = p
    · subst hq
      rcases hmoves.asked with hsame | hdownloads
      · rw [hsame] at hrequests
        exact h.asked q hrequests
      · exact h.start_eq_none (h.vacant q hdownloads)
    · rw [hmoves.requests q hq] at hrequests
      exact h.asked q hrequests
  · rcases hmoves.image with ⟨hsame, hinstalls, -⟩ | ⟨hp, hinstalls, -, received, hreceived, hnew⟩
    · rw [hsame, hinstalls]
      rcases h.image with hfirst | ⟨hstart, honce, received, hreceived, hthere⟩
      · exact .inl hfirst
      · exact .inr ⟨hstart, honce, received, hmoves.bodies _ hreceived, hthere⟩
    · have hvacant := h.vacant p hp
      rcases h.image with ⟨hstart, hnever⟩ | ⟨-, -, received', -, hthere⟩
      · refine .inr ⟨hstart.symm.trans hvacant, ?_, received, hmoves.bodies _ hreceived, hnew⟩
        rw [hinstalls, hnever]
      · rw [hvacant] at hthere
        cases hthere

/-! ## Every step keeps it -/

/-- Only what belongs to the process is changed: its requests, its unfinished file, and the bodies
that it adds. -/
structure Touches (s : ImageCache P) (p : P) (u : ImageCache P) : Prop where
  /-- All stand where they stood. -/
  phase : u.phase = s.phase
  /-- The lock. -/
  holder : u.holder = s.holder
  /-- The image. -/
  destination : u.destination = s.destination
  /-- The installations. -/
  installs : u.installs = s.installs
  /-- The requests of the others. -/
  requests : ∀ q, q ≠ p → u.requests q = s.requests q
  /-- Its own requests. -/
  asked : u.requests p = s.requests p ∨ (s.phase p).downloads = true
  /-- The unfinished files. -/
  partials : (s.phase p).critical = false → u.partials = s.partials
  /-- The bodies. -/
  bodies : ∀ received ∈ s.bodies, received ∈ u.bodies

variable {p : P} {u : ImageCache P}

omit [DecidableEq P] in
/-- Nothing is changed. -/
lemma touches_refl (s : ImageCache P) (p : P) : s.Touches p s :=
  ⟨rfl, rfl, rfl, rfl, fun _ _ => rfl, .inl rfl, fun _ => rfl, fun _ h => h⟩

/-- A request is counted. -/
lemma touches_sent (hdownloads : (s.phase p).downloads = true) : s.Touches p (s.sent p) :=
  ⟨rfl, rfl, rfl, rfl, fun _ hq => Function.update_of_ne hq _ _, .inr hdownloads, fun _ => rfl,
    fun _ h => h⟩

omit [DecidableEq P] in
/-- A process past the lock changes an unfinished file. -/
lemma touches_setPartial {number : ℕ} {content : Option Bytes}
    (h : (s.phase p).critical = true) : s.Touches p (s.setPartial number content) := by
  refine ⟨rfl, rfl, rfl, rfl, fun _ _ => rfl, .inl rfl, fun hfree => ?_, fun _ h => h⟩
  rw [h] at hfree
  cases hfree

/-- A process that goes on stands in its new phase. -/
lemma phase_go (s : ImageCache P) (p : P) (phase : ImagePhase) : (s.go p phase).phase p = phase :=
  Function.update_self _ _ _

/-- The process goes on to a phase on the same side of the lock. -/
lemma Touches.go {phase : ImagePhase} (h : s.Touches p u)
    (hcritical : phase.critical = (s.phase p).critical)
    (hdownloads : phase.downloads = true →
      (s.phase p).downloads = true ∨ s.destination = none) :
    Moves number s p (u.go p phase) := by
  have hself := phase_go u p phase
  refine ⟨fun q hq => ?_, h.requests, h.asked, h.partials, h.bodies, .inl ⟨h.holder, ?_⟩,
    .inl ⟨h.destination, h.installs, ?_⟩⟩
  · exact (Function.update_of_ne hq _ _).trans (congrFun h.phase q)
  · rw [hself, hcritical]
  · rw [hself]
    exact hdownloads

/-- The process returns and releases the lock. -/
lemma Touches.leave {result : Except ImageError Unit} (h : s.Touches p u)
    (hholder : s.holder = some p) : Moves number s p (u.leave p result) := by
  have hself : (u.leave p result).phase p = .returned result := Function.update_self _ _ _
  refine ⟨fun q hq => ?_, h.requests, h.asked, h.partials, h.bodies, .inr (.inr ⟨hholder, rfl, ?_⟩),
    .inl ⟨h.destination, h.installs, ?_⟩⟩
  · exact (Function.update_of_ne hq _ _).trans (congrFun h.phase q)
  · rw [hself]
    rfl
  · rw [hself]
    intro hdownloads
    cases hdownloads

/-- An attempt of a process fails. -/
lemma Touches.failed {attempt : ℕ} {error : DownloadError} (h : s.Touches p u)
    (hdownloads : (s.phase p).downloads = true) :
    Moves number s p (u.failed p attempt error) := by
  have hcritical := ImagePhase.critical_of_downloads hdownloads
  unfold ImageCache.failed
  split_ifs
  · exact h.go hcritical.symm fun _ => .inl hdownloads
  · exact h.go hcritical.symm fun _ => .inl hdownloads

omit [DecidableEq P] in
/-- What a process relies on, in the phase where it stands. -/
lemma process_of_phase {phase : ImagePhase} (hphase : u.phase p = phase)
    (h : Holds u.destination (u.partials (number p)) u.bodies (u.requests p) phase) :
    u.Process number p := by
  unfold Process
  rw [hphase]
  exact h

/-- What a process that goes on relies on. -/
lemma process_go {phase : ImagePhase}
    (h : Holds u.destination (u.partials (number p)) u.bodies (u.requests p) phase) :
    (u.go p phase).Process number p :=
  process_of_phase (phase_go u p phase) h

/-- What a process whose attempt failed relies on. -/
lemma process_failed {attempt : ℕ} {error : DownloadError} (hrequests : u.requests p = attempt)
    (hle : attempt ≤ MAX_DOWNLOAD_ATTEMPTS) :
    (u.failed p attempt error).Process number p := by
  unfold ImageCache.failed
  split_ifs with hagain
  · exact process_go ⟨hrequests, hagain.1⟩
  · have hremove : Holds u.destination (u.partials (number p)) u.bodies (u.requests p)
        (.remove (.download attempt error)) := hrequests.le.trans hle
    exact process_go hremove

omit [DecidableEq P] in
/-- What a process relies on, in the phase where it stands. -/
lemma Inv.holds {start : Option Bytes} {phase : ImagePhase}
    (h : s.Inv number start) (hphase : s.phase p = phase) :
    Holds s.destination (s.partials (number p)) s.bodies (s.requests p) phase := by
  have hp := h.process p
  unfold Process at hp
  rwa [hphase] at hp

/-- A request is counted once. -/
lemma requests_sent (s : ImageCache P) (p : P) : (s.sent p).requests p = s.requests p + 1 :=
  Function.update_self _ _ _

/-- A step by a killed process. -/
lemma moves_killed {start : Option Bytes} (h : s.Inv number start) :
    Moves number s p
      { s.go p .killed with holder := if s.holder = some p then none else s.holder } := by
  have hself : (s.go p .killed).phase p = .killed := Function.update_self _ _ _
  refine ⟨fun q hq => Function.update_of_ne hq _ _, fun _ _ => rfl, .inl rfl, fun _ => rfl,
    fun _ hr => hr, ?_, .inl ⟨rfl, rfl, fun hdownloads => ?_⟩⟩
  · by_cases hholder : s.holder = some p
    · exact .inr (.inr ⟨hholder, if_pos hholder, congrArg ImagePhase.critical hself⟩)
    · refine .inl ⟨if_neg hholder, (congrArg ImagePhase.critical hself).trans ?_⟩
      have hfree := mt (h.lock p).mp hholder
      exact (Bool.not_eq_true _ ▸ hfree).symm
  · rw [show ImageCache.phase _ p = _ from hself] at hdownloads
    cases hdownloads

/-- What a step by a process does to the cache, and what the process then relies on. -/
lemma Step.spec {start : Option Bytes} {action : ImageAction}
    (h : s.Inv number start) (hstep : Step retryAfter number s p action t) :
    Moves number s p t ∧ t.Process number p := by
  have hself := touches_refl s p
  have hle := (h.process p).requests_le
  cases hstep with
  | unlocked hphase =>
      exact ⟨hself.go (by rw [hphase]; rfl) (fun hd => by cases hd), process_go hle⟩
  | locked hphase hholder =>
      have hexists := phase_go s p .tryExists
      have hnone : s.requests p = 0 := h.holds hphase
      refine ⟨⟨fun q hq => Function.update_of_ne hq _ _, fun _ _ => rfl, .inl rfl, fun _ => rfl,
        fun _ hr => hr, .inr (.inl ⟨hholder, rfl, ?_⟩), .inl ⟨rfl, rfl, fun hd => ?_⟩⟩,
        process_of_phase hexists hnone⟩
      · show ((s.go p .tryExists).phase p).critical = true
        rw [hexists]
        rfl
      · have hdownloads : ((s.go p .tryExists).phase p).downloads = true := hd
        rw [hexists] at hdownloads
        cases hdownloads
  | unknown hphase =>
      exact ⟨hself.leave ((h.lock p).mp (by rw [hphase]; rfl)),
        process_of_phase (phase_go s p _) hle⟩
  | found hphase hthere =>
      exact ⟨hself.leave ((h.lock p).mp (by rw [hphase]; rfl)),
        process_of_phase (phase_go s p _) ⟨hle, hthere⟩⟩
  | absent hphase habsent =>
      have hnone : s.requests p = 0 := h.holds hphase
      exact ⟨hself.go (by rw [hphase]; rfl) fun _ => .inr habsent, process_go hnone⟩
  | unbuilt hphase =>
      exact ⟨hself.go (by rw [hphase]; rfl) fun _ => .inl (by rw [hphase]; rfl), process_go hle⟩
  | built hphase =>
      refine ⟨hself.go (by rw [hphase]; rfl) fun _ => .inl (by rw [hphase]; rfl), process_go ?_⟩
      have hnone : s.requests p = 0 := h.holds hphase
      exact ⟨by rw [hnone], by decide⟩
  | refused hphase hrespond =>
      obtain ⟨hnext, hattempt⟩ := h.holds hphase
      exact ⟨(touches_sent (by rw [hphase]; rfl)).failed (by rw [hphase]; rfl),
        process_failed ((requests_sent s p).trans hnext) hattempt⟩
  | accepted hphase hrespond =>
      obtain ⟨hnext, hattempt⟩ := h.holds hphase
      exact ⟨(touches_sent (by rw [hphase]; rfl)).go (by rw [hphase]; rfl)
        fun _ => .inl (by rw [hphase]; rfl), process_go ⟨(requests_sent s p).trans hnext, hattempt⟩⟩
  | woken hphase =>
      obtain ⟨hrequests, hlt⟩ := h.holds hphase
      exact ⟨hself.go (by rw [hphase]; rfl) fun _ => .inl (by rw [hphase]; rfl),
        process_go ⟨congrArg (· + 1) hrequests, hlt⟩⟩
  | uncreated hphase =>
      obtain ⟨hrequests, hattempt⟩ := h.holds hphase
      exact ⟨hself.failed (by rw [hphase]; rfl), process_failed hrequests hattempt⟩
  | created hphase =>
      obtain ⟨hrequests, hattempt⟩ := h.holds hphase
      have htouches : s.Touches p (s.setPartial (number p) (some [])) :=
        touches_setPartial (by rw [hphase]; rfl)
      exact ⟨htouches.go (by rw [hphase]; rfl) fun _ => .inl (by rw [hphase]; rfl),
        process_go ⟨hrequests, hattempt, Function.update_self _ _ _⟩⟩
  | broken hphase =>
      obtain ⟨hrequests, hattempt, -⟩ := h.holds hphase
      exact ⟨hself.failed (by rw [hphase]; rfl), process_failed hrequests hattempt⟩
  | received hphase =>
      obtain ⟨hrequests, hattempt, hcontent⟩ := h.holds hphase
      exact ⟨hself.go (by rw [hphase]; rfl) fun _ => .inl (by rw [hphase]; rfl),
        process_go ⟨hrequests, hattempt, hcontent⟩⟩
  | ended hphase =>
      rename_i attempt received
      obtain ⟨-, -, hcontent⟩ := h.holds hphase
      have htouches : s.Touches p { s with bodies := s.bodies ++ [received] } :=
        ⟨rfl, rfl, rfl, rfl, fun _ _ => rfl, .inl rfl, fun _ => rfl,
          fun _ hr => List.mem_append_left _ hr⟩
      refine ⟨htouches.go (by rw [hphase]; rfl) fun _ => .inl (by rw [hphase]; rfl), ?_⟩
      exact process_of_phase (phase_go s p _)
        ⟨hle, hcontent, List.mem_append_right _ (List.mem_singleton.mpr rfl)⟩
  | unwritten hphase =>
      obtain ⟨hrequests, hattempt, -⟩ := h.holds hphase
      exact ⟨(touches_setPartial (by rw [hphase]; rfl)).failed (by rw [hphase]; rfl),
        process_failed hrequests hattempt⟩
  | written hphase =>
      rename_i attempt received chunk
      obtain ⟨hrequests, hattempt, hcontent⟩ := h.holds hphase
      have hwritten : (s.append (number p) chunk).partials (number p) =
          some (received ++ [chunk]).flatten := by
        show Function.update s.partials (number p) _ (number p) = _
        rw [Function.update_self, hcontent]
        simp
      exact ⟨(touches_setPartial (by rw [hphase]; rfl)).go (by rw [hphase]; rfl)
        fun _ => .inl (by rw [hphase]; rfl), process_go ⟨hrequests, hattempt, hwritten⟩⟩
  | unrenamed hphase =>
      exact ⟨hself.go (by rw [hphase]; rfl) fun _ => .inl (by rw [hphase]; rfl), process_go hle⟩
  | renamed hphase hcontent =>
      rename_i received content
      obtain ⟨-, hreceived, hbody⟩ := h.holds hphase
      have hflatten : content = received.flatten :=
        Option.some.inj (hcontent.symm.trans hreceived)
      have hcritical : (s.phase p).critical = true := by
        rw [hphase]
        rfl
      have hreturned := phase_go (s.setPartial (number p) none) p (.returned (.ok ()))
      have hafter : (((s.setPartial (number p) none).go p (.returned (.ok ()))).phase p).critical =
          false := by
        rw [hreturned]
        rfl
      refine ⟨⟨fun q hq => Function.update_of_ne hq _ _, fun _ _ => rfl, .inl rfl, fun hfree => ?_,
        fun _ hr => hr, .inr (.inr ⟨(h.lock p).mp hcritical, rfl, hafter⟩),
        .inr ⟨by rw [hphase]; rfl, rfl, hafter, received, hbody, congrArg some hflatten⟩⟩,
        process_of_phase hreturned ⟨hle, rfl⟩⟩
      rw [hcritical] at hfree
      cases hfree
  | unremoved hphase =>
      exact ⟨hself.leave ((h.lock p).mp (by rw [hphase]; rfl)),
        process_of_phase (phase_go s p _) hle⟩
  | removed hphase =>
      exact ⟨(touches_setPartial (by rw [hphase]; rfl)).leave
        ((h.lock p).mp (by rw [hphase]; rfl)), process_of_phase (phase_go _ p _) hle⟩
  | killed hphase hlive => exact ⟨moves_killed h, process_of_phase (phase_go s p _) hle⟩

/-- **Every action keeps the invariant.** -/
theorem step_inv {start : Option Bytes} (s : ImageCache P) (a : P × ImageAction)
    (t : ImageCache P) (h : s.Inv number start)
    (hstep : step retryAfter number s a = some t) : t.Inv number start := by
  obtain ⟨hmoves, hown⟩ := (Step.of_step hstep).spec h
  exact hmoves.inv h hown

/-- **An image stays as it is** through every step. -/
lemma destination_step {start : Option Bytes} {content : Bytes} (s : ImageCache P)
    (a : P × ImageAction) (t : ImageCache P)
    (h : s.Inv number start ∧ s.destination = some content)
    (hstep : step retryAfter number s a = some t) :
    t.Inv number start ∧ t.destination = some content := by
  refine ⟨step_inv s a t h.1 hstep, ?_⟩
  rcases ((Step.of_step hstep).spec h.1).1.image with ⟨hsame, -⟩ | ⟨hdownloads, -⟩
  · rw [hsame]
    exact h.2
  · have hvacant := h.1.vacant _ hdownloads
    rw [h.2] at hvacant
    cases hvacant

end ImageCache

/-! ## What the actions alone show -/

/-- How long the server that gave this answer asks to wait: only one with the status 429 does. -/
def ImageAction.asked (retryAfter : Str → ℕ → Option ℕ) : ImageAction → Option ℕ
  | .send now (.ok reply) =>
    if reply.status = .TOO_MANY_REQUESTS then
      reply.retryAfter.bind fun value => retryAfter value now
    else none
  | _ => none

/-- The chunks of the body that is received, after one more action of its process. -/
def ImageAction.gather (chunks : List Bytes) : ImageAction → List Bytes
  | .create (.ok ()) => []
  | .chunk (.ok (some bytes)) => chunks ++ [bytes]
  | _ => chunks

section

variable {P : Type} [DecidableEq P]

/-- The actions of a process. -/
def actionsOf (p : P) (actions : List (P × ImageAction)) : List ImageAction :=
  (actions.filter fun a => a.1 = p).map Prod.snd

/-- The chunks that a process has received since it last made its file. -/
def chunksOf (p : P) (actions : List (P × ImageAction)) : List Bytes :=
  (actionsOf p actions).foldl ImageAction.gather []

/-- One more action, of the process. -/
lemma actionsOf_concat_self (p : P) (actions : List (P × ImageAction)) (action : ImageAction) :
    actionsOf p (actions ++ [(p, action)]) = actionsOf p actions ++ [action] := by
  simp [actionsOf]

/-- One more action, of another process. -/
lemma actionsOf_concat_of_ne {p q : P} (hq : q ≠ p) (actions : List (P × ImageAction))
    (action : ImageAction) : actionsOf q (actions ++ [(p, action)]) = actionsOf q actions := by
  simp [actionsOf, hq.symm]

/-- One more chunk, or another action, of the process. -/
lemma chunksOf_concat_self (p : P) (actions : List (P × ImageAction)) (action : ImageAction) :
    chunksOf p (actions ++ [(p, action)]) = action.gather (chunksOf p actions) := by
  unfold chunksOf
  rw [actionsOf_concat_self, List.foldl_append]
  rfl

end

/-- The chunks of a process that receives a body. -/
def ImagePhase.Gathers (chunks : List Bytes) : ImagePhase → Prop
  | .chunk _ received => received = chunks
  | .write _ received bytes => received ++ [bytes] = chunks
  | _ => True

namespace ImageCache

variable {P : Type} [DecidableEq P] {retryAfter : Str → ℕ → Option ℕ} {number : P → ℕ}
  {s t u : ImageCache P} {p : P}

/-- The interval of an error is that of the answer. -/
lemma delay_of_respond {now fallback : ℕ} {outcome : Except ReqwestError Reply}
    {error : DownloadError} (h : respond retryAfter now outcome = .error error) :
    RetryAfter.delay error fallback =
      ((ImageAction.send now outcome).asked retryAfter).getD fallback := by
  rcases outcome with e | reply
  · cases h
    rfl
  · simp only [respond] at h
    split_ifs at h with hstatus hmany
    · cases h
      simp only [ImageAction.asked, if_pos hmany]
      cases reply.retryAfter.bind fun value => retryAfter value now <;> rfl
    · cases h
      simp only [ImageAction.asked, if_neg hmany]
      rfl

/-- A process whose attempt failed waits, or gives up. -/
lemma phase_failed (u : ImageCache P) (p : P) (attempt : ℕ) (error : DownloadError) :
    (u.failed p attempt error).phase p =
        .sleep attempt (RetryAfter.delay error (RETRY_DELAY * attempt)) ∨
      ∃ error', (u.failed p attempt error).phase p = .remove error' := by
  unfold failed
  split_ifs
  · exact .inl (phase_go u p _)
  · exact .inr ⟨_, phase_go u p _⟩

/-- What an action shows of the process that makes it, in the phase that it leads to: the wait is
the one that the answer asks for, and the chunks are those received. -/
def Shows (retryAfter : Str → ℕ → Option ℕ) (action : ImageAction) (before : ImagePhase) :
    ImagePhase → Prop
  | .sleep attempt delay => delay = (action.asked retryAfter).getD (RETRY_DELAY * attempt)
  | phase => ∀ chunks, before.Gathers chunks → phase.Gathers (action.gather chunks)

/-- What an action shows of the phase that it leads to. -/
lemma shows_of_phase {action : ImageAction} {before phase phase' : ImagePhase}
    (hphase : phase' = phase) (h : Shows retryAfter action before phase) :
    Shows retryAfter action before phase' := by
  rw [hphase]
  exact h

/-- An attempt that failed shows its wait. -/
lemma shows_failed {action : ImageAction} {before : ImagePhase} {attempt : ℕ}
    {error : DownloadError}
    (h : RetryAfter.delay error (RETRY_DELAY * attempt) =
      (action.asked retryAfter).getD (RETRY_DELAY * attempt)) :
    Shows retryAfter action before ((u.failed p attempt error).phase p) := by
  rcases phase_failed u p attempt error with hphase | ⟨error', hphase⟩
  · exact shows_of_phase hphase h
  · exact shows_of_phase hphase fun _ _ => trivial

/-- **What an action shows**, its step does. -/
lemma Step.shows {action : ImageAction} (h : Step retryAfter number s p action t) :
    Shows retryAfter action (s.phase p) (t.phase p) := by
  cases h with
  | refused _ hrespond => exact shows_failed (delay_of_respond hrespond)
  | uncreated _ => exact shows_failed rfl
  | broken _ => exact shows_failed rfl
  | unwritten _ => exact shows_failed rfl
  | created _ =>
      exact shows_of_phase (phase_go _ p _) fun _ _ => rfl
  | received hphase =>
      rw [phase_go, hphase]
      rintro _ rfl
      rfl
  | written hphase =>
      rw [phase_go, hphase]
      rintro _ rfl
      rfl
  | unlocked _ => exact shows_of_phase (phase_go s p _) fun _ _ => trivial
  | locked _ _ => exact shows_of_phase (phase_go s p _) fun _ _ => trivial
  | unknown _ => exact shows_of_phase (phase_go s p _) fun _ _ => trivial
  | found _ _ => exact shows_of_phase (phase_go s p _) fun _ _ => trivial
  | absent _ _ => exact shows_of_phase (phase_go s p _) fun _ _ => trivial
  | unbuilt _ => exact shows_of_phase (phase_go s p _) fun _ _ => trivial
  | built _ => exact shows_of_phase (phase_go s p _) fun _ _ => trivial
  | accepted _ _ => exact shows_of_phase (phase_go (s.sent p) p _) fun _ _ => trivial
  | woken _ => exact shows_of_phase (phase_go s p _) fun _ _ => trivial
  | ended _ => exact shows_of_phase (phase_go s p _) fun _ _ => trivial
  | unrenamed _ => exact shows_of_phase (phase_go s p _) fun _ _ => trivial
  | renamed _ _ => exact shows_of_phase (phase_go s p _) fun _ _ => trivial
  | unremoved _ => exact shows_of_phase (phase_go s p _) fun _ _ => trivial
  | removed _ => exact shows_of_phase (phase_go s p _) fun _ _ => trivial
  | killed _ _ => exact shows_of_phase (phase_go s p _) fun _ _ => trivial

/-- The chunks that an action shows. -/
lemma Shows.gathers {action : ImageAction} {before after : ImagePhase} {chunks : List Bytes}
    (h : Shows retryAfter action before after) (hbefore : before.Gathers chunks) :
    after.Gathers (action.gather chunks) := by
  cases after with
  | sleep attempt delay => exact trivial
  | _ => exact h chunks hbefore

/-- A body is added when its process has received its end. -/
lemma Step.bodies {action : ImageAction} {body : List Bytes}
    (h : Step retryAfter number s p action t) (hbody : body ∈ t.bodies) :
    body ∈ s.bodies ∨
      action = .chunk (.ok none) ∧ ∃ attempt, s.phase p = .chunk attempt body := by
  have hfailed : ∀ (u : ImageCache P) (attempt : ℕ) (error : DownloadError),
      (u.failed p attempt error).bodies = u.bodies := by
    intro u attempt error
    unfold failed
    split_ifs <;> rfl
  cases h with
  | ended hphase =>
      rcases List.mem_append.mp hbody with hbody | hbody
      · exact .inl hbody
      · rw [List.mem_singleton.mp hbody]
        exact .inr ⟨rfl, _, hphase⟩
  | refused _ _ =>
      rw [hfailed] at hbody
      exact .inl hbody
  | uncreated _ =>
      rw [hfailed] at hbody
      exact .inl hbody
  | broken _ =>
      rw [hfailed] at hbody
      exact .inl hbody
  | unwritten _ =>
      rw [hfailed] at hbody
      exact .inl hbody
  | _ => exact .inl hbody

/-- The chunks are those of a body that a process received up to its end. -/
def Received (actions : List (P × ImageAction)) (body : List Bytes) : Prop :=
  ∃ before p after, actions = before ++ (p, .chunk (.ok none)) :: after ∧
    body = chunksOf p before

/-- The state is what the actions show. -/
structure Traces (retryAfter : Str → ℕ → Option ℕ) (actions : List (P × ImageAction))
    (s : ImageCache P) : Prop where
  /-- The waits. -/
  waits : ∀ p attempt delay, s.phase p = .sleep attempt delay → ∃ action,
    (actionsOf p actions).getLast? = some action ∧
      delay = (action.asked retryAfter).getD (RETRY_DELAY * attempt)
  /-- The body that a process receives. -/
  chunks : ∀ p, (s.phase p).Gathers (chunksOf p actions)
  /-- The bodies received up to their end. -/
  bodies : ∀ body ∈ s.bodies, Received actions body

/-- **Every action is traced.** -/
lemma step_traces {start : Option Bytes} (actions : List (P × ImageAction)) (s : ImageCache P)
    (a : P × ImageAction) (t : ImageCache P) (h : s.Inv number start ∧ s.Traces retryAfter actions)
    (hstep : step retryAfter number s a = some t) :
    t.Inv number start ∧ t.Traces retryAfter (actions ++ [a]) := by
  obtain ⟨hinv, htraces⟩ := h
  obtain ⟨p, action⟩ := a
  have hstep' := Step.of_step hstep
  have hothers := (hstep'.spec hinv).1.phase
  have hshows := hstep'.shows
  refine ⟨step_inv s _ t hinv hstep, ?_, ?_, ?_⟩
  · intro q attempt delay hphase
    by_cases hq : q = p
    · subst hq
      rw [hphase] at hshows
      exact ⟨action, by rw [actionsOf_concat_self, List.getLast?_concat], hshows⟩
    · rw [hothers q hq] at hphase
      rw [actionsOf_concat_of_ne hq]
      exact htraces.waits q attempt delay hphase
  · intro q
    by_cases hq : q = p
    · subst hq
      rw [chunksOf_concat_self]
      exact hshows.gathers (htraces.chunks q)
    · have hsame : chunksOf q (actions ++ [(p, action)]) = chunksOf q actions :=
        congrArg (List.foldl ImageAction.gather []) (actionsOf_concat_of_ne hq actions action)
      rw [hothers q hq, hsame]
      exact htraces.chunks q
  · intro body hbody
    rcases hstep'.bodies hbody with hold | ⟨rfl, attempt, hphase⟩
    · obtain ⟨before, q, after, rfl, hchunks⟩ := htraces.bodies body hold
      exact ⟨before, q, after ++ [(p, action)], by simp, hchunks⟩
    · have hgathers := htraces.chunks p
      rw [hphase] at hgathers
      exact ⟨actions, p, [], rfl, hgathers⟩

end ImageCache

/-! ## Runs -/

/-- **A cached image is never torn, and installed once.** In every run of any number of processes,
each killed at any point or not: the image is what it was at first, or there was none and it is the
chunks that a process received up to the end of a body, renamed once; it never changes once it is
there; no two processes are past the lock; a process that succeeded leaves an image; each makes at
most three requests, and none when there was an image at first. One that waits between two attempts
waits as long as the answer to its last action asks for, which is a number of seconds as it stands
when they fit 64 bits and the timer, or else ten seconds for each attempt made. -/
theorem kernel_image_run {P : Type} [DecidableEq P] (httpDate : Str → Option ℕ)
    (timer : ℕ → Bool) (number : P → ℕ) (start : Option Bytes) (partials : ℕ → Option Bytes)
    (actions : List (P × ImageAction)) (s : ImageCache P)
    (h : run (ImageCache.step (RetryAfter.parse httpDate timer) number)
      (ImageCache.init start partials) actions = some s) :
    (s.destination = start ∨ start = none ∧ ∃ body,
      ImageCache.Received actions body ∧ s.destination = some body.flatten) ∧
    s.installs ≤ 1 ∧
    (∀ content more t, s.destination = some content →
      run (ImageCache.step (RetryAfter.parse httpDate timer) number) s more = some t →
        t.destination = some content) ∧
    (∀ p q, (s.phase p).critical = true → (s.phase q).critical = true → p = q) ∧
    (∀ p, s.phase p = .returned (.ok ()) → s.destination.isSome = true) ∧
    (∀ p, s.requests p ≤ 3 ∧ (s.requests p ≠ 0 → start = none)) ∧
    (∀ p attempt delay, s.phase p = .sleep attempt delay →
      s.requests p = attempt ∧ attempt < 3 ∧ ∃ action,
        (actionsOf p actions).getLast? = some action ∧
        delay = (action.asked (RetryAfter.parse httpDate timer)).getD (10 * 10 ^ 9 * attempt) ∧
        ∀ now value seconds, action = .send now (.ok ⟨.TOO_MANY_REQUESTS, some value⟩) →
          IsDigits (trim value) seconds → seconds < 2 ^ 64 → timer (seconds * 10 ^ 9) = true →
            delay = seconds * 10 ^ 9) := by
  obtain ⟨hinv, htraces⟩ : s.Inv number start ∧
      s.Traces (RetryAfter.parse httpDate timer) actions := by
    refine invariant_of_run_of_trace ImageCache.step_traces
      ⟨ImageCache.init_inv number start partials, ?_, ?_, ?_⟩ h
    · intro p attempt delay hphase
      cases hphase
    · exact fun p => trivial
    · intro body hbody
      cases hbody
  refine ⟨?_, ?_, ?_, ?_, ?_, ?_, ?_⟩
  · rcases hinv.image with ⟨hsame, -⟩ | ⟨hstart, -, body, hbody, hdestination⟩
    · exact .inl hsame
    · exact .inr ⟨hstart, body, htraces.bodies body hbody, hdestination⟩
  · rcases hinv.image with ⟨-, hinstalls⟩ | ⟨-, hinstalls, -⟩
    · exact hinstalls.le.trans (Nat.zero_le 1)
    · exact hinstalls.le
  · intro content more t hcontent hmore
    exact (invariant_of_run ImageCache.destination_step ⟨hinv, hcontent⟩ hmore).2
  · intro p q hp hq
    have hholder := (hinv.lock p).mp hp
    rw [(hinv.lock q).mp hq] at hholder
    exact (Option.some.inj hholder).symm
  · intro p hphase
    exact (hinv.holds hphase).2
  · exact fun p => ⟨(hinv.process p).requests_le, hinv.asked p⟩
  · intro p attempt delay hphase
    obtain ⟨hrequests, hattempt⟩ := hinv.holds hphase
    obtain ⟨action, hlast, hdelay⟩ := htraces.waits p attempt delay hphase
    refine ⟨hrequests, hattempt, action, hlast, hdelay, ?_⟩
    rintro now value seconds rfl hdigits hseconds htimer
    have hparse : RetryAfter.parse httpDate timer value now = some (seconds * 10 ^ 9) := by
      rw [RetryAfter.parse_digits hdigits, if_pos ⟨hseconds, htimer⟩]
    rw [hdelay]
    exact congrArg (fun interval => interval.getD (RETRY_DELAY * attempt)) hparse

/-- Two processes of one number: the first is killed with its file unfinished, and the second is
told to wait, asks again, and installs the image. -/
def sharedCache : List (Bool × ImageAction) :=
  [(true, .lock (.ok ())), (true, .tryExists (.ok ())), (true, .build (.ok ())),
    (true, .send 0 (.ok ⟨.OK, none⟩)), (true, .create (.ok ())),
    (true, .chunk (.ok (some [1]))), (true, .write (.ok ())), (true, .kill),
    (false, .lock (.ok ())), (false, .tryExists (.ok ())), (false, .build (.ok ())),
    (false, .send 0 (.ok ⟨.TOO_MANY_REQUESTS, some "1".toList⟩)), (false, .wake),
    (false, .send 0 (.ok ⟨.OK, none⟩)), (false, .create (.ok ())),
    (false, .chunk (.ok (some [1]))), (false, .write (.ok ())), (false, .chunk (.ok (some [2]))),
    (false, .write (.ok ())), (false, .chunk (.ok none)), (false, .rename (.ok ()))]

/-- The image is the second body. -/
theorem kernel_image_shared :
    ∃ s, run (ImageCache.step (RetryAfter.parse (fun _ => none) fun _ => true) fun _ => 7)
      (ImageCache.init none fun _ => none) sharedCache = some s ∧
      s.destination = some [1, 2] ∧ s.installs ≤ 1 := by
  have hrun : (run (ImageCache.step (RetryAfter.parse (fun _ => none) fun _ => true) fun _ => 7)
      (ImageCache.init none fun _ => none) sharedCache).map ImageCache.destination =
      some (some [1, 2]) := by decide
  obtain ⟨s, hs, hdestination⟩ := Option.map_eq_some_iff.mp hrun
  exact ⟨s, hs, hdestination, (kernel_image_run _ _ _ none _ sharedCache s hs).2.1⟩

end Sakai.Vmtest
