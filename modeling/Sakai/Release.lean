import Sakai.Lib.Result
import Sakai.Lib.Text

/-!
# Release verification

`verifyRegistry` asks the package registry for the published version of a candidate, until it is
there, a failure is not transient, or the attempts are used up. The HTTP client and the decoder of
the registry's metadata are parameters.

* `retried_or_matching_or_refused`: what one response comes to.
* `verificationRun_of_stop`: the run stops at the first response that is not retried, or at the last
  attempt, with one sleep between two requests.
* `registry_verification`: what is accepted, where a run stops, and that the loop never ends without
  returning.
-/

namespace Sakai

open Lib

/-! ## Responses -/

/-- An HTTP status code.
Source: `reqwest::StatusCode`. -/
structure StatusCode where
  /-- The number. -/
  code : ℕ
  /-- It has three digits. -/
  lower : 100 ≤ code
  /-- It has no more than three digits. -/
  upper : code < 1000
  deriving DecidableEq, Repr

namespace StatusCode

/-- The request has succeeded. -/
def OK : StatusCode := ⟨200, by decide, by decide⟩

/-- Not found. -/
def NOT_FOUND : StatusCode := ⟨404, by decide, by decide⟩

/-- What is asked for is not possible. -/
def UNPROCESSABLE_ENTITY : StatusCode := ⟨422, by decide, by decide⟩

/-- Too many requests. -/
def TOO_MANY_REQUESTS : StatusCode := ⟨429, by decide, by decide⟩

/-- `StatusCode::is_client_error`. -/
def isClientError (status : StatusCode) : Bool := 400 ≤ status.code && status.code < 500

/-- `StatusCode::is_server_error`. -/
def isServerError (status : StatusCode) : Bool := 500 ≤ status.code && status.code < 600

end StatusCode

/-- An HTTP error, as far as it is inspected here.
Source: `reqwest::Error`. -/
structure ReqwestError where
  /-- The status, when the error is made of one. -/
  status : Option StatusCode
  /-- The connection failed. -/
  isConnect : Bool
  /-- The request could not be sent. -/
  isRequest : Bool
  /-- The time was up. -/
  isTimeout : Bool
  /-- The body could not be read. -/
  isBody : Bool
  /-- The body could not be decoded. -/
  isDecode : Bool
  deriving DecidableEq, Repr

/-- The error of a status. -/
def ReqwestError.ofStatus (status : StatusCode) : ReqwestError :=
  ⟨some status, false, false, false, false, false⟩

/-- A response, with what reading its body as text comes to.
Source: `reqwest::Response`. -/
structure Response where
  /-- The status. -/
  status : StatusCode
  /-- The body. -/
  text : Except ReqwestError Str

/-- `Response::error_for_status`. -/
def Response.errorForStatus (response : Response) : Except ReqwestError Response :=
  if response.status.isClientError || response.status.isServerError then
    .error (.ofStatus response.status)
  else .ok response

/-- What sending a request comes to. -/
abbrev Exchange := Except ReqwestError Response

/-- An error of the release operations.
Source: `anyhow::Error`, by what it is made of here. -/
inductive ReleaseError
  | reqwest (error : ReqwestError)
  | json
  | message (text : String)
  | context (text : String) (source : ReleaseError)
  deriving DecidableEq, Repr

/-- Whether the error is transient. What an error is the context of is inspected as well.
Source: `http.rs`, `retryable`. -/
def retryable : ReleaseError → Bool
  | .reqwest error => match error.status with
    | some status => status = .TOO_MANY_REQUESTS || status.isServerError
    | none =>
      error.isConnect || error.isRequest || error.isTimeout || error.isBody || error.isDecode
  | .context _ source => retryable source
  | _ => false

/-! ## One response -/

/-- What a release is checked against, as far as it is read here.
Source: `release.rs`, `Candidate`. -/
structure Candidate where
  /-- The checksum of the archive. -/
  sha256 : Str
  deriving DecidableEq, Repr

/-- The metadata of a published version.
Source: `release.rs`, `RegistryVersion`. -/
structure RegistryVersion where
  /-- The checksum of the archive. -/
  checksum : Str
  /-- The version is yanked. -/
  yanked : Bool
  deriving DecidableEq, Repr

/-- The metadata of the registry.
Source: `release.rs`, `RegistryResponse`. -/
structure RegistryResponse where
  /-- The published version. -/
  version : RegistryVersion
  deriving DecidableEq, Repr

/-- Source: `release.rs`, `Release::matching_registry_version`. -/
def matchingRegistryVersion (candidate : Candidate) (published : RegistryVersion) :
    Except ReleaseError Unit :=
  if published.yanked then .error (.message "published version is yanked; do not reuse it")
  else if published.checksum ≠ candidate.sha256 then
    .error (.message "published version has a different archive; do not skip or overwrite it")
  else .ok ()

/-- The metadata that a text is decoded to.
Source: `release.rs`, `serde_json::from_str` in `Release::registry_version_at`. -/
def decoded (decode : Str → Option RegistryResponse) (text : Str) :
    Except ReleaseError RegistryResponse :=
  match decode text with
  | some published => .ok published
  | none => .error .json

/-- Source: `release.rs`, `Release::registry_version_at`, after the request. -/
def registryVersionAt (decode : Str → Option RegistryResponse) (candidate : Candidate)
    (exchange : Exchange) : Except ReleaseError (Option RegistryVersion) := do
  let response ← exchange.mapError .reqwest
  if response.status = .NOT_FOUND then return none
  else
    let response ← response.errorForStatus.mapError .reqwest
    let text ← response.text.mapError .reqwest
    let published ← decoded decode text
    matchingRegistryVersion candidate published.version
    return some published.version

/-! ## What one response comes to -/

/-- The response has a status that is no error, and so a body to read. -/
def Response.Accepted (response : Response) : Prop :=
  response.status.isClientError = false ∧ response.status.isServerError = false

/-- The exchange brings a text. -/
def HasText (exchange : Exchange) (text : Str) : Prop :=
  ∃ response, exchange = .ok response ∧ response.Accepted ∧ response.text = .ok text

/-- The exchange is an HTTP error: the request fails, the status is an error other than a missing
version, or the body is not read. -/
inductive HttpFails : Exchange → ReqwestError → Prop
  | send {error : ReqwestError} : HttpFails (.error error) error
  | status {response : Response} :
      response.status ≠ .NOT_FOUND → ¬ response.Accepted →
      HttpFails (.ok response) (.ofStatus response.status)
  | body {response : Response} {error : ReqwestError} :
      response.Accepted → response.text = .error error → HttpFails (.ok response) error

/-- The version is not there. -/
def Missing (exchange : Exchange) : Prop :=
  ∃ response, exchange = .ok response ∧ response.status = .NOT_FOUND

section response

variable (decode : Str → Option RegistryResponse) (candidate : Candidate)

/-- The exchange brings the metadata of a published version. -/
def Publishes (exchange : Exchange) (published : RegistryVersion) : Prop :=
  ∃ text, HasText exchange text ∧ decode text = some ⟨published⟩

/-- The exchange brings a version that is not yanked and has the checksum of the candidate. -/
def Matching (exchange : Exchange) : Prop :=
  ∃ published, Publishes decode exchange published ∧ published.yanked = false ∧
    published.checksum = candidate.sha256

/-- The version is missing, or the error is transient. -/
def Retried (exchange : Exchange) : Prop :=
  Missing exchange ∨ ∃ error, HttpFails exchange error ∧ retryable (.reqwest error) = true

/-- The exchange is neither retried nor accepted: it is an error that is not transient, it brings
metadata that are malformed, or a version that is yanked or has another checksum. -/
inductive Refused (exchange : Exchange) : ReleaseError → Prop
  | http {error : ReqwestError} :
      HttpFails exchange error → retryable (.reqwest error) = false →
      Refused exchange (.reqwest error)
  | malformed {text : Str} : HasText exchange text → decode text = none → Refused exchange .json
  | yanked {published : RegistryVersion} :
      Publishes decode exchange published → published.yanked = true →
      Refused exchange (.message "published version is yanked; do not reuse it")
  | different {published : RegistryVersion} :
      Publishes decode exchange published → published.yanked = false →
      published.checksum ≠ candidate.sha256 →
      Refused exchange
        (.message "published version has a different archive; do not skip or overwrite it")

variable {decode candidate} {exchange : Exchange}

/-- A response that is accepted is not that of a missing version. -/
lemma Response.Accepted.ne_notFound {response : Response} (h : response.Accepted) :
    response.status ≠ .NOT_FOUND := by
  intro hmissing
  have hclient := h.1
  rw [hmissing] at hclient
  exact absurd hclient (by decide)

/-- A response that is accepted has no error. -/
lemma Response.errorForStatus_of_accepted {response : Response} (h : response.Accepted) :
    response.errorForStatus = .ok response := by
  unfold Response.errorForStatus
  rw [h.1, h.2]
  rfl

/-- A response that is not accepted has the error of its status. -/
lemma Response.errorForStatus_of_not_accepted {response : Response} (h : ¬ response.Accepted) :
    response.errorForStatus = .error (.ofStatus response.status) := by
  have herror : (response.status.isClientError || response.status.isServerError) = true := by
    by_contra hnone
    rw [Bool.not_eq_true, Bool.or_eq_false_iff] at hnone
    exact h hnone
  exact if_pos herror

/-- A missing version is no error. -/
lemma registryVersionAt_of_missing (h : Missing exchange) :
    registryVersionAt decode candidate exchange = .ok none := by
  obtain ⟨response, rfl, hmissing⟩ := h
  unfold registryVersionAt
  simp only [Except.mapError, ok_bind, if_pos hmissing]
  rfl

/-- An HTTP error is returned. -/
lemma registryVersionAt_of_httpFails {error : ReqwestError} (h : HttpFails exchange error) :
    registryVersionAt decode candidate exchange = .error (.reqwest error) := by
  unfold registryVersionAt
  cases h with
  | send => rfl
  | status hne hnot =>
      simp only [Except.mapError, ok_bind, if_neg hne,
        Response.errorForStatus_of_not_accepted hnot]
      rfl
  | body haccepted htext =>
      simp only [Except.mapError, ok_bind, if_neg haccepted.ne_notFound,
        Response.errorForStatus_of_accepted haccepted, htext]
      rfl

/-- A text is decoded and checked. -/
lemma registryVersionAt_of_hasText {text : Str} (h : HasText exchange text) :
    registryVersionAt decode candidate exchange = (do
      let published ← decoded decode text
      matchingRegistryVersion candidate published.version
      return some published.version) := by
  obtain ⟨response, rfl, haccepted, htext⟩ := h
  unfold registryVersionAt
  simp only [Except.mapError, ok_bind, if_neg haccepted.ne_notFound,
    Response.errorForStatus_of_accepted haccepted, htext]

/-- The metadata of a published version are checked. -/
lemma registryVersionAt_of_publishes {published : RegistryVersion}
    (h : Publishes decode exchange published) :
    registryVersionAt decode candidate exchange =
      (matchingRegistryVersion candidate published).map fun _ => some published := by
  obtain ⟨text, htext, hdecode⟩ := h
  rw [registryVersionAt_of_hasText htext, decoded, hdecode]
  simp only [ok_bind]
  cases matchingRegistryVersion candidate published <;> rfl

/-- Every exchange is that of a missing version, an HTTP error or a text. -/
lemma missing_or_httpFails_or_hasText (exchange : Exchange) :
    Missing exchange ∨ (∃ error, HttpFails exchange error) ∨ ∃ text, HasText exchange text := by
  rcases exchange with error | response
  · exact Or.inr (Or.inl ⟨error, HttpFails.send⟩)
  by_cases hmissing : response.status = .NOT_FOUND
  · exact Or.inl ⟨response, rfl, hmissing⟩
  by_cases haccepted : response.Accepted
  · rcases htext : response.text with error | text
    · exact Or.inr (Or.inl ⟨error, HttpFails.body haccepted htext⟩)
    · exact Or.inr (Or.inr ⟨text, response, rfl, haccepted, htext⟩)
  · exact Or.inr (Or.inl ⟨_, HttpFails.status hmissing haccepted⟩)

/-- **Every exchange is retried, accepted or refused.** -/
lemma retried_or_matching_or_refused (decode : Str → Option RegistryResponse)
    (candidate : Candidate) (exchange : Exchange) :
    Retried exchange ∨ Matching decode candidate exchange ∨
      ∃ error, Refused decode candidate exchange error := by
  obtain hmissing | ⟨error, hfails⟩ | ⟨text, htext⟩ := missing_or_httpFails_or_hasText exchange
  · exact Or.inl (Or.inl hmissing)
  · by_cases hretry : retryable (.reqwest error) = true
    · exact Or.inl (Or.inr ⟨error, hfails, hretry⟩)
    · exact Or.inr (Or.inr ⟨_, Refused.http hfails (Bool.eq_false_iff.mpr hretry)⟩)
  · rcases hdecode : decode text with _ | ⟨⟨published⟩⟩
    · exact Or.inr (Or.inr ⟨_, Refused.malformed htext hdecode⟩)
    · have hpublishes : Publishes decode exchange published := ⟨text, htext, hdecode⟩
      by_cases hyanked : published.yanked = true
      · exact Or.inr (Or.inr ⟨_, Refused.yanked hpublishes hyanked⟩)
      · have hkept := Bool.eq_false_iff.mpr hyanked
        by_cases hsum : published.checksum = candidate.sha256
        · exact Or.inr (Or.inl ⟨published, hpublishes, hkept, hsum⟩)
        · exact Or.inr (Or.inr ⟨_, Refused.different hpublishes hkept hsum⟩)

/-- A matching version is returned. -/
lemma registryVersionAt_of_matching (h : Matching decode candidate exchange) :
    ∃ published, registryVersionAt decode candidate exchange = .ok (some published) := by
  obtain ⟨published, hpublishes, hkept, hsum⟩ := h
  refine ⟨published, ?_⟩
  rw [registryVersionAt_of_publishes hpublishes, matchingRegistryVersion, hkept]
  simp [hsum, Except.map]

/-- An exchange that is refused is an error, and not a transient one. -/
lemma registryVersionAt_of_refused {error : ReleaseError}
    (h : Refused decode candidate exchange error) :
    registryVersionAt decode candidate exchange = .error error ∧ retryable error = false := by
  cases h with
  | http hfails hretry => exact ⟨registryVersionAt_of_httpFails hfails, hretry⟩
  | malformed htext hdecode =>
      rw [registryVersionAt_of_hasText htext, decoded, hdecode]
      exact ⟨rfl, rfl⟩
  | yanked hpublishes hyanked =>
      rw [registryVersionAt_of_publishes hpublishes, matchingRegistryVersion, if_pos hyanked]
      exact ⟨rfl, rfl⟩
  | different hpublishes hkept hsum =>
      rw [registryVersionAt_of_publishes hpublishes, matchingRegistryVersion, hkept, if_pos hsum]
      exact ⟨rfl, rfl⟩

end response

/-! ## The loop -/

section loop

variable {m : Type → Type} [Monad m] (send : m Exchange) (sleep : ℕ → m Unit)
  (decode : Str → Option RegistryResponse) (candidate : Candidate) (attempts retryDelay : ℕ)

/-- The error of the last attempt, when the version is missing.
Source: `release.rs`, the first `bail!` of `Release::verify_registry`. -/
def missingError (attempts attempt : ℕ) : ReleaseError :=
  .message <| "published version did not appear in the crates.io API after " ++
    s!"{attempt}/{attempts} attempts"

/-- An error with its attempt.
Source: `release.rs`, the `with_context` of `Release::verify_registry`. -/
def attemptError (attempts attempt : ℕ) (error : ReleaseError) : ReleaseError :=
  .context s!"registry verification failed on attempt {attempt}/{attempts}" error

/-- The attempts in turn; nothing is returned when the loop ends by itself. What is printed is left
out.
Source: `release.rs`, the loop of `Release::verify_registry`. -/
def verifyLoop : List ℕ → m (Option (Except ReleaseError Unit))
  | [] => return none
  | attempt :: rest => do
    match registryVersionAt decode candidate (← send) with
    | .ok (some _) => return some (.ok ())
    | .ok none =>
      if attempt < attempts then
        sleep retryDelay
        verifyLoop rest
      else return some (.error (missingError attempts attempt))
    | .error error =>
      if attempt < attempts ∧ retryable error then
        sleep retryDelay
        verifyLoop rest
      else return some (.error (attemptError attempts attempt error))

/-- Source: `release.rs`, `Release::verify_registry`. -/
def verifyRegistry : m (Except ReleaseError Unit) := do
  if attempts = 0 then
    return .error (.message "registry verification requires at least one attempt")
  else
    match ← verifyLoop send sleep decode candidate attempts retryDelay
      (List.range' 1 attempts) with
    | some outcome => return outcome
    | none => return .error (.message "registry verification exhausted its attempt budget")

end loop

/-! ## Runs -/

/-- What the verification does to the outside. -/
inductive Event
  /-- A request is sent. -/
  | request
  /-- It sleeps for some time. -/
  | sleep (delay : ℕ)
  deriving DecidableEq, Repr

/-- The requests sent so far, and all that was done. -/
structure World where
  /-- The number of requests. -/
  sent : ℕ
  /-- What was done, in order. -/
  trace : List Event
  deriving DecidableEq, Repr

/-- A request gets the next of the responses. -/
def sendNext (responses : ℕ → Exchange) : StateM World Exchange := fun world =>
  (responses world.sent, ⟨world.sent + 1, world.trace ++ [.request]⟩)

/-- Sleeping is recorded. -/
def sleepFor (delay : ℕ) : StateM World Unit := fun world =>
  ((), { world with trace := world.trace ++ [.sleep delay] })

/-- The run of the verification on a sequence of responses. -/
def verificationRun (responses : ℕ → Exchange) (decode : Str → Option RegistryResponse)
    (candidate : Candidate) (attempts retryDelay : ℕ) : Except ReleaseError Unit × World :=
  (verifyRegistry (sendNext responses) sleepFor decode candidate attempts retryDelay).run ⟨0, []⟩

/-- The events of a run that sends one request more than it sleeps. -/
def events (delay : ℕ) : ℕ → List Event
  | 0 => [.request]
  | sleeps + 1 => .request :: .sleep delay :: events delay sleeps

/-- What is returned when the loop stops at an attempt. -/
def stopOutcome (decode : Str → Option RegistryResponse) (candidate : Candidate)
    (attempts attempt : ℕ) (exchange : Exchange) : Except ReleaseError Unit :=
  match registryVersionAt decode candidate exchange with
  | .ok (some _) => .ok ()
  | .ok none => .error (missingError attempts attempt)
  | .error error => .error (attemptError attempts attempt error)

section runs

variable {responses : ℕ → Exchange} {decode : Str → Option RegistryResponse}
  {candidate : Candidate} {attempts retryDelay attempt : ℕ} {rest : List ℕ} {world : World}

/-- The loop on a sequence of responses. -/
def loopRun (responses : ℕ → Exchange) (decode : Str → Option RegistryResponse)
    (candidate : Candidate) (attempts retryDelay : ℕ) (left : List ℕ) (world : World) :
    Option (Except ReleaseError Unit) × World :=
  (verifyLoop (sendNext responses) sleepFor decode candidate attempts retryDelay left).run world

/-- One attempt of the loop: a request is sent, and its response decides. -/
lemma loopRun_cons :
    loopRun responses decode candidate attempts retryDelay (attempt :: rest) world =
      match registryVersionAt decode candidate (responses world.sent) with
      | .ok (some _) => (some (.ok ()), ⟨world.sent + 1, world.trace ++ [.request]⟩)
      | .ok none =>
        if attempt < attempts then
          loopRun responses decode candidate attempts retryDelay rest
            ⟨world.sent + 1, world.trace ++ [.request] ++ [.sleep retryDelay]⟩
        else (some (.error (missingError attempts attempt)),
          ⟨world.sent + 1, world.trace ++ [.request]⟩)
      | .error error =>
        if attempt < attempts ∧ retryable error then
          loopRun responses decode candidate attempts retryDelay rest
            ⟨world.sent + 1, world.trace ++ [.request] ++ [.sleep retryDelay]⟩
        else (some (.error (attemptError attempts attempt error)),
          ⟨world.sent + 1, world.trace ++ [.request]⟩) := by
  have hstep : loopRun responses decode candidate attempts retryDelay (attempt :: rest) world =
      (match registryVersionAt decode candidate (responses world.sent) with
        | .ok (some _) => return some (.ok ())
        | .ok none =>
          if attempt < attempts then do
            sleepFor retryDelay
            verifyLoop (sendNext responses) sleepFor decode candidate attempts retryDelay rest
          else return some (.error (missingError attempts attempt))
        | .error error =>
          if attempt < attempts ∧ retryable error then do
            sleepFor retryDelay
            verifyLoop (sendNext responses) sleepFor decode candidate attempts retryDelay rest
          else return some (.error (attemptError attempts attempt error)) :
        StateM World (Option (Except ReleaseError Unit))).run
        ⟨world.sent + 1, world.trace ++ [.request]⟩ := rfl
  rw [hstep]
  rcases registryVersionAt decode candidate (responses world.sent) with error | _ | published
  · by_cases hretry : attempt < attempts ∧ retryable error
    · simp only [if_pos hretry]
      rfl
    · simp only [if_neg hretry]
      rfl
  · by_cases hretry : attempt < attempts
    · simp only [if_pos hretry]
      rfl
    · simp only [if_neg hretry]
      rfl
  · rfl

/-- What a response that is retried comes to. -/
lemma registryVersionAt_of_retried (decode : Str → Option RegistryResponse)
    (candidate : Candidate) {exchange : Exchange} (h : Retried exchange) :
    registryVersionAt decode candidate exchange = .ok none ∨
      ∃ error, registryVersionAt decode candidate exchange = .error error ∧
        retryable error = true := by
  obtain hmissing | ⟨error, hfails, hretry⟩ := h
  · exact Or.inl (registryVersionAt_of_missing hmissing)
  · exact Or.inr ⟨_, registryVersionAt_of_httpFails hfails, hretry⟩

/-- **The loop goes on** after a response that is retried, unless the attempt is the last. -/
lemma loopRun_retry (hattempt : attempt < attempts) (h : Retried (responses world.sent)) :
    loopRun responses decode candidate attempts retryDelay (attempt :: rest) world =
      loopRun responses decode candidate attempts retryDelay rest
        ⟨world.sent + 1, world.trace ++ [.request] ++ [.sleep retryDelay]⟩ := by
  rw [loopRun_cons]
  obtain hnone | ⟨error, herror, hretry⟩ :=
    registryVersionAt_of_retried decode candidate h
  · simp only [hnone, if_pos hattempt]
  · simp only [herror, hattempt, hretry, and_self, if_true]

/-- **The loop stops** at the last attempt, and at a response that is not retried. -/
lemma loopRun_stop (h : ¬ attempt < attempts ∨ ¬ Retried (responses world.sent)) :
    loopRun responses decode candidate attempts retryDelay (attempt :: rest) world =
      (some (stopOutcome decode candidate attempts attempt (responses world.sent)),
        ⟨world.sent + 1, world.trace ++ [.request]⟩) := by
  rw [loopRun_cons]
  unfold stopOutcome
  obtain hlast | hstop := h
  · rcases registryVersionAt decode candidate (responses world.sent) with error | _ | published
    · simp only [hlast, false_and, if_false]
    · simp only [if_neg hlast]
    · rfl
  · obtain hretried | hmatching | ⟨error, hrefused⟩ :=
      retried_or_matching_or_refused decode candidate (responses world.sent)
    · exact absurd hretried hstop
    · obtain ⟨published, hok⟩ := registryVersionAt_of_matching hmatching
      simp only [hok]
    · obtain ⟨herror, hfinal⟩ := registryVersionAt_of_refused hrefused
      simp only [herror, hfinal, Bool.false_eq_true, and_false, if_false]

/-- A version that matches is not retried. -/
lemma Matching.not_retried {exchange : Exchange} (h : Matching decode candidate exchange) :
    ¬ Retried exchange := by
  intro hretried
  obtain ⟨published, hok⟩ := registryVersionAt_of_matching h
  obtain hnone | ⟨error, herror, -⟩ := registryVersionAt_of_retried decode candidate hretried
  · rw [hok] at hnone
    cases hnone
  · rw [hok] at herror
    cases herror

/-- A response that is refused is not retried. -/
lemma Refused.not_retried {exchange : Exchange} {error : ReleaseError}
    (h : Refused decode candidate exchange error) : ¬ Retried exchange := by
  intro hretried
  obtain ⟨hrefused, hfinal⟩ := registryVersionAt_of_refused h
  obtain hnone | ⟨error', herror, hretry⟩ :=
    registryVersionAt_of_retried decode candidate hretried
  · rw [hrefused] at hnone
    cases hnone
  · rw [hrefused] at herror
    cases herror
    rw [hfinal] at hretry
    cases hretry

/-- The loop returns without error exactly at a version that matches. -/
lemma stopOutcome_eq_ok_iff {exchange : Exchange} :
    stopOutcome decode candidate attempts attempt exchange = .ok () ↔
      Matching decode candidate exchange := by
  unfold stopOutcome
  constructor
  · intro h
    obtain hretried | hmatching | ⟨error, hrefused⟩ :=
      retried_or_matching_or_refused decode candidate exchange
    · obtain hnone | ⟨error, herror, -⟩ := registryVersionAt_of_retried decode candidate hretried
      · rw [hnone] at h
        cases h
      · rw [herror] at h
        cases h
    · exact hmatching
    · rw [(registryVersionAt_of_refused hrefused).1] at h
      cases h
  · intro h
    obtain ⟨published, hok⟩ := registryVersionAt_of_matching h
    rw [hok]

/-- **Where the loop stops**: at the first response that is not retried, or at the last attempt. -/
lemma loopRun_range' (responses : ℕ → Exchange) (decode : Str → Option RegistryResponse)
    (candidate : Candidate) (retryDelay : ℕ) {left first : ℕ} (h : first + left = attempts)
    (world : World) :
    ∃ k ≤ left, (∀ j < k, Retried (responses (world.sent + j))) ∧
      (k = left ∨ ¬ Retried (responses (world.sent + k))) ∧
      loopRun responses decode candidate attempts retryDelay (List.range' first (left + 1)) world =
        (some (stopOutcome decode candidate attempts (first + k) (responses (world.sent + k))),
          ⟨world.sent + k + 1, world.trace ++ events retryDelay k⟩) := by
  induction left generalizing first world with
  | zero =>
      refine ⟨0, le_rfl, by simp, Or.inl rfl, ?_⟩
      exact loopRun_stop (Or.inl (by omega))
  | succ left ih =>
      rw [List.range'_succ]
      by_cases hretried : Retried (responses world.sent)
      · obtain ⟨k, hk, hbefore, hstop, hrun⟩ := ih (by omega : first + 1 + left = attempts)
          ⟨world.sent + 1, world.trace ++ [.request] ++ [.sleep retryDelay]⟩
        refine ⟨k + 1, by omega, fun j hj => ?_, ?_, ?_⟩
        · rcases j with _ | j
          · exact hretried
          · have hnext := hbefore j (by omega)
            rwa [Nat.add_assoc, Nat.add_comm 1 j] at hnext
        · rcases hstop with hlast | hnot
          · exact Or.inl (by omega)
          · refine Or.inr ?_
            rwa [Nat.add_assoc, Nat.add_comm 1 k] at hnot
        · rw [loopRun_retry (by omega) hretried, hrun]
          simp only [events, List.append_assoc, Nat.add_assoc, Nat.add_comm 1 k]
          rfl
      · refine ⟨0, by omega, by simp, Or.inr hretried, ?_⟩
        exact loopRun_stop (Or.inr hretried)

/-- The loop returns, with what the response it stops at comes to. -/
lemma exists_stop (responses : ℕ → Exchange) (decode : Str → Option RegistryResponse)
    (candidate : Candidate) (retryDelay : ℕ) (h : 1 ≤ attempts) :
    ∃ k < attempts, (∀ j < k, Retried (responses j)) ∧
      (k + 1 = attempts ∨ ¬ Retried (responses k)) ∧
      loopRun responses decode candidate attempts retryDelay (List.range' 1 attempts) ⟨0, []⟩ =
        (some (stopOutcome decode candidate attempts (k + 1) (responses k)),
          ⟨k + 1, events retryDelay k⟩) := by
  obtain ⟨left, rfl⟩ := Nat.exists_eq_add_of_le' h
  obtain ⟨k, hk, hbefore, hstop, hrun⟩ := loopRun_range' responses decode candidate retryDelay
    (Nat.add_comm 1 left) ⟨0, []⟩
  simp only [Nat.zero_add, List.nil_append] at hbefore hstop hrun
  rw [Nat.add_comm 1 k] at hrun
  refine ⟨k, by omega, hbefore, ?_, hrun⟩
  exact hstop.imp_left fun heq => by rw [heq]

/-- A run of at least one attempt is the loop. -/
lemma verificationRun_eq (h : 1 ≤ attempts) {outcome : Except ReleaseError Unit} {world : World}
    (hloop : loopRun responses decode candidate attempts retryDelay (List.range' 1 attempts)
      ⟨0, []⟩ = (some outcome, world)) :
    verificationRun responses decode candidate attempts retryDelay = (outcome, world) := by
  have hne : ¬ attempts = 0 := by omega
  unfold loopRun at hloop
  unfold verificationRun verifyRegistry
  rw [if_neg hne, StateT.run_bind, hloop]
  rfl

/-- A run stops at one response only. -/
lemma stop_unique {k l : ℕ} (hk : k < attempts) (hl : l < attempts)
    (hkbefore : ∀ j < k, Retried (responses j)) (hlbefore : ∀ j < l, Retried (responses j))
    (hkstop : k + 1 = attempts ∨ ¬ Retried (responses k))
    (hlstop : l + 1 = attempts ∨ ¬ Retried (responses l)) : k = l := by
  rcases Nat.lt_trichotomy k l with hlt | heq | hlt
  · rcases hkstop with hlast | hnot
    · omega
    · exact absurd (hlbefore k hlt) hnot
  · exact heq
  · rcases hlstop with hlast | hnot
    · omega
    · exact absurd (hkbefore l hlt) hnot

/-- **The run of a verification**, by the response it stops at. -/
theorem verificationRun_of_stop {k : ℕ} (hk : k < attempts)
    (hbefore : ∀ j < k, Retried (responses j))
    (hstop : k + 1 = attempts ∨ ¬ Retried (responses k)) :
    verificationRun responses decode candidate attempts retryDelay =
      (stopOutcome decode candidate attempts (k + 1) (responses k),
        ⟨k + 1, events retryDelay k⟩) := by
  have hattempts : 1 ≤ attempts := by omega
  obtain ⟨l, hl, hlbefore, hlstop, hloop⟩ :=
    exists_stop responses decode candidate retryDelay hattempts
  obtain rfl := stop_unique hk hl hbefore hlbefore hstop hlstop
  exact verificationRun_eq hattempts hloop

end runs

/-- **Release verification.** Without an attempt, nothing is sent. With at least one, for every
sequence of responses: at most as many requests are sent as there are attempts, with one sleep
between any two of them and no other; the release is accepted exactly when, within the attempts, a
version comes that is not yanked and has the checksum of the candidate, and all responses before it
are retried; a response that is refused stops the run at this request, with its error; and the
loop never ends without returning. Every response is retried, accepted or refused. -/
theorem registry_verification (responses : ℕ → Exchange) (decode : Str → Option RegistryResponse)
    (candidate : Candidate) (attempts retryDelay : ℕ) :
    (attempts = 0 →
      verificationRun responses decode candidate attempts retryDelay =
        (.error (.message "registry verification requires at least one attempt"), ⟨0, []⟩)) ∧
    (1 ≤ attempts →
      (∃ sleeps < attempts, (verificationRun responses decode candidate attempts retryDelay).2 =
        ⟨sleeps + 1, events retryDelay sleeps⟩) ∧
      ((verificationRun responses decode candidate attempts retryDelay).1 = .ok () ↔
        ∃ k < attempts, Matching decode candidate (responses k) ∧
          ∀ j < k, Retried (responses j)) ∧
      (∀ k < attempts, (∀ j < k, Retried (responses j)) → ∀ error,
        Refused decode candidate (responses k) error →
        verificationRun responses decode candidate attempts retryDelay =
          (.error (attemptError attempts (k + 1) error), ⟨k + 1, events retryDelay k⟩)) ∧
      ∃ outcome, (loopRun responses decode candidate attempts retryDelay
        (List.range' 1 attempts) ⟨0, []⟩).1 = some outcome) ∧
    ∀ k, Retried (responses k) ∨ Matching decode candidate (responses k) ∨
      ∃ error, Refused decode candidate (responses k) error := by
  refine ⟨fun h => ?_, fun h => ?_,
    fun k => retried_or_matching_or_refused decode candidate (responses k)⟩
  · subst h
    rfl
  · -- The run is that of the loop, which stops at the first response that is not retried.
    obtain ⟨k, hk, hbefore, hstop, hloop⟩ := exists_stop responses decode candidate retryDelay h
    have hrun := verificationRun_eq h hloop
    refine ⟨⟨k, hk, by rw [hrun]⟩, ?_, fun l hl hlbefore error hrefused => ?_, _, by rw [hloop]⟩
    · constructor
      · intro hok
        rw [hrun, stopOutcome_eq_ok_iff] at hok
        exact ⟨k, hk, hok, hbefore⟩
      · intro haccepted
        obtain ⟨l, hl, hmatching, hlbefore⟩ := haccepted
        rw [verificationRun_of_stop hl hlbefore (Or.inr hmatching.not_retried)]
        exact stopOutcome_eq_ok_iff.mpr hmatching
    · rw [verificationRun_of_stop hl hlbefore (Or.inr hrefused.not_retried)]
      unfold stopOutcome
      rw [(registryVersionAt_of_refused hrefused).1]

/-- The metadata of a published version. -/
def publishedText : Str :=
  "\x7b\"version\":\x7b\"checksum\":\"e3b0\",\"yanked\":false\x7d\x7d".toList

/-- The metadata are decoded. -/
def decodePublished (text : Str) : Option RegistryResponse :=
  if text = publishedText then some ⟨⟨"e3b0".toList, false⟩⟩ else none

/-- The version is missing at first. -/
def missingFirst (k : ℕ) : Exchange :=
  if k = 0 then .ok ⟨.NOT_FOUND, .ok []⟩ else .ok ⟨.OK, .ok publishedText⟩

/-- The version is verified after a pause. -/
theorem registry_verification_missing :
    (verificationRun missingFirst decodePublished ⟨"e3b0".toList⟩ 3 5).1 = .ok () ∧
    ∃ sleeps < 3, (verificationRun missingFirst decodePublished ⟨"e3b0".toList⟩ 3 5).2 =
      ⟨sleeps + 1, events 5 sleeps⟩ := by
  obtain ⟨hsleeps, hok, -⟩ :=
    (registry_verification missingFirst decodePublished ⟨"e3b0".toList⟩ 3 5).2.1 (by decide)
  refine ⟨hok.mpr ⟨1, by decide, ⟨_, ⟨publishedText, ⟨_, rfl, ⟨by decide, by decide⟩, rfl⟩,
    if_pos rfl⟩, rfl, rfl⟩, fun j hj => ?_⟩, hsleeps⟩
  obtain rfl := Nat.lt_one_iff.mp hj
  exact .inl ⟨_, rfl, rfl⟩

end Sakai
