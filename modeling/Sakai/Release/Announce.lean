import Sakai.Lib.Machine
import Sakai.Release.Candidate

/-!
# Announcing releases

After the crate is uploaded, a job creates the release on GitHub, unless it is there already. A
`Hosting` is the registry and the releases with any number of such jobs; a run interleaves their
requests with uploads, yanks and the edits of maintainers in any order. Any answer may come to a
request, or none, and a job can be killed; to the services, one that is killed while its request is
on the way is one whose request gets no answer. Of the services this is relied on: the registry
never replaces a version, what either of them sends is true (`RegistryTruth`, `LookupTruth`), and
GitHub has one published release for a tag, and reports one as created only if it was
(`CreateTruth`).

* `Job.ready_eq_ok_iff`, `Job.body_eq_ok_iff`: when a job goes on to its requests.
* `Hosting.Step.of_step`: what each action does, and in which phase it is possible.
* `Hosting.step_inv`, `Hosting.step_invTag`: what every action keeps, for all releases and for one
  that nobody edits.
* `github_releases_run`: so every release that is created is that of a candidate of its checkout, is
  created once, is never replaced, and is found again by a job whose predecessor lost its answer.
-/

namespace Sakai.Release

open Lib

/-! ## Answers -/

/-- A release on GitHub. -/
structure GithubRelease where
  /-- The name. -/
  name : Str
  /-- The commit. -/
  targetCommitish : Str
  /-- The notes. -/
  body : Str
  /-- The release is a draft. -/
  draft : Bool
  /-- The release is a prerelease. -/
  prerelease : Bool
  deriving DecidableEq, Repr

/-- What is looked up in the JSON of a release, where it has the expected type.
Source: `release.rs`, the calls of `serde_json::Value::get` in `Release::github_release`. -/
structure ReleaseJson where
  /-- The notes. -/
  body : Option Str
  /-- Whether it is a draft. -/
  draft : Option Bool
  /-- Whether it is a prerelease. -/
  prerelease : Option Bool
  deriving DecidableEq, Repr

/-- What the texts that the services send are decoded to, with `serde_json::from_str`. -/
structure Decoders where
  /-- The metadata of a version. -/
  registry : Str → Option RegistryResponse
  /-- A release. -/
  release : Str → Option ReleaseJson

/-- An error of a job.
Source: `anyhow::Error`, by what it is made of here. -/
inductive AnnounceError
  | stage (error : StageError)
  | release (error : ReleaseError)
  deriving DecidableEq, Repr

/-- The response of an exchange that has a status that is no error. -/
def accepted : Exchange → Option Response
  | .ok response =>
    if response.status.isClientError || response.status.isServerError then none else some response
  | .error _ => none

/-- What an exchange brings, when its text is decoded. -/
def brings {α : Type} (decode : Str → Option α) (exchange : Exchange) : Option α := do
  let response ← accepted exchange
  let text ← response.text.toOption
  decode text

/-- What is told of a release is so. -/
def ReleaseJson.Tells (json : ReleaseJson) (release : GithubRelease) : Prop :=
  (∀ body ∈ json.body, body = release.body) ∧ (∀ draft ∈ json.draft, draft = release.draft) ∧
    ∀ prerelease ∈ json.prerelease, prerelease = release.prerelease

instance (json : ReleaseJson) (release : GithubRelease) : Decidable (json.Tells release) :=
  inferInstanceAs (Decidable (_ ∧ _ ∧ _))

/-- The registry sends metadata of a version only if the version has had them. -/
def RegistryTruth (decoders : Decoders) (had : List RegistryVersion) (exchange : Exchange) : Prop :=
  ∀ response ∈ brings decoders.registry exchange, response.version ∈ had

instance (decoders : Decoders) (had : List RegistryVersion) (exchange : Exchange) :
    Decidable (RegistryTruth decoders had exchange) :=
  inferInstanceAs (Decidable (∀ response ∈ brings decoders.registry exchange, _))

/-- GitHub sends a release only if it is there. -/
def LookupTruth (decoders : Decoders) (found : Option GithubRelease) (exchange : Exchange) : Prop :=
  ∀ json ∈ brings decoders.release exchange, ∃ release ∈ found, json.Tells release

instance (decoders : Decoders) (found : Option GithubRelease) (exchange : Exchange) :
    Decidable (LookupTruth decoders found exchange) :=
  inferInstanceAs (Decidable (∀ json ∈ brings decoders.release exchange, ∃ release ∈ found, _))

/-- GitHub creates a release only if the tag has none, and reports it only if it does. -/
def CreateTruth (found : Option GithubRelease) (effect : Bool) (exchange : Exchange) : Prop :=
  (effect = true → found = none) ∧ ((accepted exchange).isSome = true → effect = true)

instance (found : Option GithubRelease) (effect : Bool) (exchange : Exchange) :
    Decidable (CreateTruth found effect exchange) :=
  inferInstanceAs (Decidable (_ ∧ _))

/-- The release that is asked for.
Source: `release.rs`, `body` in `Release::github_release`. -/
def newRelease (candidate : Candidate) (notes : Str) : GithubRelease where
  name := candidate.tag
  targetCommitish := candidate.commit
  body := notes
  draft := false
  prerelease := false

/-! ## A job -/

/-- What a job finds in its own checkout. -/
structure Job where
  /-- The files. -/
  files : Files
  /-- `git rev-parse HEAD`. -/
  head : Except StageError Str
  /-- `Release::client`. -/
  client : Except StageError Unit
  /-- The token of the environment. -/
  token : Except StageError Str

/-- What is checked before the registry is asked.
Source: `release.rs`, `Release::github_release`. -/
def Job.ready (tools : Tools) (job : Job) : Except StageError Candidate := do
  let candidate ← tools.candidate job.files
  let head ← job.head
  ensure (candidate.commit = trim head) "checkout differs from the release candidate's commit"
  job.client
  return candidate

/-- What is checked before GitHub is asked.
Source: `release.rs`, `Release::github_release`. -/
def Job.body (job : Job) (candidate : Candidate) : Except StageError Str := do
  let notes ← readText job.files NOTES
  let changelog ← readText job.files CHANGELOG
  let expected ← (releaseNotes changelog.toList candidate.version).mapError .notes
  ensure (notes.toList = expected) "candidate notes differ from the tagged changelog"
  let _ ← job.token
  job.client
  return notes.toList

/-- The version is in the registry.
Source: `release.rs`, the `ensure!` on `Release::registry_version` in `Release::github_release`. -/
def uploaded (decoders : Decoders) (candidate : Candidate) (exchange : Exchange) :
    Except AnnounceError Unit := do
  let found ← (registryVersionAt decoders.registry ⟨candidate.sha256⟩ exchange).mapError .release
  (ensure (found.isSome = true) "crate upload has not completed").mapError .stage

/-- Whether the release is to be created; one that is there must match.
Source: `release.rs`, the `match` on the response in `Release::github_release`. -/
def lookedUp (decoders : Decoders) (notes : Str) (exchange : Exchange) :
    Except AnnounceError Bool := do
  let response ← exchange.mapError fun error => .release (.reqwest error)
  if response.status = .NOT_FOUND then return true
  else
    let response ← response.errorForStatus.mapError fun error => .release (.reqwest error)
    let text ← response.text.mapError fun error => .release (.reqwest error)
    match decoders.release text with
    | none => .error (.release .json)
    | some existing => do
      (ensure (existing.body = some notes)
        "existing GitHub release has different notes").mapError .stage
      (ensure (existing.draft = some false)
        "existing GitHub release is still a draft").mapError .stage
      (ensure (existing.prerelease = some false)
        "existing GitHub release is marked as a prerelease").mapError .stage
      return false

/-- The release is created.
Source: `release.rs`, the `error_for_status` of the `post` in `Release::github_release`. -/
def posted (exchange : Exchange) : Except AnnounceError Unit := do
  let response ← exchange.mapError fun error => .release (.reqwest error)
  let _ ← response.errorForStatus.mapError fun error => .release (.reqwest error)
  return ()

/-! ## The system -/

/-- Where a job stands: before it starts, or before the request that it makes next; returned; or
killed. -/
inductive AnnouncePhase
  | load
  | registry (candidate : Candidate)
  | lookup (candidate : Candidate) (notes : Str)
  | create (candidate : Candidate) (notes : Str)
  | returned (result : Except AnnounceError Unit)
  | killed
  deriving DecidableEq

/-- The services, with the jobs. -/
structure Hosting (P : Type) where
  /-- The versions in the registry. -/
  registry : Str → Option RegistryVersion
  /-- The metadata that each version has had. -/
  had : Str → List RegistryVersion
  /-- The published releases on GitHub, by their tags. -/
  releases : Str → Option GithubRelease
  /-- Where each job stands. -/
  phase : P → AnnouncePhase
  /-- The releases that jobs have created, by the job and the tag. -/
  created : List (P × Str)

/-- What happens. A job makes its next request, with what sending it comes to; one that creates a
release may take effect or not. -/
inductive AnnounceAction (P : Type)
  | load (p : P)
  | registry (p : P) (exchange : Exchange)
  | lookup (p : P) (exchange : Exchange)
  | create (p : P) (effect : Bool) (exchange : Exchange)
  | kill (p : P)
  | upload (version : Str) (published : RegistryVersion)
  | yank (version : Str) (yanked : Bool)
  | edit (tag : Str) (release : Option GithubRelease)

namespace Hosting

variable {P : Type} [DecidableEq P]

/-- Services with jobs that have not started. -/
def init (registry : Str → Option RegistryVersion) (releases : Str → Option GithubRelease) :
    Hosting P where
  registry := registry
  had version := (registry version).toList
  releases := releases
  phase _ := .load
  created := []

/-- A job goes on. -/
def go (s : Hosting P) (p : P) (phase : AnnouncePhase) : Hosting P :=
  { s with phase := Function.update s.phase p phase }

/-- The job stands in its phase. -/
@[simp] lemma go_phase_self (s : Hosting P) (p : P) (phase : AnnouncePhase) :
    (s.go p phase).phase p = phase :=
  Function.update_self ..

/-- The others stand where they stood. -/
lemma go_phase_of_ne {s : Hosting P} {p q : P} (h : q ≠ p) (phase : AnnouncePhase) :
    (s.go p phase).phase q = s.phase q :=
  Function.update_of_ne h ..

/-- A job returns an error. -/
def stop (s : Hosting P) (p : P) (error : AnnounceError) : Hosting P :=
  s.go p (.returned (.error error))

/-- The registry has other metadata for a version. -/
def setVersion (s : Hosting P) (version : Str) (published : Option RegistryVersion) : Hosting P :=
  { s with
    registry := Function.update s.registry version published
    had := Function.update s.had version (s.had version ++ published.toList) }

/-- A tag has another release. -/
def setRelease (s : Hosting P) (tag : Str) (release : Option GithubRelease) : Hosting P :=
  { s with releases := Function.update s.releases tag release }

/-- A job has created a release. -/
def post (s : Hosting P) (p : P) (candidate : Candidate) (notes : Str) : Hosting P :=
  { s.setRelease candidate.tag (some (newRelease candidate notes)) with
    created := s.created ++ [(p, candidate.tag)] }

/-- The state after an action, when it is possible.
Source: `release.rs`, `Release::github_release`. -/
def step (tools : Tools) (decoders : Decoders) (job : P → Job) (s : Hosting P) :
    AnnounceAction P → Option (Hosting P)
  | .load p => match s.phase p with
    | .load => match (job p).ready tools with
      | .error error => some (s.stop p (.stage error))
      | .ok candidate => some (s.go p (.registry candidate))
    | _ => none
  | .registry p exchange => match s.phase p with
    | .registry candidate =>
      if RegistryTruth decoders (s.had candidate.version) exchange then
        match uploaded decoders candidate exchange with
        | .error error => some (s.stop p error)
        | .ok () => match (job p).body candidate with
          | .error error => some (s.stop p (.stage error))
          | .ok notes => some (s.go p (.lookup candidate notes))
      else none
    | _ => none
  | .lookup p exchange => match s.phase p with
    | .lookup candidate notes =>
      if LookupTruth decoders (s.releases candidate.tag) exchange then
        match lookedUp decoders notes exchange with
        | .error error => some (s.stop p error)
        | .ok true => some (s.go p (.create candidate notes))
        | .ok false => some (s.go p (.returned (.ok ())))
      else none
    | _ => none
  | .create p effect exchange => match s.phase p with
    | .create candidate notes =>
      if CreateTruth (s.releases candidate.tag) effect exchange then
        let s' := s.go p (.returned (posted exchange))
        some (if effect = true then s'.post p candidate notes else s')
      else none
    | _ => none
  | .kill p => match s.phase p with
    | .returned _ | .killed => none
    | _ => some (s.go p .killed)
  | .upload version published =>
    if s.registry version = none then some (s.setVersion version (some published)) else none
  | .yank version yanked =>
    let found := s.registry version
    some (s.setVersion version (found.map fun published => { published with yanked := yanked }))
  | .edit tag release => some (s.setRelease tag release)

end Hosting

/-! ## What a job checks -/

/-- The candidate is the one that the files of the job hold, and its commit is checked out. -/
structure Loaded (tools : Tools) (digest : ByteArray → Str) (job : Job) (candidate : Candidate) :
    Prop where
  /-- The files hold it. -/
  holds : tools.Holds digest job.files candidate
  /-- Its commit is checked out. -/
  commit : ∃ head, job.head = .ok head ∧ trim head = candidate.commit

/-- The stored notes are those of the version in the changelog. -/
def Noted (job : Job) (candidate : Candidate) (notes : Str) : Prop :=
  job.files NOTES = .ok (String.ofList notes).toUTF8 ∧
    ∃ (changelog : String) (body : List Str), job.files CHANGELOG = .ok changelog.toUTF8 ∧
      IsSection (lines changelog.toList) candidate.version body ∧ notes = joinNotes body ∧
        notes ≠ []

section checks

variable {tools : Tools} {digest : ByteArray → Str} {job : Job} {candidate candidate' : Candidate}
  {notes notes' : Str}

/-- **When a job asks the registry**: its candidate is loaded. -/
lemma Job.ready_eq_ok_iff (h : tools.Documented digest) :
    job.ready tools = .ok candidate ↔ Loaded tools digest job candidate ∧ job.client = .ok () := by
  unfold Job.ready
  simp only [bind_eq_ok, ensure_eq_ok, pure_eq_ok, tools.candidate_eq_ok_iff h]
  constructor
  · rintro ⟨_, hholds, head, hhead, -, hcommit, ⟨⟩, hclient, rfl⟩
    exact ⟨⟨hholds, head, hhead, hcommit.symm⟩, hclient⟩
  · rintro ⟨⟨hholds, head, hhead, hcommit⟩, hclient⟩
    exact ⟨candidate, hholds, head, hhead, (), hcommit.symm, (), hclient, rfl⟩

/-- **When a job asks GitHub**: its notes are those of the changelog. -/
lemma Job.body_eq_ok_iff :
    job.body candidate = .ok notes ↔
      Noted job candidate notes ∧ (∃ token, job.token = .ok token) ∧ job.client = .ok () := by
  unfold Job.body
  simp only [bind_eq_ok, ensure_eq_ok, pure_eq_ok, mapError_eq_ok, readText_eq_ok_iff,
    releaseNotes_eq_ok_iff]
  constructor
  · rintro ⟨stored, hstored, changelog, hchangelog, _, ⟨body, hsection, hnotes, hne⟩, -, rfl, token,
      htoken, ⟨⟩, hclient, rfl⟩
    refine ⟨⟨?_, changelog, body, hchangelog, hsection, hnotes, hne⟩, ⟨token, htoken⟩, hclient⟩
    rw [String.ofList_toList]
    exact hstored
  · rintro ⟨⟨hstored, changelog, body, hchangelog, hsection, hnotes, hne⟩, ⟨token, htoken⟩, hclient⟩
    exact ⟨String.ofList notes, hstored, changelog, hchangelog, notes,
      ⟨body, hsection, hnotes, hne⟩, (), String.toList_ofList, token, htoken, (), hclient,
      String.toList_ofList⟩

/-- A file has one text. -/
lemma text_unique {files : Files} {path : Str} {a b : String} (ha : files path = .ok a.toUTF8)
    (hb : files path = .ok b.toUTF8) : a = b := by
  rw [← readText_eq_ok_iff] at ha hb
  exact Except.ok.inj (ha.symm.trans hb)

/-- A job has one candidate. -/
lemma Loaded.unique (h : Loaded tools digest job candidate)
    (h' : Loaded tools digest job candidate') : candidate = candidate' := by
  obtain ⟨text, hmanifest, hdecode⟩ := h.holds.manifest
  obtain ⟨text', hmanifest', hdecode'⟩ := h'.holds.manifest
  obtain rfl := text_unique hmanifest hmanifest'
  exact Option.some.inj (hdecode.symm.trans hdecode')

/-- A job has one text of notes. -/
lemma Noted.unique (h : Noted job candidate notes) (h' : Noted job candidate' notes') :
    notes = notes' := by
  have htext := text_unique h.1 h'.1
  rw [← String.toList_ofList (l := notes), htext, String.toList_ofList]

end checks

/-! ## What the answers tell -/

section answers

variable {decoders : Decoders} {candidate : Candidate} {notes : Str} {exchange : Exchange}

/-- What an exchange brings is decoded from the text of an accepted response. -/
lemma brings_eq_some_iff {α : Type} {decode : Str → Option α} {a : α} :
    brings decode exchange = some a ↔ ∃ text, HasText exchange text ∧ decode text = some a := by
  have htext : ∀ (read : Except ReqwestError Str) (text : Str),
      read.toOption = some text ↔ read = .ok text := by
    intro read text
    cases read <;> simp [Except.toOption]
  have hresponse : ∀ response, accepted exchange = some response ↔
      exchange = .ok response ∧ response.Accepted := by
    intro response
    unfold accepted
    rcases exchange with error | answer
    · simp
    · dsimp only
      split_ifs with hstatus
      · simp only [Except.ok.injEq, false_iff, not_and]
        rintro rfl haccepted
        rw [haccepted.1, haccepted.2] at hstatus
        cases hstatus
      · rw [Bool.not_eq_true, Bool.or_eq_false_iff] at hstatus
        simp only [Option.some.injEq, Except.ok.injEq, iff_self_and]
        rintro rfl
        exact hstatus
  unfold brings
  simp only [Option.bind_eq_bind, Option.bind_eq_some_iff, htext, hresponse]
  constructor
  · rintro ⟨response, ⟨rfl, haccepted⟩, text, hread, hdecode⟩
    exact ⟨text, ⟨response, rfl, haccepted, hread⟩, hdecode⟩
  · rintro ⟨text, ⟨response, rfl, haccepted, hread⟩, hdecode⟩
    exact ⟨response, ⟨rfl, haccepted⟩, text, hread, hdecode⟩

/-- **A version that is found** is not yanked, and has the checksum of the candidate. -/
lemma brings_of_uploaded (h : uploaded decoders candidate exchange = .ok ()) :
    brings decoders.registry exchange = some ⟨⟨candidate.sha256, false⟩⟩ := by
  unfold uploaded at h
  simp only [bind_eq_ok, mapError_eq_ok, ensure_eq_ok] at h
  obtain ⟨found, hfound, hsome⟩ := h
  obtain ⟨version, rfl⟩ := Option.isSome_iff_exists.mp hsome
  obtain hmissing | ⟨error, hfails⟩ | ⟨text, htext⟩ := missing_or_httpFails_or_hasText exchange
  · rw [registryVersionAt_of_missing hmissing] at hfound
    cases hfound
  · rw [registryVersionAt_of_httpFails hfails] at hfound
    cases hfound
  · rcases hdecode : decoders.registry text with _ | ⟨⟨checksum, yanked⟩⟩
    · rw [registryVersionAt_of_hasText htext, decoded, hdecode] at hfound
      cases hfound
    · rw [registryVersionAt_of_publishes ⟨text, htext, hdecode⟩, map_eq_ok] at hfound
      obtain ⟨_, hmatching, -⟩ := hfound
      unfold matchingRegistryVersion at hmatching
      split_ifs at hmatching with hyanked hsum
      obtain rfl : yanked = false := Bool.eq_false_iff.mpr hyanked
      obtain rfl : checksum = candidate.sha256 := not_not.mp hsum
      exact brings_eq_some_iff.mpr ⟨text, htext, hdecode⟩

/-- **A release that matches** has the notes, and is neither a draft nor a prerelease. -/
lemma lookedUp_eq_ok_false_iff :
    lookedUp decoders notes exchange = .ok false ↔
      brings decoders.release exchange = some ⟨some notes, some false, some false⟩ := by
  rw [brings_eq_some_iff]
  unfold lookedUp
  obtain ⟨response, rfl, hmissing⟩ | ⟨error, hfails⟩ | ⟨text, htext⟩ :=
    missing_or_httpFails_or_hasText exchange
  · simp only [Except.mapError, ok_bind, if_pos hmissing]
    constructor
    · intro h
      cases h
    · rintro ⟨_, ⟨_, heq, haccepted, -⟩, -⟩
      cases heq
      exact absurd hmissing haccepted.ne_notFound
  · constructor
    · intro h
      cases hfails with
      | send => cases h
      | status hne hnot =>
          simp only [Except.mapError, ok_bind, if_neg hne,
            Response.errorForStatus_of_not_accepted hnot] at h
          cases h
      | body haccepted hread =>
          simp only [Except.mapError, ok_bind, if_neg haccepted.ne_notFound,
            Response.errorForStatus_of_accepted haccepted, hread] at h
          cases h
    · rintro ⟨_, ⟨_, rfl, haccepted, hread⟩, -⟩
      cases hfails with
      | status _ hnot => exact absurd haccepted hnot
      | body _ hfailed =>
          rw [hread] at hfailed
          cases hfailed
  · obtain ⟨response, rfl, haccepted, hread⟩ := htext
    have hone : (∃ text', HasText (.ok response) text' ∧
        decoders.release text' = some ⟨some notes, some false, some false⟩) ↔
        decoders.release text = some ⟨some notes, some false, some false⟩ := by
      constructor
      · rintro ⟨text', ⟨_, heq, -, hread'⟩, hdecode⟩
        cases heq
        rw [hread, Except.ok.injEq] at hread'
        rw [hread']
        exact hdecode
      · exact fun hdecode => ⟨text, ⟨response, rfl, haccepted, hread⟩, hdecode⟩
    rw [hone]
    simp only [Except.mapError, ok_bind, if_neg haccepted.ne_notFound,
      Response.errorForStatus_of_accepted haccepted, hread]
    rcases decoders.release text with _ | ⟨body, draft, prerelease⟩
    · simp
    · simp only [Option.some.injEq, ReleaseJson.mk.injEq]
      by_cases hbody : body = some notes
      · by_cases hdraft : draft = some false
        · by_cases hprerelease : prerelease = some false
          · simp [ensure, hbody, hdraft, hprerelease]
          · simp [ensure, hbody, hdraft, hprerelease]
        · simp [ensure, hbody, hdraft]
      · simp [ensure, hbody]

/-- A release is reported to be created by a status that is no error. -/
lemma accepted_of_posted (h : posted exchange = .ok ()) : (accepted exchange).isSome = true := by
  unfold posted at h
  unfold accepted
  rcases exchange with error | response
  · cases h
  · dsimp only
    split_ifs with hstatus
    · rw [Except.mapError, ok_bind, Response.errorForStatus, if_pos hstatus] at h
      cases h
    · rfl

end answers

/-! ## The steps -/

namespace Hosting

variable {P : Type} [DecidableEq P]

/-- What happens, and in which phase it is possible. -/
inductive Step (tools : Tools) (job : P → Job) (s : Hosting P) :
    AnnounceAction P → Hosting P → Prop
  /-- A check of the candidate fails. -/
  | unready {p : P} {error : AnnounceError} (hphase : s.phase p = .load) :
      Step tools job s (.load p) (s.stop p error)
  /-- The candidate is loaded. -/
  | ready {p : P} {candidate : Candidate} (hphase : s.phase p = .load)
      (hready : (job p).ready tools = .ok candidate) :
      Step tools job s (.load p) (s.go p (.registry candidate))
  /-- The version is not found, or a check of the notes fails. -/
  | uncleared {p : P} {candidate : Candidate} {exchange : Exchange} {error : AnnounceError}
      (hphase : s.phase p = .registry candidate) :
      Step tools job s (.registry p exchange) (s.stop p error)
  /-- The version is found, and the notes are those of the changelog. -/
  | cleared {p : P} {candidate : Candidate} {notes : Str} {exchange : Exchange}
      (hphase : s.phase p = .registry candidate)
      (hhad : ⟨candidate.sha256, false⟩ ∈ s.had candidate.version)
      (hbody : (job p).body candidate = .ok notes) :
      Step tools job s (.registry p exchange) (s.go p (.lookup candidate notes))
  /-- The release does not match, or the request fails. -/
  | mismatched {p : P} {candidate : Candidate} {notes : Str} {exchange : Exchange}
      {error : AnnounceError} (hphase : s.phase p = .lookup candidate notes) :
      Step tools job s (.lookup p exchange) (s.stop p error)
  /-- The release is said to be missing. -/
  | absent {p : P} {candidate : Candidate} {notes : Str} {exchange : Exchange}
      (hphase : s.phase p = .lookup candidate notes) :
      Step tools job s (.lookup p exchange) (s.go p (.create candidate notes))
  /-- The release is there, and matches. -/
  | matching {p : P} {candidate : Candidate} {notes : Str} {exchange : Exchange}
      {release : GithubRelease} (hphase : s.phase p = .lookup candidate notes)
      (hthere : s.releases candidate.tag = some release) (hbody : release.body = notes)
      (hdraft : release.draft = false) (hprerelease : release.prerelease = false) :
      Step tools job s (.lookup p exchange) (s.go p (.returned (.ok ())))
  /-- The release is not created. -/
  | uncreated {p : P} {candidate : Candidate} {notes : Str} {exchange : Exchange}
      {error : AnnounceError} (hphase : s.phase p = .create candidate notes) :
      Step tools job s (.create p false exchange) (s.stop p error)
  /-- The release is created, whether or not this is reported. -/
  | created {p : P} {candidate : Candidate} {notes : Str} {exchange : Exchange}
      {result : Except AnnounceError Unit} (hphase : s.phase p = .create candidate notes)
      (hvacant : s.releases candidate.tag = none) :
      Step tools job s (.create p true exchange)
        ((s.go p (.returned result)).post p candidate notes)
  /-- A job is killed. -/
  | killed {p : P} : Step tools job s (.kill p) (s.go p .killed)
  /-- A version is uploaded. -/
  | uploaded {version : Str} {published : RegistryVersion}
      (hvacant : s.registry version = none) :
      Step tools job s (.upload version published) (s.setVersion version (some published))
  /-- A version is yanked, or no longer yanked. -/
  | yanked {version : Str} {yanked : Bool} :
      Step tools job s (.yank version yanked) (s.setVersion version
        ((s.registry version).map fun published => { published with yanked := yanked }))
  /-- A maintainer edits a release. -/
  | edited {tag : Str} {release : Option GithubRelease} :
      Step tools job s (.edit tag release) (s.setRelease tag release)

variable {tools : Tools} {digest : ByteArray → Str} {decoders : Decoders} {job : P → Job}
  {s t : Hosting P} {action : AnnounceAction P}

/-- **What a step does.** -/
lemma Step.of_step (h : step tools decoders job s action = some t) :
    Step tools job s action t := by
  unfold step at h
  cases action with
  | load p =>
      simp only at h
      split at h
      · split at h
        · cases h
          exact unready ‹_›
        · cases h
          exact ready ‹_› ‹_›
      · cases h
  | registry p exchange =>
      simp only at h
      split at h
      · split_ifs at h with htruth
        split at h
        · cases h
          exact uncleared ‹_›
        · next huploaded =>
          have hhad := htruth _ (brings_of_uploaded huploaded)
          split at h
          · cases h
            exact uncleared ‹_›
          · cases h
            exact cleared ‹_› hhad ‹_›
      · cases h
  | lookup p exchange =>
      simp only at h
      split at h
      · split_ifs at h with htruth
        split at h
        · cases h
          exact mismatched ‹_›
        · cases h
          exact absent ‹_›
        · next hlooked =>
          obtain ⟨release, hthere, hbody, hdraft, hprerelease⟩ :=
            htruth _ (lookedUp_eq_ok_false_iff.mp hlooked)
          cases h
          exact matching ‹_› hthere (hbody _ rfl).symm (hdraft _ rfl).symm (hprerelease _ rfl).symm
      · cases h
  | create p effect exchange =>
      simp only at h
      split at h
      · split_ifs at h with htruth heffect
        · cases h
          subst heffect
          exact created ‹_› (htruth.1 rfl)
        · cases h
          rw [Bool.not_eq_true] at heffect
          subst heffect
          rcases hposted : posted exchange with error | ⟨⟨⟩⟩
          · exact uncreated ‹_›
          · -- What is reported to be created has taken effect.
            exact absurd (htruth.2 (accepted_of_posted hposted)) Bool.false_ne_true
      · cases h
  | kill p =>
      simp only at h
      split at h
      · cases h
      · cases h
      · cases h
        exact killed
  | upload version published =>
      simp only at h
      split_ifs at h with hvacant
      cases h
      exact uploaded hvacant
  | yank version yanked =>
      cases h
      exact .yanked
  | edit tag release =>
      cases h
      exact edited

/-! ## The invariants -/

/-- A candidate of a job may be released: it is the one that the files of the job hold, of the
commit that is checked out; the notes are those of its version in the changelog; and the registry
has had its version with its checksum, not yanked, and still has it with this checksum. -/
structure Cleared (tools : Tools) (digest : ByteArray → Str) (job : P → Job) (s : Hosting P) (p : P)
    (candidate : Candidate) (notes : Str) : Prop where
  /-- It is that of the checkout. -/
  loaded : Loaded tools digest (job p) candidate
  /-- Its notes are those of the changelog. -/
  noted : Noted (job p) candidate notes
  /-- The version was there, and not yanked. -/
  had : ⟨candidate.sha256, false⟩ ∈ s.had candidate.version
  /-- It is there. -/
  published : ∃ published, s.registry candidate.version = some published ∧
    published.checksum = candidate.sha256

/-- The registry still has the archives that it had. -/
structure Keeps (s t : Hosting P) : Prop where
  /-- The checksums stay. -/
  registry : ∀ version published, s.registry version = some published →
    ∃ published', t.registry version = some published' ∧
      published'.checksum = published.checksum
  /-- What a version had it has had. -/
  had : ∀ version, s.had version ⊆ t.had version

/-- The checksum that a version has had is the one that it has. -/
def Lasting (s : Hosting P) : Prop :=
  ∀ version, ∀ published ∈ s.had version, ∃ now, s.registry version = some now ∧
    now.checksum = published.checksum

omit [DecidableEq P] in
/-- What leaves the registry keeps it. -/
lemma Keeps.of_eq (hregistry : t.registry = s.registry) (hhad : t.had = s.had) : Keeps s t where
  registry version published hthere := ⟨published, hregistry ▸ hthere, rfl⟩
  had version := by
    rw [hhad]
    exact List.Subset.refl _

omit [DecidableEq P] in
/-- What was cleared stays so. -/
lemma Cleared.mono {p : P} {candidate : Candidate} {notes : Str}
    (h : Cleared tools digest job s p candidate notes) (hkeeps : Keeps s t) :
    Cleared tools digest job t p candidate notes := by
  obtain ⟨published, hthere, hsum⟩ := h.published
  obtain ⟨published', hthere', hsum'⟩ := hkeeps.registry _ _ hthere
  exact ⟨h.loaded, h.noted, hkeeps.had _ h.had, published', hthere', hsum'.trans hsum⟩

omit [DecidableEq P] in
/-- A job has one candidate, at all times. -/
lemma Cleared.unique {p : P} {candidate candidate' : Candidate} {notes notes' : Str}
    (h : Cleared tools digest job s p candidate notes)
    (h' : Cleared tools digest job t p candidate' notes') :
    candidate = candidate' ∧ notes = notes' :=
  ⟨h.loaded.unique h'.loaded, h.noted.unique h'.noted⟩

omit [DecidableEq P] in
/-- A version that has other metadata with the checksum that it had, if any. -/
lemma keeps_setVersion {version : Str} {published : RegistryVersion}
    (h : ∀ before, s.registry version = some before → published.checksum = before.checksum) :
    Keeps s (s.setVersion version (some published)) where
  registry version' before hthere := by
    by_cases hversion : version' = version
    · subst hversion
      exact ⟨published, Function.update_self .., h before hthere⟩
    · exact ⟨before, (Function.update_of_ne hversion ..).trans hthere, rfl⟩
  had version' := by
    show s.had version' ⊆ Function.update s.had version _ version'
    by_cases hversion : version' = version
    · subst hversion
      rw [Function.update_self]
      exact List.subset_append_left ..
    · rw [Function.update_of_ne hversion]
      exact List.Subset.refl _

omit [DecidableEq P] in
/-- Its checksum is the one that it has had. -/
lemma Lasting.set (hs : Lasting s) {version : Str} {published : RegistryVersion}
    (h : ∀ before ∈ s.had version, published.checksum = before.checksum) :
    Lasting (s.setVersion version (some published)) := by
  intro version' before hbefore
  by_cases hversion : version' = version
  · subst hversion
    have hmem : before ∈ s.had version' ++ [published] := by
      have hupdate : before ∈ Function.update s.had version' _ version' := hbefore
      rwa [Function.update_self] at hupdate
    refine ⟨published, Function.update_self .., ?_⟩
    rcases List.mem_append.mp hmem with hmem | hmem
    · exact h before hmem
    · rw [List.mem_singleton.mp hmem]
  · have hmem : before ∈ s.had version' := by
      have hupdate : before ∈ Function.update s.had version _ version' := hbefore
      rwa [Function.update_of_ne hversion] at hupdate
    obtain ⟨now, hnow, hsum⟩ := hs version' before hmem
    exact ⟨now, (Function.update_of_ne hversion ..).trans hnow, hsum⟩

omit [DecidableEq P] in
/-- A version that is not there is left as it is. -/
lemma setVersion_none {version : Str} (h : s.registry version = none) :
    s.setVersion version none = s := by
  unfold setVersion
  rw [Option.toList_none, List.append_nil, Function.update_eq_self, ← h, Function.update_eq_self]

/-- **The registry never replaces a version.** -/
lemma Step.keeps (h : Step tools job s action t) (hs : Lasting s) : Keeps s t ∧ Lasting t := by
  cases h with
  | @uploaded version published hvacant =>
      refine ⟨keeps_setVersion fun before hbefore => ?_, hs.set fun before hbefore => ?_⟩
      · rw [hvacant] at hbefore
        cases hbefore
      · obtain ⟨now, hnow, -⟩ := hs version before hbefore
        rw [hvacant] at hnow
        cases hnow
  | @yanked version yanked =>
      rcases hfound : s.registry version with _ | published
      · rw [Option.map_none, setVersion_none hfound]
        exact ⟨Keeps.of_eq rfl rfl, hs⟩
      · refine ⟨keeps_setVersion fun before hbefore => ?_, hs.set fun before hbefore => ?_⟩
        · rw [hfound, Option.some.injEq] at hbefore
          rw [← hbefore]
        · obtain ⟨now, hnow, hsum⟩ := hs version before hbefore
          rw [hfound, Option.some.injEq] at hnow
          rw [← hsum, ← hnow]
  | _ => exact ⟨Keeps.of_eq rfl rfl, hs⟩

/-- What is known of a job in a phase. -/
def Knows (tools : Tools) (digest : ByteArray → Str) (job : P → Job) (s : Hosting P) (p : P) :
    AnnouncePhase → Prop
  | .registry candidate => Loaded tools digest (job p) candidate
  | .lookup candidate notes | .create candidate notes =>
    Cleared tools digest job s p candidate notes
  | .returned (.ok ()) => ∃ candidate notes, Cleared tools digest job s p candidate notes
  | .load | .returned (.error _) | .killed => True

/-- The invariant of all jobs. -/
structure Inv (tools : Tools) (digest : ByteArray → Str) (job : P → Job) (s : Hosting P) :
    Prop where
  /-- The registry replaces no version. -/
  lasting : Lasting s
  /-- What is known of each job. -/
  phase : ∀ p, Knows tools digest job s p (s.phase p)
  /-- What was created was cleared. -/
  created : ∀ p tag, (p, tag) ∈ s.created →
    ∃ candidate notes, candidate.tag = tag ∧ Cleared tools digest job s p candidate notes

omit [DecidableEq P] in
/-- What is known of a job stays so. -/
lemma Knows.mono {p : P} {phase : AnnouncePhase} (h : Knows tools digest job s p phase)
    (hkeeps : Keeps s t) :
    Knows tools digest job t p phase := by
  cases phase with
  | registry candidate => exact h
  | lookup candidate notes => exact Cleared.mono h hkeeps
  | create candidate notes => exact Cleared.mono h hkeeps
  | returned result =>
      rcases result with error | ⟨⟨⟩⟩
      · exact trivial
      · obtain ⟨candidate, notes, hcleared⟩ := h
        exact ⟨candidate, notes, hcleared.mono hkeeps⟩
  | load => exact trivial
  | killed => exact trivial

/-- A job moves on, or none does, and what it creates was cleared. -/
structure Moves (tools : Tools) (digest : ByteArray → Str) (job : P → Job) (s : Hosting P) (p : P)
    (t : Hosting P) : Prop where
  /-- The other jobs stand where they stood. -/
  others : ∀ q, q ≠ p → t.phase q = s.phase q
  /-- What is known of the job. -/
  knows : Knows tools digest job t p (t.phase p)
  /-- What was created was cleared. -/
  created : ∀ q tag, (q, tag) ∈ t.created → (q, tag) ∈ s.created ∨
    ∃ candidate notes, candidate.tag = tag ∧ Cleared tools digest job t q candidate notes

/-- A move keeps the invariant. -/
lemma Moves.inv {p : P} (hmoves : Moves tools digest job s p t) (hkeeps : Keeps s t)
    (hlasting : Lasting t) (h : Inv tools digest job s) : Inv tools digest job t := by
  refine ⟨hlasting, ?_, ?_⟩
  · intro q
    by_cases hq : q = p
    · rw [hq]
      exact hmoves.knows
    · rw [hmoves.others q hq]
      exact (h.phase q).mono hkeeps
  · intro q tag hcreated
    rcases hmoves.created q tag hcreated with hbefore | hnew
    · obtain ⟨candidate, notes, htag, hcleared⟩ := h.created q tag hbefore
      exact ⟨candidate, notes, htag, hcleared.mono hkeeps⟩
    · exact hnew

/-- A job that goes on moves. -/
lemma moves_go {p : P} {phase : AnnouncePhase}
    (hknows : Knows tools digest job (s.go p phase) p phase) :
    Moves tools digest job s p (s.go p phase) where
  others _ hq := go_phase_of_ne hq phase
  knows := by
    rw [go_phase_self]
    exact hknows
  created _ _ hcreated := .inl hcreated

/-- A job that goes on with what is known keeps the invariant. -/
lemma Inv.go {p : P} {phase : AnnouncePhase} (h : Inv tools digest job s)
    (hknows : Knows tools digest job (s.go p phase) p phase) :
    Inv tools digest job (s.go p phase) :=
  (moves_go hknows).inv (Keeps.of_eq rfl rfl) h.lasting h

/-- A job that returns an error keeps the invariant. -/
lemma Inv.stop (h : Inv tools digest job s) (p : P) (error : AnnounceError) :
    Inv tools digest job (s.stop p error) :=
  h.go trivial

omit [DecidableEq P] in
/-- What is known of a job in its phase. -/
lemma Inv.knows (h : Inv tools digest job s) {p : P} {phase : AnnouncePhase}
    (hphase : s.phase p = phase) :
    Knows tools digest job s p phase :=
  hphase ▸ h.phase p

omit [DecidableEq P] in
/-- What moves no job, and forgets no archive, keeps the invariant. -/
lemma Inv.of_eq (h : Inv tools digest job s) (hkeeps : Keeps s t) (hlasting : Lasting t)
    (hphase : t.phase = s.phase) (hcreated : t.created = s.created) : Inv tools digest job t := by
  refine ⟨hlasting, ?_, ?_⟩
  · intro q
    rw [hphase]
    exact (h.phase q).mono hkeeps
  · intro q tag hmem
    rw [hcreated] at hmem
    obtain ⟨candidate, notes, htag, hcleared⟩ := h.created q tag hmem
    exact ⟨candidate, notes, htag, hcleared.mono hkeeps⟩

/-- **Every action keeps the invariant.** -/
lemma step_inv (hdoc : tools.Documented digest) (h : Inv tools digest job s)
    (hstep : step tools decoders job s action = some t) : Inv tools digest job t := by
  have hsteps := Step.of_step hstep
  obtain ⟨hkeeps, hlasting⟩ := hsteps.keeps h.lasting
  cases hsteps with
  | unready hphase => exact h.stop _ _
  | ready hphase hready => exact h.go ((Job.ready_eq_ok_iff hdoc).mp hready).1
  | uncleared hphase => exact h.stop _ _
  | cleared hphase hhad hbody =>
      exact h.go ⟨h.knows hphase, (Job.body_eq_ok_iff.mp hbody).1, hhad, h.lasting _ _ hhad⟩
  | mismatched hphase => exact h.stop _ _
  | absent hphase => exact h.go (Cleared.mono (h.knows hphase) hkeeps)
  | matching hphase hthere hbody hdraft hprerelease =>
      exact h.go ⟨_, _, Cleared.mono (h.knows hphase) hkeeps⟩
  | uncreated hphase => exact h.stop _ _
  | created hphase hvacant =>
      rename_i p candidate notes exchange result
      have hcleared' := Cleared.mono (h.knows hphase) hkeeps
      refine Moves.inv (p := p) ⟨fun q hq => go_phase_of_ne hq _, ?_, ?_⟩ hkeeps hlasting h
      · have hresult : ((s.go p (.returned result)).post p candidate notes).phase p =
            .returned result := go_phase_self s p _
        rw [hresult]
        rcases result with error | ⟨⟨⟩⟩
        · exact trivial
        · exact ⟨candidate, notes, hcleared'⟩
      · intro q tag hmem
        rcases List.mem_append.mp hmem with hbefore | hnew
        · exact .inl hbefore
        · cases List.mem_singleton.mp hnew
          exact .inr ⟨candidate, notes, rfl, hcleared'⟩
  | killed => exact h.go trivial
  | uploaded hvacant => exact h.of_eq hkeeps hlasting rfl rfl
  | yanked => exact h.of_eq hkeeps hlasting rfl rfl
  | edited => exact h.of_eq hkeeps hlasting rfl rfl

/-- The invariant of a release that was `start` at first and that nobody edits: it stays, or it is
created once by a job; and it matches the notes of every job that has succeeded. -/
structure InvTag (tools : Tools) (digest : ByteArray → Str) (job : P → Job)
    (start : Option GithubRelease) (tag : Str) (s : Hosting P) : Prop where
  /-- The release is the first one, or was created once. -/
  release : s.releases tag = start ∧ (s.created.map Prod.snd).count tag = 0 ∨
    start = none ∧ (s.created.map Prod.snd).count tag = 1 ∧ ∃ p candidate notes,
      Cleared tools digest job s p candidate notes ∧ candidate.tag = tag ∧
        s.releases tag = some (newRelease candidate notes)
  /-- It matches. -/
  returned : ∀ p candidate notes, s.phase p = .returned (.ok ()) →
    Cleared tools digest job s p candidate notes → candidate.tag = tag →
      ∃ release, s.releases tag = some release ∧ release.body = notes ∧ release.draft = false ∧
        release.prerelease = false

variable {start : Option GithubRelease} {tag : Str}

omit [DecidableEq P] in
/-- What leaves the release, and lets a job succeed only if the release matches, keeps the
invariant. -/
lemma InvTag.of_eq (h : InvTag tools digest job start tag s) (hjobs : Inv tools digest job s)
    (hkeeps : Keeps s t)
    (hreleases : t.releases tag = s.releases tag)
    (hcreated : (t.created.map Prod.snd).count tag = (s.created.map Prod.snd).count tag)
    (hreturned : ∀ p candidate notes, t.phase p = .returned (.ok ()) →
      s.phase p = .returned (.ok ()) ∨
        (Cleared tools digest job t p candidate notes → candidate.tag = tag →
        ∃ release, s.releases tag = some release ∧ release.body = notes ∧
          release.draft = false ∧ release.prerelease = false)) :
    InvTag tools digest job start tag t := by
  constructor
  · rw [hreleases, hcreated]
    rcases h.release with hsame | ⟨hstart, hcount, p, candidate, notes, hcleared, hnew⟩
    · exact .inl hsame
    · exact .inr ⟨hstart, hcount, p, candidate, notes, hcleared.mono hkeeps, hnew⟩
  · intro p candidate notes hphase hcleared htag
    rw [hreleases]
    rcases hreturned p candidate notes hphase with hbefore | hmatches
    · obtain ⟨candidate', notes', hcleared'⟩ := hjobs.knows hbefore
      obtain ⟨rfl, rfl⟩ := hcleared'.unique hcleared
      exact h.returned p _ _ hbefore hcleared' htag
    · exact hmatches hcleared htag

/-- A job that goes on without success leaves the release. -/
lemma InvTag.go (h : InvTag tools digest job start tag s) (hjobs : Inv tools digest job s) {p : P}
    {phase : AnnouncePhase}
    (hphase : phase ≠ .returned (.ok ())) : InvTag tools digest job start tag (s.go p phase) := by
  refine h.of_eq hjobs (Keeps.of_eq rfl rfl) rfl rfl ?_
  intro q candidate notes hq
  by_cases hqp : q = p
  · subst hqp
    exact absurd ((go_phase_self s q phase).symm.trans hq) hphase
  · exact .inl ((go_phase_of_ne hqp phase).symm.trans hq)

/-- **Every action but an edit of the release keeps the invariant.** -/
lemma step_invTag (hjobs : Inv tools digest job s) (h : InvTag tools digest job start tag s)
    (hedit : ∀ release, action ≠ .edit tag release)
    (hstep : step tools decoders job s action = some t) :
    InvTag tools digest job start tag t := by
  have hsteps := Step.of_step hstep
  obtain ⟨hkeeps, -⟩ := hsteps.keeps hjobs.lasting
  cases hsteps with
  | unready hphase => exact h.go hjobs (by simp)
  | ready hphase hready => exact h.go hjobs (by simp)
  | uncleared hphase => exact h.go hjobs (by simp)
  | cleared hphase hhad hbody => exact h.go hjobs (by simp)
  | mismatched hphase => exact h.go hjobs (by simp)
  | absent hphase => exact h.go hjobs (by simp)
  | matching hphase hthere hbody hdraft hprerelease =>
      rename_i p candidate notes exchange release
      refine h.of_eq hjobs hkeeps rfl rfl fun q candidate' notes' hq => ?_
      by_cases hqp : q = p
      · subst hqp
        refine .inr fun hcleared htag => ?_
        obtain ⟨rfl, rfl⟩ := (Cleared.unique (hjobs.knows hphase) hcleared)
        rw [htag] at hthere
        exact ⟨release, hthere, hbody, hdraft, hprerelease⟩
      · exact .inl ((go_phase_of_ne hqp _).symm.trans hq)
  | uncreated hphase => exact h.go hjobs (by simp)
  | created hphase hvacant =>
      rename_i p candidate notes exchange result
      have hcleared := Cleared.mono (hjobs.knows hphase) hkeeps
      have hcreated : ((s.go p (.returned result)).post p candidate notes).created =
          s.created ++ [(p, candidate.tag)] := rfl
      by_cases htag : candidate.tag = tag
      · subst htag
        have hnew : ((s.go p (.returned result)).post p candidate notes).releases candidate.tag =
            some (newRelease candidate notes) := Function.update_self ..
        rcases h.release with ⟨hsame, hcount⟩ | ⟨-, -, _, _, _, -, -, hthere⟩
        · refine ⟨.inr ⟨hsame.symm.trans hvacant, ?_, p, candidate, notes, hcleared, rfl, hnew⟩, ?_⟩
          · rw [hcreated, List.map_append, List.count_append, hcount, Nat.zero_add,
              List.map_singleton, List.count_singleton_self]
          · intro q candidate' notes' hq hcleared' htag
            by_cases hqp : q = p
            · subst hqp
              obtain ⟨rfl, rfl⟩ := hcleared.unique hcleared'
              exact ⟨_, hnew, rfl, rfl, rfl⟩
            · have hbefore := (go_phase_of_ne hqp _).symm.trans hq
              obtain ⟨earlier, notes'', hearlier⟩ := hjobs.knows hbefore
              obtain ⟨rfl, rfl⟩ := hearlier.unique hcleared'
              obtain ⟨release, hthere, -⟩ := h.returned q _ _ hbefore hearlier htag
              rw [hvacant] at hthere
              cases hthere
        · rw [hvacant] at hthere
          cases hthere
      · refine h.of_eq hjobs hkeeps (Function.update_of_ne (Ne.symm htag) ..) ?_ ?_
        · rw [hcreated, List.map_append, List.count_append, Nat.add_eq_left, List.map_singleton]
          exact List.count_eq_zero_of_not_mem fun hmem => htag (List.mem_singleton.mp hmem).symm
        · intro q candidate' notes' hq
          by_cases hqp : q = p
          · subst hqp
            refine .inr fun hcleared' htag' => ?_
            obtain ⟨rfl, rfl⟩ := hcleared.unique hcleared'
            exact absurd htag' htag
          · exact .inl ((go_phase_of_ne hqp _).symm.trans hq)
  | killed => exact h.go hjobs (by simp)
  | uploaded hvacant => exact h.of_eq hjobs hkeeps rfl rfl fun q _ _ hq => .inl hq
  | yanked => exact h.of_eq hjobs hkeeps rfl rfl fun q _ _ hq => .inl hq
  | edited =>
      rename_i tag' release
      have hne : tag ≠ tag' := by
        rintro rfl
        exact hedit release rfl
      exact h.of_eq hjobs hkeeps (Function.update_of_ne hne _ _) rfl fun q _ _ hq => .inl hq

omit [DecidableEq P] in
/-- Jobs that have not started satisfy the invariants. -/
lemma init_inv (tools : Tools) (digest : ByteArray → Str) (job : P → Job)
    (registry : Str → Option RegistryVersion) (releases : Str → Option GithubRelease) (tag : Str) :
    Inv tools digest job (init registry releases) ∧
      InvTag tools digest job (releases tag) tag (init registry releases) := by
  refine ⟨⟨fun version published hmem => ⟨published, Option.mem_toList.mp hmem, rfl⟩,
    fun _ => trivial, fun p tag h => ?_⟩, ⟨.inl ⟨rfl, rfl⟩, fun p _ _ h => ?_⟩⟩
  · cases h
  · cases h

/-- **Every run without edits of the release keeps the invariants.** -/
lemma run_inv (hdoc : tools.Documented digest)
    (h : Inv tools digest job s ∧ InvTag tools digest job start tag s)
    {actions : List (AnnounceAction P)}
    (hedit : ∀ action ∈ actions, ∀ release, action ≠ .edit tag release)
    (hrun : run (step tools decoders job) s actions = some t) :
    Inv tools digest job t ∧ InvTag tools digest job start tag t := by
  refine invariant_of_run_of_forall
    (I := fun u => Inv tools digest job u ∧ InvTag tools digest job start tag u)
    (P := fun action => ∀ release, action ≠ .edit tag release) ?_ hedit h hrun
  intro u action v hnot hu hstep
  exact ⟨step_inv hdoc hu.1 hstep, step_invTag hu.1 hu.2 hnot hstep⟩

/-- A release that was created is found by the next job. -/
lemma step_lookup_created {p : P} {candidate : Candidate} {notes : Str} {exchange : Exchange}
    (hphase : s.phase p = .lookup candidate notes)
    (hthere : s.releases candidate.tag = some (newRelease candidate notes))
    (hbrings : brings decoders.release exchange = some ⟨some notes, some false, some false⟩) :
    step tools decoders job s (.lookup p exchange) = some (s.go p (.returned (.ok ()))) := by
  have htruth : LookupTruth decoders (s.releases candidate.tag) exchange := by
    intro json hjson
    obtain rfl := Option.some.inj (hbrings.symm.trans hjson)
    exact ⟨_, hthere, by simp [newRelease], by simp [newRelease], by simp [newRelease]⟩
  unfold step
  simp only [hphase, if_pos htruth, lookedUp_eq_ok_false_iff.mpr hbrings]

end Hosting

/-- **Announcing releases.** In every run of any number of jobs, with any answers that are true and
requests that get none, jobs that are killed, uploads, yanks and edits, in any order. A release is
only created, and a job only succeeds, with a candidate that the files of the job hold, of the
commit that is checked out, with the notes of its version in the changelog, and whose version the
registry has had with its checksum and not yanked, and still has with this checksum. A release that
nobody edits stays what it was, or was missing and is created once with the notes of such a
candidate; it matches the notes of every job that has succeeded. A job whose predecessor has created
the release, even if its answer was lost, succeeds without another request once it is sent this
release. -/
theorem github_releases_run (P : Type) [DecidableEq P] (tools : Tools)
    (digest : ByteArray → Str) (hdoc : tools.Documented digest) (decoders : Decoders)
    (job : P → Job) (registry : Str → Option RegistryVersion)
    (releases : Str → Option GithubRelease) (actions : List (AnnounceAction P)) (s : Hosting P)
    (hrun : run (Hosting.step tools decoders job) (Hosting.init registry releases) actions =
      some s) :
    (∀ p tag, (p, tag) ∈ s.created → ∃ candidate notes, candidate.tag = tag ∧
      Hosting.Cleared tools digest job s p candidate notes) ∧
    (∀ p, s.phase p = .returned (.ok ()) → ∃ candidate notes,
      Hosting.Cleared tools digest job s p candidate notes) ∧
    (∀ tag, (∀ release, AnnounceAction.edit tag release ∉ actions) →
      Hosting.InvTag tools digest job (releases tag) tag s) ∧
    ∀ p candidate notes exchange, s.phase p = .lookup candidate notes →
      s.releases candidate.tag = some (newRelease candidate notes) →
      brings decoders.release exchange = some ⟨some notes, some false, some false⟩ →
      Hosting.step tools decoders job s (.lookup p exchange) =
        some (s.go p (.returned (.ok ()))) := by
  have hinv : Hosting.Inv tools digest job s := invariant_of_run
    (fun _ _ _ h hstep => Hosting.step_inv hdoc h hstep)
    (Hosting.init_inv tools digest job registry releases []).1 hrun
  refine ⟨hinv.created, fun p hphase => hinv.knows hphase, fun tag hedit => ?_,
    fun p candidate notes exchange => Hosting.step_lookup_created⟩
  have hnot : ∀ action ∈ actions, ∀ release, action ≠ .edit tag release := by
    rintro action haction release rfl
    exact hedit release haction
  exact (Hosting.run_inv hdoc (Hosting.init_inv tools digest job registry releases tag) hnot
    hrun).2

/-! ## Jobs that race -/

/-- A JSON boolean. -/
def boolText (value : Bool) : Str := if value then "true".toList else "false".toList

/-- A boolean field of an object. -/
def boolField (start : String) (text : Str) : Option (Bool × Str) := do
  let rest ← stripPrefix start.toList text
  match stripPrefix "true".toList rest with
  | some rest => some (true, rest)
  | none => (stripPrefix "false".toList rest).map fun rest => (false, rest)

/-- Decoders of the fields that are looked up. -/
def plainDecoders : Decoders where
  registry text := do
    let (checksum, rest) ← unquoteField "\x7b\"version\":\x7b\"checksum\":" text
    let (yanked, rest) ← boolField ",\"yanked\":" rest
    if rest = "\x7d\x7d".toList then some ⟨⟨checksum, yanked⟩⟩ else none
  release text := do
    let (body, rest) ← unquoteField "\x7b\"body\":" text
    let (draft, rest) ← boolField ",\"draft\":" rest
    let (prerelease, rest) ← boolField ",\"prerelease\":" rest
    if rest = "\x7d".toList then some ⟨some body, some draft, some prerelease⟩ else none

/-- The metadata of the first version are sent. -/
def publishedAnswer : Exchange :=
  .ok ⟨.OK, .ok ("\x7b\"version\":\x7b\"checksum\":".toList ++ (quote emptyDigest ++
    (",\"yanked\":".toList ++ (boolText false ++ "\x7d\x7d".toList))))⟩

/-- A release with notes is sent. -/
def releaseAnswer (notes : String) : Exchange :=
  .ok ⟨.OK, .ok ("\x7b\"body\":".toList ++ (quote notes.toList ++ (",\"draft\":".toList ++
    (boolText false ++ (",\"prerelease\":".toList ++ (boolText false ++ "\x7d".toList))))))⟩

/-- There is no such release. -/
def missingAnswer : Exchange := .ok ⟨.NOT_FOUND, .ok []⟩

/-- The release cannot be created. -/
def refusedAnswer : Exchange := .ok ⟨.UNPROCESSABLE_ENTITY, .ok []⟩

/-- No answer arrives in time. -/
def lostAnswer : Exchange := .error ⟨none, false, true, true, false, false⟩

/-- A job for the first candidate. -/
def plainJob : Job where
  files := plainPrepared.2
  head := .ok "c0ffee\n".toList
  client := .ok ()
  token := .ok "token".toList

/-- Two jobs that both find no release, of which the first creates it without an answer; and a
third one, which finds it. -/
def raceActions : List (AnnounceAction (Fin 3)) :=
  [.load 0, .load 1, .upload "0.1.0".toList ⟨emptyDigest, false⟩, .registry 0 publishedAnswer,
    .registry 1 publishedAnswer, .lookup 0 missingAnswer, .lookup 1 missingAnswer,
    .create 0 true lostAnswer, .create 1 false refusedAnswer, .load 2,
    .registry 2 publishedAnswer, .lookup 2 (releaseAnswer "Initial")]

/-- What the race comes to. -/
def race : Option (Hosting (Fin 3)) :=
  run (Hosting.step plainTools plainDecoders fun _ => plainJob)
    (Hosting.init (fun _ => none) fun _ => none) raceActions

/-- In the race the first job creates the release, and the third one succeeds. -/
lemma race_ends : race.map (fun s => (s.created, s.phase 2)) =
    some ([(0, plainCandidate.tag)], .returned (.ok ())) := by
  decide +kernel

/-- The race is possible. -/
lemma race_isSome : race.isSome = true := by
  rw [← Option.isSome_map, race_ends, Option.isSome_some]

/-- In the race the release is created once, and matches the notes of the third job, which may
release its candidate. -/
theorem github_releases_run_race :
    Hosting.InvTag plainTools (fun _ => emptyDigest) (fun _ => plainJob) none plainCandidate.tag
      (race.get race_isSome) ∧
    (race.get race_isSome).created = [(0, plainCandidate.tag)] ∧
    ∃ candidate notes, Hosting.Cleared plainTools (fun _ => emptyDigest) (fun _ => plainJob)
      (race.get race_isSome) 2 candidate notes := by
  obtain ⟨s, hrace⟩ := Option.isSome_iff_exists.mp race_isSome
  have hget : race.get race_isSome = s := Option.get_of_eq_some race_isSome hrace
  have hends := race_ends
  rw [hrace, Option.map_some, Option.some.injEq, Prod.mk.injEq] at hends
  have hrun := github_releases_run (Fin 3) plainTools _ plainTools_documented plainDecoders
    (fun _ => plainJob) (fun _ => none) (fun _ => none) raceActions s hrace
  rw [hget]
  refine ⟨hrun.2.2.1 _ fun release hmem => ?_, hends.1, hrun.2.1 2 hends.2⟩
  simp [raceActions] at hmem

end Sakai.Release
