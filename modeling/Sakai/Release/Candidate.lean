import Mathlib.Logic.Function.Basic
import Sakai.Handle.File
import Sakai.Release.Notes

/-!
# Release candidates

`prepare` packages the crate and stores the archive, its notes and a manifest, which later jobs load
again. The version parser, the JSON codec and `sha256sum` are parameters, with what is documented of
them (`Tools.Documented`); what Git answers is the `Checkout`, and Cargo's commands are operations
on the files. Git, `cargo metadata` and the environment answer the same while a job runs.

* `stableVersion_eq_ok_iff`: the tags that are accepted are the displayed stable versions.
* `Tools.candidate_eq_ok_iff`: which files hold a candidate.
* `Tools.package_eq_ok`: what is known of a candidate that was packaged.
* `release_candidates`: what is prepared is loaded again, and what is checked is what Cargo packages
  the tagged commit to.
-/

namespace Sakai.Release

open Lib

/-! ## Versions -/

/-- A version. Source: `semver::Version`. -/
structure Version where
  /-- The major number. -/
  major : UInt64
  /-- The minor number. -/
  minor : UInt64
  /-- The patch number. -/
  patch : UInt64
  /-- The identifiers of a prerelease, empty for none. -/
  pre : Str
  /-- The identifiers of a build, empty for none. -/
  build : Str
  deriving DecidableEq, Repr

namespace Version

/-- The displayed version. -/
def display (self : Version) : Str :=
  decimal self.major.toNat ++ '.' :: (decimal self.minor.toNat ++ '.' ::
    (decimal self.patch.toNat ++ ((if self.pre = [] then [] else '-' :: self.pre) ++
      (if self.build = [] then [] else '+' :: self.build))))

/-- The version is neither a prerelease nor one of several builds. -/
def Stable (self : Version) : Prop := self.pre = [] ∧ self.build = []

instance (self : Version) : Decidable self.Stable :=
  inferInstanceAs (Decidable (self.pre = [] ∧ self.build = []))

/-- What a stable version is displayed as. -/
lemma Stable.display_eq {self : Version} (h : self.Stable) :
    self.display = decimal self.major.toNat ++ '.' :: (decimal self.minor.toNat ++ '.' ::
      decimal self.patch.toNat) := by
  unfold display
  rw [if_pos h.1, if_pos h.2, List.append_nil, List.append_nil]

end Version

/-- An error of the commands that make a candidate or load one. What a failed command printed is
left out.
Source: `anyhow::Error`, by what it is made of here. -/
inductive StageError
  | message (text : String)
  | semver
  | json
  | io (error : IoError)
  | command
  | notes (error : ReleaseError)
  deriving DecidableEq, Repr

/-- `anyhow::ensure!`. -/
def ensure (condition : Prop) [Decidable condition] (text : String) : Except StageError Unit :=
  if condition then .ok () else .error (.message text)

/-- A condition that is ensured holds. -/
@[simp] lemma ensure_eq_ok {condition : Prop} [Decidable condition] {text : String} {u : Unit} :
    ensure condition text = .ok u ↔ condition := by
  unfold ensure
  split_ifs with h
  · simp [h]
  · simp [h]

/-- `Context::context` of an option. -/
def required {α : Type} (value : Option α) (text : String) : Except StageError α :=
  match value with
  | some value => .ok value
  | none => .error (.message text)

/-- A required value is there. -/
@[simp] lemma required_eq_ok {α : Type} {value : Option α} {text : String} {a : α} :
    required value text = .ok a ↔ value = some a := by
  unfold required
  cases value <;> simp

/-- Source: `release.rs`, `Release::stable_version`. -/
def stableVersion (parse : Str → Option Version) (tag : Str) : Except StageError Version := do
  let rest ← required (stripPrefix ['v'] tag) "release tag must start with v"
  match parse rest with
  | none => .error .semver
  | some version => do
    ensure version.Stable "only stable release versions are supported"
    ensure (tag = 'v' :: version.display) "release tag must use canonical SemVer"
    return version

/-- What is documented of the parser: a stable version is read back as it is displayed. -/
def ParsesStable (parse : Str → Option Version) : Prop :=
  ∀ version : Version, version.Stable → parse version.display = some version

/-- **The tags that are accepted are the displayed stable versions**, after a `v`. -/
theorem stableVersion_eq_ok_iff {parse : Str → Option Version} (hparse : ParsesStable parse)
    {tag : Str} {version : Version} :
    stableVersion parse tag = .ok version ↔ version.Stable ∧ tag = 'v' :: version.display := by
  unfold stableVersion
  simp only [bind_eq_ok, required_eq_ok]
  constructor
  · rintro ⟨rest, -, h⟩
    split at h
    · cases h
    · simp only [bind_eq_ok, ensure_eq_ok, pure_eq_ok] at h
      obtain ⟨-, hstable, -, htag, rfl⟩ := h
      exact ⟨hstable, htag⟩
  · rintro ⟨hstable, rfl⟩
    refine ⟨version.display, stripPrefix_eq_some_iff.mpr rfl, ?_⟩
    simp only [hparse version hstable, bind_eq_ok, ensure_eq_ok, pure_eq_ok]
    exact ⟨(), hstable, (), trivial, trivial⟩

/-! ## Files and tools -/

/-- What reading a file gives, by its path. Files are told apart by their paths as they are
written. -/
abbrev Files := Str → Except IoError ByteArray

/-- `fs::read_to_string`: the content must be text in UTF-8. -/
def readText (files : Files) (path : Str) : Except StageError String := do
  let content ← (files path).mapError .io
  match String.fromUTF8? content with
  | some text => .ok text
  | none => .error (.io .other)

/-- A file is read as the text that it holds. -/
lemma readText_eq_ok_iff {files : Files} {path : Str} {text : String} :
    readText files path = .ok text ↔ files path = .ok text.toUTF8 := by
  unfold readText
  rcases files path with error | content
  · simp [Except.mapError]
  · simp only [Except.mapError, ok_bind, Except.ok.injEq]
    rw [eq_comm (a := content), ← fromUTF8?_eq_some_iff]
    rcases hdecode : String.fromUTF8? content with _ | text'
    · simp
    · simp

/-- What is checked before a release, and what is released.
Source: `release.rs`, `Candidate`. -/
structure Candidate where
  /-- The version. -/
  version : Str
  /-- The tag. -/
  tag : Str
  /-- The commit. -/
  commit : Str
  /-- The name of the archive. -/
  archive : Str
  /-- The checksum of the archive. -/
  sha256 : Str
  deriving DecidableEq, Repr

/-- Source: `release.rs`, `Release::DIST`. -/
def DIST : Str := "dist/release".toList

/-- Source: `release.rs`, `Release::MANIFEST`. -/
def MANIFEST : Str := "dist/release/release.json".toList

/-- Source: `release.rs`, `Release::NOTES`. -/
def NOTES : Str := "dist/release/release-notes.md".toList

/-- The changelog.
Source: `release.rs`, the `read_to_string` in `Release::prepare` and `Release::github_release`. -/
def CHANGELOG : Str := "sakai/CHANGELOG.md".toList

/-- The name of the archive of a version.
Source: `release.rs`, the `format!` in `Release::package` and `Release::candidate`. -/
def archiveName (version : Str) : Str := "sakai-".toList ++ version ++ ".crate".toList

/-- Where an archive is kept. -/
def distPath (archive : Str) : Str := Path.join DIST archive

/-- Where Cargo leaves an archive. -/
def packagePath (targetDirectory archive : Str) : Str :=
  Path.join (Path.join targetDirectory "package".toList) archive

/-- The paths that a checksum is asked for: those of the archive of a stable version, where it is
kept, or where Cargo leaves it in an absolute directory. -/
inductive ArchivePath : Str → Prop
  | kept {version : Version} (hstable : version.Stable) :
      ArchivePath (distPath (archiveName version.display))
  | packaged {targetDirectory : Str} (habsolute : Path.isAbsolute targetDirectory = true)
      {version : Version} (hstable : version.Stable) :
      ArchivePath (packagePath targetDirectory (archiveName version.display))

/-- The tools that the commands use. -/
structure Tools where
  /-- `semver::Version::parse`. -/
  parseVersion : Str → Option Version
  /-- `serde_json::to_string_pretty`. -/
  encode : Candidate → String
  /-- `serde_json::from_str`. -/
  decode : String → Option Candidate
  /-- What `sha256sum` prints for a file, by its path and what reading it gives. -/
  sha256sum : Str → Except IoError ByteArray → Except StageError String

/-- A character of a checksum.
Source: the standard library's `u8::is_ascii_hexdigit`. -/
def isHexDigit (c : Char) : Bool :=
  c.isDigit || ('a' ≤ c && c ≤ 'f') || ('A' ≤ c && c ≤ 'F')

/-- A checksum has the form of one.
Source: `release.rs`, the `ensure!` of `Release::checksum`. -/
def IsChecksum (digest : Str) : Prop := digest.length = 64 ∧ digest.all isHexDigit = true

instance (digest : Str) : Decidable (IsChecksum digest) :=
  inferInstanceAs (Decidable (digest.length = 64 ∧ digest.all isHexDigit = true))

/-- `str::split_whitespace`. -/
def splitWhitespace (s : Str) : List Str := (s.splitOnP isWhitespace).filter (· ≠ [])

namespace Tools

variable (tools : Tools)

/-- What is documented of the tools: versions are read back as they are displayed, candidates as
they are encoded, and a checksum is that of the content. It is printed first, after a backslash if
the path is one that is escaped; the path where an archive is kept is not. -/
structure Documented (digest : ByteArray → Str) : Prop where
  /-- Stable versions are read back. -/
  stable : ParsesStable tools.parseVersion
  /-- Candidates are read back. -/
  decode_encode : ∀ candidate, tools.decode (tools.encode candidate) = some candidate
  /-- A checksum has the form of one. -/
  isChecksum : ∀ content, IsChecksum (digest content)
  /-- What is printed is the checksum of the content. -/
  sound : ∀ path, ArchivePath path → ∀ read printed, tools.sha256sum path read = .ok printed →
    ∃ content, read = .ok content ∧
      ((splitWhitespace printed.toList).head? = some (digest content) ∨
        (splitWhitespace printed.toList).head? = some ('\\' :: digest content))
  /-- It is printed for an archive that is kept and can be read. -/
  complete : ∀ version : Version, version.Stable → ∀ content,
    ∃ printed, tools.sha256sum (distPath (archiveName version.display)) (.ok content) =
      .ok printed ∧ (splitWhitespace printed.toList).head? = some (digest content)

/-- Source: `release.rs`, `Release::checksum`. -/
def checksum (files : Files) (path : Str) : Except StageError Str := do
  let printed ← tools.sha256sum path (files path)
  let digest ← required (splitWhitespace printed.toList).head? "missing SHA-256 checksum"
  ensure (IsChecksum digest) "invalid SHA-256 checksum"
  return digest

/-- Source: `release.rs`, `Release::candidate`. -/
def candidate (files : Files) : Except StageError Candidate := do
  let manifest ← readText files MANIFEST
  match tools.decode manifest with
  | none => .error .json
  | some candidate => do
    let version ← stableVersion tools.parseVersion candidate.tag
    ensure (version.display = candidate.version) "candidate tag/version mismatch"
    ensure (candidate.archive = archiveName candidate.version) "unexpected candidate filename"
    let digest ← tools.checksum files (distPath candidate.archive)
    ensure (digest = candidate.sha256) "candidate archive checksum mismatch"
    return candidate

end Tools

/-! ## What is loaded -/

/-- The identity of a candidate is that of its version. -/
def Candidate.Consistent (candidate : Candidate) : Prop :=
  ∃ version : Version, version.Stable ∧ candidate.version = version.display ∧
    candidate.tag = 'v' :: candidate.version ∧ candidate.archive = archiveName candidate.version

/-- The files hold the manifest of a candidate, and its archive. -/
structure Tools.Holds (tools : Tools) (digest : ByteArray → Str) (files : Files)
    (candidate : Candidate) : Prop where
  /-- The manifest is that of the candidate. -/
  manifest : ∃ text : String, files MANIFEST = .ok text.toUTF8 ∧ tools.decode text = some candidate
  /-- Its identity is that of its version. -/
  consistent : candidate.Consistent
  /-- The archive has its checksum. -/
  archive : ∃ content, files (distPath candidate.archive) = .ok content ∧
    digest content = candidate.sha256

section loading

variable {tools : Tools} {digest : ByteArray → Str} {files : Files} {candidate : Candidate}

/-- What follows a backslash is no checksum. -/
lemma not_isChecksum_backslash (rest : Str) : ¬ IsChecksum ('\\' :: rest) := by
  intro h
  have hall := h.2
  rw [List.all_cons, show isHexDigit '\\' = false by decide, Bool.false_and] at hall
  cases hall

/-- **A checksum is that of the content of the file.** -/
lemma checksum_eq_ok (h : tools.Documented digest) {path sum : Str} (hpath : ArchivePath path)
    (hsum : tools.checksum files path = .ok sum) :
    ∃ content, files path = .ok content ∧ digest content = sum := by
  unfold Tools.checksum at hsum
  simp only [bind_eq_ok, required_eq_ok, ensure_eq_ok, pure_eq_ok] at hsum
  obtain ⟨printed, hprinted, word, hword, -, hform, rfl⟩ := hsum
  obtain ⟨content, hread, hfirst⟩ := h.sound path hpath (files path) printed hprinted
  refine ⟨content, hread, ?_⟩
  rcases hfirst with hfirst | hfirst
  · rw [hfirst, Option.some.injEq] at hword
    exact hword
  · rw [hfirst, Option.some.injEq] at hword
    rw [← hword] at hform
    exact absurd hform (not_isChecksum_backslash _)

/-- An archive that is kept has the checksum of its content. -/
lemma checksum_of_content (h : tools.Documented digest) {version : Version}
    (hstable : version.Stable) {content : ByteArray}
    (hcontent : files (distPath (archiveName version.display)) = .ok content) :
    tools.checksum files (distPath (archiveName version.display)) = .ok (digest content) := by
  obtain ⟨printed, hprinted, hfirst⟩ := h.complete version hstable content
  unfold Tools.checksum
  simp only [bind_eq_ok, required_eq_ok, ensure_eq_ok, pure_eq_ok, hcontent]
  exact ⟨printed, hprinted, _, hfirst, (), h.isChecksum content, rfl⟩

/-- **What is loaded** is what the files hold. -/
theorem Tools.candidate_eq_ok_iff (h : tools.Documented digest) :
    tools.candidate files = .ok candidate ↔ tools.Holds digest files candidate := by
  unfold Tools.candidate
  simp only [bind_eq_ok, readText_eq_ok_iff]
  constructor
  · rintro ⟨text, hmanifest, hload⟩
    split at hload
    · cases hload
    · next decoded hdecode =>
      simp only [bind_eq_ok, ensure_eq_ok, pure_eq_ok, stableVersion_eq_ok_iff h.stable] at hload
      obtain ⟨version, ⟨hstable, htag⟩, -, hversion, -, harchive, sum, hsum, -, heq, rfl⟩ := hload
      have hpath : ArchivePath (distPath decoded.archive) := by
        rw [harchive, ← hversion]
        exact .kept hstable
      obtain ⟨content, hcontent, hdigest⟩ := checksum_eq_ok h hpath hsum
      refine ⟨⟨text, hmanifest, hdecode⟩, ⟨version, hstable, hversion.symm, ?_, harchive⟩, content,
        hcontent, hdigest.trans heq⟩
      rw [htag, hversion]
  · rintro ⟨⟨text, hmanifest, hdecode⟩, hconsistent, content, hcontent, hdigest⟩
    obtain ⟨version, hstable, hversion, htag, harchive⟩ := hconsistent
    have hsum : tools.checksum files (distPath candidate.archive) = .ok (digest content) := by
      rw [harchive, hversion] at hcontent ⊢
      exact checksum_of_content h hstable hcontent
    refine ⟨text, hmanifest, ?_⟩
    simp only [hdecode, bind_eq_ok, ensure_eq_ok, pure_eq_ok, stableVersion_eq_ok_iff h.stable]
    refine ⟨version, ⟨hstable, ?_⟩, (), hversion.symm, (), harchive, _, hsum, (), hdigest, trivial⟩
    rw [htag, hversion]

end loading

/-! ## Operations on files -/

/-- Operations on files, which can fail half way. -/
abbrev FileM (α : Type) := ExceptT StageError (StateM Files) α

/-- What changes no file. -/
def FileM.lift {α : Type} (x : Except StageError α) : FileM α := ExceptT.mk (pure x)

section operations

variable {α β : Type} {files files' : Files}

/-- A sequence of operations succeeds exactly when each does in turn. -/
lemma FileM.bind_run {x : FileM α} {f : α → FileM β} {b : β} :
    (x >>= f) files = (.ok b, files') ↔
      ∃ a between, x files = (.ok a, between) ∧ f a between = (.ok b, files') := by
  rcases hx : x files with ⟨error | a, between⟩
  · have hbind : (x >>= f) files = (.error error, between) := by
      simp only [bind, ExceptT.bind, ExceptT.mk, StateT.bind, hx]
      rfl
    rw [hbind]
    constructor
    · intro h
      cases h
    · rintro ⟨_, _, heq, _⟩
      cases heq
  · have hbind : (x >>= f) files = f a between := by
      simp only [bind, ExceptT.bind, ExceptT.mk, StateT.bind, hx]
      rfl
    rw [hbind]
    constructor
    · exact fun h => ⟨a, between, rfl, h⟩
    · rintro ⟨a', between', heq, h⟩
      cases heq
      exact h

/-- What changes no file succeeds with its value. -/
lemma FileM.lift_run {x : Except StageError α} {a : α} :
    FileM.lift x files = (.ok a, files') ↔ x = .ok a ∧ files = files' :=
  Prod.ext_iff

/-- The files are looked up, and left as they are. -/
lemma FileM.get_run {read : Files} :
    (get : FileM Files) files = (.ok read, files') ↔ files = read ∧ files = files' := by
  have hget : (get : FileM Files) files = (.ok files, files) := rfl
  rw [hget, Prod.mk.injEq, Except.ok.injEq]

/-- A value is returned, and the files are left as they are. -/
lemma FileM.pure_run {a b : α} :
    (pure a : FileM α) files = (.ok b, files') ↔ a = b ∧ files = files' := by
  have hpure : (pure a : FileM α) files = (.ok a, files) := rfl
  rw [hpure, Prod.mk.injEq, Except.ok.injEq]

end operations

/-! ## Packaging -/

/-- A package of the workspace.
Source: `cargo_metadata::Package`, as far as it is read here. -/
structure Package where
  /-- The name. -/
  name : Str
  /-- The version. -/
  version : Version
  deriving DecidableEq, Repr

/-- The metadata of the workspace.
Source: `cargo_metadata::Metadata`, as far as it is read here. -/
structure Metadata where
  /-- The packages. -/
  packages : List Package
  /-- The root of the workspace. -/
  workspaceRoot : Str
  /-- The directory of what is built. -/
  targetDirectory : Str
  /-- It is an absolute path. -/
  absolute : Path.isAbsolute targetDirectory = true
  deriving DecidableEq, Repr

/-- A checkout, by what the commands answer in it. -/
structure Checkout where
  /-- `cargo metadata --no-deps --locked`. -/
  metadata : Except StageError Metadata
  /-- `env::current_dir`. -/
  currentDir : Except StageError Str
  /-- `git status --porcelain`. -/
  status : Except StageError Str
  /-- `git rev-parse HEAD`. -/
  head : Except StageError Str
  /-- `git rev-parse refs/tags/{tag}^{commit}`, by the tag. -/
  tagged : Str → Except StageError Str
  /-- `git merge-base --is-ancestor HEAD origin/main`. -/
  isAncestor : Except StageError Str
  /-- `cargo publish --package sakai --dry-run --locked`, and whether it succeeds. -/
  dryRun : FileM Bool
  /-- `cargo package --package sakai --locked`, and whether it succeeds. -/
  cargoPackage : FileM Bool

/-- A package of the workspace, by its name. -/
def Metadata.find (metadata : Metadata) (name : String) : Option Package :=
  metadata.packages.find? fun package => package.name = name.toList

/-- Where Cargo leaves an archive. -/
def Metadata.packagePath (metadata : Metadata) (archive : Str) : Str :=
  Release.packagePath metadata.targetDirectory archive

/-- What is checked of a tag that is asked for.
Source: `release.rs`, the `match` on `tag` in `Release::package`. -/
def Checkout.ensureTagged (checkout : Checkout) (parse : Str → Option Version)
    (tagName commit : Str) : Option Str → Except StageError Unit
  | none => .ok ()
  | some tag => do
    let _ ← stableVersion parse tag
    ensure (tag = tagName) "tag does not match the workspace version"
    let taggedCommit ← checkout.tagged tag
    ensure (trim taggedCommit = commit) "checkout is not the tagged commit"
    let _ ← checkout.isAncestor
    return ()

namespace Tools

variable (tools : Tools)

/-- The candidate of a checkout. Source: `release.rs`, `Release::package`. -/
def package (checkout : Checkout) (tag : Option Str) : FileM Candidate := do
  let metadata ← FileM.lift checkout.metadata
  let directory ← FileM.lift checkout.currentDir
  FileM.lift (ensure (directory = metadata.workspaceRoot)
    "run release tasks from the workspace root")
  let status ← FileM.lift checkout.status
  FileM.lift (ensure ((trim status).isEmpty) "release candidates require a clean Git checkout")
  let package ← FileM.lift (required (metadata.find "sakai") "missing sakai package")
  let tagName := 'v' :: package.version.display
  let _ ← FileM.lift (stableVersion tools.parseVersion tagName)
  let python ← FileM.lift (required (metadata.find "sakai-python") "missing Python package")
  FileM.lift (ensure (package.version = python.version)
    "Rust and Python versions must stay synchronized")
  let head ← FileM.lift checkout.head
  FileM.lift (checkout.ensureTagged tools.parseVersion tagName (trim head) tag)
  let dryRun ← checkout.dryRun
  FileM.lift (ensure (dryRun = true) "Cargo publishing dry run failed")
  let packaged ← checkout.cargoPackage
  FileM.lift (ensure (packaged = true) "Cargo packaging failed")
  let archive := archiveName package.version.display
  let files ← get
  let sha256 ← FileM.lift (tools.checksum files (metadata.packagePath archive))
  return ⟨package.version.display, tagName, trim head, archive, sha256⟩

/-- Source: `release.rs`, `ReleaseCommand::Check` in `Release::run`. -/
def check (checkout : Checkout) (tag : Str) : FileM Unit := do
  let files ← get
  let candidate ← FileM.lift (tools.candidate files)
  let current ← tools.package checkout (some tag)
  FileM.lift (ensure (candidate = current)
    "repackaged archive differs from the checked candidate")

end Tools

/-- A candidate of a checkout: the checkout is clean, its packages have one stable version, which is
that of the candidate, and Cargo has packaged the archive that has the checksum, after a dry run. A
tag that is asked for is that of the candidate, and of its commit, which is on the main branch. -/
structure Packaged (digest : ByteArray → Str) (checkout : Checkout) (tag : Option Str)
    (files packaged : Files) (candidate : Candidate) : Prop where
  /-- The identity is that of the version. -/
  consistent : candidate.Consistent
  /-- The checkout is clean. -/
  clean : ∃ status, checkout.status = .ok status ∧ trim status = []
  /-- Both packages have the version, and the archive that is left has the checksum. -/
  version : ∃ metadata package python, checkout.metadata = .ok metadata ∧
    checkout.currentDir = .ok metadata.workspaceRoot ∧
    metadata.find "sakai" = some package ∧ metadata.find "sakai-python" = some python ∧
    package.version = python.version ∧ candidate.version = package.version.display ∧
    ∃ content, packaged (metadata.packagePath candidate.archive) = .ok content ∧
      digest content = candidate.sha256
  /-- The commit is checked out. -/
  commit : ∃ head, checkout.head = .ok head ∧ candidate.commit = trim head
  /-- The tag is that of the commit, an ancestor of the main branch. -/
  tagged : ∀ asked ∈ tag, candidate.tag = asked ∧
    (∃ commit, checkout.tagged asked = .ok commit ∧ trim commit = candidate.commit) ∧
    ∃ printed, checkout.isAncestor = .ok printed
  /-- The dry run and then the packaging succeeded, and left the files. -/
  cargo : ∃ between, checkout.dryRun files = (.ok true, between) ∧
    checkout.cargoPackage between = (.ok true, packaged)

section packaging

variable {tools : Tools} {digest : ByteArray → Str} {checkout : Checkout}
  {files files' : Files} {candidate : Candidate} {tag : Option Str}

/-- A tag that is accepted is the expected one, of the expected commit. -/
lemma ensureTagged_eq_ok {parse : Str → Option Version} {tagName commit : Str}
    (h : checkout.ensureTagged parse tagName commit tag = .ok ()) :
    ∀ asked ∈ tag, tagName = asked ∧
      (∃ tagged, checkout.tagged asked = .ok tagged ∧ trim tagged = commit) ∧
      ∃ printed, checkout.isAncestor = .ok printed := by
  intro asked hasked
  rw [Option.mem_def.mp hasked] at h
  unfold Checkout.ensureTagged at h
  simp only [bind_eq_ok, ensure_eq_ok] at h
  obtain ⟨-, -, -, htag, tagged, htagged, -, hcommit, printed, hprinted, -⟩ := h
  exact ⟨htag.symm, ⟨tagged, htagged, hcommit⟩, printed, hprinted⟩

/-- **What is known of a candidate that was packaged.** -/
theorem Tools.package_eq_ok (h : tools.Documented digest)
    (hpackage : tools.package checkout tag files = (.ok candidate, files')) :
    Packaged digest checkout tag files files' candidate := by
  unfold Tools.package at hpackage
  simp only [FileM.bind_run, FileM.lift_run, FileM.get_run, FileM.pure_run, required_eq_ok,
    ensure_eq_ok, stableVersion_eq_ok_iff h.stable, and_assoc, exists_and_left,
    exists_eq_left'] at hpackage
  obtain ⟨metadata, hmetadata, directory, hdirectory, hroot, -, status, hstatus, hclean, -, package,
    hrust, version, hstable, htag, python, hpython, hsame, -, head, hhead, _, htagged, _, between,
    hdryRun, rfl, -, _, packaged, hpackaged, rfl, -, sum, hsum, rfl, rfl⟩ := hpackage
  have hdisplay : package.version.display = version.display := (List.cons.inj htag).2
  have hpath : ArchivePath (metadata.packagePath (archiveName package.version.display)) := by
    rw [hdisplay]
    exact .packaged metadata.absolute hstable
  obtain ⟨content, hcontent, hdigest⟩ := checksum_eq_ok h hpath hsum
  subst hroot
  exact {
    consistent := ⟨version, hstable, hdisplay, rfl, rfl⟩
    clean := ⟨status, hstatus, List.isEmpty_iff.mp hclean⟩
    version := ⟨metadata, package, python, hmetadata, hdirectory, hrust, hpython, hsame, rfl,
      content, hcontent, hdigest⟩
    commit := ⟨head, hhead, rfl⟩
    tagged := ensureTagged_eq_ok htagged
    cargo := ⟨between, hdryRun, hpackaged⟩ }

/-- **What is checked is what the tagged commit packages to.** -/
lemma Tools.check_eq_ok (h : tools.Documented digest) {asked : Str}
    (hcheck : tools.check checkout asked files = (.ok (), files')) :
    ∃ candidate, tools.Holds digest files candidate ∧
      Packaged digest checkout (some asked) files files' candidate := by
  unfold Tools.check at hcheck
  simp only [FileM.bind_run, FileM.lift_run, FileM.get_run, ensure_eq_ok,
    tools.candidate_eq_ok_iff h] at hcheck
  obtain ⟨_, _, ⟨rfl, rfl⟩, candidate, _, ⟨hholds, rfl⟩, current, _, hcurrent, rfl, rfl⟩ := hcheck
  exact ⟨candidate, hholds, tools.package_eq_ok h hcurrent⟩

end packaging

/-! ## Preparing -/

/-- What writing comes to. -/
structure Disk where
  /-- `fs::create_dir_all`. -/
  createDirAll : Str → Except StageError Unit
  /-- Whether a write to a file fails, by its path and the content, and what the file holds then. -/
  write : Str → ByteArray → Option (IoError × Except IoError ByteArray)
  /-- Reporting a value.
  Source: `release.rs`, `Release::output`. -/
  output : String → Str → Except StageError Unit

/-- `fs::write`. -/
def writeFile (disk : Disk) (path : Str) (content : ByteArray) : FileM Unit := fun files =>
  match disk.write path content with
  | none => (.ok (), Function.update files path (.ok content))
  | some (error, left) => (.error (.io error), Function.update files path left)

/-- `fs::copy`. -/
def copyFile (disk : Disk) (source destination : Str) : FileM Unit := do
  let files ← get
  let content ← FileM.lift ((files source).mapError .io)
  writeFile disk destination content

/-- Source: `release.rs`, `Release::prepare`. -/
def Tools.prepare (tools : Tools) (checkout : Checkout) (disk : Disk) (tag : Option Str) :
    FileM Unit := do
  let candidate ← tools.package checkout tag
  let files ← get
  let changelog ← FileM.lift (readText files CHANGELOG)
  let notes ← FileM.lift ((releaseNotes changelog.toList candidate.version).mapError .notes)
  FileM.lift (disk.createDirAll DIST)
  let metadata ← FileM.lift checkout.metadata
  copyFile disk (metadata.packagePath candidate.archive) (distPath candidate.archive)
  writeFile disk NOTES (String.ofList notes).toUTF8
  writeFile disk MANIFEST (tools.encode candidate).toUTF8
  FileM.lift (disk.output "version" candidate.version)
  FileM.lift (disk.output "tag" candidate.tag)
  FileM.lift (disk.output "sha256" candidate.sha256)

/-- What is stored of a candidate: its manifest, the archive that Cargo left, and the notes of its
version in the changelog. -/
structure Stored (tools : Tools) (checkout : Checkout) (packaged stored : Files)
    (candidate : Candidate) : Prop where
  /-- The manifest is that of the candidate. -/
  manifest : stored MANIFEST = .ok (tools.encode candidate).toUTF8
  /-- The archive is the one that Cargo left. -/
  archive : ∃ metadata, checkout.metadata = .ok metadata ∧
    stored (distPath candidate.archive) = packaged (metadata.packagePath candidate.archive)
  /-- The notes are the section of the version. -/
  notes : ∃ (changelog : String) (body : List Str), packaged CHANGELOG = .ok changelog.toUTF8 ∧
    IsSection (lines changelog.toList) candidate.version body ∧ joinNotes body ≠ [] ∧
    stored NOTES = .ok (String.ofList (joinNotes body)).toUTF8

section preparing

variable {files files' : Files} {disk : Disk} {path : Str} {content : ByteArray}

/-- A file that is written has the content. -/
lemma writeFile_run {u : Unit} (h : writeFile disk path content files = (.ok u, files')) :
    files' = Function.update files path (.ok content) := by
  unfold writeFile at h
  split at h
  · cases h
    rfl
  · cases h

/-- A file that is copied has the content of the other one. -/
lemma copyFile_run {source destination : Str} {u : Unit}
    (h : copyFile disk source destination files = (.ok u, files')) :
    ∃ content, files source = .ok content ∧
      files' = Function.update files destination (.ok content) := by
  unfold copyFile at h
  simp only [FileM.bind_run, FileM.lift_run, FileM.get_run] at h
  obtain ⟨_, _, ⟨rfl, rfl⟩, content, _, ⟨hsource, rfl⟩, hwrite⟩ := h
  exact ⟨content, mapError_eq_ok.mp hsource, writeFile_run hwrite⟩

/-- An archive is stored under another name than the notes and the manifest. -/
lemma distPath_ne (version : Str) :
    distPath (archiveName version) ≠ NOTES ∧ distPath (archiveName version) ≠ MANIFEST := by
  have harchive : distPath (archiveName version) =
      "dist/release/".toList ++ archiveName version := rfl
  rw [harchive]
  have hnotes : NOTES = "dist/release/".toList ++ "release-notes.md".toList := rfl
  have hmanifest : MANIFEST = "dist/release/".toList ++ "release.json".toList := rfl
  constructor
  · rw [hnotes]
    intro h
    exact absurd (List.cons.inj (List.append_cancel_left h)).1 (by decide)
  · rw [hmanifest]
    intro h
    exact absurd (List.cons.inj (List.append_cancel_left h)).1 (by decide)

/-- **What is prepared** is a packaged candidate, which is stored. -/
lemma Tools.prepare_eq_ok {tools : Tools} {digest : ByteArray → Str} {checkout : Checkout}
    {tag : Option Str} (h : tools.Documented digest)
    (hprepare : tools.prepare checkout disk tag files = (.ok (), files')) :
    ∃ candidate packaged, tools.package checkout tag files = (.ok candidate, packaged) ∧
      Packaged digest checkout tag files packaged candidate ∧
      Stored tools checkout packaged files' candidate := by
  unfold Tools.prepare at hprepare
  simp only [FileM.bind_run, FileM.lift_run, FileM.get_run, readText_eq_ok_iff, mapError_eq_ok,
    releaseNotes_eq_ok_iff, and_assoc, exists_and_left, exists_eq_left'] at hprepare
  obtain ⟨candidate, packaged, hpackage, changelog, hchangelog, _, ⟨body, hsection, rfl, hnonempty⟩,
    -, -, metadata, hmetadata, _, copied, hcopy, _, noted, hnotes, _, listed, hmanifest, -, -, -, -,
    -, rfl⟩ := hprepare
  have hpackaged := tools.package_eq_ok h hpackage
  have harchive : candidate.archive = archiveName candidate.version :=
    hpackaged.consistent.choose_spec.2.2.2
  have hne := distPath_ne candidate.version
  rw [← harchive] at hne
  obtain ⟨content, hcontent, rfl⟩ := copyFile_run hcopy
  obtain rfl := writeFile_run hnotes
  obtain rfl := writeFile_run hmanifest
  have hother : NOTES ≠ MANIFEST := by
    decide
  refine ⟨candidate, packaged, hpackage, hpackaged, Function.update_self ..,
    ⟨metadata, hmetadata, ?_⟩, changelog, body, hchangelog, hsection, hnonempty, ?_⟩
  · rw [hcontent, Function.update_of_ne hne.2, Function.update_of_ne hne.1, Function.update_self]
  · rw [Function.update_of_ne hother, Function.update_self]

/-- What is stored of a packaged candidate is held. -/
lemma Stored.holds {tools : Tools} {digest : ByteArray → Str} {checkout : Checkout}
    {tag : Option Str} {packaged stored : Files} {candidate : Candidate}
    (h : tools.Documented digest) (hstored : Stored tools checkout packaged stored candidate)
    (hpackaged : Packaged digest checkout tag files packaged candidate) :
    tools.Holds digest stored candidate := by
  refine ⟨⟨_, hstored.manifest, h.decode_encode candidate⟩, hpackaged.consistent, ?_⟩
  obtain ⟨metadata, hmetadata, harchive⟩ := hstored.archive
  obtain ⟨metadata', -, -, hmetadata', -, -, -, -, -, content, hcontent, hdigest⟩ :=
    hpackaged.version
  rw [hmetadata, Except.ok.injEq] at hmetadata'
  subst hmetadata'
  exact ⟨content, harchive.trans hcontent, hdigest⟩

end preparing

/-- **Release candidates**, with tools that work as documented. What is loaded is what the files
hold: a candidate whose tag and archive are those of its one stable version, with an archive of its
checksum. What is prepared is a candidate that Cargo has packaged in the checkout, after a dry run;
the archive that it left, the manifest and the notes of the changelog are stored. It is loaded in
every later job in which the manifest and the archive are what they were, and another archive is not
accepted in its place. A candidate that is checked with a tag is one that Cargo has packaged again:
it has this tag, its commit is the one of the tag and of the checkout and on the main branch, and
its archive has the checksum of what Cargo has left. -/
theorem release_candidates (tools : Tools) (digest : ByteArray → Str)
    (h : tools.Documented digest) :
    (∀ files candidate,
      tools.candidate files = .ok candidate ↔ tools.Holds digest files candidate) ∧
    (∀ checkout disk tag files prepared,
      tools.prepare checkout disk tag files = (.ok (), prepared) →
      ∃ candidate packaged, Packaged digest checkout tag files packaged candidate ∧
        Stored tools checkout packaged prepared candidate ∧ ∀ later : Files,
        later MANIFEST = prepared MANIFEST →
        (tools.candidate later = .ok candidate ↔
          ∃ content, later (distPath candidate.archive) = .ok content ∧
            digest content = candidate.sha256) ∧
        (later (distPath candidate.archive) = prepared (distPath candidate.archive) →
          tools.candidate later = .ok candidate)) ∧
    ∀ checkout tag files checked, tools.check checkout tag files = (.ok (), checked) →
      ∃ candidate, tools.candidate files = .ok candidate ∧
        Packaged digest checkout (some tag) files checked candidate := by
  refine ⟨fun files candidate => tools.candidate_eq_ok_iff h, ?_,
    fun checkout tag files checked hcheck => ?_⟩
  · intro checkout disk tag files prepared hprepare
    obtain ⟨candidate, packaged, -, hpackaged, hstored⟩ := Tools.prepare_eq_ok h hprepare
    have hholds := hstored.holds h hpackaged
    refine ⟨candidate, packaged, hpackaged, hstored, fun later hmanifest => ?_⟩
    have hiff : tools.candidate later = .ok candidate ↔
        ∃ content, later (distPath candidate.archive) = .ok content ∧
          digest content = candidate.sha256 := by
      rw [tools.candidate_eq_ok_iff h]
      exact ⟨fun hlater => hlater.archive, fun harchive =>
        ⟨hmanifest ▸ hholds.manifest, hholds.consistent, harchive⟩⟩
    refine ⟨hiff, fun hsame => hiff.mpr ?_⟩
    rw [hsame]
    exact hholds.archive
  · obtain ⟨candidate, hholds, hpackaged⟩ := Tools.check_eq_ok h hcheck
    exact ⟨candidate, (tools.candidate_eq_ok_iff h).mpr hholds, hpackaged⟩

/-! ## A release -/

/-- A version of three numbers. -/
def parseNumbers (text : Str) : Option Version := do
  let (major, rest) ← splitOnce '.' text
  let (minor, patch) ← splitOnce '.' rest
  let major ← (parseU64 major).toOption
  let minor ← (parseU64 minor).toOption
  let patch ← (parseU64 patch).toOption
  return ⟨major, minor, patch, [], []⟩

/-- A stable version is one of three numbers. -/
lemma parseNumbers_display : ParsesStable parseNumbers := by
  intro version hstable
  have hdot : ∀ n : ℕ, '.' ∉ decimal n := not_mem_decimal (by decide)
  have hnumber : ∀ n : UInt64, parseU64 (decimal n.toNat) = .ok n := fun n =>
    parseU64_eq_ok_iff.mpr (isNumeral_decimal _)
  rw [hstable.display_eq]
  obtain ⟨major, minor, patch, pre, build⟩ := version
  obtain ⟨rfl, rfl⟩ : pre = [] ∧ build = [] := hstable
  unfold parseNumbers
  simp only [splitOnce_append_cons (hdot _), Option.bind_eq_bind, Option.bind_some, hnumber,
    Except.toOption]
  rfl

/-- A JSON string of text without control characters. -/
def quote (text : Str) : Str :=
  '"' :: (text.flatMap (fun c => if c = '"' ∨ c = '\\' then ['\\', c] else [c]) ++ ['"'])

/-- The text up to the end of a JSON string, and what follows. -/
def unquote : Str → Option (Str × Str)
  | '"' :: rest => some ([], rest)
  | '\\' :: c :: rest => (unquote rest).map fun read => (c :: read.1, read.2)
  | c :: rest => (unquote rest).map fun read => (c :: read.1, read.2)
  | [] => none

/-- A field of an object. -/
def unquoteField (start : String) (text : Str) : Option (Str × Str) := do
  let rest ← stripPrefix (start.toList ++ ['"']) text
  unquote rest

/-- The starts of the fields of a candidate. -/
def fieldStarts : String × String × String × String × String :=
  ("\x7b\n  \"version\": ", ",\n  \"tag\": ", ",\n  \"commit\": ", ",\n  \"archive\": ",
    ",\n  \"sha256\": ")

/-- The JSON object of a candidate. -/
def toJson (candidate : Candidate) : String :=
  let (version, tag, commit, archive, sha256) := fieldStarts
  String.ofList (version.toList ++ (quote candidate.version ++ (tag.toList ++
    (quote candidate.tag ++ (commit.toList ++ (quote candidate.commit ++ (archive.toList ++
    (quote candidate.archive ++ (sha256.toList ++ (quote candidate.sha256 ++
    "\n\x7d".toList))))))))))

/-- The candidate of a JSON object. -/
def ofJson (text : String) : Option Candidate := do
  let (version, tag, commit, archive, sha256) := fieldStarts
  let (version, rest) ← unquoteField version text.toList
  let (tag, rest) ← unquoteField tag rest
  let (commit, rest) ← unquoteField commit rest
  let (archive, rest) ← unquoteField archive rest
  let (sha256, rest) ← unquoteField sha256 rest
  if rest = "\n\x7d".toList then some ⟨version, tag, commit, archive, sha256⟩ else none

/-- A text is read back from what follows the first quote. -/
lemma unquote_escaped (text rest : Str) :
    unquote (text.flatMap (fun c => if c = '"' ∨ c = '\\' then ['\\', c] else [c]) ++
      '"' :: rest) = some (text, rest) := by
  induction text with
  | nil => rfl
  | cons c text ih =>
      rw [List.flatMap_cons, List.append_assoc]
      by_cases hc : c = '"' ∨ c = '\\'
      · rw [if_pos hc]
        simp [unquote, ih]
      · rw [if_neg hc]
        obtain ⟨hquote, hbackslash⟩ := not_or.mp hc
        simp [unquote, ih, hbackslash]

/-- A field is read back. -/
lemma unquoteField_quote (start : String) (text rest : Str) :
    unquoteField start (start.toList ++ (quote text ++ rest)) = some (text, rest) := by
  have hstart : stripPrefix (start.toList ++ ['"']) (start.toList ++ (quote text ++ rest)) =
      some (text.flatMap (fun c => if c = '"' ∨ c = '\\' then ['\\', c] else [c]) ++
        '"' :: rest) :=
    stripPrefix_eq_some_iff.mpr (by simp [quote])
  unfold unquoteField
  rw [hstart]
  exact unquote_escaped text rest

/-- A candidate is read back from its JSON object. -/
lemma ofJson_toJson (candidate : Candidate) : ofJson (toJson candidate) = some candidate := by
  unfold ofJson toJson fieldStarts
  simp only [String.toList_ofList, unquoteField_quote, Option.bind_eq_bind, Option.bind_some,
    if_true]

/-- The checksum of the empty file. -/
def emptyDigest : Str :=
  "e3b0c44298fc1c149afbf4c8996fb92427ae41e4649b934ca495991b7852b855".toList

/-- Tools for releases of an empty archive. -/
def plainTools : Tools where
  parseVersion := parseNumbers
  encode := toJson
  decode := ofJson
  sha256sum path read := match read with
    | .ok _ => .ok (String.ofList (emptyDigest ++ ' ' :: ' ' :: (path ++ ['\n'])))
    | .error error => .error (.io error)

/-- What is printed first is the checksum. -/
lemma head_splitWhitespace (rest : Str) :
    (splitWhitespace (emptyDigest ++ ' ' :: rest)).head? = some emptyDigest := by
  have hword : ∀ c ∈ emptyDigest, isWhitespace c = false := by
    have hall : (emptyDigest.all fun c => !isWhitespace c) = true := by decide
    exact fun c hc => by simpa using List.all_eq_true.mp hall c hc
  unfold splitWhitespace
  rw [List.splitOnP_append_cons_of_forall_mem hword ' ' (by decide),
    List.filter_cons_of_pos (by decide)]
  rfl

/-- The tools work as documented. -/
lemma plainTools_documented : plainTools.Documented fun _ => emptyDigest where
  stable := parseNumbers_display
  decode_encode := ofJson_toJson
  isChecksum _ := by decide
  sound path _ read printed h := by
    rcases read with error | content
    · cases h
    · cases h
      refine ⟨content, rfl, .inl ?_⟩
      rw [String.toList_ofList]
      exact head_splitWhitespace _
  complete version _ content :=
    ⟨_, rfl, by rw [String.toList_ofList]; exact head_splitWhitespace _⟩

/-- The first candidate. -/
def plainCandidate : Candidate where
  version := "0.1.0".toList
  tag := "v0.1.0".toList
  commit := "c0ffee".toList
  archive := "sakai-0.1.0.crate".toList
  sha256 := emptyDigest

/-- A package of the first version. -/
def plainPackage (name : String) : Package := ⟨name.toList, ⟨0, 1, 0, [], []⟩⟩

/-- The metadata of a workspace. -/
def plainMetadata : Metadata where
  packages := [plainPackage "sakai", plainPackage "sakai-python"]
  workspaceRoot := "/work".toList
  targetDirectory := "/work/target".toList
  absolute := by decide

/-- A checkout of the first version, which packages to an empty archive. -/
def plainCheckout : Checkout where
  metadata := .ok plainMetadata
  currentDir := .ok "/work".toList
  status := .ok []
  head := .ok "c0ffee\n".toList
  tagged _ := .ok "c0ffee\n".toList
  isAncestor := .ok []
  dryRun := pure true
  cargoPackage files := (.ok true, Function.update files
    (plainMetadata.packagePath plainCandidate.archive) (.ok ByteArray.empty))

/-- Its changelog. -/
def plainFiles : Files :=
  Function.update (fun _ => .error (.os .NOENT)) CHANGELOG
    (.ok "# Changelog\n\n## [0.1.0]\n\nInitial\n".toUTF8)

/-- A disk on which every write succeeds. -/
def plainDisk : Disk where
  createDirAll _ := .ok ()
  write _ _ := none
  output _ _ := .ok ()

/-- The first candidate is prepared. -/
def plainPrepared : Except StageError Unit × Files :=
  plainTools.prepare plainCheckout plainDisk (some plainCandidate.tag) plainFiles

/-- It is checked. -/
def plainChecked : Except StageError Unit × Files :=
  plainTools.check plainCheckout plainCandidate.tag plainPrepared.2

/-- The first candidate is what the checkout is packaged to. -/
lemma plain_package (files : Files) :
    plainTools.package plainCheckout (some plainCandidate.tag) files =
      (.ok plainCandidate, (plainCheckout.cargoPackage files).2) := by
  have hversion : stableVersion parseNumbers plainCandidate.tag = .ok ⟨0, 1, 0, [], []⟩ :=
    (stableVersion_eq_ok_iff parseNumbers_display).mpr ⟨by decide, by decide⟩
  have htagged : plainCheckout.ensureTagged parseNumbers plainCandidate.tag plainCandidate.commit
      (some plainCandidate.tag) = .ok () := by
    unfold Checkout.ensureTagged
    simp only [hversion, ok_bind, bind_eq_ok, ensure_eq_ok]
    exact ⟨(), trivial, _, rfl, (), by decide, _, rfl, rfl⟩
  have hsum : ∀ path : Str, plainTools.checksum
      (Function.update files path (.ok ByteArray.empty)) path = .ok emptyDigest := by
    intro path
    unfold Tools.checksum
    simp only [Function.update_self, bind_eq_ok, required_eq_ok, ensure_eq_ok, pure_eq_ok]
    refine ⟨_, rfl, emptyDigest, ?_, (), by decide, rfl⟩
    rw [String.toList_ofList]
    exact head_splitWhitespace _
  unfold Tools.package
  simp only [FileM.bind_run, FileM.lift_run, FileM.get_run, FileM.pure_run, required_eq_ok,
    ensure_eq_ok, and_assoc, exists_and_left, exists_eq_left']
  exact ⟨plainMetadata, rfl, _, rfl, rfl, (), _, rfl, rfl, (), plainPackage "sakai", by decide,
    _, hversion, plainPackage "sakai-python", by decide, rfl, (), _, rfl, (), htagged, true, _, rfl,
    rfl, (), true, _, rfl, rfl, (), _, hsum _, rfl, rfl⟩

/-- The first candidate is prepared. -/
lemma plain_prepare : plainPrepared = (.ok (), plainPrepared.2) := by
  have hsuccess : plainPrepared.1 = .ok () := by
    decide +kernel
  rw [← hsuccess]

/-- It is checked. -/
lemma plain_check : plainChecked = (.ok (), plainChecked.2) := by
  obtain ⟨candidate, packaged, hpackage, hpackaged, hstored⟩ :=
    Tools.prepare_eq_ok plainTools_documented plain_prepare
  obtain rfl : plainCandidate = candidate := by
    rw [plain_package, Prod.mk.injEq, Except.ok.injEq] at hpackage
    exact hpackage.1
  have hholds := hstored.holds plainTools_documented hpackaged
  have hcheck : plainTools.check plainCheckout plainCandidate.tag plainPrepared.2 =
      (.ok (), (plainCheckout.cargoPackage plainPrepared.2).2) := by
    unfold Tools.check
    simp only [FileM.bind_run, FileM.lift_run, FileM.get_run, ensure_eq_ok,
      Tools.candidate_eq_ok_iff plainTools_documented, and_assoc, exists_and_left, exists_eq_left',
      plain_package]
    exact ⟨plainCandidate, hholds, plainCandidate, _, rfl, rfl, rfl⟩
  rw [plainChecked, hcheck]

/-- The first candidate is prepared, loaded again and checked. -/
theorem release_candidates_plain :
    (∃ candidate packaged,
      Stored plainTools plainCheckout packaged plainPrepared.2 candidate ∧
        plainTools.candidate plainPrepared.2 = .ok candidate) ∧
    ∃ candidate, plainTools.candidate plainPrepared.2 = .ok candidate ∧
      Packaged (fun _ => emptyDigest) plainCheckout (some plainCandidate.tag) plainPrepared.2
        plainChecked.2 candidate := by
  have hrelease := release_candidates plainTools _ plainTools_documented
  constructor
  · obtain ⟨candidate, packaged, -, hstored, hlater⟩ := hrelease.2.1 plainCheckout plainDisk
      (some plainCandidate.tag) plainFiles plainPrepared.2 plain_prepare
    exact ⟨candidate, packaged, hstored, (hlater plainPrepared.2 rfl).2 rfl⟩
  · exact hrelease.2.2 plainCheckout plainCandidate.tag plainPrepared.2 plainChecked.2 plain_check

end Sakai.Release
