import Sakai.Handle.Open
import Sakai.Lib.LinkTree

/-!
# Reading an interface file

`readFile` opens an interface beneath a cgroup directory by name and reads it. Its check works on
the components of the name, whereas the system resolves the name as it is written.

* `readFile_of_refused`: what is not one name after normalisation is refused before anything is
  opened, whatever opening and reading do.
* `readFileAt_eq_ok_iff`: on every tree, a name is read exactly when it is the name of a file in the
  directory, of text.
* `interface_read_confined`: both of them.
-/

namespace Sakai

open Lib Lib.LinkTree

/-- Reads an interface file relative to an open cgroup directory, by a call that opens a name and
one that reads what is open.
Source: `file.rs`, `read_file`. -/
def readFile {m : Type → Type} [Monad m] {F : Type} (openat : Str → m (Except Errno F))
    (readToString : F → m (Except IoError String)) (interface : Str) :
    m (Except IoError String) :=
  match Path.components interface with
  | [.normal _] => do
    match ← openat interface with
    | .error errno => return .error (.os errno)
    | .ok descriptor => readToString descriptor
  | _ => return .error .invalidInput

/-! ## The system -/

/-- The number of links the system follows in a path. -/
def maxLinks : ℕ := 40

/-- `openat` with `RDONLY` and `NOFOLLOW`. A path with a NUL is no argument of the call.
Source: `file.rs`, the call of `openat` in `read_file`. -/
def openatFile (place : Place ByteArray) (path : Str) : Except Errno (Found ByteArray) :=
  if Char.ofNat 0 ∈ path then .error .INVAL else (openAt maxLinks place path).mapError errnoOf

/-- `read_to_string`: the content of a file, which must be text in UTF-8. A directory is not
read. -/
def readToString : Found ByteArray → Except IoError String
  | .directory _ => .error (.os .ISDIR)
  | .file content => match String.fromUTF8? content with
    | some contents => .ok contents
    | none => .error .other

/-- An interface read in a directory of a tree. -/
def readFileAt (place : Place ByteArray) (interface : Str) : Except IoError String :=
  readFile (m := Id) (openatFile place) readToString interface

/-! ## What is read -/

/-- What is not one name after normalisation is refused before anything is opened. -/
lemma readFile_of_refused {interface : Str}
    (h : ∀ name, Path.components interface ≠ [.normal name]) {m : Type → Type} [Monad m] {F : Type}
    (openat : Str → m (Except Errno F)) (readToString : F → m (Except IoError String)) :
    readFile openat readToString interface = pure (.error .invalidInput) := by
  unfold readFile
  split
  · next name hcomponents => exact absurd hcomponents (h name)
  · rfl

/-- Bytes decode to the text they encode, and to no other. -/
lemma fromUTF8?_eq_some_iff {content : ByteArray} {contents : String} :
    String.fromUTF8? content = some contents ↔ contents.toUTF8 = content := by
  unfold String.fromUTF8?
  constructor
  · intro h
    split_ifs at h
    cases h
    rfl
  · intro h
    subst h
    have hvalid : contents.toUTF8.IsValidUTF8 := contents.isValidUTF8
    rw [dif_pos hvalid]
    rfl

/-- The content of a file is read exactly when it is the text. -/
lemma readToString_file_eq_ok_iff {content : ByteArray} {contents : String} :
    readToString (.file content) = .ok contents ↔ contents.toUTF8 = content := by
  rw [← fromUTF8?_eq_some_iff]
  rcases hdecode : String.fromUTF8? content with _ | text
  · simp [readToString, hdecode]
  · simp [readToString, hdecode]

/-- An interface whose name is one component is opened, and what is open is read. -/
lemma readFileAt_of_components {place : Place ByteArray} {interface name : Str}
    (h : Path.components interface = [.normal name]) :
    readFileAt place interface = match openatFile place interface with
      | .error errno => .error (.os errno)
      | .ok descriptor => readToString descriptor := by
  unfold readFileAt readFile
  rw [h]
  cases openatFile place interface <;> rfl

/-- A call opens a file exactly when the path leads to it. -/
lemma openatFile_eq_ok_iff {place : Place ByteArray} {path : Str} {found : Found ByteArray} :
    openatFile place path = .ok found ↔
      Char.ofNat 0 ∉ path ∧ openAt maxLinks place path = .ok found := by
  unfold openatFile
  by_cases hnul : Char.ofNat 0 ∈ path
  · simp [hnul]
  · simp [hnul]

/-- **What is read** are the files of the directory that are text, by their names. -/
theorem readFileAt_eq_ok_iff {place : Place ByteArray} {interface : Str} {contents : String} :
    readFileAt place interface = .ok contents ↔
      Path.components interface = [.normal interface] ∧ Char.ofNat 0 ∉ interface ∧
        place.entries.lookup interface = some (.file contents.toUTF8) := by
  by_cases hname : ∃ name, Path.components interface = [.normal name]
  · obtain ⟨name, hcomponents⟩ := hname
    rw [readFileAt_of_components hcomponents]
    constructor
    · intro h
      rcases hopen : openatFile place interface with errno | found
      · rw [hopen] at h
        cases h
      · rw [hopen] at h
        obtain ⟨hnul, hfound⟩ := openatFile_eq_ok_iff.mp hopen
        rcases found with place' | content
        · cases h
        · obtain ⟨rfl, hentry⟩ := (openAt_eq_file_iff hcomponents).mp hfound
          obtain rfl := readToString_file_eq_ok_iff.mp h
          exact ⟨hcomponents, hnul, hentry⟩
    · intro h
      obtain ⟨hself, hnul, hentry⟩ := h
      have hfound : openAt maxLinks place interface = .ok (.file contents.toUTF8) :=
        (openAt_eq_file_iff hself).mpr ⟨rfl, hentry⟩
      rw [openatFile_eq_ok_iff.mpr ⟨hnul, hfound⟩]
      exact readToString_file_eq_ok_iff.mpr rfl
  · have hrefused : ∀ name, Path.components interface ≠ [.normal name] := fun name h =>
      hname ⟨name, h⟩
    have hread : readFileAt place interface = .error .invalidInput :=
      readFile_of_refused hrefused (m := Id) (openatFile place) readToString
    rw [hread]
    constructor
    · intro h
      cases h
    · exact fun h => absurd h.1 (hrefused _)

/-- **Interface reads are confined to direct entries.** On every tree and for every name, what is
read is the content of the file that the directory holds under this very name. What names the
directory itself or the one above it, an absolute path or more than one component is refused before
anything is opened, as is the empty name. -/
theorem interface_read_confined :
    (∀ (place : Place ByteArray) (interface : Str) (contents : String),
      readFileAt place interface = .ok contents →
        ∃ content, place.entries.lookup interface = some (.file content) ∧
          contents.toUTF8 = content) ∧
    ∀ interface : Str,
      (Path.components interface = [] ∨ Path.components interface = [.curDir] ∨
        Path.components interface = [.parentDir] ∨ Path.isAbsolute interface = true ∨
        1 < (Path.components interface).length) →
      ∀ (m : Type → Type) [Monad m] (F : Type) (openat : Str → m (Except Errno F))
        (readToString : F → m (Except IoError String)),
        readFile openat readToString interface = pure (.error .invalidInput) := by
  refine ⟨fun place interface contents h => ?_, fun interface h m _ F openat readToString => ?_⟩
  · obtain ⟨-, -, hentry⟩ := readFileAt_eq_ok_iff.mp h
    exact ⟨_, hentry, rfl⟩
  · apply readFile_of_refused
    intro name hname
    rw [hname] at h
    obtain h | h | h | h | h := h
    · cases h
    · cases h
    · cases h
    · obtain ⟨cs, hcs⟩ := Path.components_of_isAbsolute h
      rw [hcs] at hname
      cases hname
    · exact absurd h (by simp)

/-- A file of the parent is refused. -/
theorem interface_read_confined_parent :
    readFile (m := Id) (fun _ => .ok 0) (fun _ : ℕ => .ok "max\n") "../memory.max".toList =
      .error .invalidInput :=
  interface_read_confined.2 "../memory.max".toList (by decide) Id ℕ (fun _ => .ok 0)
    fun _ => .ok "max\n"

end Sakai
