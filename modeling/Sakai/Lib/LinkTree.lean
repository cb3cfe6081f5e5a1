import Sakai.Lib.FileTree
import Sakai.Lib.Path

/-!
# Trees with symbolic links

A `LinkTree` is a finite tree of regular files, directories and symbolic links. A path is resolved
from a `Place`, a directory with those above it. Links inside a path are followed, a bounded number
of times; a link at the end of a path is refused. A path that ends with a separator or a dot names a
directory, and so a link before it is not at the end.

* `resolve_eq_file`: only a path whose last piece is a name leads to a file.
* `openAt_eq_file_iff`: a path that is one name after normalisation leads to a file exactly when it
  is the name itself, and the name of a file in the directory.
-/

namespace Sakai.Lib

/-- A finite tree of regular files, directories and symbolic links. -/
inductive LinkTree (C : Type)
  /-- A regular file, by its content. -/
  | file (content : C)
  /-- A directory, by its entries. -/
  | directory (entries : List (Str × LinkTree C))
  /-- A symbolic link, by the path it holds. -/
  | symlink (target : Str)

/-- A directory and those above it, up to the root. -/
structure Place (C : Type) where
  /-- The entries of the directory. -/
  entries : List (Str × LinkTree C)
  /-- The entries of the directories above it, the root being the last one. -/
  above : List (List (Str × LinkTree C))

/-- What a path leads to. -/
inductive Found (C : Type)
  /-- A directory. -/
  | directory (place : Place C)
  /-- A regular file, by its content. -/
  | file (content : C)

namespace Place

variable {C : Type}

/-- A directory in this one. -/
def enter (place : Place C) (entries : List (Str × LinkTree C)) : Place C :=
  ⟨entries, place.entries :: place.above⟩

/-- The directory above this one; the root is above itself. -/
def parent (place : Place C) : Place C :=
  match place.above with
  | [] => place
  | entries :: above => ⟨entries, above⟩

/-- The root directory. -/
def root (place : Place C) : Place C :=
  match place.above.getLast? with
  | none => place
  | some entries => ⟨entries, []⟩

/-- The directory a path starts in. -/
def start (place : Place C) (path : Str) : Place C :=
  if Path.isAbsolute path then place.root else place

end Place

namespace LinkTree

variable {C : Type}

/-- The piece of a path is a name. -/
def IsName (piece : Str) : Prop := piece ≠ [] ∧ piece ≠ ['.'] ∧ piece ≠ ['.', '.']

/-- Takes the pieces of a path one after the other; at most `links` links are followed, and none at
the end of the path. -/
def resolve (links : ℕ) (place : Place C) : List Str → Except WalkError (Found C)
  | [] => .ok (.directory place)
  | piece :: pieces =>
    if piece = [] ∨ piece = ['.'] then resolve links place pieces
    else if piece = ['.', '.'] then resolve links place.parent pieces
    else match place.entries.lookup piece with
      | none => .error .noEntry
      | some (.directory entries) => resolve links (place.enter entries) pieces
      | some (.file content) => if pieces = [] then .ok (.file content) else .error .notDirectory
      | some (.symlink target) =>
        if pieces = [] then .error .symbolicLink
        else match links with
          | 0 => .error .symbolicLink
          | links + 1 =>
            if target = [] then .error .noEntry
            else resolve links (place.start target) (Path.pieces target ++ pieces)
termination_by pieces => (links, pieces.length)

/-- Opens a path without following a link at its end. -/
def openAt (links : ℕ) (place : Place C) (path : Str) : Except WalkError (Found C) :=
  if path = [] then .error .noEntry else resolve links (place.start path) (Path.pieces path)

variable {links : ℕ} {place : Place C} {content : C}

/-- The last piece is that of the pieces that follow. -/
lemma getLast?_cons_eq_some {piece name : Str} {pieces : List Str}
    (h : pieces.getLast? = some name) : (piece :: pieces).getLast? = some name := by
  rw [List.getLast?_cons, h]
  rfl

/-- **A path that leads to a file ends with a name.** -/
theorem resolve_eq_file {pieces : List Str} (h : resolve links place pieces = .ok (.file content)) :
    ∃ name, pieces.getLast? = some name ∧ IsName name := by
  fun_induction resolve links place pieces with
  | case1 => cases h
  | case2 links place piece pieces hskip ih =>
      obtain ⟨name, hlast, hname⟩ := ih h
      exact ⟨name, getLast?_cons_eq_some hlast, hname⟩
  | case3 links place pieces hskip ih =>
      obtain ⟨name, hlast, hname⟩ := ih h
      exact ⟨name, getLast?_cons_eq_some hlast, hname⟩
  | case4 => cases h
  | case5 links place piece pieces hskip hup entries hentry ih =>
      obtain ⟨name, hlast, hname⟩ := ih h
      exact ⟨name, getLast?_cons_eq_some hlast, hname⟩
  | case6 links place piece hskip hup content' hentry =>
      obtain ⟨hne, hdot⟩ := not_or.mp hskip
      exact ⟨piece, rfl, hne, hdot, hup⟩
  | case7 => cases h
  | case8 => cases h
  | case9 => cases h
  | case10 => cases h
  | case11 place piece pieces hskip hup target hentry hrest links htarget ih =>
      obtain ⟨name, hlast, hname⟩ := ih h
      rw [List.getLast?_append_of_ne_nil _ hrest] at hlast
      exact ⟨name, getLast?_cons_eq_some hlast, hname⟩

/-- **A name leads to what the directory holds under it**, and to no link. -/
lemma resolve_singleton {name : Str} (h : IsName name) :
    resolve links place [name] = .ok (.file content) ↔
      place.entries.lookup name = some (.file content) := by
  obtain ⟨hne, hdot, hup⟩ := h
  unfold resolve
  rw [if_neg (by simp [hne, hdot]), if_neg hup]
  rcases place.entries.lookup name with _ | ⟨content'⟩ | ⟨entries⟩ | ⟨target⟩
  · simp
  · simp
  · simp [resolve]
  · simp

/-! ## Paths that are one name -/

/-- A piece that is no component is empty or a dot. -/
lemma piece?_eq_none_iff {piece : Str} :
    Path.piece? piece = none ↔ piece = [] ∨ piece = ['.'] := by
  unfold Path.piece?
  split <;> simp_all

/-- The piece of a named component is the name. -/
lemma eq_of_piece?_eq_normal {piece name : Str} (h : Path.piece? piece = some (.normal name)) :
    piece = name ∧ IsName name := by
  unfold Path.piece? at h
  unfold IsName
  split at h
  · cases h
  · cases h
  · cases h
  · next hne hdot hup =>
    cases h
    exact ⟨rfl, hne, hdot, hup⟩

/-- **A path that is one name after normalisation** starts with the name; what follows are empty
pieces and dots. -/
lemma pieces_of_components {path name : Str} (h : Path.components path = [.normal name]) :
    ∃ rest, Path.pieces path = name :: rest ∧ IsName name ∧
      ∀ piece ∈ rest, piece = [] ∨ piece = ['.'] := by
  obtain ⟨first, rest, hpieces⟩ := List.exists_cons_of_ne_nil (Path.pieces_ne_nil path)
  unfold Path.components at h
  rw [hpieces] at h
  rcases hfirst : Path.piece? first with _ | component
  · exfalso
    rw [List.filterMap_cons_none hfirst] at h
    obtain rfl | rfl := piece?_eq_none_iff.mp hfirst
    · rcases rest with _ | ⟨next, rest⟩
      · cases h
      · cases h
    · cases h
  · have hstart := Path.startOf_cons_of_piece hfirst rest
    rw [hstart, List.filterMap_cons_some hfirst, List.nil_append, List.cons.injEq] at h
    obtain ⟨rfl, hrest⟩ := h
    obtain ⟨rfl, hname⟩ := eq_of_piece?_eq_normal hfirst
    refine ⟨rest, hpieces, hname, fun piece hpiece => ?_⟩
    exact piece?_eq_none_iff.mp (List.filterMap_eq_nil_iff.mp hrest piece hpiece)

/-- A path that is one name after normalisation is resolved from the directory itself. -/
lemma openAt_of_components {path name : Str} (h : Path.components path = [.normal name]) :
    openAt links place path = resolve links place (Path.pieces path) := by
  have hne : path ≠ [] := by
    intro hnil
    rw [hnil] at h
    cases h
  have hrelative : ¬ Path.isAbsolute path = true := by
    intro habs
    obtain ⟨cs, hcs⟩ := Path.components_of_isAbsolute habs
    rw [hcs] at h
    cases h
  unfold openAt Place.start
  rw [if_neg hne, if_neg hrelative]

/-- A path is its only piece. -/
lemma eq_iff_of_pieces {path name : Str} {rest : List Str}
    (h : Path.pieces path = name :: rest) : path = name ↔ rest = [] := by
  constructor
  · intro heq
    have hmem : name ∈ Path.pieces path := by
      rw [h]
      exact List.mem_cons_self
    have hsingle : Path.pieces name = [name] :=
      List.splitOn_eq_singleton (Path.not_mem_piece hmem)
    rw [heq, hsingle] at h
    exact (List.cons.inj h).2.symm
  · intro hnil
    have hjoin : Path.ofPieces (Path.pieces path) = path := List.intercalate_splitOn '/'
    rw [h, hnil] at hjoin
    simpa [Path.ofPieces] using hjoin.symm

/-- Pieces that end with an empty one or a dot lead to no file. -/
lemma resolve_ne_file {pieces : List Str} {piece : Str} (hlast : pieces.getLast? = some piece)
    (hpiece : piece = [] ∨ piece = ['.']) :
    resolve links place pieces ≠ .ok (.file content) := by
  intro hfile
  obtain ⟨last, hlast', hname⟩ := resolve_eq_file hfile
  rw [hlast, Option.some.injEq] at hlast'
  subst hlast'
  obtain rfl | rfl := hpiece
  · exact hname.1 rfl
  · exact hname.2.1 rfl

/-- **A path that is one name after normalisation leads to a file** exactly when it is the name
itself, and the name of a file in the directory. -/
theorem openAt_eq_file_iff {path name : Str} (h : Path.components path = [.normal name]) :
    openAt links place path = .ok (.file content) ↔
      path = name ∧ place.entries.lookup name = some (.file content) := by
  obtain ⟨rest, hpieces, hname, hrest⟩ := pieces_of_components h
  rw [openAt_of_components h, eq_iff_of_pieces hpieces, hpieces]
  rcases hlast : rest.getLast? with _ | piece
  · rw [List.getLast?_eq_none_iff] at hlast
    rw [hlast, resolve_singleton hname, and_iff_right rfl]
  · -- Whatever the name is, the path is that of a directory.
    have hdirectory : resolve links place (name :: rest) ≠ .ok (.file content) :=
      resolve_ne_file (getLast?_cons_eq_some hlast) (hrest _ (List.mem_of_getLast? hlast))
    have hlonger : rest ≠ [] := by
      intro hnil
      rw [hnil] at hlast
      cases hlast
    simp only [hdirectory, hlonger, false_and]

/-- A link is refused at the end of a path, and followed before a separator. -/
example :
    let place : Place ℕ := ⟨[(['a'], .symlink ['b']), (['b'], .directory [])], []⟩
    openAt 1 place ['a'] = .error .symbolicLink ∧
      openAt 1 place ['a', '/'] = .ok (.directory (place.enter [])) := by
  have hpieces : Path.pieces ['a'] = [['a']] ∧ Path.pieces ['a', '/'] = [['a'], []] ∧
      Path.pieces ['b'] = [['b']] := by decide
  simp [openAt, resolve, hpieces, Place.start, Path.isAbsolute, List.lookup]

end LinkTree

end Sakai.Lib
