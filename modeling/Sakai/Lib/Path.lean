import Mathlib.Data.List.DropRight
import Sakai.Lib.Text

/-!
# Unix paths: components, prefixes and joins

A path is a text; what it names is its list of components. Repeated separators, separators at the
end and `.` inside the path are no components. `isAbsolute`, `components`, `stripPrefix` and `join`
follow the documented behaviour of the standard library's `Path` on Unix.

* `components_join`: a relative path is appended, component by component.
* `stripPrefix_isSome`: a base can be stripped exactly when its components are in front.
* `components_of_stripPrefix`: what is left after an absolute base is relative, and has the
  components that follow.
* `names_join`, `names_stripPrefix`: the same for the names of a path.
-/

namespace Sakai.Lib.Path

/-! ## Components -/

/-- `std::path::Component` on Unix. -/
inductive Component
  /-- The root directory. -/
  | rootDir
  /-- The current directory, at the start of a path only. -/
  | curDir
  /-- The parent directory. -/
  | parentDir
  /-- A name. -/
  | normal (name : Str)
  deriving DecidableEq, Repr

/-- The texts between the separators of a path. -/
def pieces (path : Str) : List Str := path.splitOn '/'

/-- The component of a piece; an empty piece and `.` have none. -/
def piece? : Str → Option Component
  | [] => none
  | ['.'] => none
  | ['.', '.'] => some .parentDir
  | name => some (.normal name)

/-- The component at the start of a path: the root directory, or a leading `.`. -/
def startOf : List Str → List Component
  | [] :: _ :: _ => [.rootDir]
  | ['.'] :: _ => [.curDir]
  | _ => []

/-- `Path::components`. -/
def components (path : Str) : List Component :=
  startOf (pieces path) ++ (pieces path).filterMap piece?

/-- `Path::is_absolute`. -/
def isAbsolute (path : Str) : Bool := path.head? == some '/'

/-- The pieces of a path, joined again. -/
def ofPieces (ps : List Str) : Str := ['/'].intercalate ps

/-- There is at least one piece. -/
lemma pieces_ne_nil (path : Str) : pieces path ≠ [] := List.splitOn_ne_nil '/' path

/-- The pieces on both sides of a separator. -/
lemma pieces_append_cons (a b : Str) : pieces (a ++ '/' :: b) = pieces a ++ pieces b :=
  List.splitOn_append_cons_self a b

/-- Pieces hold no separator. -/
lemma not_mem_piece {path p : Str} (hp : p ∈ pieces path) : '/' ∉ p := by
  induction path generalizing p with
  | nil =>
      rw [List.mem_singleton.mp hp]
      exact List.not_mem_nil
  | cons c cs ih =>
      unfold pieces at hp ih
      rw [List.splitOn_cons_eq_if_modifyHead] at hp
      obtain ⟨q, qs, hqs⟩ := List.exists_cons_of_ne_nil (List.splitOn_ne_nil '/' cs)
      rw [hqs] at hp ih
      split at hp
      · rcases List.mem_cons.mp hp with rfl | hp
        · exact List.not_mem_nil
        · exact ih hp
      · next hc =>
        rw [List.modifyHead_cons] at hp
        rcases List.mem_cons.mp hp with rfl | hp
        · have hne : '/' ≠ c := fun h => hc (beq_iff_eq.mpr h.symm)
          exact List.not_mem_cons_of_ne_of_not_mem hne (ih List.mem_cons_self)
        · exact ih (List.mem_cons_of_mem q hp)

/-- Joined pieces are recovered. -/
lemma pieces_ofPieces {ps : List Str} (hsep : ∀ p ∈ ps, '/' ∉ p) (hne : ps ≠ []) :
    pieces (ofPieces ps) = ps :=
  List.splitOn_intercalate '/' hsep hne

/-- At most one component is at the start. -/
lemma startOf_length_le (ps : List Str) : (startOf ps).length ≤ 1 := by
  unfold startOf
  split <;> simp

/-- An absolute path starts with the root directory. -/
lemma startOf_of_isAbsolute {path : Str} (h : isAbsolute path = true) :
    startOf (pieces path) = [.rootDir] := by
  rcases path with _ | ⟨c, cs⟩
  · cases h
  · have hc : c = '/' := by simpa [isAbsolute] using h
    obtain ⟨q, qs, hqs⟩ := List.exists_cons_of_ne_nil (pieces_ne_nil cs)
    have hpieces : pieces (c :: cs) = [] :: q :: qs := by
      rw [← hqs, hc]
      exact pieces_append_cons [] cs
    rw [hpieces]
    rfl

/-- The root directory is the first component of an absolute path. -/
lemma components_of_isAbsolute {path : Str} (h : isAbsolute path = true) :
    ∃ cs, components path = .rootDir :: cs := by
  rw [components, startOf_of_isAbsolute h]
  exact ⟨_, rfl⟩

/-- A path without a start is not absolute. -/
lemma isAbsolute_eq_false {path : Str} (h : startOf (pieces path) = []) :
    isAbsolute path = false := by
  by_contra habs
  rw [startOf_of_isAbsolute (Bool.of_not_eq_false habs)] at h
  cases h

/-- A name without separator is one component, unless it is a special one. -/
lemma components_of_not_mem {name : Str} (hsep : '/' ∉ name) (hne : name ≠ [])
    (hdot : name ≠ ['.']) (hdots : name ≠ ['.', '.']) : components name = [.normal name] := by
  have hpieces : pieces name = [name] := List.splitOn_eq_singleton hsep
  have hstart : startOf [name] = [] := by
    unfold startOf
    split <;> simp_all
  have hpiece : piece? name = some (.normal name) := by
    unfold piece?
    split <;> simp_all
  unfold components
  rw [hpieces, hstart, List.nil_append, List.filterMap_cons_some hpiece, List.filterMap_nil]

/-! ## Joining -/

/-- `Path::join`: an absolute path replaces the base, any other is appended to it, after a
separator unless the base is empty or ends with one. -/
def join (base path : Str) : Str :=
  if isAbsolute path then path
  else match base.getLast? with
    | none => path
    | some c => if c = '/' then base ++ path else base ++ '/' :: path

/-- The start does not depend on what follows the first separator. -/
lemma startOf_append_congr {ps qs rs : List Str} (hps : ps ≠ []) (hqs : qs ≠ []) (hrs : rs ≠ []) :
    startOf (ps ++ qs) = startOf (ps ++ rs) := by
  obtain ⟨p, ps, rfl⟩ := List.exists_cons_of_ne_nil hps
  obtain ⟨q, qs', hq⟩ := List.exists_cons_of_ne_nil (List.append_ne_nil_of_right_ne_nil ps hqs)
  obtain ⟨r, rs', hr⟩ := List.exists_cons_of_ne_nil (List.append_ne_nil_of_right_ne_nil ps hrs)
  rw [List.cons_append, List.cons_append, hq, hr]
  unfold startOf
  split <;> simp_all

/-- What follows a separator is appended, component by component. -/
lemma components_append_sep (front : Str) {path : Str} (h : startOf (pieces path) = []) :
    components (front ++ '/' :: path) = components (front ++ ['/']) ++ components path := by
  have hstart : startOf (pieces front ++ pieces path) = startOf (pieces front ++ pieces []) :=
    startOf_append_congr (pieces_ne_nil front) (pieces_ne_nil path) (pieces_ne_nil [])
  unfold components
  rw [pieces_append_cons, pieces_append_cons, hstart, h, List.nil_append, List.filterMap_append,
    List.filterMap_append, List.append_assoc, List.append_assoc]
  rfl

/-- A separator at the end of a path is no component. -/
lemma components_concat_sep {path : Str} (hne : path ≠ []) :
    components (path ++ ['/']) = components path := by
  have hstart : startOf (pieces path ++ pieces []) = startOf (pieces path) := by
    rcases hpieces : pieces path with _ | ⟨p, _ | ⟨q, ps⟩⟩
    · exact absurd hpieces (pieces_ne_nil path)
    · -- A single piece is the path itself, so it is not the empty one.
      have hp : p ≠ [] := by
        intro hp
        have hjoin : ofPieces (pieces path) = path := List.intercalate_splitOn '/'
        rw [hpieces, hp] at hjoin
        exact hne hjoin.symm
      obtain ⟨c, cs, rfl⟩ := List.exists_cons_of_ne_nil hp
      rw [List.singleton_append]
      unfold startOf
      split <;> simp_all
    · exact startOf_append_congr (List.cons_ne_nil p []) (by simp) (List.cons_ne_nil q ps)
  unfold components
  rw [pieces_append_cons, hstart, List.filterMap_append]
  exact congrArg (startOf (pieces path) ++ ·) (List.append_nil _)

/-- A path without root and leading `.` is appended, component by component. -/
lemma components_join (base : Str) {path : Str} (h : startOf (pieces path) = []) :
    components (join base path) = components base ++ components path := by
  unfold join
  rw [if_neg (Bool.eq_false_iff.mp (isAbsolute_eq_false h))]
  rcases List.eq_nil_or_concat' base with rfl | ⟨front, c, rfl⟩
  · rfl
  · have hlast : (front ++ [c]).getLast? = some c := List.getLast?_concat
    simp only [hlast]
    by_cases hc : c = '/'
    · rw [if_pos hc, hc, List.append_assoc]
      exact components_append_sep front h
    · rw [if_neg hc, components_append_sep _ h, components_concat_sep (by simp)]

/-! ## Stripping -/

/-- `Components::trim_left`: the pieces from the first component on. -/
def trimLeft (ps : List Str) : List Str := ps.dropWhile fun p => (piece? p).isNone

/-- `Components::trim_right`: the pieces up to the last component. -/
def trimRight (ps : List Str) : List Str := ps.rdropWhile fun p => (piece? p).isNone

/-- The pieces after those of the first `n` components. -/
def dropComponents : ℕ → List Str → List Str
  | 0, ps => ps
  | _ + 1, [] => []
  | n + 1, p :: ps => match piece? p with
    | none => dropComponents (n + 1) ps
    | some _ => dropComponents n ps

/-- `Components::as_path` after `n` components were taken. Once one was taken, the rest starts with
its first component. -/
def asPath : ℕ → List Str → Str
  | 0, [] :: p :: ps => '/' :: ofPieces (trimRight (p :: ps))
  | 0, ['.'] :: ps => ofPieces (['.'] :: trimRight ps)
  | 0, ps => ofPieces (trimRight ps)
  | n + 1, ps => ofPieces (trimRight (trimLeft (dropComponents (n + 1 - (startOf ps).length) ps)))

/-- `Path::strip_prefix`: what follows the components of `base`. -/
def stripPrefix (path base : Str) : Option Str :=
  if components base <+: components path then
    some (asPath (components base).length (pieces path))
  else none

/-- Components are dropped with their pieces. -/
lemma filterMap_dropComponents (n : ℕ) (ps : List Str) :
    (dropComponents n ps).filterMap piece? = (ps.filterMap piece?).drop n := by
  induction ps generalizing n with
  | nil => cases n <;> rfl
  | cons p ps ih =>
      rcases n with _ | n
      · rfl
      · rw [dropComponents]
        cases hp : piece? p with
        | none => rw [List.filterMap_cons_none hp, ← ih]
        | some c => rw [List.filterMap_cons_some hp, List.drop_succ_cons, ← ih]

/-- The dropped pieces are in front. -/
lemma dropComponents_suffix (n : ℕ) (ps : List Str) : dropComponents n ps <:+ ps := by
  induction ps generalizing n with
  | nil => cases n <;> exact List.suffix_rfl
  | cons p ps ih =>
      rcases n with _ | n
      · exact List.suffix_rfl
      · rw [dropComponents]
        cases piece? p with
        | none => exact (ih (n + 1)).trans (List.suffix_cons p ps)
        | some c => exact (ih n).trans (List.suffix_cons p ps)

/-- Pieces without component at the start do not count. -/
lemma filterMap_trimLeft (ps : List Str) :
    (trimLeft ps).filterMap piece? = ps.filterMap piece? := by
  induction ps with
  | nil => rfl
  | cons p ps ih =>
      unfold trimLeft at ih ⊢
      rw [List.dropWhile_cons]
      split
      · next hp => rw [ih, List.filterMap_cons_none (Option.isNone_iff_eq_none.mp hp)]
      · rfl

/-- Pieces without component at the end do not count. -/
lemma filterMap_trimRight (ps : List Str) :
    (trimRight ps).filterMap piece? = ps.filterMap piece? := by
  unfold trimRight
  rw [List.rdropWhile, List.filterMap_reverse]
  have h := filterMap_trimLeft ps.reverse
  unfold trimLeft at h
  rw [h, ← List.filterMap_reverse, List.reverse_reverse]

/-- The first piece that is left has a component. -/
lemma exists_piece_of_trim {ps qs : List Str} {q : Str} (h : trimRight (trimLeft ps) = q :: qs) :
    ∃ c, piece? q = some c := by
  have hprefix : q :: qs <+: trimLeft ps := h ▸ List.rdropWhile_prefix _ _
  obtain ⟨rs, hrs⟩ := hprefix
  have hhead : (trimLeft ps).head? = some q := by rw [← hrs]; rfl
  have hnot := List.head?_dropWhile_not (fun p => (piece? p).isNone) ps
  unfold trimLeft at hhead
  rw [hhead] at hnot
  exact Option.ne_none_iff_exists'.mp fun hnone => by simp [hnone] at hnot

/-- A piece with a component is not the start of a path by itself. -/
lemma startOf_cons_of_piece {q : Str} {c : Component} (hq : piece? q = some c) (qs : List Str) :
    startOf (q :: qs) = [] := by
  unfold startOf
  split
  · next heq =>
    rw [(List.cons.inj heq).1] at hq
    cases hq
  · next heq =>
    rw [(List.cons.inj heq).1] at hq
    cases hq
  · rfl

/-- What is left of a path has neither root nor leading `.`, and holds the components that follow
those taken. -/
lemma components_asPath (path : Str) (n : ℕ) :
    startOf (pieces (asPath (n + 1) (pieces path))) = [] ∧
      components (asPath (n + 1) (pieces path)) = (components path).drop (n + 1) := by
  have hstart := startOf_length_le (pieces path)
  have hdrop : (components path).drop (n + 1) =
      ((pieces path).filterMap piece?).drop (n + 1 - (startOf (pieces path)).length) := by
    have hnil : (startOf (pieces path)).drop (n + 1) = [] := List.drop_eq_nil_of_le (by omega)
    rw [components, List.drop_append, hnil, List.nil_append]
  rw [hdrop, asPath]
  generalize hk : n + 1 - (startOf (pieces path)).length = k
  have hsep : ∀ p ∈ trimRight (trimLeft (dropComponents k (pieces path))), '/' ∉ p := by
    intro p hp
    have hleft : p ∈ trimLeft (dropComponents k (pieces path)) :=
      (List.rdropWhile_prefix _ _).subset hp
    have hkept : p ∈ dropComponents k (pieces path) := (List.dropWhile_sublist _).subset hleft
    exact not_mem_piece ((dropComponents_suffix k _).subset hkept)
  have hbody : (trimRight (trimLeft (dropComponents k (pieces path)))).filterMap piece? =
      ((pieces path).filterMap piece?).drop k := by
    rw [filterMap_trimRight, filterMap_trimLeft, filterMap_dropComponents]
  rcases hts : trimRight (trimLeft (dropComponents k (pieces path))) with _ | ⟨q, qs⟩
  · rw [← hbody, hts]
    exact ⟨rfl, rfl⟩
  · rw [hts] at hsep hbody
    obtain ⟨c, hq⟩ := exists_piece_of_trim hts
    have hpieces := pieces_ofPieces hsep (List.cons_ne_nil q qs)
    have hnone := startOf_cons_of_piece hq qs
    unfold components
    rw [hpieces, hnone, hbody]
    exact ⟨rfl, rfl⟩

/-- An absolute base has at least one component. -/
lemma exists_length_components {base : Str} (h : isAbsolute base = true) :
    ∃ n, (components base).length = n + 1 := by
  obtain ⟨cs, hcs⟩ := components_of_isAbsolute h
  exact ⟨cs.length, by rw [hcs, List.length_cons]⟩

/-- A path is stripped of its components in front. -/
lemma stripPrefix_isSome {path base : Str} :
    (stripPrefix path base).isSome = true ↔ components base <+: components path := by
  unfold stripPrefix
  split <;> simp [*]

/-- What is left after an absolute base is relative, and holds the components that follow. -/
lemma components_of_stripPrefix {path base rest : Str} (hbase : isAbsolute base = true)
    (h : stripPrefix path base = some rest) :
    startOf (pieces rest) = [] ∧ components path = components base ++ components rest := by
  unfold stripPrefix at h
  split at h
  · next hprefix =>
    obtain ⟨n, hn⟩ := exists_length_components hbase
    rw [hn, Option.some.injEq] at h
    obtain ⟨hplain, hrest⟩ := components_asPath path n
    rw [h] at hplain hrest
    rw [hrest, ← hn]
    exact ⟨hplain, (List.prefix_iff_eq_append.mp hprefix).symm⟩
  · cases h

/-! ## Names -/

/-- The name of a component. -/
def Component.name? : Component → Option Str
  | .normal name => some name
  | _ => none

/-- The names of a path. -/
def names (path : Str) : List Str := (components path).filterMap Component.name?

/-- A character other than a separator and a dot is one of a name. -/
lemma mem_iff_exists_name {path : Str} {ch : Char} (hsep : ch ≠ '/') (hdot : ch ≠ '.') :
    ch ∈ path ↔ ∃ name ∈ names path, ch ∈ name := by
  have hpieces : ch ∈ path ↔ ∃ piece ∈ pieces path, ch ∈ piece := by
    have hjoin : ∀ ps : List Str, ch ∈ ofPieces ps ↔ ∃ piece ∈ ps, ch ∈ piece := by
      intro ps
      induction ps with
      | nil => simp [ofPieces]
      | cons p ps ih =>
          rcases ps with _ | ⟨q, qs⟩
          · simp [ofPieces]
          · unfold ofPieces at ih ⊢
            rw [List.intercalate_cons_cons, List.mem_append, List.mem_append, ih]
            simp [hsep]
    have hself : ofPieces (pieces path) = path := List.intercalate_splitOn '/'
    rw [← hjoin, hself]
  have hname : ∀ piece : Str, ch ∈ piece →
      (piece ∈ names path ↔ piece ∈ pieces path) := by
    intro piece hmem
    have hpiece : piece? piece = some (.normal piece) := by
      unfold piece?
      split <;> simp_all
    have hstart : Component.normal piece ∉ startOf (pieces path) := by
      unfold startOf
      split <;> simp
    unfold names components
    rw [List.mem_filterMap]
    constructor
    · rintro ⟨component, hcomponent, hname⟩
      have hnormal : component = .normal piece := by
        unfold Component.name? at hname
        split at hname
        · rw [Option.some.inj hname]
        · cases hname
      subst hnormal
      rcases List.mem_append.mp hcomponent with hfirst | hrest
      · exact absurd hfirst hstart
      · obtain ⟨p, hp, hpiece'⟩ := List.mem_filterMap.mp hrest
        have hsame : p = piece := by
          unfold piece? at hpiece'
          split at hpiece' <;> simp_all
        rwa [hsame] at hp
    · intro hmem'
      exact ⟨.normal piece, List.mem_append_right _ (List.mem_filterMap.mpr ⟨piece, hmem', hpiece⟩),
        rfl⟩
  rw [hpieces]
  constructor
  · rintro ⟨piece, hpiece, hmem⟩
    exact ⟨piece, (hname piece hmem).mpr hpiece, hmem⟩
  · rintro ⟨piece, hpiece, hmem⟩
    exact ⟨piece, (hname piece hmem).mp hpiece, hmem⟩

/-- A relative path is appended, name by name. -/
lemma names_join (base : Str) {path : Str} (h : startOf (pieces path) = []) :
    names (join base path) = names base ++ names path := by
  unfold names
  rw [components_join base h, List.filterMap_append]

/-- What is left after the root has the names of the path. -/
lemma names_stripPrefix {path rest : Str} (h : stripPrefix path ['/'] = some rest) :
    names rest = names path := by
  obtain ⟨-, hcomponents⟩ := components_of_stripPrefix (by decide) h
  unfold names
  rw [hcomponents]
  rfl

/-- A path that joins a relative one starts where the base starts. -/
lemma isAbsolute_join {base path : Str} (h : isAbsolute path = false) :
    isAbsolute (join base path) = isAbsolute base := by
  unfold join
  rw [if_neg (by rw [h]; exact Bool.false_ne_true)]
  rcases base with _ | ⟨c, cs⟩
  · simpa [isAbsolute] using h
  · obtain ⟨last, hlast⟩ : ∃ last, (c :: cs).getLast? = some last :=
      ⟨_, List.getLast?_eq_some_getLast (List.cons_ne_nil c cs)⟩
    simp only [hlast]
    split <;> simp [isAbsolute]

/-- The last piece of a path that joins a single name is this name. -/
lemma getLast?_pieces_join (base : Str) {name : Str} (hsep : '/' ∉ name)
    (h : isAbsolute name = false) : (pieces (join base name)).getLast? = some name := by
  have hname : pieces name = [name] := List.splitOn_eq_singleton hsep
  have happend : ∀ front, (pieces (front ++ '/' :: name)).getLast? = some name := by
    intro front
    rw [pieces_append_cons, hname, List.getLast?_concat]
  unfold join
  rw [if_neg (by rw [h]; exact Bool.false_ne_true)]
  rcases List.eq_nil_or_concat' base with rfl | ⟨front, c, rfl⟩
  · simp [hname]
  · have hlast : (front ++ [c]).getLast? = some c := List.getLast?_concat
    simp only [hlast]
    by_cases hc : c = '/'
    · rw [if_pos hc, hc, List.append_assoc]
      exact happend front
    · rw [if_neg hc]
      exact happend (front ++ [c])

/-- What is left after the root ends with a component, unless nothing is left. -/
lemma exists_last_piece_of_stripPrefix {path rest : Str}
    (h : stripPrefix path ['/'] = some rest) (hne : rest ≠ []) :
    ∃ piece component, (pieces rest).getLast? = some piece ∧ piece? piece = some component := by
  unfold stripPrefix at h
  split at h
  · have hlength : (components ['/']).length = 1 := by decide
    rw [hlength, Option.some.injEq, asPath] at h
    generalize hps : trimLeft (dropComponents (0 + 1 - (startOf (pieces path)).length)
      (pieces path)) = ps at h
    rcases hlast : (trimRight ps).getLast? with _ | piece
    · rw [List.getLast?_eq_none_iff] at hlast
      rw [hlast] at h
      exact absurd h.symm hne
    · have hmem : ∀ p ∈ trimRight ps, '/' ∉ p := by
        intro p hp
        have hleft : p ∈ trimLeft _ := hps ▸ (List.rdropWhile_prefix _ _).subset hp
        have hkept : p ∈ dropComponents _ (pieces path) := (List.dropWhile_sublist _).subset hleft
        exact not_mem_piece ((dropComponents_suffix _ _).subset hkept)
      have hpieces : pieces rest = trimRight ps := by
        rw [← h]
        refine pieces_ofPieces hmem ?_
        intro hnil
        rw [hnil] at hlast
        cases hlast
      have htrimmed : trimRight ps ≠ [] := by
        intro hnil
        rw [hnil] at hlast
        cases hlast
      have hnot := List.rdropWhile_last_not (fun p => (piece? p).isNone) ps htrimmed
      have hgetLast : (trimRight ps).getLast htrimmed = piece := by
        rw [List.getLast?_eq_some_getLast htrimmed, Option.some.injEq] at hlast
        exact hlast
      unfold trimRight at hgetLast
      rw [hgetLast] at hnot
      rw [Option.isNone_iff_eq_none] at hnot
      obtain ⟨component, hcomponent⟩ := Option.ne_none_iff_exists'.mp hnot
      exact ⟨piece, component, hpieces ▸ hlast, hcomponent⟩
  · cases h

end Sakai.Lib.Path
