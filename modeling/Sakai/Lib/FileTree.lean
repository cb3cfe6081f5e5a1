import Sakai.Lib.Result
import Sakai.Lib.Text

/-!
# File trees: opening directories under permissions

A `FileTree` gives each node its kind and the caller's permissions on it. A path is walked entry by
entry: `lookup` needs search permission on the directory it looks in, `openNode` read permission on
the directory it opens, and neither follows symbolic links: one on the way is an error of its own,
and one at the end is no directory.

* `Walk tree dir names passed last`: the names lead from `dir` to the directory `last`, through the
  directories `passed`. There is at most one such walk (`Walk.unique`).
* `openBeneath_eq_ok_iff`: opening all steps at once needs search permission on the directories
  passed, and read permission on the last one.
* `foldlM_openEntry_eq_ok_iff`: opening one entry after the other needs read permission on the
  directories passed as well.
-/

namespace Sakai.Lib

/-- What the caller may do with a node. -/
structure Permission where
  /-- A directory may be opened. -/
  read : Bool
  /-- Entries of a directory may be looked up. -/
  search : Bool
  deriving DecidableEq, Repr

/-- What a node of a file tree is. -/
inductive NodeKind (I : Type)
  /-- A directory, by its entries. -/
  | directory (entries : Str → Option I)
  /-- A file that is neither a directory nor a symbolic link. -/
  | file
  /-- A symbolic link. -/
  | symlink (target : Str)

/-- A node, as the caller sees it. -/
structure Node (I : Type) where
  /-- What it is. -/
  kind : NodeKind I
  /-- What the caller may do with it. -/
  permission : Permission

/-- A file tree, by the nodes of its identifiers. -/
abbrev FileTree (I : Type) := I → Node I

/-- Why a directory is not opened. -/
inductive WalkError
  /-- There is no such entry. -/
  | noEntry
  /-- A permission is missing. -/
  | denied
  /-- A file is where a directory is expected. -/
  | notDirectory
  /-- A symbolic link is on the way. -/
  | symbolicLink
  deriving DecidableEq, Repr

/-- The name of a directory in itself. -/
def dot : Str := ['.']

namespace FileTree

variable {I : Type} (tree : FileTree I)

/-- The node is a directory. -/
def IsDirectory (node : I) : Prop := ∃ entries, (tree node).kind = .directory entries

/-- The directory has the entry. -/
def HasEntry (dir : I) (name : Str) (next : I) : Prop :=
  ∃ entries, (tree dir).kind = .directory entries ∧ entries name = some next

/-- The caller may look up entries. -/
def Searchable (dir : I) : Prop := (tree dir).permission.search = true

/-- The caller may open the directory. -/
def Readable (dir : I) : Prop := (tree dir).permission.read = true

/-! ## Opening -/

/-- Looks up a name in a directory. -/
def lookup (dir : I) (name : Str) : Except WalkError I :=
  match (tree dir).kind with
  | .file => .error .notDirectory
  | .symlink _ => .error .symbolicLink
  | .directory entries =>
    if !(tree dir).permission.search then .error .denied
    else if name = dot then .ok dir
    else match entries name with
      | none => .error .noEntry
      | some next => .ok next

/-- Opens a node that must be a directory. -/
def openNode (node : I) : Except WalkError I :=
  match (tree node).kind with
  | .file => .error .notDirectory
  | .symlink _ => .error .notDirectory
  | .directory _ => if (tree node).permission.read then .ok node else .error .denied

/-- Looks up one name and opens what it names. -/
def openEntry (dir : I) (name : Str) : Except WalkError I := do
  openNode tree (← lookup tree dir name)

/-- Looks up the steps of a path one after the other. An empty step, after a separator, is skipped;
behind a symbolic link it makes it one on the way. -/
def resolve : I → List Str → Except WalkError I
  | dir, [] => .ok dir
  | dir, [] :: steps =>
    match (tree dir).kind with
    | .symlink _ => .error .symbolicLink
    | _ => resolve dir steps
  | dir, name :: steps => do resolve (← lookup tree dir name) steps

/-- Looks up the steps of a path and opens what they name. -/
def openBeneath (dir : I) (steps : List Str) : Except WalkError I := do
  openNode tree (← resolve tree dir steps)

/-! ## Walks -/

/-- The names lead from one directory to another, through the directories passed. -/
inductive Walk : I → List Str → List I → I → Prop
  | here {dir : I} : IsDirectory tree dir → Walk dir [] [] dir
  | step {dir next last : I} {name : Str} {names : List Str} {passed : List I} :
      HasEntry tree dir name next → Walk next names passed last →
      Walk dir (name :: names) (dir :: passed) last

variable {tree}

/-- A directory has at most one entry of a name. -/
lemma HasEntry.unique {dir : I} {name : Str} {next next' : I} (h : HasEntry tree dir name next)
    (h' : HasEntry tree dir name next') : next = next' := by
  obtain ⟨entries, hkind, hentry⟩ := h
  obtain ⟨entries', hkind', hentry'⟩ := h'
  rw [hkind] at hkind'
  cases hkind'
  rw [hentry] at hentry'
  exact Option.some.inj hentry'

/-- **Names lead to at most one place, in one way.** -/
lemma Walk.unique {dir last last' : I} {names : List Str} {passed passed' : List I}
    (h : Walk tree dir names passed last) (h' : Walk tree dir names passed' last') :
    passed = passed' ∧ last = last' := by
  induction h generalizing passed' with
  | here =>
      cases h'
      exact ⟨rfl, rfl⟩
  | step hentry _ ih =>
      obtain _ | ⟨hentry', h'⟩ := h'
      obtain rfl := hentry.unique hentry'
      obtain ⟨rfl, rfl⟩ := ih h'
      exact ⟨rfl, rfl⟩

/-- A walk starts at a directory. -/
lemma Walk.isDirectory {dir last : I} {names : List Str} {passed : List I}
    (h : Walk tree dir names passed last) : IsDirectory tree dir := by
  cases h with
  | here hdir => exact hdir
  | step hentry _ =>
      obtain ⟨entries, hkind, -⟩ := hentry
      exact ⟨entries, hkind⟩

/-- The start of a walk is passed, unless it is the last directory. -/
lemma Walk.start {dir last : I} {names : List Str} {passed : List I} {p : I → Prop}
    (h : Walk tree dir names passed last) (hpassed : ∀ node ∈ passed, p node) (hlast : p last) :
    p dir := by
  cases h with
  | here => exact hlast
  | step => exact hpassed dir List.mem_cons_self

/-- A walk goes on where another one ends. -/
lemma Walk.append {dir mid last : I} {names names' : List Str}
    {passed passed' : List I} (h : Walk tree dir names passed mid)
    (h' : Walk tree mid names' passed' last) :
    Walk tree dir (names ++ names') (passed ++ passed') last := by
  induction h with
  | here _ => exact h'
  | step hentry _ ih => exact Walk.step hentry (ih h')

/-- Without names, a walk stays where it is. -/
lemma walk_nil_iff {dir last : I} {passed : List I} :
    Walk tree dir [] passed last ↔ IsDirectory tree dir ∧ passed = [] ∧ last = dir := by
  constructor
  · intro h
    cases h with
    | here hdir => exact ⟨hdir, rfl, rfl⟩
  · rintro ⟨hdir, rfl, rfl⟩
    exact Walk.here hdir

/-- A walk passes the directory it starts at, and goes on from its entry. -/
lemma walk_cons_iff {dir last : I} {name : Str} {names : List Str} {passed : List I} :
    Walk tree dir (name :: names) passed last ↔
      ∃ next rest, HasEntry tree dir name next ∧ Walk tree next names rest last ∧
        passed = dir :: rest := by
  constructor
  · intro h
    cases h with
    | step hentry hwalk => exact ⟨_, _, hentry, hwalk, rfl⟩
  · rintro ⟨next, rest, hentry, hwalk, rfl⟩
    exact Walk.step hentry hwalk

/-! ## What is opened -/

/-- A node is opened exactly when it is a readable directory. -/
lemma openNode_eq_ok_iff {node d : I} :
    openNode tree node = .ok d ↔ IsDirectory tree node ∧ Readable tree node ∧ node = d := by
  unfold openNode IsDirectory Readable
  cases hkind : (tree node).kind with
  | file => simp
  | symlink target => simp
  | directory entries => by_cases hread : (tree node).permission.read = true <;> simp [hread]

/-- A directory is found in itself exactly when it is searchable. -/
lemma lookup_dot_eq_ok_iff {dir next : I} :
    lookup tree dir dot = .ok next ↔ IsDirectory tree dir ∧ Searchable tree dir ∧ dir = next := by
  unfold lookup IsDirectory Searchable
  cases hkind : (tree dir).kind with
  | file => simp
  | symlink target => simp
  | directory entries => by_cases hsearch : (tree dir).permission.search = true <;> simp [hsearch]

/-- A name is found exactly when the directory is searchable and has the entry. -/
lemma lookup_eq_ok_iff {dir next : I} {name : Str} (hname : name ≠ dot) :
    lookup tree dir name = .ok next ↔ HasEntry tree dir name next ∧ Searchable tree dir := by
  unfold lookup HasEntry Searchable
  cases hkind : (tree dir).kind with
  | file => simp
  | symlink target => simp
  | directory entries =>
      by_cases hsearch : (tree dir).permission.search = true
      · cases hentry : entries name <;> simp [hsearch, hname, hentry]
      · simp [hsearch]

/-- A name is missing exactly when the directory is searchable and has no such entry. -/
lemma lookup_eq_noEntry_iff {dir : I} {name : Str} (hname : name ≠ dot) :
    lookup tree dir name = .error .noEntry ↔
      IsDirectory tree dir ∧ Searchable tree dir ∧ ∀ next, ¬ HasEntry tree dir name next := by
  unfold lookup HasEntry IsDirectory Searchable
  cases hkind : (tree dir).kind with
  | file => simp
  | symlink target => simp
  | directory entries =>
      by_cases hsearch : (tree dir).permission.search = true
      · cases hentry : entries name <;> simp [hsearch, hname, hentry]
      · simp [hsearch]

/-- A directory that is opened from itself is not missing. -/
lemma openEntry_dot_ne_noEntry {dir : I} : openEntry tree dir dot ≠ .error .noEntry := by
  unfold openEntry lookup openNode
  cases hkind : (tree dir).kind with
  | file => simp [bind, Except.bind]
  | symlink target => simp [bind, Except.bind]
  | directory entries =>
      by_cases hsearch : (tree dir).permission.search = true
      · by_cases hread : (tree dir).permission.read = true
        · simp [hsearch, hread, hkind, bind, Except.bind]
        · simp [hsearch, hread, hkind, bind, Except.bind]
      · simp [hsearch, bind, Except.bind]

/-- **An entry is not there** exactly when its name is missing. -/
lemma openEntry_eq_noEntry_iff {dir : I} {name : Str} (hname : name ≠ dot) :
    openEntry tree dir name = .error .noEntry ↔
      IsDirectory tree dir ∧ Searchable tree dir ∧ ∀ next, ¬ HasEntry tree dir name next := by
  rw [← lookup_eq_noEntry_iff hname]
  unfold openEntry
  rcases lookup tree dir name with e | next
  · simp [bind, Except.bind]
  · have hnode : openNode tree next ≠ .error .noEntry := by
      unfold openNode
      intro h
      split at h
      · cases h
      · cases h
      · split_ifs at h
        cases h
    simpa [bind, Except.bind] using hnode

/-- **An entry is opened** exactly when the directory is searchable, has it, and it is a readable
directory. -/
lemma openEntry_eq_ok_iff {dir d : I} {name : Str} (hname : name ≠ dot) :
    openEntry tree dir name = .ok d ↔
      HasEntry tree dir name d ∧ Searchable tree dir ∧ IsDirectory tree d ∧
        Readable tree d := by
  unfold openEntry
  simp only [bind_eq_ok, lookup_eq_ok_iff hname, openNode_eq_ok_iff]
  constructor
  · rintro ⟨next, ⟨hentry, hsearch⟩, hdirectory, hread, rfl⟩
    exact ⟨hentry, hsearch, hdirectory, hread⟩
  · rintro ⟨hentry, hsearch, hdirectory, hread⟩
    exact ⟨d, ⟨hentry, hsearch⟩, hdirectory, hread, rfl⟩

/-- A directory is opened from itself exactly when it may be searched and opened. -/
lemma openEntry_dot_eq_ok_iff {dir d : I} :
    openEntry tree dir dot = .ok d ↔
      IsDirectory tree dir ∧ Searchable tree dir ∧ Readable tree dir ∧ dir = d := by
  unfold openEntry
  simp only [bind_eq_ok, lookup_dot_eq_ok_iff, openNode_eq_ok_iff]
  constructor
  · rintro ⟨_, ⟨hdir, hsearch, rfl⟩, -, hread, rfl⟩
    exact ⟨hdir, hsearch, hread, rfl⟩
  · rintro ⟨hdir, hsearch, hread, rfl⟩
    exact ⟨dir, ⟨hdir, hsearch, rfl⟩, hdir, hread, rfl⟩

/-! ## The steps of a path -/

/-- The names among the steps of a path. -/
def namesOf (steps : List Str) : List Str := steps.filter fun step => step ≠ [] ∧ step ≠ dot

/-- The last step that is not empty is a dot. -/
def EndsAtDot (steps : List Str) : Prop := (steps.filter (· ≠ [])).getLast? = some dot

instance (steps : List Str) : Decidable (EndsAtDot steps) :=
  inferInstanceAs (Decidable ((steps.filter (· ≠ [])).getLast? = some dot))

/-- An empty step is no end. -/
lemma endsAtDot_cons_nil {steps : List Str} : EndsAtDot ([] :: steps) ↔ EndsAtDot steps := by
  unfold EndsAtDot
  rw [List.filter_cons_of_neg (by simp)]

/-- A path that ends at a dot does so whatever is in front. -/
lemma EndsAtDot.cons {steps : List Str} (h : EndsAtDot steps) (step : Str) :
    EndsAtDot (step :: steps) := by
  unfold EndsAtDot at *
  rw [List.filter_cons]
  split
  · rw [List.getLast?_cons, h]
    rfl
  · exact h

/-- A path that does not end at a name ends at the dot in front. -/
lemma endsAtDot_of_namesOf {steps : List Str} (h : namesOf steps = []) :
    EndsAtDot (dot :: steps) := by
  have hdots : ∀ step ∈ steps.filter (· ≠ []), step = dot := by
    intro step hstep
    obtain ⟨hmem, hne⟩ := List.mem_filter.mp hstep
    by_contra hdot
    have hname : step ∈ namesOf steps :=
      List.mem_filter.mpr ⟨hmem, by simpa [hdot] using hne⟩
    rw [h] at hname
    cases hname
  unfold EndsAtDot
  rw [List.filter_cons_of_pos (by simp [dot]), List.getLast?_cons]
  rcases hlast : (steps.filter (· ≠ [])).getLast? with _ | step
  · rfl
  · rw [hdots step (List.mem_of_getLast? hlast)]
    rfl

/-- A path ends at a dot in front of a name exactly when it does after the name. -/
lemma endsAtDot_cons_name {name : Str} {steps : List Str} (hname : name ≠ dot) :
    EndsAtDot (name :: steps) ↔ EndsAtDot steps := by
  constructor
  · intro h
    by_contra hno
    unfold EndsAtDot at *
    rw [List.filter_cons] at h
    split at h
    · rw [List.getLast?_cons] at h
      rcases hlast : (steps.filter (· ≠ [])).getLast? with _ | step
      · rw [hlast] at h
        exact hname (Option.some.inj h)
      · rw [hlast] at h
        exact hno (hlast.trans h)
    · exact hno h
  · exact fun h => h.cons name

/-- A path ends at a dot in front exactly when it ends at a dot, or has no names. -/
lemma endsAtDot_cons_dot {steps : List Str} :
    EndsAtDot (dot :: steps) ↔ namesOf steps = [] ∨ EndsAtDot steps := by
  constructor
  · intro h
    unfold EndsAtDot namesOf at *
    rw [List.filter_cons_of_pos (by simp [dot]), List.getLast?_cons] at h
    rcases hlast : (steps.filter (· ≠ [])).getLast? with _ | step
    · have hnil := List.getLast?_eq_none_iff.mp hlast
      refine Or.inl (List.filter_eq_nil_iff.mpr fun step hstep => ?_)
      have hempty := List.filter_eq_nil_iff.mp hnil step hstep
      simp_all
    · rw [hlast] at h
      exact Or.inr h
  · rintro (h | h)
    · exact endsAtDot_of_namesOf h
    · exact h.cons dot

/-! ## Opening a path -/

/-- The directories passed on the way to `last` may be searched, and so may `last` if the path ends
at a dot; `last` may be opened. -/
structure Beneath (tree : FileTree I) (steps : List Str) (passed : List I) (last : I) : Prop where
  /-- Each directory passed may be searched. -/
  passed : ∀ dir ∈ passed, Searchable tree dir
  /-- A dot is looked up in the last directory. -/
  dotted : EndsAtDot steps → Searchable tree last
  /-- The last directory may be opened. -/
  last : Readable tree last

/-- The first step is looked up, and the others from there. -/
lemma openBeneath_cons_iff {dir d : I} {step : Str} {steps : List Str} (hstep : step ≠ []) :
    openBeneath tree dir (step :: steps) = .ok d ↔
      ∃ next, lookup tree dir step = .ok next ∧ openBeneath tree next steps = .ok d := by
  have hresolve : resolve tree dir (step :: steps) =
      lookup tree dir step >>= fun next => resolve tree next steps := by
    obtain ⟨c, cs, rfl⟩ := List.exists_cons_of_ne_nil hstep
    rfl
  unfold openBeneath
  rw [hresolve]
  simp only [bind_eq_ok]
  constructor
  · rintro ⟨node, ⟨next, hnext, hnode⟩, hopen⟩
    exact ⟨next, hnext, node, hnode, hopen⟩
  · rintro ⟨next, hnext, node, hnode, hopen⟩
    exact ⟨node, ⟨next, hnext, hnode⟩, hopen⟩

/-- An empty step is skipped at a directory, and nothing else is opened. -/
lemma openBeneath_cons_nil {dir d : I} {steps : List Str}
    (hdir : openBeneath tree dir steps = .ok d → IsDirectory tree dir) :
    openBeneath tree dir ([] :: steps) = .ok d ↔ openBeneath tree dir steps = .ok d := by
  have hresolve : resolve tree dir ([] :: steps) = match (tree dir).kind with
      | .symlink _ => .error .symbolicLink
      | _ => resolve tree dir steps := rfl
  unfold openBeneath at hdir ⊢
  rw [hresolve]
  cases hkind : (tree dir).kind with
  | file => rfl
  | directory entries => rfl
  | symlink target =>
      constructor
      · intro h
        cases h
      · intro h
        obtain ⟨entries, hentries⟩ := hdir h
        cases hkind.symm.trans hentries

/-- An empty step needs nothing. -/
lemma beneath_cons_nil {steps : List Str} {passed : List I} {d : I} :
    Beneath tree ([] :: steps) passed d ↔ Beneath tree steps passed d := by
  constructor
  · rintro ⟨hpassed, hdotted, hlast⟩
    exact ⟨hpassed, fun h => hdotted (endsAtDot_cons_nil.mpr h), hlast⟩
  · rintro ⟨hpassed, hdotted, hlast⟩
    exact ⟨hpassed, fun h => hdotted (endsAtDot_cons_nil.mp h), hlast⟩

/-- A dot needs search permission on the directory it is looked up in. -/
lemma beneath_cons_dot {dir d : I} {steps : List Str} {passed : List I}
    (hwalk : Walk tree dir (namesOf steps) passed d) :
    Beneath tree (dot :: steps) passed d ↔ Searchable tree dir ∧ Beneath tree steps passed d := by
  constructor
  · rintro ⟨hpassed, hdotted, hlast⟩
    refine ⟨?_, hpassed, fun h => hdotted (h.cons dot), hlast⟩
    rcases hnames : namesOf steps with _ | ⟨name, names⟩
    · rw [hnames] at hwalk
      obtain ⟨-, -, rfl⟩ := walk_nil_iff.mp hwalk
      exact hdotted (endsAtDot_of_namesOf hnames)
    · rw [hnames] at hwalk
      obtain ⟨next, rest, -, -, rfl⟩ := walk_cons_iff.mp hwalk
      exact hpassed dir List.mem_cons_self
  · rintro ⟨hsearch, hpassed, hdotted, hlast⟩
    refine ⟨hpassed, fun h => ?_, hlast⟩
    rcases endsAtDot_cons_dot.mp h with hnames | h
    · rw [hnames] at hwalk
      obtain ⟨-, -, rfl⟩ := walk_nil_iff.mp hwalk
      exact hsearch
    · exact hdotted h

/-- A name needs search permission on the directory it is looked up in. -/
lemma beneath_cons_name {dir d : I} {name : Str} (hname : name ≠ dot) {steps : List Str}
    {passed : List I} :
    Beneath tree (name :: steps) (dir :: passed) d ↔
      Searchable tree dir ∧ Beneath tree steps passed d := by
  constructor
  · rintro ⟨hpassed, hdotted, hlast⟩
    obtain ⟨hsearch, hpassed⟩ := List.forall_mem_cons.mp hpassed
    exact ⟨hsearch, hpassed, fun h => hdotted (h.cons name), hlast⟩
  · rintro ⟨hsearch, hpassed, hdotted, hlast⟩
    exact ⟨List.forall_mem_cons.mpr ⟨hsearch, hpassed⟩,
      fun h => hdotted ((endsAtDot_cons_name hname).mp h), hlast⟩

/-- **Opening a path at once**: the names lead to the directory, and the permissions suffice. -/
theorem openBeneath_eq_ok_iff {dir d : I} {steps : List Str} :
    openBeneath tree dir steps = .ok d ↔
      ∃ passed, Walk tree dir (namesOf steps) passed d ∧ Beneath tree steps passed d := by
  induction steps generalizing dir with
  | nil =>
      have hopen : openBeneath tree dir [] = openNode tree dir := rfl
      rw [hopen, openNode_eq_ok_iff]
      constructor
      · rintro ⟨hdir, hread, rfl⟩
        exact ⟨[], Walk.here hdir, by simp, by simp [EndsAtDot], hread⟩
      · rintro ⟨passed, hwalk, hperm⟩
        obtain ⟨hdir, -, rfl⟩ := walk_nil_iff.mp hwalk
        exact ⟨hdir, hperm.last, rfl⟩
  | cons step steps ih =>
      by_cases hempty : step = []
      · subst hempty
        have hdir : openBeneath tree dir steps = .ok d → IsDirectory tree dir := by
          intro hopen
          obtain ⟨passed, hwalk, -⟩ := ih.mp hopen
          exact hwalk.isDirectory
        have hnames : namesOf ([] :: steps) = namesOf steps := List.filter_cons_of_neg (by simp)
        rw [openBeneath_cons_nil hdir, ih, hnames]
        exact exists_congr fun passed => and_congr_right fun _ => beneath_cons_nil.symm
      · rw [openBeneath_cons_iff hempty]
        by_cases hdot : step = dot
        · subst hdot
          have hnames : namesOf (dot :: steps) = namesOf steps :=
            List.filter_cons_of_neg (by simp)
          rw [hnames]
          simp only [lookup_dot_eq_ok_iff, ih]
          constructor
          · rintro ⟨next, ⟨-, hsearch, rfl⟩, passed, hwalk, hperm⟩
            exact ⟨passed, hwalk, (beneath_cons_dot hwalk).mpr ⟨hsearch, hperm⟩⟩
          · rintro ⟨passed, hwalk, hperm⟩
            obtain ⟨hsearch, hperm⟩ := (beneath_cons_dot hwalk).mp hperm
            exact ⟨dir, ⟨hwalk.isDirectory, hsearch, rfl⟩, passed, hwalk, hperm⟩
        · have hnames : namesOf (step :: steps) = step :: namesOf steps :=
            List.filter_cons_of_pos (by simp [hempty, hdot])
          rw [hnames]
          simp only [lookup_eq_ok_iff hdot, ih, walk_cons_iff]
          constructor
          · rintro ⟨next, ⟨hentry, hsearch⟩, passed, hwalk, hperm⟩
            exact ⟨dir :: passed, ⟨next, passed, hentry, hwalk, rfl⟩,
              (beneath_cons_name hdot).mpr ⟨hsearch, hperm⟩⟩
          · rintro ⟨_, ⟨next, passed, hentry, hwalk, rfl⟩, hperm⟩
            obtain ⟨hsearch, hperm⟩ := (beneath_cons_name hdot).mp hperm
            exact ⟨next, ⟨hentry, hsearch⟩, passed, hwalk, hperm⟩

/-- **Opening one entry after the other**, from an open directory: the names lead to the directory,
and the directories passed may be searched and opened. -/
theorem foldlM_openEntry_eq_ok_iff {dir d : I} {names : List Str} (hdir : IsDirectory tree dir)
    (hread : Readable tree dir) (hnames : ∀ name ∈ names, name ≠ dot) :
    names.foldlM (openEntry tree) dir = .ok d ↔
      ∃ passed, Walk tree dir names passed d ∧
        (∀ node ∈ passed, Searchable tree node ∧ Readable tree node) ∧ Readable tree d := by
  induction names generalizing dir with
  | nil =>
      simp only [List.foldlM_nil, pure_eq_ok, walk_nil_iff]
      constructor
      · rintro rfl
        exact ⟨[], ⟨hdir, rfl, rfl⟩, by simp, hread⟩
      · rintro ⟨_, ⟨-, rfl, rfl⟩, -, -⟩
        rfl
  | cons name names ih =>
      obtain ⟨hname, hrest⟩ := List.forall_mem_cons.mp hnames
      simp only [List.foldlM_cons, openEntry, bind_eq_ok, lookup_eq_ok_iff hname,
        openNode_eq_ok_iff, walk_cons_iff]
      constructor
      · rintro ⟨_, ⟨next, ⟨hentry, hsearch⟩, hnext, hopen, rfl⟩, hfold⟩
        obtain ⟨passed, hwalk, hpassed, hlast⟩ := (ih hnext hopen hrest).mp hfold
        exact ⟨dir :: passed, ⟨next, passed, hentry, hwalk, rfl⟩,
          List.forall_mem_cons.mpr ⟨⟨hsearch, hread⟩, hpassed⟩, hlast⟩
      · rintro ⟨_, ⟨next, passed, hentry, hwalk, rfl⟩, hpassed, hlast⟩
        obtain ⟨⟨hsearch, -⟩, hpassed⟩ := List.forall_mem_cons.mp hpassed
        have hopen : Readable tree next :=
          hwalk.start (fun node hnode => (hpassed node hnode).2) hlast
        exact ⟨next, ⟨next, ⟨hentry, hsearch⟩, hwalk.isDirectory, hopen, rfl⟩,
          (ih hwalk.isDirectory hopen hrest).mpr ⟨passed, hwalk, hpassed, hlast⟩⟩

end FileTree

end Sakai.Lib
