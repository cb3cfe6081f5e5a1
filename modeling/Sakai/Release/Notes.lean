import Sakai.Release

/-!
# Release notes

The notes of a release are the section of its version in the changelog: what stands between the
heading of the version and the next heading of the second level.

* `releaseNotes_eq_ok_iff`: what the notes of a version are, in any changelog.
* `release_notes_sections`: in a changelog of sections, the notes of a version are the first section
  that has this very version, whatever the versions of the others begin with.
-/

namespace Sakai.Release

open Lib

/-- The start of a heading of the second level. -/
def headingStart : Str := "## ".toList

/-- The start of the heading of a version.
Source: `release.rs`, `heading` in `Release::release_notes`. -/
def heading (version : Str) : Str := "## [".toList ++ version ++ "]".toList

/-- A heading of a version is a heading of the second level. -/
lemma headingStart_prefix_heading (version : Str) : headingStart <+: heading version :=
  ⟨'[' :: (version ++ [']']), rfl⟩

/-- The error of a version without notes.
Source: `release.rs`, the `ensure!` of `Release::release_notes`. -/
def missingNotes (version : Str) : ReleaseError :=
  let name := String.ofList version
  .message s!"missing nonempty changelog section for {name}"

/-- The lines after the first one that starts a section, up to the next one that ends it.
Source: `release.rs`, the iterator of `Release::release_notes`. -/
def sectionLines (start stop : Str → Bool) (lines : List Str) : List Str :=
  ((lines.dropWhile fun line => !start line).drop 1).takeWhile fun line => !stop line

/-- The notes that the lines of a section make. -/
def joinNotes (body : List Str) : Str := trim (['\n'].intercalate body)

/-- Source: `release.rs`, `Release::release_notes`. -/
def releaseNotes (changelog version : Str) : Except ReleaseError Str :=
  let notes := joinNotes <| sectionLines (fun line => (heading version).isPrefixOf line)
    (fun line => headingStart.isPrefixOf line) (lines changelog)
  if notes.isEmpty then .error (missingNotes version) else .ok notes

/-! ## One section -/

section sections

variable {start stop : Str → Bool} {before body after : List Str} {headline : Str}

/-- Without a line that starts a section there is none. -/
lemma sectionLines_of_forall {lines : List Str} (h : ∀ line ∈ lines, start line = false) :
    sectionLines start stop lines = [] := by
  have hdrop : (lines.dropWhile fun line => !start line) = [] := by
    rw [List.dropWhile_eq_nil_iff]
    intro line hline
    rw [h line hline]
    rfl
  unfold sectionLines
  rw [hdrop]
  rfl

/-- The section starts after the first line that starts one. -/
lemma sectionLines_append (hbefore : ∀ line ∈ before, start line = false)
    (hheadline : start headline = true) (rest : List Str) :
    sectionLines start stop (before ++ headline :: rest) =
      rest.takeWhile fun line => !stop line := by
  unfold sectionLines
  rw [List.dropWhile_append_of_pos, List.dropWhile_cons_of_neg, List.drop_succ_cons, List.drop_zero]
  · rw [hheadline]
    exact Bool.false_ne_true
  · intro line hline
    rw [hbefore line hline]
    rfl

/-- It ends before the next line that ends it. -/
lemma takeWhile_append_stop (hbody : ∀ line ∈ body, stop line = false)
    (hafter : ∀ line ∈ after.head?, stop line = true) :
    ((body ++ after).takeWhile fun line => !stop line) = body := by
  rw [List.takeWhile_append_of_pos]
  · cases after with
    | nil => rw [List.takeWhile_nil, List.append_nil]
    | cons line rest =>
        rw [List.takeWhile_cons_of_neg, List.append_nil]
        rw [hafter line rfl]
        exact Bool.false_ne_true
  · intro line hline
    rw [hbody line hline]
    rfl

end sections

/-- The lines of the section of a version: they follow its first heading, and are followed by the
next heading or by nothing. -/
structure IsSection (lines : List Str) (version : Str) (body : List Str) : Prop where
  /-- Where the section is. -/
  split : ∃ before headline after, lines = before ++ headline :: (body ++ after) ∧
    (∀ line ∈ before, ¬ heading version <+: line) ∧ heading version <+: headline ∧
    ∀ line ∈ after.head?, headingStart <+: line
  /-- No line of it is a heading. -/
  body : ∀ line ∈ body, ¬ headingStart <+: line

/-- A line does not have a prefix. -/
lemma isPrefixOf_eq_false_iff {a b : Str} : a.isPrefixOf b = false ↔ ¬ a <+: b := by
  rw [← List.isPrefixOf_iff_prefix, Bool.not_eq_true]

/-- Lines are no headings when none of them starts as one. -/
lemma forall_not_heading {lines : List Str}
    (h : (lines.all fun line => !headingStart.isPrefixOf line) = true) :
    ∀ line ∈ lines, ¬ headingStart <+: line := by
  intro line hline
  rw [← isPrefixOf_eq_false_iff]
  simpa using List.all_eq_true.mp h line hline

/-- The lines of a section are those that are found. -/
lemma IsSection.sectionLines_eq {lines body : List Str} {version : Str}
    (h : IsSection lines version body) :
    sectionLines (fun line => (heading version).isPrefixOf line)
      (fun line => headingStart.isPrefixOf line) lines = body := by
  obtain ⟨before, headline, after, rfl, hbefore, hheadline, hafter⟩ := h.split
  rw [sectionLines_append (fun line hline => isPrefixOf_eq_false_iff.mpr (hbefore line hline))
    (List.isPrefixOf_iff_prefix.mpr hheadline)]
  exact takeWhile_append_stop
    (fun line hline => isPrefixOf_eq_false_iff.mpr (h.body line hline))
    fun line hline => List.isPrefixOf_iff_prefix.mpr (hafter line hline)

/-- A list is split before its first item with a property. -/
lemma exists_split_of_exists {α : Type} {p : α → Bool} {xs : List α}
    (h : ∃ x ∈ xs, p x = true) :
    ∃ before x after, xs = before ++ x :: after ∧ (∀ y ∈ before, p y = false) ∧ p x = true := by
  induction xs with
  | nil =>
      obtain ⟨x, hx, -⟩ := h
      cases hx
  | cons x xs ih =>
      rcases hp : p x with _ | _
      · obtain ⟨y, hy, hpy⟩ := h
        have hmem : ∃ x ∈ xs, p x = true := by
          rcases List.mem_cons.mp hy with rfl | hy
          · rw [hp] at hpy
            cases hpy
          · exact ⟨y, hy, hpy⟩
        obtain ⟨before, first, after, rfl, hbefore, hfirst⟩ := ih hmem
        refine ⟨x :: before, first, after, rfl, ?_, hfirst⟩
        intro z hz
        rcases List.mem_cons.mp hz with rfl | hz
        · exact hp
        · exact hbefore z hz
      · exact ⟨[], x, xs, rfl, by simp, hp⟩

/-- There is a section as soon as there is a heading. -/
lemma exists_isSection {lines : List Str} {version : Str}
    (h : ∃ line ∈ lines, heading version <+: line) : ∃ body, IsSection lines version body := by
  obtain ⟨line, hline, hprefix⟩ := h
  obtain ⟨before, headline, rest, rfl, hbefore, hheadline⟩ := exists_split_of_exists
    (p := fun line => (heading version).isPrefixOf line)
    ⟨line, hline, List.isPrefixOf_iff_prefix.mpr hprefix⟩
  refine ⟨rest.takeWhile fun line => !headingStart.isPrefixOf line,
    ⟨before, headline, rest.dropWhile fun line => !headingStart.isPrefixOf line, ?_,
      fun line hline => isPrefixOf_eq_false_iff.mp (hbefore line hline),
      List.isPrefixOf_iff_prefix.mp hheadline, ?_⟩, ?_⟩
  · rw [List.takeWhile_append_dropWhile]
  · intro line hline
    have hnot := List.head?_dropWhile_not (fun line => !headingStart.isPrefixOf line) rest
    rw [Option.mem_def.mp hline] at hnot
    simpa using hnot
  · exact forall_not_heading List.all_takeWhile

/-- The notes that are made of a section, unless they are empty. -/
def notesOf (version : Str) (body : List Str) : Except ReleaseError Str :=
  if (joinNotes body).isEmpty then .error (missingNotes version) else .ok (joinNotes body)

/-- **The notes are made of the section of the version.** -/
lemma releaseNotes_of_isSection {changelog version : Str} {body : List Str}
    (h : IsSection (lines changelog) version body) :
    releaseNotes changelog version = notesOf version body := by
  unfold releaseNotes
  rw [h.sectionLines_eq]
  rfl

/-- A version without a heading has no notes. -/
lemma releaseNotes_of_forall {changelog version : Str}
    (h : ∀ line ∈ lines changelog, ¬ heading version <+: line) :
    releaseNotes changelog version = .error (missingNotes version) := by
  unfold releaseNotes
  rw [sectionLines_of_forall fun line hline => isPrefixOf_eq_false_iff.mpr (h line hline)]
  rfl

/-- **What the notes of a version are**, in any changelog: the section after its first heading,
without the white space around it, unless there is nothing else. -/
theorem releaseNotes_eq_ok_iff {changelog version notes : Str} :
    releaseNotes changelog version = .ok notes ↔
      ∃ body, IsSection (lines changelog) version body ∧ notes = joinNotes body ∧ notes ≠ [] := by
  constructor
  · intro h
    by_cases hheading : ∃ line ∈ lines changelog, heading version <+: line
    · obtain ⟨body, hbody⟩ := exists_isSection hheading
      rw [releaseNotes_of_isSection hbody] at h
      unfold notesOf at h
      split_ifs at h with hempty
      cases h
      exact ⟨body, hbody, rfl, by simpa using hempty⟩
    · rw [releaseNotes_of_forall fun line hline hprefix => hheading ⟨line, hline, hprefix⟩] at h
      cases h
  · rintro ⟨body, hbody, rfl, hne⟩
    rw [releaseNotes_of_isSection hbody]
    unfold notesOf
    rw [if_neg (by simpa using hne)]

/-! ## A changelog of sections -/

/-- A section of a changelog. -/
structure Section where
  /-- The version, or `Unreleased`. -/
  version : Str
  /-- The version holds no closing bracket. -/
  closed : ']' ∉ version
  /-- What follows the bracket on the line of the heading, such as a link and a date. -/
  rest : Str
  /-- The lines of the section. -/
  body : List Str
  /-- No line of it is a heading of the second level. -/
  plain : ∀ line ∈ body, ¬ headingStart <+: line

namespace Section

/-- The line of the heading. -/
def headline (self : Section) : Str := heading self.version ++ self.rest

/-- The lines of a section, with its heading. -/
def lines (self : Section) : List Str := self.headline :: self.body

/-- A section starts with a heading of the second level. -/
lemma headingStart_prefix (self : Section) : headingStart <+: self.headline :=
  (headingStart_prefix_heading self.version).trans (List.prefix_append _ _)

/-- **The heading of a version is that of no other version**, even if the one begins with the
other: the bracket tells them apart. -/
lemma heading_prefix_iff (self : Section) {version : Str} (hversion : ']' ∉ version) :
    heading version <+: self.headline ↔ self.version = version := by
  constructor
  · rintro ⟨rest, hrest⟩
    unfold headline heading at hrest
    simp only [List.append_assoc] at hrest
    have hsame := List.append_cancel_left hrest
    have hsplit := splitOnce_append_cons hversion rest
    rw [show version ++ ']' :: rest = self.version ++ ']' :: self.rest from hsame,
      splitOnce_append_cons self.closed self.rest, Option.some.injEq, Prod.mk.injEq] at hsplit
    exact hsplit.1
  · rintro rfl
    exact List.prefix_append _ _

/-- No line of a section of another version is the heading of a version. -/
lemma not_heading_prefix (self : Section) {version : Str} (hversion : ']' ∉ version)
    (hne : self.version ≠ version) : ∀ line ∈ self.lines, ¬ heading version <+: line := by
  intro line hline hprefix
  rcases List.mem_cons.mp hline with rfl | hbody
  · exact hne ((self.heading_prefix_iff hversion).mp hprefix)
  · exact self.plain line hbody ((headingStart_prefix_heading version).trans hprefix)

/-- What follows a section in a changelog starts with a heading, if anything does. -/
lemma headingStart_prefix_head? (sections : List Section) :
    ∀ line ∈ (sections.flatMap lines).head?, headingStart <+: line := by
  intro line hline
  cases sections with
  | nil => cases hline
  | cons next later =>
      rw [List.flatMap_cons] at hline
      cases hline
      exact next.headingStart_prefix

end Section

/-- **Release notes.** In a changelog of sections, after any lines that are no headings of the
second level: the notes of a version are the first section of this very version, without the white
space around it, and never text of another section; a version without a section, or with an empty
one, has none. -/
theorem release_notes_sections (preamble : List Str) (sections : List Section)
    (changelog version : Str)
    (hlines : lines changelog = preamble ++ sections.flatMap Section.lines)
    (hpreamble : ∀ line ∈ preamble, ¬ headingStart <+: line) (hversion : ']' ∉ version) :
    (∀ earlier found later, sections = earlier ++ found :: later →
      (∀ other ∈ earlier, other.version ≠ version) → found.version = version →
      releaseNotes changelog version = notesOf version found.body) ∧
    ((∀ other ∈ sections, other.version ≠ version) →
      releaseNotes changelog version = .error (missingNotes version)) := by
  have hother : ∀ others : List Section, (∀ other ∈ others, other.version ≠ version) →
      ∀ line ∈ preamble ++ others.flatMap Section.lines, ¬ heading version <+: line := by
    intro others hothers line hline
    rcases List.mem_append.mp hline with hline | hline
    · exact fun hprefix => hpreamble line hline
        ((headingStart_prefix_heading version).trans hprefix)
    · obtain ⟨other, hmem, hline⟩ := List.mem_flatMap.mp hline
      exact other.not_heading_prefix hversion (hothers other hmem) line hline
  constructor
  · rintro earlier found later rfl hearlier hfound
    refine releaseNotes_of_isSection ⟨⟨preamble ++ earlier.flatMap Section.lines, found.headline,
      later.flatMap Section.lines, ?_, hother earlier hearlier,
      (found.heading_prefix_iff hversion).mpr hfound,
      Section.headingStart_prefix_head? later⟩, found.plain⟩
    rw [hlines, List.flatMap_append, List.flatMap_cons, ← List.append_assoc]
    rfl
  · intro hnone
    refine releaseNotes_of_forall ?_
    rw [hlines]
    exact hother sections hnone

/-- Two versions of which one begins with the other. -/
theorem release_notes_sections_versions :
    releaseNotes "# Changelog\n\n## [0.1.0-rc](url) - date\n\n- Old\n## [0.1.0]\n\n- New\n".toList
      "0.1.0".toList = notesOf "0.1.0".toList ["".toList, "- New".toList] := by
  refine (release_notes_sections ["# Changelog".toList, []]
    [⟨"0.1.0-rc".toList, by decide, "(url) - date".toList, [[], "- Old".toList],
        forall_not_heading (by decide)⟩,
      ⟨"0.1.0".toList, by decide, [], [[], "- New".toList],
        forall_not_heading (by decide)⟩] _ "0.1.0".toList
    (by decide) (forall_not_heading (by decide)) (by decide)).1 [_] _ [] rfl ?_ rfl
  intro other hother
  rw [List.mem_singleton.mp hother]
  decide

end Sakai.Release
