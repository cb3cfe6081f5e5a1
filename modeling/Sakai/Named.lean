import Sakai.Lib.FirstLast
import Sakai.Resources

/-!
# Open-ended named maps

`dmem.*` and `misc.*` list a value for each name, the names being whatever the drivers report.

* **Renderings.** `Renders written m text` says that the lines `name value` of `text`, in any order
  and with blank lines anywhere, show the map `m`; `MiscEvents.Renders` is the same for the keys
  `name.max` among lines with other keys. Every map with tokens as names has one
  (`exists_renders`).
* **Every name verbatim** (`named_maps`): a rendering is read as exactly the map it shows.
-/

namespace Sakai

open Lib

variable {E T : Type}

/-! ## The readers -/

namespace KeyedFields

/-- One named value.
Source: `parse/mod.rs`, the closure of `KeyedFields::parse_values`. -/
def namedValue (U : Type) [ParseCgroup U T E] (raw : Str) (field : String) (e : Str × Str) :
    Except (ParseError E) (Str × T) := do
  return (e.1, ← parseField U raw field e.2)

/-- Parses named values using one interface's units and diagnostic label.
Source: `parse/mod.rs`, `KeyedFields::parse_values`. -/
def parseValues (self : KeyedFields) (U : Type) [ParseCgroup U T E] (field : String) :
    Except (ParseError E) (BTreeMap Str T) :=
  collect (self.iter.map (namedValue U self.raw field))

end KeyedFields

/-- A file that names values, its lines and its values having one label.
Source: the bodies of `dmem.rs`, `parse_regions`, and of `from_str` in `misc.rs`. -/
def parseNamed (U : Type) [ParseCgroup U T ParseValueError] (field : String) (contents : Str) :
    Parsed (BTreeMap Str T) := do
  (← KeyedFields.parse contents fun _ => field).parseValues U field

/-- Source: `dmem.rs`, `parse_regions`. -/
def parseRegions [ParseCgroup ParseBytes T ParseValueError] :
    Str → Parsed (BTreeMap Str T) := parseNamed ParseBytes "bytes"

/-- Region capacities.
Source: `dmem.rs`, `DmemCapacity`. -/
structure DmemCapacity where
  /-- Capacity of each region. -/
  regions : BTreeMap Str Bytes

/-- Source: `dmem.rs`, `DmemCapacity::from_str`. -/
def DmemCapacity.fromStr (contents : Str) : Parsed DmemCapacity :=
  return { regions := ← parseRegions contents }

/-- Device-memory usage.
Source: `dmem.rs`, `DmemCurrent`. -/
structure DmemCurrent where
  /-- Usage of each region. -/
  regions : BTreeMap Str (MaxOr Bytes)

/-- Source: `dmem.rs`, `DmemCurrent::from_str`. -/
def DmemCurrent.fromStr (contents : Str) : Parsed DmemCurrent :=
  return { regions := ← parseRegions contents }

/-- Largest device-memory usage.
Source: `dmem.rs`, `DmemPeak`. -/
structure DmemPeak where
  /-- Largest usage of each region. -/
  regions : BTreeMap Str (MaxOr Bytes)

/-- Source: `dmem.rs`, `DmemPeak::from_str`. -/
def DmemPeak.fromStr (contents : Str) : Parsed DmemPeak :=
  return { regions := ← parseRegions contents }

/-- Configured device-memory protections and limits.
Source: `dmem.rs`, `DmemLimits`. -/
structure DmemLimits where
  /-- The configured amount of each region. -/
  regions : BTreeMap Str (MaxOr Bytes)

/-- Source: `dmem.rs`, `DmemLimits::from_str`. -/
def DmemLimits.fromStr (contents : Str) : Parsed DmemLimits :=
  return { regions := ← parseRegions contents }

/-- Resource capacities.
Source: `misc.rs`, `MiscCapacity`. -/
structure MiscCapacity where
  /-- Capacity of each resource. -/
  resources : BTreeMap Str Count

/-- Source: `misc.rs`, `MiscCapacity::from_str`. -/
def MiscCapacity.fromStr (raw : Str) : Parsed MiscCapacity :=
  return { resources := ← parseNamed ParseCount "value" raw }

/-- Resource usage.
Source: `misc.rs`, `MiscCurrent`. -/
structure MiscCurrent where
  /-- Usage of each resource. -/
  resources : BTreeMap Str Count

/-- Source: `misc.rs`, `MiscCurrent::from_str`. -/
def MiscCurrent.fromStr (raw : Str) : Parsed MiscCurrent :=
  return { resources := ← parseNamed ParseCount "value" raw }

/-- Largest resource usage.
Source: `misc.rs`, `MiscPeak`. -/
structure MiscPeak where
  /-- Largest usage of each resource. -/
  resources : BTreeMap Str Count

/-- Source: `misc.rs`, `MiscPeak::from_str`. -/
def MiscPeak.fromStr (raw : Str) : Parsed MiscPeak :=
  return { resources := ← parseNamed ParseCount "value" raw }

/-- Configured resource limits.
Source: `misc.rs`, `MiscMax`. -/
structure MiscMax where
  /-- The limit of each resource. -/
  resources : BTreeMap Str (MaxOr Count)

/-- Source: `misc.rs`, `MiscMax::from_str`. -/
def MiscMax.fromStr (raw : Str) : Parsed MiscMax :=
  return { resources := ← parseNamed ParseCount "value" raw }

/-! ## Renderings -/

/-- The text is a numeral of the amount. -/
def Bytes.Written (value : Str) (q : Bytes) : Prop := IsNumeral value q.value.toNat

/-- The text is a numeral of the count. -/
def Count.Written (value : Str) (q : Count) : Prop := IsNumeral value q.value.toNat

/-- The text is `max`, or a text of the value. -/
def MaxOr.Written (written : Str → T → Prop) (value : Str) : MaxOr T → Prop
  | .max => value = "max".toList
  | .value v => written value v

/-- The line gives its value to the name. -/
def NamedLine (written : Str → T → Prop) (e : Str × T) (line : Str × Str) : Prop :=
  line.1 = e.1 ∧ written line.2 e.2

/-- The text lists the values of the map by name: a line for each name, in any order, with blank
lines anywhere. -/
def Renders (written : Str → T → Prop) (m : BTreeMap Str T) (text : Str) : Prop :=
  ∃ lines : List (Str × Str), ListsMap (NamedLine written) m lines ∧
    Layout (lines.map pairRow) text

/-! ## Reading a rendering back -/

/-- **A rendering is read as the map it shows**, when each text is read as its value. -/
theorem parseNamed_of_renders {written : Str → T → Prop} {m : BTreeMap Str T} {U : Type}
    [ParseCgroup U T ParseValueError]
    (hread : ∀ value v, written value v → parseCgroup U value = .ok v) {text : Str}
    (h : Renders written m text) (field : String) : parseNamed U field text = .ok m := by
  obtain ⟨lines, hlines, hlayout⟩ := h
  obtain ⟨htwo, hpairs⟩ := pairsOf_of_layout hlayout
  have hiter : ListsMap (NamedLine written) m (KeyedFields.ofText text).iter := by
    apply hlines.perm
    unfold KeyedFields.iter KeyedFields.ofText
    rw [hpairs]
    have hkeys := hlines.nodup_map Function.injective_id fun e line hline => hline.1
    exact (toList_ofList_perm hkeys).symm
  unfold parseNamed
  rw [KeyedFields.parse_of_twoTokens htwo, ok_bind]
  refine collect_of_listsMap hiter fun e line _ hline => ?_
  obtain ⟨hkey, hvalue⟩ := hline
  unfold KeyedFields.namedValue
  rw [parseField_eq_ok.mpr (hread line.2 e.2 hvalue), ok_bind, hkey]
  rfl

/-- The token `max` is no numeral. -/
lemma not_isNumeral_max {n : ℕ} : ¬ IsNumeral "max".toList n := by
  intro h
  exact h.not_mem (c := 'm') (by decide) (by decide) List.mem_cons_self

/-- A text of a limit is read as the limit, when the texts of values are read as them. -/
lemma parseMaxOr_of_written {written : Str → T → Prop} {U : Type} [ParseCgroup U T E]
    (hread : ∀ value v, written value v → parseCgroup U value = .ok v)
    (hmax : ∀ v, ¬ written "max".toList v) (value : Str) (m : MaxOr T)
    (h : m.Written written value) : parseCgroup U value = .ok m := by
  rw [parseMaxOr_eq_ok_iff]
  cases m with
  | max => exact Or.inl ⟨h, rfl⟩
  | value v =>
      refine Or.inr ⟨fun heq => hmax v ?_, v, hread value v h, rfl⟩
      rw [← heq]
      exact h

/-! ## Resources of the event files -/

namespace MiscEvents

/-- The line counts the events of the resource: its key is the name followed by `.max`. -/
def Line (e : Str × Count) (line : Str × Str) : Prop :=
  e.1 ≠ [] ∧ line.1 = e.1 ++ ".max".toList ∧ Count.Written line.2 e.2

/-- The lines of the limits: those whose keys end in `.max`. -/
def limitLines (lines : List (Str × Str)) : List (Str × Str) :=
  lines.filter fun line => ".max".toList.isSuffixOf line.1

/-- The text lists the counts of the map: a line for each resource, in any order, with blank lines
and lines whose keys do not end in `.max` anywhere. -/
def Renders (m : BTreeMap Str Count) (text : Str) : Prop :=
  ∃ lines : List (Str × Str), ListsMap Line m (limitLines lines) ∧
    Layout (lines.map pairRow) text

/-- The selected entries of a text are the lines of the limits, when their keys are distinct. -/
lemma filter_iter_perm {lines : List (Str × Str)} {text : Str} (hpairs : pairsOf text = lines)
    (hkeys : ((limitLines lines).map Prod.fst).Nodup) :
    (limitLines lines).Perm (limitLines (KeyedFields.ofText text).iter) := by
  have hiter : limitLines (KeyedFields.ofText text).iter =
      limitLines (Std.ExtTreeMap.ofList (limitLines lines) compare).toList := by
    apply filter_toList_congr
    intro key hkey
    rw [KeyedFields.ofText_values, getElem?_ofList, hpairs]
    exact (lastValue_filter hkey lines).symm
  have hlimits : limitLines (limitLines lines) = limitLines lines := by
    unfold limitLines
    rw [List.filter_filter]
    simp only [Bool.and_self]
  have hperm := (toList_ofList_perm hkeys).symm.filter
    fun line => ".max".toList.isSuffixOf line.1
  rw [hiter]
  change (limitLines (limitLines lines)).Perm _ at hperm
  rwa [hlimits] at hperm

/-- **A rendering is read as the map it shows.** -/
theorem fromStr_of_renders {m : BTreeMap Str Count} {text : Str} (h : Renders m text) :
    fromStr text = .ok ⟨m⟩ := by
  obtain ⟨lines, hlines, hlayout⟩ := h
  obtain ⟨htwo, hpairs⟩ := pairsOf_of_layout hlayout
  have hkeys : ((limitLines lines).map Prod.fst).Nodup :=
    hlines.nodup_map (List.append_left_injective ".max".toList) fun e line hline => hline.2.1
  have hselected : ListsMap (fun e line => e.1 ≠ [] ∧ NamedLine Count.Written e line) m
      ((KeyedFields.ofText text).selected (stripSuffix ".max".toList)) := by
    rw [KeyedFields.selected_eq_filterMap]
    simp only [isSome_stripSuffix]
    refine (hlines.perm (filter_iter_perm hpairs hkeys)).filterMap fun e line hline => ?_
    obtain ⟨hne, hkey, hvalue⟩ := hline
    refine ⟨(e.1, line.2), ?_, hne, rfl, hvalue⟩
    rw [stripSuffix_eq_some_iff.mpr hkey.symm]
    rfl
  have hcollect : collect (((KeyedFields.ofText text).selected
      (stripSuffix ".max".toList)).map (resource text)) = .ok m := by
    refine collect_of_listsMap hselected fun e line _ hline => ?_
    obtain ⟨hne, hkey, hvalue⟩ := hline
    have hempty : ¬ line.1.isEmpty = true := by rwa [hkey, List.isEmpty_iff]
    unfold resource
    rw [if_neg hempty, parseField_eq_ok.mpr (parseCount_eq_ok_iff.mpr hvalue), ok_bind, hkey]
    rfl
  unfold fromStr
  rw [KeyedFields.parse_of_twoTokens htwo, ok_bind, hcollect]
  rfl

/-- **A key without a name fails the file.** -/
theorem fromStr_of_occurs {text : Str} (h : Occurs text ".max".toList) :
    ∃ e, fromStr text = .error e := by
  rcases hread : fromStr text with e | events
  · exact ⟨e, rfl⟩
  · exfalso
    unfold fromStr at hread
    obtain ⟨htwo, hfields⟩ := KeyedFields.parse_bind_eq_ok.mp hread
    obtain ⟨m, hm, -⟩ := bind_eq_ok.mp hfields
    obtain ⟨value, hvalue⟩ := Option.ne_none_iff_exists'.mp ((occurs_iff htwo).mp h)
    have hmem : ([], value) ∈ (KeyedFields.ofText text).selected (stripSuffix ".max".toList) :=
      KeyedFields.mem_selected.mpr ⟨_, hvalue, stripSuffix_eq_some_iff.mpr rfl⟩
    obtain ⟨count, hcount⟩ := exists_collect_map.mp ⟨m, hm⟩ _ hmem
    cases hcount

end MiscEvents

/-! ## Every map has a rendering -/

/-- The texts of the values are visible tokens that mean them. -/
structure Spells (written : Str → T → Prop) (enc : T → Str) : Prop where
  /-- The text means the value. -/
  written : ∀ v, written (enc v) v
  /-- The text is a token. -/
  token : ∀ v, IsToken (enc v)
  /-- The text is visible. -/
  visible : ∀ v, isBlank (enc v) = false

/-- A numeral is a visible token. -/
lemma spells_decimal {written : Str → T → Prop} {toNat : T → ℕ}
    (h : ∀ v, written (decimal (toNat v)) v) : Spells written fun v => decimal (toNat v) := by
  have hne : ∀ n, decimal n ≠ [] := fun n => (isDigits_decimal n).1
  have hvisible : ∀ n, ∀ c ∈ decimal n, ¬ isWhitespace c = true := fun n c hc hws =>
    not_mem_decimal (not_isDigit_of_isWhitespace hws) n hc
  refine ⟨h, fun v => ⟨hne _, fun c hc => ?_⟩, fun v => ?_⟩
  · rw [← Bool.not_eq_true]
    exact fun hws => hvisible _ c hc (isWhitespace_of_isAsciiWhitespace hws)
  · rw [← Bool.not_eq_true, isBlank_iff]
    intro hall
    obtain ⟨c, hc⟩ := List.exists_mem_of_ne_nil _ (hne (toNat v))
    exact hvisible _ c hc (hall c hc)

/-- Amounts have such texts. -/
lemma spells_bytes : Spells Bytes.Written fun q => decimal q.value.toNat :=
  spells_decimal fun q => isNumeral_decimal q.value.toNat

/-- Counts have such texts. -/
lemma spells_count : Spells Count.Written fun q => decimal q.value.toNat :=
  spells_decimal fun q => isNumeral_decimal q.value.toNat

/-- Limits have such texts when their values do. -/
lemma Spells.maxOr {written : Str → T → Prop} {enc : T → Str} (h : Spells written enc) :
    Spells (MaxOr.Written written) (MaxOr.encode enc) := by
  refine ⟨fun m => ?_, fun m => ?_, fun m => ?_⟩
  · cases m with
    | max => rfl
    | value v => exact h.written v
  · cases m with
    | max => exact (by decide : IsToken "max".toList)
    | value v => exact h.token v
  · cases m with
    | max => rfl
    | value v => exact h.visible v

section print

variable {written : Str → T → Prop} {enc : T → Str} (h : Spells written enc) {m : BTreeMap Str T}

/-- The lines of the map, one for each entry and in key order. -/
def printedLines (enc : T → Str) (ending : Str) (m : BTreeMap Str T) : List (Str × Str) :=
  m.toList.map fun e => (e.1 ++ ending, enc e.2)

include h

/-- The plain printing of the lines is one of their layouts. -/
lemma layout_printedLines {ending : Str} (hname : ∀ name ∈ m, IsToken (name ++ ending)) :
    Layout ((printedLines enc ending m).map pairRow)
      (unlines ((printedLines enc ending m).map pairRow)) := by
  apply layout_unlines
  intro row hrow
  obtain ⟨line, hline, rfl⟩ := List.mem_map.mp hrow
  obtain ⟨⟨name, v⟩, he, rfl⟩ := List.mem_map.mp hline
  have hmem : name ∈ m := Std.ExtTreeMap.mem_iff_isSome_getElem?.mpr
    (by rw [Std.ExtTreeMap.mem_toList_iff_getElem?_eq_some.mp he]; rfl)
  have hblank := h.visible v
  refine ⟨fun tok htok => ?_, ?_⟩
  · obtain rfl | rfl : tok = name ++ ending ∨ tok = enc v := by simpa [pairRow] using htok
    · exact hname name hmem
    · exact h.token v
  · rw [← Bool.not_eq_true, isBlank_iff] at hblank ⊢
    exact fun hall => hblank fun c hc => hall c (by simp [unwords, pairRow, hc])

/-- **Every map whose names are tokens has a rendering.** -/
theorem renders_print (hname : ∀ name ∈ m, IsToken name) :
    Renders written m (unlines ((printedLines enc [] m).map pairRow)) := by
  refine ⟨printedLines enc [] m, ⟨m.toList, List.Perm.refl _, ?_⟩,
    layout_printedLines h fun name hmem => by rw [List.append_nil]; exact hname name hmem⟩
  unfold printedLines
  rw [List.forall₂_map_right_iff, List.forall₂_same]
  exact fun e _ => ⟨List.append_nil e.1, h.written e.2⟩

end print

/-- **Every map of counts whose names are tokens has a rendering as events.** -/
theorem MiscEvents.renders_print {m : BTreeMap Str Count} (hname : ∀ name ∈ m, IsToken name) :
    MiscEvents.Renders m (unlines ((printedLines (fun q : Count => decimal q.value.toNat)
      ".max".toList m).map pairRow)) := by
  have hkey : ∀ name ∈ m, IsToken (name ++ ".max".toList) := by
    intro name hmem
    obtain ⟨hne, hsolid⟩ := hname name hmem
    refine ⟨fun h => hne (List.append_eq_nil_iff.mp h).1, fun c hc => ?_⟩
    rcases List.mem_append.mp hc with hc | hc
    · exact hsolid c hc
    · exact (by decide : IsToken ".max".toList).solid c hc
  refine ⟨_, ?_, layout_printedLines spells_count hkey⟩
  have hlimits : ∀ line ∈ printedLines (fun q : Count => decimal q.value.toNat) ".max".toList m,
      ".max".toList.isSuffixOf line.1 = true := by
    intro line hline
    obtain ⟨e, -, rfl⟩ := List.mem_map.mp hline
    exact List.isSuffixOf_iff_suffix.mpr ⟨e.1, rfl⟩
  unfold limitLines
  rw [List.filter_eq_self.mpr hlimits]
  refine ⟨m.toList, List.Perm.refl _, ?_⟩
  unfold printedLines
  rw [List.forall₂_map_right_iff, List.forall₂_same]
  intro e he
  have hmem : e.1 ∈ m := Std.ExtTreeMap.mem_iff_isSome_getElem?.mpr
    (by rw [Std.ExtTreeMap.mem_toList_iff_getElem?_eq_some.mp he]; rfl)
  exact ⟨(hname e.1 hmem).ne_nil, rfl, isNumeral_decimal e.2.value.toNat⟩

/-- Every map whose names are tokens can be listed, whatever its values. -/
theorem exists_renders :
    (∀ m : BTreeMap Str Bytes, (∀ name ∈ m, IsToken name) → ∃ text, Renders Bytes.Written m text) ∧
    (∀ m : BTreeMap Str (MaxOr Bytes), (∀ name ∈ m, IsToken name) →
      ∃ text, Renders (MaxOr.Written Bytes.Written) m text) ∧
    (∀ m : BTreeMap Str Count, (∀ name ∈ m, IsToken name) →
      (∃ text, Renders Count.Written m text) ∧ ∃ text, MiscEvents.Renders m text) ∧
    ∀ m : BTreeMap Str (MaxOr Count), (∀ name ∈ m, IsToken name) →
      ∃ text, Renders (MaxOr.Written Count.Written) m text :=
  ⟨fun _ hname => ⟨_, renders_print spells_bytes hname⟩,
    fun _ hname => ⟨_, renders_print spells_bytes.maxOr hname⟩,
    fun _ hname => ⟨⟨_, renders_print spells_count hname⟩, _, MiscEvents.renders_print hname⟩,
    fun _ hname => ⟨_, renders_print spells_count.maxOr hname⟩⟩

/-! ## The readers of named maps -/

/-- **Open-ended named maps keep every name verbatim.** Every listing of a map is read back as
exactly that map. For the event files the keys are the names followed by `.max`; lines with other
keys are ignored, and the key `.max` fails the file. -/
theorem named_maps :
    (∀ (m : BTreeMap Str Bytes) text, Renders Bytes.Written m text →
      DmemCapacity.fromStr text = .ok ⟨m⟩) ∧
    (∀ (m : BTreeMap Str (MaxOr Bytes)) text, Renders (MaxOr.Written Bytes.Written) m text →
      DmemCurrent.fromStr text = .ok ⟨m⟩ ∧ DmemPeak.fromStr text = .ok ⟨m⟩ ∧
        DmemLimits.fromStr text = .ok ⟨m⟩) ∧
    (∀ (m : BTreeMap Str Count) text, Renders Count.Written m text →
      MiscCapacity.fromStr text = .ok ⟨m⟩ ∧ MiscCurrent.fromStr text = .ok ⟨m⟩ ∧
        MiscPeak.fromStr text = .ok ⟨m⟩) ∧
    (∀ (m : BTreeMap Str (MaxOr Count)) text, Renders (MaxOr.Written Count.Written) m text →
      MiscMax.fromStr text = .ok ⟨m⟩) ∧
    (∀ (m : BTreeMap Str Count) text, MiscEvents.Renders m text →
      MiscEvents.fromStr text = .ok ⟨m⟩) ∧
    ∀ text, Occurs text ".max".toList → ∃ e, MiscEvents.fromStr text = .error e := by
  have hbytes : ∀ value (q : Bytes), q.Written value → parseCgroup ParseBytes value = .ok q :=
    fun _ _ => parseBytes_eq_ok_iff.mpr
  have hcount : ∀ value (q : Count), q.Written value → parseCgroup ParseCount value = .ok q :=
    fun _ _ => parseCount_eq_ok_iff.mpr
  refine ⟨fun m text h => ?_, fun m text h => ?_, fun m text h => ?_, fun m text h => ?_,
    fun m text => MiscEvents.fromStr_of_renders, fun text => MiscEvents.fromStr_of_occurs⟩
  · unfold DmemCapacity.fromStr parseRegions
    rw [parseNamed_of_renders hbytes h]
    rfl
  · unfold DmemCurrent.fromStr DmemPeak.fromStr DmemLimits.fromStr parseRegions
    rw [parseNamed_of_renders (parseMaxOr_of_written hbytes fun q => not_isNumeral_max) h]
    exact ⟨rfl, rfl, rfl⟩
  · unfold MiscCapacity.fromStr MiscCurrent.fromStr MiscPeak.fromStr
    rw [parseNamed_of_renders hcount h]
    exact ⟨rfl, rfl, rfl⟩
  · unfold MiscMax.fromStr
    rw [parseNamed_of_renders (parseMaxOr_of_written hcount fun q => not_isNumeral_max) h]
    rfl

/-- Two regions, one of them named by a path. -/
def twoRegions : List (Str × Bytes) :=
  [("stolen".toList, ⟨0⟩), ("drm/0000:03:00.0/vram0".toList, ⟨8514437120⟩)]

/-- Their lines. -/
def twoRegionLines : List (Str × Str) :=
  [("stolen".toList, "0".toList), ("drm/0000:03:00.0/vram0".toList, "8514437120".toList)]

/-- A resource with a limit that was hit. -/
def oneResource : List (Str × Count) := [("res_a".toList, ⟨3⟩)]

/-- Its line, after one of another key. -/
def oneResourceLines : List (Str × Str) :=
  [("res_b".toList, "7".toList), ("res_a.max".toList, "3".toList)]

/-- Regions and resources keep their names, and a limit needs one. -/
theorem named_maps_listing :
    DmemCapacity.fromStr "stolen 0\ndrm/0000:03:00.0/vram0 8514437120\n".toList =
      .ok ⟨Std.ExtTreeMap.ofList twoRegions compare⟩ ∧
    MiscEvents.fromStr "res_b 7\nres_a.max 3\n".toList =
      .ok ⟨Std.ExtTreeMap.ofList oneResource compare⟩ ∧
    ∃ e, MiscEvents.fromStr ".max 3\n".toList = .error e := by
  refine ⟨named_maps.1 _ _ ⟨twoRegionLines, listsMap_ofList (by decide) ?_,
      layout_unlines (by decide)⟩,
    named_maps.2.2.2.2.1 _ _ ⟨oneResourceLines, listsMap_ofList (by decide) ?_,
      layout_unlines (by decide)⟩,
    named_maps.2.2.2.2.2 _ (by decide)⟩
  · exact .cons ⟨rfl, isNumeral_decimal 0⟩ (.cons ⟨rfl, isNumeral_decimal 8514437120⟩ .nil)
  · exact .cons ⟨by decide, rfl, isNumeral_decimal 3⟩ .nil

end Sakai
