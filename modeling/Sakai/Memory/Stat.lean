import Sakai.Memory.Fields

/-!
# `memory.stat`

One counter a line, in the unit of its field.

* `MemoryStat.exists_ok_iff`: a text is accepted exactly when every non-blank line has two tokens,
  every line of a known key carries a 64-bit numeral, and `anon` and `file` occur.
* `MemoryStat.get_eq_some_iff`: then each field has the value of its last line.
* `MemoryStat.outcome_congr`: lines of unknown keys change nothing.
* `MemoryStat.fromStr_of_lists`: a text that lists a value is read back as that value.
-/

namespace Sakai

open Lib NamedEnum

/-- A snapshot of `memory.stat`.
Source: `memory/stat.rs`, `MemoryStat`. -/
abbrev MemoryStat := FieldMaps Bytes Pages Count

namespace MemoryStat

/-- Source: `memory/stat.rs`, `MemoryStat::insert`. -/
def insert (self : MemoryStat) (raw key value : Str) : Parsed MemoryStat :=
  FieldMaps.insert self key (fun field => parseField ParseBytes raw field.name value)
    (fun field => parseField ParsePages raw field.name value)
    fun field => parseField ParseCount raw field.name value

/-- One line of the file.
Source: `memory/stat.rs`, the `try_fold` closure of `MemoryStat::from_str`. -/
def insertLine (contents : Str) (stat : MemoryStat) (line : Str) : Parsed MemoryStat := do
  let (key, value) ← Parser.parseLine contents line (Parser.keyValue fun _ => "value")
  insert stat contents key value

/-- Source: `memory/stat.rs`, `MemoryStat::from_str`. -/
def fromStr (contents : Str) : Parsed MemoryStat := do
  let stat ← (nonBlankLines contents).foldlM (insertLine contents) FieldMaps.empty
  FieldMaps.requireBaseline contents stat.bytes
  return stat

/-! ## The value of a line -/

/-- The value of a line, decoded in the unit of its field. -/
def parseValue (raw value : Str) : (f : MemoryStatField) → Parsed (f.Value Bytes Pages Count)
  | .byte field => parseField ParseBytes raw field.name value
  | .page field => parseField ParsePages raw field.name value
  | .count field => parseField ParseCount raw field.name value

/-- The number behind a field's value. -/
def quantity : (f : MemoryStatField) → f.Value Bytes Pages Count → UInt64
  | .byte _, v => v.value
  | .page _, v => v.value
  | .count _, v => v.value

/-- **The value of a line** is a numeral in range, whatever the unit. -/
lemma parseValue_eq_ok_iff {raw value : Str} {f : MemoryStatField}
    {v : f.Value Bytes Pages Count} :
    parseValue raw value f = .ok v ↔ IsNumeral value (quantity f v).toNat := by
  cases f with
  | byte field => exact parseField_eq_ok.trans parseBytes_eq_ok_iff
  | page field => exact parseField_eq_ok.trans parsePages_eq_ok_iff
  | count field => exact parseField_eq_ok.trans parseCount_eq_ok_iff

/-- Every number is the number of a value. -/
lemma exists_quantity (f : MemoryStatField) (n : UInt64) :
    ∃ v : f.Value Bytes Pages Count, quantity f v = n := by
  cases f with
  | byte field => exact ⟨⟨n⟩, rfl⟩
  | page field => exact ⟨⟨n⟩, rfl⟩
  | count field => exact ⟨⟨n⟩, rfl⟩

/-- The text is a 64-bit numeral. -/
def IsU64 (value : Str) : Prop := ∃ n : UInt64, IsNumeral value n.toNat

/-- A line is accepted exactly when its value is a 64-bit numeral. -/
lemma exists_parseValue_iff {raw value : Str} {f : MemoryStatField} :
    (∃ v, parseValue raw value f = .ok v) ↔ IsU64 value := by
  simp only [parseValue_eq_ok_iff]
  constructor
  · rintro ⟨v, hv⟩
    exact ⟨quantity f v, hv⟩
  · rintro ⟨n, hn⟩
    obtain ⟨v, rfl⟩ := exists_quantity f n
    exact ⟨v, hn⟩

/-- The retained input is the only trace of it in a line's outcome. -/
lemma outcome_parseValue (raw₁ raw₂ value : Str) (f : MemoryStatField) :
    outcome (parseValue raw₁ value f) = outcome (parseValue raw₂ value f) := by
  cases f with
  | byte field => exact outcome_parseField raw₁ raw₂ value field.name
  | page field => exact outcome_parseField raw₁ raw₂ value field.name
  | count field => exact outcome_parseField raw₁ raw₂ value field.name

/-! ## The lines of a file -/

/-- A line is inserted exactly when it has two tokens and its value is accepted. -/
lemma insertLine_eq_ok_iff {contents line : Str} {stat result : MemoryStat} :
    insertLine contents stat line = .ok result ↔
      ∃ e, splitAsciiWhitespace line = pairRow e ∧ insert stat contents e.1 e.2 = .ok result := by
  unfold insertLine
  rw [bind_eq_ok]
  exact exists_congr fun e => and_congr_left fun _ => Parser.parseLine_keyValue_eq_ok_iff

/-- A two-token line is inserted as its pair. -/
lemma insertLine_of_pair {contents line : Str} {stat : MemoryStat} {e : Str × Str}
    (h : splitAsciiWhitespace line = pairRow e) :
    insertLine contents stat line = insert stat contents e.1 e.2 := by
  unfold insertLine
  rw [Parser.parseLine_keyValue_eq_ok_iff.mpr h]
  rfl

/-- The lines of a key/value text are folded as its pairs. -/
lemma foldlM_insertLine {contents : Str} (stat : MemoryStat) {lines : List Str}
    {entries : List (Str × Str)} (h : lines.map splitAsciiWhitespace = entries.map pairRow) :
    lines.foldlM (insertLine contents) stat =
      FieldMaps.insertAll (parseValue contents) stat entries := by
  induction lines generalizing stat entries with
  | nil =>
      rw [List.map_nil, eq_comm, List.map_eq_nil_iff] at h
      rw [h]
      rfl
  | cons line lines ih =>
      rcases entries with _ | ⟨e, entries⟩
      · cases h
      · rw [List.map_cons, List.map_cons, List.cons.injEq] at h
        rw [List.foldlM_cons, insertLine_of_pair h.1]
        exact congrArg _ (funext fun stat => ih stat h.2)

/-- Only two-token lines are folded. -/
lemma length_eq_two_of_foldlM {contents : Str} {stat result : MemoryStat} {lines : List Str}
    (h : lines.foldlM (insertLine contents) stat = .ok result) :
    ∀ row ∈ lines.map splitAsciiWhitespace, row.length = 2 := by
  induction lines generalizing stat with
  | nil => simp
  | cons line lines ih =>
      rw [List.foldlM_cons, bind_eq_ok] at h
      obtain ⟨next, hline, hlines⟩ := h
      obtain ⟨e, he, -⟩ := insertLine_eq_ok_iff.mp hline
      rw [List.map_cons, List.forall_mem_cons]
      exact ⟨by rw [he]; rfl, ih hlines⟩

/-- A key/value text is read as its pairs. -/
lemma fromStr_of_twoTokens {contents : Str} (h : TwoTokens contents) :
    fromStr contents = do
      let stat ← FieldMaps.insertAll (parseValue contents) FieldMaps.empty (pairsOf contents)
      FieldMaps.requireBaseline contents stat.bytes
      return stat := by
  unfold fromStr
  rw [foldlM_insertLine FieldMaps.empty (rowsOf_eq_map_pairRow h)]

/-- **What a text is read as.** -/
lemma fromStr_eq_ok_iff {contents : Str} {stat : MemoryStat} :
    fromStr contents = .ok stat ↔
      TwoTokens contents ∧
      FieldMaps.insertAll (parseValue contents) FieldMaps.empty (pairsOf contents) = .ok stat ∧
      stat.bytes[MemoryStatByteField.anon]? ≠ none ∧
      stat.bytes[MemoryStatByteField.file]? ≠ none := by
  have hbaseline : ∀ result : MemoryStat,
      (do FieldMaps.requireBaseline contents result.bytes; return result) = Except.ok stat ↔
        result = stat ∧ result.bytes[MemoryStatByteField.anon]? ≠ none ∧
          result.bytes[MemoryStatByteField.file]? ≠ none := by
    intro result
    rw [bind_eq_ok]
    constructor
    · rintro ⟨_, hbase, hresult⟩
      exact ⟨pure_eq_ok.mp hresult, FieldMaps.requireBaseline_eq_ok_iff.mp hbase⟩
    · rintro ⟨rfl, hbase⟩
      exact ⟨(), FieldMaps.requireBaseline_eq_ok_iff.mpr hbase, rfl⟩
  constructor
  · intro h
    have htwo : TwoTokens contents := by
      unfold fromStr at h
      obtain ⟨result, hfold, -⟩ := bind_eq_ok.mp h
      exact length_eq_two_of_foldlM hfold
    rw [fromStr_of_twoTokens htwo, bind_eq_ok] at h
    obtain ⟨result, hinsert, hrest⟩ := h
    obtain ⟨rfl, hbase⟩ := (hbaseline result).mp hrest
    exact ⟨htwo, hinsert, hbase⟩
  · rintro ⟨htwo, hinsert, hbase⟩
    rw [fromStr_of_twoTokens htwo, bind_eq_ok]
    exact ⟨stat, hinsert, (hbaseline stat).mpr ⟨rfl, hbase⟩⟩

/-! ## What is accepted -/

/-- The key is the printed name of a byte, page or count field. -/
def IsFieldName (key : Str) : Prop :=
  (∃ f : MemoryStatByteField, NamedEnum.key f = key) ∨
  (∃ f : MemoryStatPageField, NamedEnum.key f = key) ∨
  ∃ f : MemoryStatCountField, NamedEnum.key f = key

/-- The joined table has the names of the three. -/
lemma isFieldName_iff {key : Str} :
    IsFieldName key ↔ ∃ f : MemoryStatField, NamedEnum.key f = key := by
  constructor
  · rintro (⟨field, h⟩ | ⟨field, h⟩ | ⟨field, h⟩)
    · exact ⟨.byte field, h⟩
    · exact ⟨.page field, h⟩
    · exact ⟨.count field, h⟩
  · rintro ⟨f, h⟩
    cases f with
    | byte field => exact Or.inl ⟨field, h⟩
    | page field => exact Or.inr (Or.inl ⟨field, h⟩)
    | count field => exact Or.inr (Or.inr ⟨field, h⟩)

section accepted

variable {text : Str} {stat : MemoryStat}

/-- **The value of a field** is the numeral of its last line. -/
lemma get_eq_some_iff
    (h : FieldMaps.insertAll (parseValue text) FieldMaps.empty (pairsOf text) = .ok stat)
    (f : MemoryStatField) (v : f.Value Bytes Pages Count) :
    stat.get f = some v ↔
      ∃ value, lastValue (NamedEnum.key f) (pairsOf text) = some value ∧
        IsNumeral value (quantity f v).toNat := by
  rw [(FieldMaps.insertAll_eq_ok_iff.mp h).2 f]
  rcases lastValue (NamedEnum.key f) (pairsOf text) with _ | value
  · have hempty : (FieldMaps.empty : MemoryStat).get f = none := by cases f <;> rfl
    simp [hempty]
  · simp only [Option.elim_some, Option.some.injEq, exists_eq_left']
    have hvalue : parseValue text value f = .ok v ↔ _ := parseValue_eq_ok_iff
    rw [← hvalue]
    cases parseValue text value f <;> simp [Except.toOption]

/-- A field is set exactly when its key occurs. -/
lemma get_ne_none_iff (htwo : TwoTokens text)
    (h : FieldMaps.insertAll (parseValue text) FieldMaps.empty (pairsOf text) = .ok stat)
    (f : MemoryStatField) : stat.get f ≠ none ↔ Occurs text (NamedEnum.key f) := by
  rw [occurs_iff htwo, KeyedFields.ofText_values]
  obtain ⟨hvalid, hget⟩ := FieldMaps.insertAll_eq_ok_iff.mp h
  rw [hget f]
  rcases hlast : lastValue (NamedEnum.key f) (pairsOf text) with _ | value
  · have hempty : (FieldMaps.empty : MemoryStat).get f = none := by cases f <;> rfl
    simp [hempty]
  · obtain ⟨v, hv⟩ := hvalid _ (mem_of_lastValue hlast) f rfl
    rw [Option.elim_some, hv]
    simp [Except.toOption]

/-- **What is accepted**: key/value lines with numerals for the known keys, and the baseline. -/
lemma exists_ok_iff :
    (∃ stat, fromStr text = .ok stat) ↔
      TwoTokens text ∧ (∀ e ∈ pairsOf text, IsFieldName e.1 → IsU64 e.2) ∧
      Occurs text (NamedEnum.key MemoryStatByteField.anon) ∧
      Occurs text (NamedEnum.key MemoryStatByteField.file) := by
  constructor
  · rintro ⟨stat, h⟩
    obtain ⟨htwo, hinsert, hanon, hfile⟩ := fromStr_eq_ok_iff.mp h
    refine ⟨htwo, fun e he hname => ?_, (get_ne_none_iff htwo hinsert (.byte .anon)).mp hanon,
      (get_ne_none_iff htwo hinsert (.byte .file)).mp hfile⟩
    obtain ⟨f, hf⟩ := isFieldName_iff.mp hname
    exact exists_parseValue_iff.mp ((FieldMaps.insertAll_eq_ok_iff.mp hinsert).1 e he f hf)
  · rintro ⟨htwo, hvalid, hanon, hfile⟩
    obtain ⟨stat, hinsert⟩ : ∃ stat : MemoryStat, FieldMaps.insertAll (parseValue text)
        FieldMaps.empty (pairsOf text) = .ok stat := by
      apply FieldMaps.exists_insertAll_eq_ok
      intro e he f hf
      exact exists_parseValue_iff.mpr (hvalid e he (isFieldName_iff.mpr ⟨f, hf⟩))
    exact ⟨stat, fromStr_eq_ok_iff.mpr ⟨htwo, hinsert,
      (get_ne_none_iff htwo hinsert (.byte .anon)).mpr hanon,
      (get_ne_none_iff htwo hinsert (.byte .file)).mpr hfile⟩⟩

end accepted

/-- **Lines of unknown keys change nothing**: texts with the same lines of known keys have the
same outcome. -/
lemma outcome_congr {t₁ t₂ : Str} (h₁ : TwoTokens t₁) (h₂ : TwoTokens t₂)
    (h : (pairsOf t₁).filter (fun e => (fromStr? e.1 : Option MemoryStatField).isSome) =
      (pairsOf t₂).filter fun e => (fromStr? e.1 : Option MemoryStatField).isSome) :
    outcome (fromStr t₁) = outcome (fromStr t₂) := by
  rw [fromStr_of_twoTokens h₁, fromStr_of_twoTokens h₂]
  refine outcome_bind_congr ?_ fun stat => ?_
  · rw [← FieldMaps.insertAll_filter_known FieldMaps.empty (pairsOf t₁), h,
      FieldMaps.insertAll_filter_known]
    exact FieldMaps.outcome_insertAll_congr (outcome_parseValue t₁ t₂) _ _
  · refine outcome_bind_congr ?_ fun _ => rfl
    exact FieldMaps.outcome_requireBaseline t₁ t₂ stat.bytes

/-! ## Reading back -/

/-- The entries list the value: one decimal line for each field that is set, in any order, among
lines of unknown keys. -/
def Lists (stat : MemoryStat) (entries : List (Str × Str)) : Prop :=
  FieldMaps.Listed (fun f v value => value = decimal (quantity f v).toNat) stat entries

/-- **A listing is read back.** -/
lemma fromStr_of_lists {stat : MemoryStat} {entries : List (Str × Str)} {text : Str}
    (hanon : stat.bytes[MemoryStatByteField.anon]? ≠ none)
    (hfile : stat.bytes[MemoryStatByteField.file]? ≠ none) (hlists : Lists stat entries)
    (hlayout : Layout (entries.map pairRow) text) : fromStr text = .ok stat := by
  obtain ⟨htwo, rfl⟩ := pairsOf_of_layout hlayout
  refine fromStr_eq_ok_iff.mpr ⟨htwo, FieldMaps.insertAll_of_listed ?_ hlists, hanon, hfile⟩
  rintro f v value rfl
  exact parseValue_eq_ok_iff.mpr (isNumeral_decimal _)

end MemoryStat

/-- **`memory.stat` is parsed exactly.** A text is accepted exactly when it consists of key/value
lines with 64-bit numerals for the known keys and both baseline fields; each map then holds
exactly the last values of its own fields; unknown keys change nothing; the three tables share no
name and every field is recovered from its own; and a listing is read back as its value. -/
theorem memory_stat_exact :
    (∀ text, (∃ stat, MemoryStat.fromStr text = .ok stat) ↔
      TwoTokens text ∧ (∀ e ∈ pairsOf text, MemoryStat.IsFieldName e.1 → MemoryStat.IsU64 e.2) ∧
      Occurs text "anon".toList ∧ Occurs text "file".toList) ∧
    (∀ text stat, MemoryStat.fromStr text = .ok stat →
      (∀ (f : MemoryStatByteField) (q : Bytes), stat.bytes[f]? = some q ↔
        ∃ value, lastValue (key f) (pairsOf text) = some value ∧
          IsNumeral value q.value.toNat) ∧
      (∀ (f : MemoryStatPageField) (q : Pages), stat.pages[f]? = some q ↔
        ∃ value, lastValue (key f) (pairsOf text) = some value ∧
          IsNumeral value q.value.toNat) ∧
      (∀ (f : MemoryStatCountField) (q : Count), stat.counts[f]? = some q ↔
        ∃ value, lastValue (key f) (pairsOf text) = some value ∧
          IsNumeral value q.value.toNat) ∧
      (∀ f : MemoryStatField, stat.get f ≠ none ↔ Occurs text (key f))) ∧
    (∀ t₁ t₂, TwoTokens t₁ → TwoTokens t₂ →
      (pairsOf t₁).filter (fun e => (fromStr? e.1 : Option MemoryStatField).isSome) =
        (pairsOf t₂).filter (fun e => (fromStr? e.1 : Option MemoryStatField).isSome) →
      outcome (MemoryStat.fromStr t₁) = outcome (MemoryStat.fromStr t₂)) ∧
    (∀ (b : MemoryStatByteField) (p : MemoryStatPageField) (c : MemoryStatCountField),
      key b ≠ key p ∧ key b ≠ key c ∧ key p ≠ key c ∧
      fromStr? (key b) = some b ∧ fromStr? (key p) = some p ∧ fromStr? (key c) = some c) ∧
    (∀ (stat : MemoryStat) entries text, stat.bytes[MemoryStatByteField.anon]? ≠ none →
      stat.bytes[MemoryStatByteField.file]? ≠ none → MemoryStat.Lists stat entries →
      Layout (entries.map pairRow) text → MemoryStat.fromStr text = .ok stat) := by
  refine ⟨fun text => MemoryStat.exists_ok_iff, fun text stat h => ?_,
    fun t₁ t₂ h₁ h₂ h => MemoryStat.outcome_congr h₁ h₂ h, fun b p c => ?_,
    fun stat entries text hanon hfile hlists hlayout =>
      MemoryStat.fromStr_of_lists hanon hfile hlists hlayout⟩
  · obtain ⟨htwo, hinsert, -⟩ := MemoryStat.fromStr_eq_ok_iff.mp h
    exact ⟨fun f q => MemoryStat.get_eq_some_iff hinsert (.byte f) q,
      fun f q => MemoryStat.get_eq_some_iff hinsert (.page f) q,
      fun f q => MemoryStat.get_eq_some_iff hinsert (.count f) q,
      MemoryStat.get_ne_none_iff htwo hinsert⟩
  · have hne : ∀ {f g : MemoryStatField}, f ≠ g → key f ≠ key g :=
      fun hfg h => hfg (key_injective h)
    exact ⟨hne (f := .byte b) (g := .page p) nofun, hne (f := .byte b) (g := .count c) nofun,
      hne (f := .page p) (g := .count c) nofun, fromStr?_key b, fromStr?_key p, fromStr?_key c⟩

/-- A value with a field of each unit. -/
def smallStat : MemoryStat :=
  (((FieldMaps.empty.set (.byte .anon) ⟨4096⟩).set (.byte .file) ⟨0⟩).set (.page .pswpin) ⟨7⟩).set
    (.count .pgfault) ⟨18446744073709551615⟩

/-- Its lines, and one of an unknown key. -/
def smallEntries : List (Str × Str) :=
  [("pgfault".toList, "18446744073709551615".toList), ("future".toList, "x".toList),
    ("pswpin".toList, "7".toList), ("file".toList, "0".toList), ("anon".toList, "4096".toList)]

/-- The lines list the value. -/
lemma smallStat_lists : smallStat.Lists smallEntries := by
  refine FieldMaps.Listed.set (FieldMaps.Listed.skip (FieldMaps.Listed.set (FieldMaps.Listed.set
    (FieldMaps.Listed.set FieldMaps.Listed.nil ?_ ?_) ?_ ?_) ?_ ?_) _ ?_) ?_ ?_ <;> decide

/-- The largest count is read back, and what has an unknown key is skipped. -/
theorem memory_stat_exact_listing :
    MemoryStat.fromStr (unlines (smallEntries.map pairRow)) = .ok smallStat :=
  memory_stat_exact.2.2.2.2 smallStat smallEntries _ (by decide) (by decide) smallStat_lists
    (layout_unlines (by decide))

end Sakai
