import Sakai.Io.Device
import Sakai.Lib.FirstLast

/-!
# Line scanners: the lines that are accepted, and the line that decides

`KeyedFields::parse` and `Device::parse_lines` read a file line by line, skip the lines that are
blank, and stop at the first line they reject.

* `keyedFields_parse`: what a file of keyed lines is read as, and which error it gives.
* `device_parseLines`: the same for a file of device lines, for any reader of their fields.

In both, a line that is not blank has a first token (`tokens_ne_nil`), so that the error for an
absent one is never made.
-/

namespace Sakai

open Lib

variable {E T : Type}

/-! ## Keyed lines -/

/-- The line is blank, or has exactly two tokens. -/
def IsPairLine (line : Str) : Prop := trim line ≠ [] → (splitAsciiWhitespace line).length = 2

/-- The line is not blank, and starts with the key. -/
def StartsWith (key line : Str) : Prop :=
  trim line ≠ [] ∧ (splitAsciiWhitespace line).head? = some key

/-- A keyed line is read exactly when it has two tokens. -/
lemma succeeds_keyValue {raw line : Str} {valueField : Str → String} :
    Succeeds (fun line => Parser.parseLine raw line (Parser.keyValue (E := E) valueField)) line ↔
      (splitAsciiWhitespace line).length = 2 := by
  unfold Succeeds
  simp only [Parser.parseLine_keyValue_eq_ok_iff]
  constructor
  · intro h
    obtain ⟨e, he⟩ := h
    rw [he]
    rfl
  · intro h
    obtain ⟨key, value, h⟩ := List.length_eq_two.mp h
    exact ⟨(key, value), h⟩

/-- The error of a keyed line with a token: its only token has no value, or there is a third. -/
lemma keyValue_eq_error_iff {raw line : Str} {valueField : Str → String} {e : ParseError E}
    (hline : splitAsciiWhitespace line ≠ []) :
    Parser.parseLine raw line (Parser.keyValue valueField) = .error e ↔
      (∃ key, splitAsciiWhitespace line = [key] ∧ e = .missing raw (valueField key)) ∨
        (3 ≤ (splitAsciiWhitespace line).length ∧ e = .excess raw) := by
  rw [Parser.parseLine_keyValue]
  rcases h : splitAsciiWhitespace line with _ | ⟨key, _ | ⟨value, _ | ⟨token, tokens⟩⟩⟩
  · exact absurd h hline
  · simp [eq_comm]
  · simp
  · simp [eq_comm]

section keyedFields

variable {raw : Str} {valueField : Str → String}

/-- A file of keyed lines is accepted exactly when each of its lines is. -/
lemma exists_keyedFields_parse :
    (∃ fields, KeyedFields.parse (E := E) raw valueField = .ok fields) ↔
      ∀ line ∈ lines raw, IsPairLine line := by
  have hlines : (∀ line ∈ lines raw, IsPairLine line) ↔
      ∀ line ∈ nonBlankLines raw, Succeeds
        (fun line => Parser.parseLine raw line (Parser.keyValue (E := E) valueField)) line := by
    rw [forall_nonBlankLines]
    simp only [succeeds_keyValue]
    rfl
  unfold KeyedFields.parse KeyedFields.new
  rw [hlines, ← exists_collect_map]
  simp only [map_eq_ok]
  constructor
  · intro h
    obtain ⟨fields, values, hvalues, -⟩ := h
    exact ⟨values, hvalues⟩
  · intro h
    obtain ⟨values, hvalues⟩ := h
    exact ⟨_, values, hvalues, rfl⟩

/-- A file of keyed lines holds the value of the last line of each key. -/
lemma getElem?_of_keyedFields_parse {fields : KeyedFields}
    (h : KeyedFields.parse (E := E) raw valueField = .ok fields) {key value : Str} :
    fields.values[key]? = some value ↔
      ∃ line, LastWith (StartsWith key) (lines raw) line ∧
        splitAsciiWhitespace line = [key, value] := by
  have hpairs := exists_keyedFields_parse.mp ⟨fields, h⟩
  unfold KeyedFields.parse KeyedFields.new at h
  obtain ⟨values, hvalues, rfl⟩ := map_eq_ok.mp h
  rw [getElem?_of_collect_map hvalues]
  refine exists_congr fun line => ?_
  rw [lastWith_nonBlankLines]
  simp only [Parser.parseLine_keyValue_eq_ok_iff]
  refine and_congr_left fun _ => lastWith_congr fun line hline => and_congr_right fun hne => ?_
  -- A line that starts with the key has one more token, as every line of the file.
  obtain ⟨first, second, htokens⟩ := List.length_eq_two.mp (hpairs line hline hne)
  rw [htokens]
  simp [pairRow]

/-- The first offending line decides the error of a file of keyed lines. -/
lemma keyedFields_parse_eq_error_iff {e : ParseError E} :
    KeyedFields.parse raw valueField = .error e ↔
      ∃ line, FirstRejected IsPairLine (lines raw) line ∧
        ((∃ key, splitAsciiWhitespace line = [key] ∧ e = .missing raw (valueField key)) ∨
          (3 ≤ (splitAsciiWhitespace line).length ∧ e = .excess raw)) := by
  unfold KeyedFields.parse KeyedFields.new
  rw [map_eq_error, collect_map_eq_error_iff]
  refine exists_congr fun line => ?_
  rw [firstRejected_nonBlankLines]
  simp only [succeeds_keyValue]
  refine and_congr_right fun hfirst => keyValue_eq_error_iff ?_
  exact tokens_ne_nil fun hblank => hfirst.rejected fun hne => absurd hblank hne

end keyedFields

/-- The lines of a file of keyed lines, for any labels of their values. A file is accepted exactly
when each line is blank or has two tokens; it then holds the value of the last line of each key, and
nothing else. Otherwise the first line that offends decides the error: a missing value, under the
label of the line's key, or an excess token. No line lacks a key, so that a missing field with the
label `key` is a value whose label is that. -/
theorem keyedFields_parse (raw : Str) (valueField : Str → String) :
    ((∃ fields, KeyedFields.parse (E := E) raw valueField = .ok fields) ↔
      ∀ line ∈ lines raw, IsPairLine line) ∧
    (∀ fields, KeyedFields.parse (E := E) raw valueField = .ok fields →
      fields.raw = raw ∧ ∀ key value, fields.values[key]? = some value ↔
        ∃ line, LastWith (StartsWith key) (lines raw) line ∧
          splitAsciiWhitespace line = [key, value]) ∧
    (∀ e, KeyedFields.parse (E := E) raw valueField = .error e ↔
      ∃ line, FirstRejected IsPairLine (lines raw) line ∧
        ((∃ key, splitAsciiWhitespace line = [key] ∧ e = .missing raw (valueField key)) ∨
          (3 ≤ (splitAsciiWhitespace line).length ∧ e = .excess raw))) ∧
    (∀ line ∈ lines raw, trim line ≠ [] → splitAsciiWhitespace line ≠ []) ∧
    ∀ raw', KeyedFields.parse (E := E) raw valueField = .error (.missing raw' "key") →
      ∃ line ∈ lines raw, ∃ key, splitAsciiWhitespace line = [key] ∧ valueField key = "key" := by
  refine ⟨exists_keyedFields_parse, ?_, fun e => keyedFields_parse_eq_error_iff,
    fun line _ hline => tokens_ne_nil hline, ?_⟩
  · intro fields hfields
    refine ⟨?_, fun key value => getElem?_of_keyedFields_parse hfields⟩
    obtain ⟨values, -, rfl⟩ := map_eq_ok.mp hfields
    rfl
  · intro raw' herror
    obtain ⟨line, hfirst, ⟨key, htokens, he⟩ | ⟨-, he⟩⟩ := keyedFields_parse_eq_error_iff.mp herror
    · simp only [ParseError.missing, ParseError.field.injEq, true_and] at he
      exact ⟨line, hfirst.mem, key, htokens, he.2.symm⟩
    · cases he

/-- A text with a repeated key. -/
def repeatedKey : Str := "a 1\nb 2\na 3\n".toList

/-- The last line of the key is read. -/
theorem keyedFields_parse_repeated :
    ∃ fields, KeyedFields.parse (E := ParseValueError) repeatedKey (fun _ => "value") =
        .ok fields ∧ fields.raw = repeatedKey ∧
      ∃ line, LastWith (StartsWith "a".toList) (lines repeatedKey) line ∧
        splitAsciiWhitespace line = ["a".toList, "3".toList] := by
  obtain ⟨-, hfields, -⟩ := keyedFields_parse (E := ParseValueError) repeatedKey fun _ => "value"
  obtain ⟨hraw, hvalues⟩ := hfields _ rfl
  exact ⟨_, rfl, hraw, (hvalues _ _).mp (by decide +kernel)⟩

/-- A label may be that of the key itself: its value is then reported as a missing key. -/
theorem keyedFields_parse_label :
    KeyedFields.parse (E := ParseValueError) "usage".toList (fun _ => "key") =
      .error (.missing "usage".toList "key") ∧
    ¬ ∀ (raw raw' : Str) (valueField : Str → String),
      KeyedFields.parse (E := ParseValueError) raw valueField ≠ .error (.missing raw' "key") := by
  have hlabel : KeyedFields.parse (E := ParseValueError) "usage".toList (fun _ => "key") =
      .error (.missing "usage".toList "key") := rfl
  exact ⟨hlabel, fun h => h _ _ _ hlabel⟩

/-! ## Device lines -/

namespace Device

/-- What a line of a device shows: two `u32` numbers separated by the first `:` of its first token,
and then at least one token, each with a `=`, whose pairs are read as the value. -/
def ShowsLine (raw : Str) (parse : KeyedFields → Parsed T) (line : Str) (device : Device) (v : T) :
    Prop :=
  ∃ token tokens major minor, splitAsciiWhitespace line = token :: tokens ∧
    splitOnce ':' token = some (major, minor) ∧ parseU32 major = .ok device.major ∧
    parseU32 minor = .ok device.minor ∧ tokens ≠ [] ∧ (∀ t ∈ tokens, '=' ∈ t) ∧
    parse (KeyedFields.ofPairs raw (pairsOfTokens tokens)) = .ok v

variable {raw line : Str} {parse : KeyedFields → Parsed T}

/-- A device token is accepted exactly when both its parts are. -/
lemma parse_eq_ok_iff_splitOnce {value : Str} {device : Device} :
    Device.parse raw value = .ok device ↔
      ∃ major minor, splitOnce ':' value = some (major, minor) ∧
        parseU32 major = .ok device.major ∧ parseU32 minor = .ok device.minor := by
  unfold Device.parse parsePart
  cases splitOnce ':' value with
  | none => simp
  | some p =>
      obtain ⟨major, minor⟩ := p
      simp only [bind_eq_ok, mapError_eq_ok, pure_eq_ok, Option.some.injEq, Prod.mk.injEq]
      constructor
      · intro h
        obtain ⟨majorNumber, hmajor, minorNumber, hminor, rfl⟩ := h
        exact ⟨major, minor, ⟨rfl, rfl⟩, hmajor, hminor⟩
      · intro h
        obtain ⟨_, _, ⟨rfl, rfl⟩, hmajor, hminor⟩ := h
        exact ⟨_, hmajor, _, hminor, rfl⟩

/-- **A line is read exactly as what it shows.** -/
lemma parseRow_eq_ok_iff {device : Device} {v : T} :
    parseRow raw parse (splitAsciiWhitespace line) = .ok (device, v) ↔
      ShowsLine raw parse line device v := by
  unfold ShowsLine
  rcases splitAsciiWhitespace line with _ | ⟨token, tokens⟩
  · simp [parseRow]
  · simp only [parseRow, bind_eq_ok, parse_eq_ok_iff_splitOnce]
    constructor
    · intro h
      obtain ⟨device', ⟨major, minor, hsplit, hmajor, hminor⟩, h⟩ := h
      rcases tokens with _ | ⟨t, ts⟩
      · cases h
      · simp only [bind_eq_ok, KeyedFields.new_assignment_eq_ok_iff_forall, pure_eq_ok,
          Prod.mk.injEq] at h
        obtain ⟨_, ⟨hsep, rfl⟩, _, hv, rfl, rfl⟩ := h
        exact ⟨token, t :: ts, major, minor, rfl, hsplit, hmajor, hminor, List.cons_ne_nil t ts,
          hsep, hv⟩
    · intro h
      obtain ⟨_, _, major, minor, htokens, hsplit, hmajor, hminor, hne, hsep, hv⟩ := h
      obtain ⟨rfl, rfl⟩ := List.cons.inj htokens
      refine ⟨device, ⟨major, minor, hsplit, hmajor, hminor⟩, ?_⟩
      obtain ⟨t, ts, rfl⟩ := List.exists_cons_of_ne_nil hne
      simp only [bind_eq_ok, KeyedFields.new_assignment_eq_ok_iff_forall, pure_eq_ok]
      exact ⟨_, ⟨hsep, rfl⟩, v, hv, rfl⟩

/-- A device token is never a missing one. -/
lemma parse_ne_missing {value raw' : Str} {field : String} :
    Device.parse raw value ≠ .error (.missing raw' field) := by
  unfold Device.parse parsePart
  intro h
  cases hsplit : splitOnce ':' value with
  | none =>
      rw [hsplit] at h
      cases h
  | some p =>
      simp only [hsplit, bind_eq_error, mapError_eq_error, pure_ne_error, and_false, exists_false,
        or_false] at h
      obtain ⟨e, -, he⟩ | ⟨major, -, e, -, he⟩ := h
      · cases he
      · cases he

/-- A token of a pair is never a missing one. -/
lemma new_assignment_ne_missing {tokens : List Str} {raw' : Str} {field : String} :
    KeyedFields.new raw (tokens.map (assignment raw)) ≠ .error (.missing raw' field) := by
  unfold KeyedFields.new
  rw [Ne, map_eq_error, collect_map_eq_error_iff]
  intro h
  obtain ⟨token, -, htoken⟩ := h
  unfold assignment at htoken
  split at htoken
  · cases htoken
  · cases htoken

/-- A line that is not blank lacks no device: if one is reported as missing, then by the reader of
the fields. -/
lemma parseRow_eq_missing (hline : splitAsciiWhitespace line ≠ []) {raw' : Str}
    (h : parseRow raw parse (splitAsciiWhitespace line) = .error (.missing raw' "device")) :
    ∃ fields, parse fields = .error (.missing raw' "device") := by
  obtain ⟨token, tokens, htokens⟩ := List.exists_cons_of_ne_nil hline
  rw [htokens, parseRow, bind_eq_error] at h
  obtain h | ⟨device, -, h⟩ := h
  · exact absurd h parse_ne_missing
  · rcases tokens with _ | ⟨t, ts⟩
    · simp [ParseError.missing] at h
    · simp only [bind_eq_error, pure_ne_error, and_false, exists_false, or_false] at h
      obtain h | ⟨fields, -, h⟩ := h
      · exact absurd h new_assignment_ne_missing
      · exact ⟨fields, h⟩

end Device

/-- The lines of a file of devices, for any reader of their fields. A file is accepted exactly when
each line that is not blank shows a device and fields that are read; it then maps each device to
what its last line is read as, and nothing else. Otherwise the file is rejected with the error of
the first line that is. A missing device is reported by the reader of the fields only. -/
theorem device_parseLines (raw : Str) (parse : KeyedFields → Parsed T) :
    ((∃ devices, Device.parseLines raw parse = .ok devices) ↔
      ∀ line ∈ lines raw, trim line ≠ [] →
        ∃ device v, Device.ShowsLine raw parse line device v) ∧
    (∀ devices, Device.parseLines raw parse = .ok devices → ∀ (device : Device) v,
      devices[device]? = some v ↔
        ∃ line, LastWith (fun line => trim line ≠ [] ∧
            ∃ w, Device.ShowsLine raw parse line device w) (lines raw) line ∧
          Device.ShowsLine raw parse line device v) ∧
    (∀ e, Device.parseLines raw parse = .error e ↔
      ∃ line, FirstRejected (fun line => trim line ≠ [] →
            ∃ device v, Device.ShowsLine raw parse line device v) (lines raw) line ∧
          Device.parseRow raw parse (splitAsciiWhitespace line) = .error e) ∧
    ∀ raw', Device.parseLines raw parse = .error (.missing raw' "device") →
      ∃ fields, parse fields = .error (.missing raw' "device") := by
  have hsucceeds : ∀ line, Succeeds
      (fun line => Device.parseRow raw parse (splitAsciiWhitespace line)) line ↔
      ∃ device v, Device.ShowsLine raw parse line device v := by
    intro line
    unfold Succeeds
    simp only [Prod.exists, Device.parseRow_eq_ok_iff]
  have herror : ∀ e, Device.parseLines raw parse = .error e ↔
      ∃ line, FirstRejected (fun line => trim line ≠ [] →
            ∃ device v, Device.ShowsLine raw parse line device v) (lines raw) line ∧
          Device.parseRow raw parse (splitAsciiWhitespace line) = .error e := by
    intro e
    unfold Device.parseLines
    rw [collect_map_eq_error_iff]
    simp only [firstRejected_nonBlankLines, hsucceeds]
  refine ⟨?_, ?_, herror, ?_⟩
  · unfold Device.parseLines
    rw [exists_collect_map, forall_nonBlankLines]
    simp only [hsucceeds]
  · intro devices hdevices device v
    rw [getElem?_of_collect_map hdevices]
    simp only [lastWith_nonBlankLines, Device.parseRow_eq_ok_iff]
  · intro raw' h
    obtain ⟨line, hfirst, hline⟩ := (herror _).mp h
    refine Device.parseRow_eq_missing (tokens_ne_nil fun hblank => ?_) hline
    exact hfirst.rejected fun hne => absurd hblank hne

/-- A text with a repeated device. -/
def repeatedDevice : Str := "8:0 rbytes=1\n8:16 rbytes=5\n8:0 rbytes=2\n".toList

/-- A reader of one count. -/
def requireReadBytes (fields : KeyedFields) : Parsed Count := fields.required ParseCount "rbytes"

/-- The last line of the device is read. -/
theorem device_parseLines_repeated :
    ∃ devices, Device.parseLines repeatedDevice requireReadBytes = .ok devices ∧
      ∃ line, LastWith (fun line => trim line ≠ [] ∧
          ∃ w, Device.ShowsLine repeatedDevice requireReadBytes line ⟨8, 0⟩ w)
          (lines repeatedDevice) line ∧
        Device.ShowsLine repeatedDevice requireReadBytes line ⟨8, 0⟩ ⟨2⟩ := by
  obtain ⟨-, hdevices, -⟩ := device_parseLines repeatedDevice requireReadBytes
  exact ⟨_, rfl, (hdevices _ rfl ⟨8, 0⟩ ⟨2⟩).mp (by decide +kernel)⟩

/-- A reader of the fields that requires a device of its own. -/
def requireDevice (fields : KeyedFields) : Parsed Count := fields.required ParseCount "device"

/-- The reader of the fields may itself report a missing device. -/
theorem device_parseLines_required :
    Device.parseLines "8:0 rbytes=1".toList requireDevice =
      .error (.missing "8:0 rbytes=1".toList "device") ∧
    ¬ ∀ (raw raw' : Str) (parse : KeyedFields → Parsed Count),
      Device.parseLines raw parse ≠ .error (.missing raw' "device") := by
  have hmissing : Device.parseLines "8:0 rbytes=1".toList requireDevice =
      .error (.missing "8:0 rbytes=1".toList "device") := rfl
  exact ⟨hmissing, fun h => h _ _ _ hmissing⟩

end Sakai
