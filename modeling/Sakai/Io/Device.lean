import Sakai.Nested

/-!
# Device lines

The nested-keyed format shared by the I/O interfaces: one line a device, `major:minor` and then
its fields.

* `Device.parse_token`: a device is read back from its printed numbers.
* `Device.Renders enc devices text`: `text` shows one line for each device, in any order among
  blank lines, the tokens after the device showing its record in any order among tokens of other
  keys.
* `Device.parseLines_of_renders`: such a text is read as exactly its devices.
-/

namespace Sakai

open Lib

variable {T : Type}

/-- A block-device identifier.
Source: `io/mod.rs`, `Device`. -/
structure Device where
  /-- The major number. -/
  major : UInt32
  /-- The minor number. -/
  minor : UInt32
  deriving DecidableEq, Repr

namespace Device

/-- Devices are ordered by major, then by minor number.
Source: `io/mod.rs`, the derived `Ord` of `Device`. -/
instance : Ord Device := ⟨compareLex (compareOn Device.major) (compareOn Device.minor)⟩

instance : Std.TransOrd Device :=
  inferInstanceAs (Std.TransCmp (compareLex (compareOn Device.major) (compareOn Device.minor)))

instance : Std.LawfulEqOrd Device where
  eq_of_compare {a b} h := by
    obtain ⟨hmajor, hminor⟩ := compareLex_eq_eq.mp h
    have h₁ : a.major = b.major := Std.LawfulEqOrd.eq_of_compare hmajor
    have h₂ : a.minor = b.minor := Std.LawfulEqOrd.eq_of_compare hminor
    cases a
    cases b
    simp_all

/-- A number of a device token.
Source: `io/mod.rs`, the closure of `Device::parse`. -/
def parsePart (raw value part : Str) : Parsed UInt32 :=
  (parseU32 part).mapError fun error => .invalid raw "device" value (.integer error)

/-- The two numbers of a device token, split at the first `:`.
Source: `io/mod.rs`, `Device::parse`. -/
def parse (raw value : Str) : Parsed Device :=
  match splitOnce ':' value with
  | none => .error (.invalid raw "device" value .outOfRange)
  | some (major, minor) => do
    let major ← parsePart raw value major
    return ⟨major, ← parsePart raw value minor⟩

/-- The tokens of one line: the device, and its fields.
Source: `io/mod.rs`, the closure over the lines of `Device::parse_lines`. -/
def parseRow (raw : Str) (parse : KeyedFields → Parsed T) : List Str → Parsed (Device × T)
  | [] => .error (.missing raw "device")
  | token :: tokens => do
    let device ← Device.parse raw token
    match tokens with
    | [] => .error (.missing raw "value")
    | _ :: _ =>
      let fields ← KeyedFields.new raw (tokens.map (assignment raw))
      return (device, ← parse fields)

/-- The lines of a file that are not blank, collected by device.
Source: `io/mod.rs`, `Device::parse_lines`. -/
def parseLines (raw : Str) (parse : KeyedFields → Parsed T) : Parsed (BTreeMap Device T) :=
  collect ((nonBlankLines raw).map fun line => parseRow raw parse (splitAsciiWhitespace line))

/-- A file is collected from the rows of its lines. -/
lemma parseLines_eq (raw : Str) (parse : KeyedFields → Parsed T) :
    parseLines raw parse = collect ((rowsOf raw).map (parseRow raw parse)) := by
  unfold parseLines rowsOf
  rw [List.map_map]
  rfl

/-- The text names the device: two numerals with a `:` between them. -/
def Names (value : Str) (device : Device) : Prop :=
  ∃ major minor, value = major ++ ':' :: minor ∧ IsNumeral major device.major.toNat ∧
    IsNumeral minor device.minor.toNat

/-- **A device token is accepted exactly as the device it names.** -/
lemma parse_eq_ok_iff {raw value : Str} {device : Device} :
    parse raw value = .ok device ↔ Names value device := by
  unfold parse Names parsePart
  constructor
  · intro h
    rcases hsplit : splitOnce ':' value with _ | ⟨major, minor⟩
    · rw [hsplit] at h
      cases h
    · simp only [hsplit, bind_eq_ok, mapError_eq_ok, parseU32_eq_ok_iff, pure_eq_ok] at h
      obtain ⟨majorNumber, hmajor, minorNumber, hminor, rfl⟩ := h
      exact ⟨major, minor, (splitOnce_eq_some_iff.mp hsplit).1, hmajor, hminor⟩
  · rintro ⟨major, minor, rfl, hmajor, hminor⟩
    have hsep : ':' ∉ major := hmajor.not_mem (by decide) (by decide)
    rw [splitOnce_append_cons hsep]
    simp only [bind_eq_ok, mapError_eq_ok, parseU32_eq_ok_iff, pure_eq_ok]
    exact ⟨_, hmajor, _, hminor, rfl⟩

/-! ## Rendering -/

/-- The printed form of a device. -/
def token (device : Device) : Str := decimal device.major.toNat ++ ':' :: decimal device.minor.toNat

/-- A device is read back from its printed numbers. -/
lemma parse_token (raw : Str) (device : Device) : parse raw device.token = .ok device := by
  have hsep : ':' ∉ decimal device.major.toNat := not_mem_decimal (by decide) _
  unfold parse token parsePart
  rw [splitOnce_append_cons hsep]
  simp only [parseU32_decimal, Except.mapError, ok_bind]
  rfl

/-- The row of a device: its numbers, and the tokens of its pairs. -/
def row (r : Device × List (Str × Str)) : List Str := r.1.token :: r.2.map assign

/-- A printed row is read as its device, with what its pairs are read as. -/
lemma parseRow_row {raw : Str} {parse : KeyedFields → Parsed T} {device : Device}
    {pairs : List (Str × Str)} (hplain : PlainKeys pairs) (hne : pairs ≠ []) :
    parseRow raw parse (row (device, pairs)) =
      (parse (KeyedFields.ofPairs raw pairs)).map fun v => (device, v) := by
  have hfields := KeyedFields.new_assign raw hplain
  rcases pairs with _ | ⟨pair, pairs⟩
  · exact absurd rfl hne
  · show (Device.parse raw device.token >>= fun device => do
      let fields ← KeyedFields.new raw (((pair :: pairs).map assign).map (assignment raw))
      return (device, ← parse fields)) = _
    rw [parse_token, ok_bind, hfields, ok_bind]
    cases parse (KeyedFields.ofPairs raw (pair :: pairs)) <;> rfl

section renders

variable {F : Type} [DecidableEq F] [NamedEnum F]

/-- The text shows the devices: one line for each, in any order, with blank lines interleaved; the
tokens after the device show its record, in any order, among tokens of other keys. -/
def Renders (enc : T → F → Option Str) (devices : BTreeMap Device T) (text : Str) : Prop :=
  ∃ rows : List (Device × List (Str × Str)),
    ListsMap (fun e r => r.1 = e.1 ∧ PlainKeys r.2 ∧ NamedEnum.Shows (enc e.2) r.2) devices rows ∧
    Layout (rows.map row) text

/-- **A rendering of devices is read as exactly these devices**, when their records have a field
each and are read back from the fields that show them. -/
theorem parseLines_of_renders {enc : T → F → Option Str} {devices : BTreeMap Device T}
    {text : Str} {fromFields : KeyedFields → Parsed T} (hrenders : Renders enc devices text)
    (hfield : ∀ (d : Device) v, devices[d]? = some v → ∃ f, enc v f ≠ none)
    (hread : ∀ (d : Device) v fields, devices[d]? = some v →
      (∀ f : F, fields.values[NamedEnum.key f]? = enc v f) → fromFields fields = .ok v) :
    parseLines text fromFields = .ok devices := by
  obtain ⟨rows, hlists, hlayout⟩ := hrenders
  rw [parseLines_eq, rows_of_layout hlayout, List.map_map]
  apply collect_of_listsMap hlists
  rintro ⟨d, v⟩ ⟨device, pairs⟩ hget ⟨rfl, hplain, hshows⟩
  obtain ⟨f, hf⟩ := hfield device v hget
  rw [Function.comp_apply, parseRow_row hplain (ne_nil_of_shows hshows hf),
    hread device v _ hget (ofPairs_of_shows text hshows)]
  rfl

end renders

end Device

end Sakai
