import Sakai.Nested

/-!
# RDMA devices

The nested-keyed format of the `rdma.*` files: one line a device, its name and then its fields,
one of which may be its index. A record is identified by the name and the optional index together.

* `deviceIndex_eq_ok_iff`: the identity takes the line's `index`, and nothing else of it.
* `RdmaDevice.Renders enc devices text`: `text` shows one line for each device, in any order among
  blank lines, the tokens after the name showing its index and record in any order among tokens
  of other keys.
* `RdmaDevice.parseDevices_of_renders`: such a text is read as exactly its devices.
* `RdmaDevice.exists_error_of_index`: an index that is not a 32-bit number fails every reader.
* `rdma_decodes`: the three readers, with the two meanings of `max`.
-/

namespace Sakai

open Lib

variable {T : Type}

/-! ## Devices -/

/-- An adapter name and its optional index.
Source: `rdma.rs`, `RdmaDevice`. -/
structure RdmaDevice where
  /-- The name. -/
  name : Str
  /-- The index, when the kernel reported one. -/
  index : Option UInt32
  deriving DecidableEq, Repr

namespace RdmaDevice

/-- Devices are ordered by name, then by index.
Source: `rdma.rs`, the derived `Ord` of `RdmaDevice`. -/
instance : Ord RdmaDevice := ⟨compareLex (compareOn RdmaDevice.name) (compareOn RdmaDevice.index)⟩

instance : Std.TransOrd RdmaDevice :=
  inferInstanceAs
    (Std.TransCmp (compareLex (compareOn RdmaDevice.name) (compareOn RdmaDevice.index)))

instance : Std.LawfulEqOrd RdmaDevice where
  eq_of_compare {a b} h := by
    obtain ⟨hname, hindex⟩ := compareLex_eq_eq.mp h
    have h₁ : a.name = b.name := Std.LawfulEqOrd.eq_of_compare hname
    have h₂ : a.index = b.index := Std.LawfulEqOrd.eq_of_compare hindex
    cases a
    cases b
    simp_all

end RdmaDevice

/-- The index among the fields of a line.
Source: `rdma.rs`, the binding of `index` in `parse_devices`. -/
def deviceIndex (raw : Str) (fields : KeyedFields) : Parsed (Option UInt32) :=
  match fields.iter.findSome? fun e => if e.1 = "index".toList then some e.2 else none with
  | none => .ok none
  | some value =>
    ((parseU32 value).mapError fun error => .invalid raw "index" value (.integer error)).map some

/-- The tokens of one line: the device, and its fields.
Source: `rdma.rs`, the closure over the lines of `parse_devices`. -/
def parseDevice (raw : Str) (parse : KeyedFields → Parsed T) : List Str → Parsed (RdmaDevice × T)
  | [] => .error (.missing raw "device")
  | device :: tokens => do
    let fields ← KeyedFields.new raw (tokens.map (assignment raw))
    let index ← deviceIndex raw fields
    return (⟨device, index⟩, ← parse fields)

/-- The lines of a file that are not blank, collected by device.
Source: `rdma.rs`, `parse_devices`. -/
def parseDevices (raw : Str) (parse : KeyedFields → Parsed T) : Parsed (BTreeMap RdmaDevice T) :=
  collect ((nonBlankLines raw).map fun line => parseDevice raw parse (splitAsciiWhitespace line))

/-- A file is collected from the rows of its lines. -/
lemma parseDevices_eq (raw : Str) (parse : KeyedFields → Parsed T) :
    parseDevices raw parse = collect ((rowsOf raw).map (parseDevice raw parse)) := by
  unfold parseDevices rowsOf
  rw [List.map_map]
  rfl

/-- **The index of a line** is absent exactly when the key is, and is its numeral otherwise. -/
lemma deviceIndex_eq_ok_iff {raw : Str} {fields : KeyedFields} {index : Option UInt32} :
    deviceIndex raw fields = .ok index ↔
      Option.Rel (fun value (n : UInt32) => IsNumeral value n.toNat)
        fields.values["index".toList]? index := by
  unfold deviceIndex KeyedFields.iter
  rw [findSome?_eq_lastValue (nodup_keys_toList fields.values), lastValue_toList]
  cases fields.values["index".toList]? with
  | none =>
      constructor
      · intro h
        cases h
        exact Option.Rel.none
      · intro h
        cases h
        rfl
  | some value =>
      simp only [map_eq_ok, mapError_eq_ok, parseU32_eq_ok_iff]
      constructor
      · rintro ⟨n, hn, rfl⟩
        exact Option.Rel.some hn
      · intro h
        cases h with
        | some hn => exact ⟨_, hn, rfl⟩

/-! ## Rendering -/

namespace RdmaDevice

/-- The row of a name and pairs. -/
def row (r : Str × List (Str × Str)) : List Str := r.1 :: r.2.map assign

/-- The printed index, when there is one. -/
def encodeIndex (device : RdmaDevice) : Option Str := device.index.map fun n => decimal n.toNat

/-- A printed row is read as its name and index, with what its pairs are read as. -/
lemma parseDevice_row {raw : Str} {parse : KeyedFields → Parsed T} {r : Str × List (Str × Str)}
    {index : Option UInt32} (hplain : PlainKeys r.2)
    (hindex : deviceIndex raw (KeyedFields.ofPairs raw r.2) = .ok index) :
    parseDevice raw parse (row r) =
      (parse (KeyedFields.ofPairs raw r.2)).map fun v => (⟨r.1, index⟩, v) := by
  show (KeyedFields.new raw ((r.2.map assign).map (assignment raw)) >>= fun fields => do
    let index ← deviceIndex raw fields
    return (RdmaDevice.mk r.1 index, ← parse fields)) = _
  rw [KeyedFields.new_assign raw hplain, ok_bind, hindex, ok_bind]
  cases parse (KeyedFields.ofPairs raw r.2) <;> rfl

section renders

variable {F : Type} [DecidableEq F] [NamedEnum F]

/-- The text shows the devices: one line for each, in any order, with blank lines interleaved; the
tokens after the name show its index and its record, in any order, among tokens of other keys. -/
def Renders (enc : RdmaDevice × T → F → Option Str) (devices : BTreeMap RdmaDevice T)
    (text : Str) : Prop :=
  ∃ rows : List (Str × List (Str × Str)),
    ListsMap (fun e r => r.1 = e.1.name ∧ PlainKeys r.2 ∧ NamedEnum.Shows (enc e) r.2)
      devices rows ∧
    Layout (rows.map row) text

/-- **A rendering of devices is read as exactly these devices**, when one of the fields is the
index and their records are read back from the fields that show them. -/
theorem parseDevices_of_renders {enc : RdmaDevice × T → F → Option Str}
    {devices : BTreeMap RdmaDevice T} {text : Str} {fromFields : KeyedFields → Parsed T} (f : F)
    (hindex : NamedEnum.key f = "index".toList) (henc : ∀ e, enc e f = e.1.encodeIndex)
    (hrenders : Renders enc devices text)
    (hread : ∀ e fields, (∀ g : F, fields.values[NamedEnum.key g]? = enc e g) →
      fromFields fields = .ok e.2) :
    parseDevices text fromFields = .ok devices := by
  obtain ⟨rows, hlists, hlayout⟩ := hrenders
  rw [parseDevices_eq, rows_of_layout hlayout, List.map_map]
  apply collect_of_listsMap hlists
  rintro ⟨⟨_, index⟩, v⟩ ⟨name, pairs⟩ - ⟨rfl, hplain, hshows⟩
  have hget := ofPairs_of_shows text hshows
  have hidx : deviceIndex text (KeyedFields.ofPairs text pairs) = .ok index := by
    have hlookup := (hget f).trans (henc _)
    rw [hindex] at hlookup
    rw [deviceIndex_eq_ok_iff, hlookup]
    unfold encodeIndex
    cases index with
    | none => exact Option.Rel.none
    | some n => exact Option.Rel.some (isNumeral_decimal _)
  have hv : fromFields (KeyedFields.ofPairs text pairs) = .ok v := hread (⟨name, index⟩, v) _ hget
  show parseDevice text fromFields (row (name, pairs)) = .ok (⟨name, index⟩, v)
  rw [parseDevice_row hplain hidx, hv]
  rfl

end renders

/-- **An index that is not a 32-bit number fails the whole file**, whatever the other tokens are
and whatever is read from the fields. -/
theorem exists_error_of_index {text name value : Str} {before after : List Str}
    (fromFields : KeyedFields → Parsed T)
    (hrow : name :: (before ++ assign ("index".toList, value) :: after) ∈ rowsOf text)
    (hlast : ∀ v, assign ("index".toList, v) ∉ after)
    (hvalue : ∀ n : UInt32, ¬ IsNumeral value n.toNat) :
    ∃ error, parseDevices text fromFields = .error error := by
  rcases h : parseDevices text fromFields with error | devices
  · exact ⟨error, rfl⟩
  · rw [parseDevices_eq] at h
    obtain ⟨entries, hentries, -⟩ := collect_eq_ok_iff.mp h
    obtain ⟨e, -, he⟩ := exists_value_of_mem hentries hrow
    unfold parseDevice at he
    obtain ⟨fields, hfields, hrest⟩ := bind_eq_ok.mp he
    obtain ⟨index, hidx, -⟩ := bind_eq_ok.mp hrest
    obtain ⟨pairs, hplain, htokens, rfl⟩ := KeyedFields.new_assignment_eq_ok_iff.mp hfields
    obtain ⟨bs, cs, rfl, -, hcs⟩ := List.append_eq_map_iff.mp htokens
    obtain ⟨e, as, rfl, hassign, rfl⟩ := List.map_eq_cons_iff.mp hcs
    have he := assign_inj (hplain e (by simp)) (show '=' ∉ "index".toList by decide) hassign
    -- No pair after it is an index, so its value is the one that is read.
    have hnone : lastValue "index".toList as = none := by
      rw [lastValue_eq_none_iff]
      rintro ⟨key, v⟩ hmem rfl
      exact hlast v (List.mem_map_of_mem hmem)
    rw [deviceIndex_eq_ok_iff, KeyedFields.ofPairs_values, he, lastValue_append_cons hnone] at hidx
    cases hidx with
    | some hn => exact absurd hn (hvalue _)

end RdmaDevice

/-! ## Usage and limits -/

/-- HCA handle and object counts for one device.
Source: `rdma.rs`, `RdmaDeviceCurrent`. -/
structure RdmaDeviceCurrent where
  /-- HCA handles. -/
  hcaHandle : Count
  /-- HCA objects. -/
  hcaObject : Count
  deriving DecidableEq, Repr

/-- HCA handle and object limits for one device.
Source: `rdma.rs`, `RdmaDeviceMax`. -/
structure RdmaDeviceMax where
  /-- HCA handles. -/
  hcaHandle : MaxOr Count
  /-- HCA objects. -/
  hcaObject : MaxOr Count
  deriving DecidableEq, Repr

/-- A snapshot of usage or peak usage.
Source: `rdma.rs`, `RdmaCurrent`. -/
structure RdmaCurrent where
  /-- The usage of each device. -/
  devices : BTreeMap RdmaDevice RdmaDeviceCurrent

/-- A configuration snapshot of limits.
Source: `rdma.rs`, `RdmaMax`. -/
structure RdmaMax where
  /-- The limits of each device. -/
  devices : BTreeMap RdmaDevice RdmaDeviceMax

/-- The keys of an `rdma.current`, `rdma.peak` or `rdma.max` line. -/
inductive RdmaField
  | index
  | hcaHandle
  | hcaObject
  deriving DecidableEq, Repr

/-- The printed name of a key. -/
def RdmaField.name : RdmaField → String
  | index => "index"
  | hcaHandle => "hca_handle"
  | hcaObject => "hca_object"

instance : NamedEnum RdmaField where
  all := [.index, .hcaHandle, .hcaObject]
  name := RdmaField.name
  mem_all := by intro f; cases f <;> decide
  nodup_names := by decide

namespace RdmaDeviceCurrent

/-- The count the kernel prints as `max`.
Source: `rdma.rs`, `i32::MAX` in `RdmaDeviceCurrent::from_fields`. -/
def maxCount : Count := ⟨2147483647⟩

/-- A usage count, `max` being the largest one.
Source: `rdma.rs`, the closure `count` of `RdmaDeviceCurrent::from_fields`. -/
def count (fields : KeyedFields) (field : String) : Parsed Count :=
  (fields.required ParseCount field : Parsed (MaxOr Count)).map fun
    | .value count => count
    | .max => maxCount

/-- Source: `rdma.rs`, `RdmaDeviceCurrent::from_fields`. -/
def fromFields (fields : KeyedFields) : Parsed RdmaDeviceCurrent := do
  let hcaHandle ← count fields "hca_handle"
  return ⟨hcaHandle, ← count fields "hca_object"⟩

/-- The printed form of a usage count: the largest one is printed as `max`. -/
def printCount (c : Count) : Str :=
  if c = maxCount then "max".toList else decimal c.value.toNat

/-- The printed value of each key. -/
def encode (e : RdmaDevice × RdmaDeviceCurrent) : RdmaField → Option Str
  | .index => e.1.encodeIndex
  | .hcaHandle => some (printCount e.2.hcaHandle)
  | .hcaObject => some (printCount e.2.hcaObject)

section count

variable {fields : KeyedFields} {field : String}

/-- **`max` in usage is the largest count.** -/
lemma count_of_max (hget : fields.values[field.toList]? = some "max".toList) :
    count fields field = .ok maxCount := by
  have hmax : (fields.required ParseCount field : Parsed (MaxOr Count)) = .ok .max :=
    KeyedFields.required_of_encoded hget (parseMaxOr_eq_ok_iff.mpr (Or.inl ⟨rfl, rfl⟩))
  unfold count
  rw [hmax]
  rfl

/-- A printed usage count is read back. -/
lemma count_of_printed {c : Count} (hget : fields.values[field.toList]? = some (printCount c)) :
    count fields field = .ok c := by
  unfold printCount at hget
  split_ifs at hget with hc
  · rw [count_of_max hget, hc]
  · have hvalue : (fields.required ParseCount field : Parsed (MaxOr Count)) = .ok (.value c) :=
      KeyedFields.required_of_encoded hget (parseMaxOr_eq_ok_iff.mpr
        (Or.inr ⟨decimal_ne_max _, c, parseQuantity_decimal Count.mk c.value, rfl⟩))
    unfold count
    rw [hvalue]
    rfl

end count

/-- Usage is read back from the fields that show it. -/
lemma fromFields_of_encoded {e : RdmaDevice × RdmaDeviceCurrent} {fields : KeyedFields}
    (hget : ∀ f : RdmaField, fields.values[NamedEnum.key f]? = encode e f) :
    fromFields fields = .ok e.2 := by
  have hhandle : count fields "hca_handle" = .ok e.2.hcaHandle :=
    count_of_printed (hget .hcaHandle)
  have hobject : count fields "hca_object" = .ok e.2.hcaObject :=
    count_of_printed (hget .hcaObject)
  unfold fromFields
  rw [hhandle, ok_bind, hobject]
  rfl

end RdmaDeviceCurrent

/-- Source: `rdma.rs`, `RdmaCurrent::from_str`. -/
def RdmaCurrent.fromStr (contents : Str) : Parsed RdmaCurrent := do
  return ⟨← parseDevices contents RdmaDeviceCurrent.fromFields⟩

namespace RdmaDeviceMax

/-- Source: `rdma.rs`, `RdmaDeviceMax::from_fields`. -/
def fromFields (fields : KeyedFields) : Parsed RdmaDeviceMax := do
  let hcaHandle ← fields.required ParseCount "hca_handle"
  return ⟨hcaHandle, ← fields.required ParseCount "hca_object"⟩

/-- The printed value of each key. -/
def encode (e : RdmaDevice × RdmaDeviceMax) : RdmaField → Option Str
  | .index => e.1.encodeIndex
  | .hcaHandle => some (e.2.hcaHandle.encode fun c => decimal c.value.toNat)
  | .hcaObject => some (e.2.hcaObject.encode fun c => decimal c.value.toNat)

/-- A printed limit is read back. -/
lemma required_of_printed {fields : KeyedFields} {field : String} {m : MaxOr Count}
    (hget : fields.values[field.toList]? = some (m.encode fun c => decimal c.value.toNat)) :
    fields.required ParseCount field = .ok m :=
  KeyedFields.required_of_encoded hget
    (parseMaxOr_encode (fun _ => decimal_ne_max _)
      (fun c => parseQuantity_decimal Count.mk c.value) m)

/-- Limits are read back from the fields that show them. -/
lemma fromFields_of_encoded {e : RdmaDevice × RdmaDeviceMax} {fields : KeyedFields}
    (hget : ∀ f : RdmaField, fields.values[NamedEnum.key f]? = encode e f) :
    fromFields fields = .ok e.2 := by
  have hhandle : fields.required ParseCount "hca_handle" = .ok e.2.hcaHandle :=
    required_of_printed (hget .hcaHandle)
  have hobject : fields.required ParseCount "hca_object" = .ok e.2.hcaObject :=
    required_of_printed (hget .hcaObject)
  unfold fromFields
  rw [hhandle, ok_bind, hobject]
  rfl

end RdmaDeviceMax

/-- Source: `rdma.rs`, `RdmaMax::from_str`. -/
def RdmaMax.fromStr (contents : Str) : Parsed RdmaMax := do
  return ⟨← parseDevices contents RdmaDeviceMax.fromFields⟩

/-! ## Events -/

/-- Allocation-failure event counts for one resource.
Source: `rdma.rs`, `RdmaResourceEvents`. -/
structure RdmaResourceEvents where
  /-- Failures against the cgroup's own limit. -/
  max : Count
  /-- Requests rejected by the cgroup's or an ancestor's limit. -/
  allocFail : Count
  deriving DecidableEq, Repr

/-- Allocation events for both resource types of one device.
Source: `rdma.rs`, `RdmaDeviceEvents`. -/
structure RdmaDeviceEvents where
  /-- HCA handles. -/
  hcaHandle : RdmaResourceEvents
  /-- HCA objects. -/
  hcaObject : RdmaResourceEvents
  deriving DecidableEq, Repr

/-- A snapshot of hierarchical or local events.
Source: `rdma.rs`, `RdmaEvents`. -/
structure RdmaEvents where
  /-- The events of each device. -/
  devices : BTreeMap RdmaDevice RdmaDeviceEvents

/-- The keys of an `rdma.events` line. -/
inductive RdmaEventField
  | index
  | hcaHandleMax
  | hcaHandleAllocFail
  | hcaObjectMax
  | hcaObjectAllocFail
  deriving DecidableEq, Repr

/-- The printed name of a key. -/
def RdmaEventField.name : RdmaEventField → String
  | index => "index"
  | hcaHandleMax => "hca_handle.max"
  | hcaHandleAllocFail => "hca_handle.alloc_fail"
  | hcaObjectMax => "hca_object.max"
  | hcaObjectAllocFail => "hca_object.alloc_fail"

instance : NamedEnum RdmaEventField where
  all := [.index, .hcaHandleMax, .hcaHandleAllocFail, .hcaObjectMax, .hcaObjectAllocFail]
  name := RdmaEventField.name
  mem_all := by intro f; cases f <;> decide
  nodup_names := by decide

namespace RdmaDeviceEvents

/-- Source: `rdma.rs`, `RdmaDeviceEvents::from_fields`. -/
def fromFields (fields : KeyedFields) : Parsed RdmaDeviceEvents := do
  let handleMax ← fields.required ParseCount "hca_handle.max"
  let handleFail ← fields.required ParseCount "hca_handle.alloc_fail"
  let objectMax ← fields.required ParseCount "hca_object.max"
  let objectFail ← fields.required ParseCount "hca_object.alloc_fail"
  return ⟨⟨handleMax, handleFail⟩, ⟨objectMax, objectFail⟩⟩

/-- The printed value of each key. -/
def encode (e : RdmaDevice × RdmaDeviceEvents) : RdmaEventField → Option Str
  | .index => e.1.encodeIndex
  | .hcaHandleMax => some (decimal e.2.hcaHandle.max.value.toNat)
  | .hcaHandleAllocFail => some (decimal e.2.hcaHandle.allocFail.value.toNat)
  | .hcaObjectMax => some (decimal e.2.hcaObject.max.value.toNat)
  | .hcaObjectAllocFail => some (decimal e.2.hcaObject.allocFail.value.toNat)

/-- A printed event count is read back. -/
lemma required_of_printed {fields : KeyedFields} {field : String} {c : Count}
    (hget : fields.values[field.toList]? = some (decimal c.value.toNat)) :
    fields.required ParseCount field = .ok c :=
  KeyedFields.required_of_encoded hget (parseQuantity_decimal Count.mk c.value)

/-- Events are read back from the fields that show them. -/
lemma fromFields_of_encoded {e : RdmaDevice × RdmaDeviceEvents} {fields : KeyedFields}
    (hget : ∀ f : RdmaEventField, fields.values[NamedEnum.key f]? = encode e f) :
    fromFields fields = .ok e.2 := by
  have hhandle : fields.required ParseCount "hca_handle.max" = .ok e.2.hcaHandle.max :=
    required_of_printed (hget .hcaHandleMax)
  have hhandleFail : fields.required ParseCount "hca_handle.alloc_fail" =
      .ok e.2.hcaHandle.allocFail := required_of_printed (hget .hcaHandleAllocFail)
  have hobject : fields.required ParseCount "hca_object.max" = .ok e.2.hcaObject.max :=
    required_of_printed (hget .hcaObjectMax)
  have hobjectFail : fields.required ParseCount "hca_object.alloc_fail" =
      .ok e.2.hcaObject.allocFail := required_of_printed (hget .hcaObjectAllocFail)
  unfold fromFields
  rw [hhandle, ok_bind, hhandleFail, ok_bind, hobject, ok_bind, hobjectFail]
  rfl

end RdmaDeviceEvents

/-- Source: `rdma.rs`, `RdmaEvents::from_str`. -/
def RdmaEvents.fromStr (contents : Str) : Parsed RdmaEvents := do
  return ⟨← parseDevices contents RdmaDeviceEvents.fromFields⟩

/-! ## The three readers -/

/-- A reader is that of its devices. -/
lemma fromStr_of_parseDevices {S : Type} {mk : BTreeMap RdmaDevice T → S}
    {fromFields : KeyedFields → Parsed T} {text : Str} {devices : BTreeMap RdmaDevice T}
    (h : parseDevices text fromFields = .ok devices) :
    (do return mk (← parseDevices text fromFields)) = (.ok (mk devices) : Parsed S) := by
  rw [h]
  rfl

/-- **RDMA records keep their identity.** Every rendering of usage counts, limits or event counts
is read as exactly the devices it shows, so that devices with one name are told apart by their
indices, an absent index included; `max` is a count in usage and no limit in limits; and an index
that is not a 32-bit number fails all three readers. -/
theorem rdma_decodes :
    (∀ devices text, RdmaDevice.Renders RdmaDeviceCurrent.encode devices text →
      RdmaCurrent.fromStr text = .ok ⟨devices⟩) ∧
    (∀ devices text, RdmaDevice.Renders RdmaDeviceMax.encode devices text →
      RdmaMax.fromStr text = .ok ⟨devices⟩) ∧
    (∀ devices text, RdmaDevice.Renders RdmaDeviceEvents.encode devices text →
      RdmaEvents.fromStr text = .ok ⟨devices⟩) ∧
    (∀ (fields : KeyedFields) (field : String), fields.values[field.toList]? = some "max".toList →
      RdmaDeviceCurrent.count fields field = .ok ⟨2147483647⟩ ∧
      (fields.required ParseCount field : Parsed (MaxOr Count)) = .ok .max) ∧
    ∀ text name value before after,
      name :: (before ++ assign ("index".toList, value) :: after) ∈ rowsOf text →
      (∀ v, assign ("index".toList, v) ∉ after) →
      (∀ n : UInt32, ¬ IsNumeral value n.toNat) →
      (∃ error, RdmaCurrent.fromStr text = .error error) ∧
      (∃ error, RdmaMax.fromStr text = .error error) ∧
      ∃ error, RdmaEvents.fromStr text = .error error := by
  refine ⟨fun devices text h => ?_, fun devices text h => ?_, fun devices text h => ?_,
    fun fields field hget => ⟨RdmaDeviceCurrent.count_of_max hget, ?_⟩,
    fun text name value before after hrow hlast hvalue => ?_⟩
  · exact fromStr_of_parseDevices (RdmaDevice.parseDevices_of_renders RdmaField.index rfl
      (fun _ => rfl) h fun _ _ hget => RdmaDeviceCurrent.fromFields_of_encoded hget)
  · exact fromStr_of_parseDevices (RdmaDevice.parseDevices_of_renders RdmaField.index rfl
      (fun _ => rfl) h fun _ _ hget => RdmaDeviceMax.fromFields_of_encoded hget)
  · exact fromStr_of_parseDevices (RdmaDevice.parseDevices_of_renders RdmaEventField.index rfl
      (fun _ => rfl) h fun _ _ hget => RdmaDeviceEvents.fromFields_of_encoded hget)
  · exact KeyedFields.required_of_encoded hget (parseMaxOr_eq_ok_iff.mpr (Or.inl ⟨rfl, rfl⟩))
  · have herror : ∀ {T S : Type} (fromFields : KeyedFields → Parsed T)
        (mk : BTreeMap RdmaDevice T → S), ∃ error,
        (do return mk (← parseDevices text fromFields) : Parsed S) = .error error := by
      intro T S fromFields mk
      obtain ⟨error, herr⟩ :=
        RdmaDevice.exists_error_of_index fromFields hrow hlast hvalue
      refine ⟨error, ?_⟩
      rw [herr]
      rfl
    exact ⟨herror _ RdmaCurrent.mk, herror _ RdmaMax.mk, herror _ RdmaEvents.mk⟩

/-- The usage of a device with an index and of one without. -/
def twoHandles : List (RdmaDevice × RdmaDeviceCurrent) :=
  [(⟨"mlx4_0".toList, some 1⟩, ⟨⟨2147483647⟩, ⟨20⟩⟩), (⟨"mlx4_0".toList, none⟩, ⟨⟨3⟩, ⟨0⟩⟩)]

/-- Their lines, of which one has `max`. -/
def twoHandleRows : List (Str × List (Str × Str)) :=
  [("mlx4_0".toList, [("hca_object".toList, "20".toList), ("hca_handle".toList, "max".toList),
      ("index".toList, "1".toList)]),
    ("mlx4_0".toList, [("hca_handle".toList, "3".toList), ("hca_object".toList, "0".toList)])]

/-- Devices of one name are kept apart, and an index that is no number fails the file. -/
theorem rdma_decodes_listing :
    RdmaCurrent.fromStr (unlines (twoHandleRows.map RdmaDevice.row)) =
      .ok ⟨Std.ExtTreeMap.ofList twoHandles compare⟩ ∧
    ∃ error, RdmaMax.fromStr "mlx4_0 index=a hca_handle=max hca_object=max\n".toList =
      .error error := by
  refine ⟨rdma_decodes.1 _ _ ⟨twoHandleRows, listsMap_ofList (by decide) ?_,
    layout_unlines (by decide +kernel)⟩, ?_⟩
  · exact .cons (by decide) (.cons (by decide) .nil)
  · refine (rdma_decodes.2.2.2.2 _ "mlx4_0".toList "a".toList []
      ["hca_handle=max".toList, "hca_object=max".toList] (by decide +kernel) ?_ ?_).2.1
    · intro v hmem
      simp [assign] at hmem
    · intro n hnumeral
      have hread := parseU32_eq_ok_iff.mpr hnumeral
      cases hread

end Sakai
