import Sakai.Parse

/-!
# Encodings shared by the interface files

The encoding markers of `parse/mod.rs`. Plain counters (`parseQuantity`) and durations in a
coarser unit (`parseScaled`) are each one definition with the member's constructor or scale.

* **What is accepted** (`parseQuantity_eq_ok_iff`, `parseScaled_eq_ok_iff`,
  `parseMaxOr_eq_ok_iff`): numerals in range, with their exact values; a duration whose
  nanoseconds do not fit in 64 bits is out of range, never truncated.
* **Printing is undone** (`parseQuantity_decimal`, `parseScaled_decimal`, `parseMaxOr_encode`).
-/

namespace Sakai

open Lib

variable {T : Type}

/-- `value.parse()?` of an integer type.
Source: `error.rs`, `ParseValueError::Integer`. -/
def integer {α : Type} (x : Except IntErrorKind α) : Except ParseValueError α :=
  x.mapError .integer

/-- An integer is read exactly when it parses. -/
@[simp] lemma integer_eq_ok {α : Type} {x : Except IntErrorKind α} {a : α} :
    integer x = .ok a ↔ x = .ok a :=
  mapError_eq_ok

/-! ## Booleans -/

/-- A marker for booleans encoded as `0` or `1`.
Source: `parse/mod.rs`, `ParseBoolean`. -/
structure ParseBoolean

instance : ParseCgroup ParseBoolean Bool ParseValueError where
  parseCgroup value := do
    match (← integer (parseU8 value)).toNat with
    | 0 => return false
    | 1 => return true
    | _ => .error .outOfRange

/-! ## Counters -/

/-- A `u64` in the base unit of its quantity, without conversion. -/
def parseQuantity (new : UInt64 → T) (value : Str) : Except ParseValueError T :=
  (integer (parseU64 value)).map new

/-- A marker for event counts.
Source: `parse/mod.rs`, `ParseCount`. -/
structure ParseCount

instance : ParseCgroup ParseCount Count ParseValueError := ⟨parseQuantity Count.mk⟩

/-- A marker for page quantities.
Source: `parse/mod.rs`, `ParsePages`. -/
structure ParsePages

instance : ParseCgroup ParsePages Pages ParseValueError := ⟨parseQuantity Pages.mk⟩

/-- A marker for memory amounts in bytes.
Source: `parse/mod.rs`, `ParseBytes`. -/
structure ParseBytes

instance : ParseCgroup ParseBytes Bytes ParseValueError := ⟨parseQuantity Bytes.mk⟩

/-- **A counter is accepted exactly when it is a numeral in range**, and is the numeral's value. -/
theorem parseQuantity_eq_ok_iff {new : UInt64 → T} {value : Str} {q : T} :
    parseQuantity new value = .ok q ↔ ∃ v : UInt64, IsNumeral value v.toNat ∧ new v = q := by
  unfold parseQuantity
  rw [map_eq_ok]
  simp only [integer_eq_ok, parseU64_eq_ok_iff]

/-- The same, when the constructor is undone by a projection. -/
lemma parseQuantity_iff {new : UInt64 → T} {value : Str} {q : T} {n : UInt64}
    (hnew : ∀ v, new v = q ↔ v = n) :
    parseQuantity new value = .ok q ↔ IsNumeral value n.toNat := by
  rw [parseQuantity_eq_ok_iff]
  simp only [hnew, exists_eq_right]

/-- **An event count** is a numeral in range. -/
lemma parseCount_eq_ok_iff {value : Str} {q : Count} :
    parseCgroup ParseCount value = .ok q ↔ IsNumeral value q.value.toNat :=
  parseQuantity_iff fun _ => ⟨fun h => h ▸ rfl, fun h => h ▸ rfl⟩

/-- **A page quantity** is a numeral in range. -/
lemma parsePages_eq_ok_iff {value : Str} {q : Pages} :
    parseCgroup ParsePages value = .ok q ↔ IsNumeral value q.value.toNat :=
  parseQuantity_iff fun _ => ⟨fun h => h ▸ rfl, fun h => h ▸ rfl⟩

/-- **A memory amount** is a numeral in range. -/
lemma parseBytes_eq_ok_iff {value : Str} {q : Bytes} :
    parseCgroup ParseBytes value = .ok q ↔ IsNumeral value q.value.toNat :=
  parseQuantity_iff fun _ => ⟨fun h => h ▸ rfl, fun h => h ▸ rfl⟩

/-- A numeral is one count. -/
lemma Count.eq_of_isNumeral {value : Str} {q r : Count} (hq : IsNumeral value q.value.toNat)
    (hr : IsNumeral value r.value.toNat) : q = r := by
  have hvalue : q.value = r.value := UInt64.toNat_inj.mp (hq.unique hr)
  exact congrArg Count.mk hvalue

/-- A printed counter is read back. -/
lemma parseQuantity_decimal (new : UInt64 → T) (v : UInt64) :
    parseQuantity new (decimal v.toNat) = .ok (new v) :=
  parseQuantity_eq_ok_iff.mpr ⟨v, isNumeral_decimal v.toNat, rfl⟩

/-! ## Durations -/

/-- A `u64` number of units of `nanosPerUnit` nanoseconds, checked for overflow. -/
def parseScaled (nanosPerUnit : UInt64) (value : Str) : Except ParseValueError Time := do
  match checkedMul (← integer (parseU64 value)) nanosPerUnit with
  | some nanoseconds => return ⟨nanoseconds⟩
  | none => .error .outOfRange

/-- A marker for values in microseconds.
Source: `parse/mod.rs`, `ParseMicroseconds`. -/
structure ParseMicroseconds

/-- Source: `parse/mod.rs`, `ParseMicroseconds::NANOSECONDS_PER_MICROSECOND`. -/
def ParseMicroseconds.NANOSECONDS_PER_MICROSECOND : UInt64 := 1000

instance : ParseCgroup ParseMicroseconds Time ParseValueError :=
  ⟨parseScaled ParseMicroseconds.NANOSECONDS_PER_MICROSECOND⟩

/-- A marker for nonzero values in microseconds.
Source: `parse/mod.rs`, `ParseNonZeroMicroseconds`. -/
structure ParseNonZeroMicroseconds

instance : ParseCgroup ParseNonZeroMicroseconds NonZeroTime ParseValueError where
  parseCgroup value := do
    let time : Time ← parseCgroup ParseMicroseconds value
    match NonZeroTime.tryNew time with
    | some nonZero => return nonZero
    | none => .error .outOfRange

/-- **A duration is accepted exactly when it is a numeral whose nanoseconds fit**, and is then
exactly that many units. -/
theorem parseScaled_eq_ok_iff {k : UInt64} (hk : 0 < k.toNat) {value : Str} {t : Time} :
    parseScaled k value = .ok t ↔ ∃ n, IsNumeral value n ∧ t.value.toNat = n * k.toNat := by
  unfold parseScaled
  simp only [bind_eq_ok, integer_eq_ok, parseU64_eq_ok_iff]
  constructor
  · rintro ⟨v, hv, h⟩
    rcases hmul : checkedMul v k with _ | nanos
    · simp [hmul] at h
    · simp only [hmul, pure_eq_ok] at h
      subst h
      exact ⟨v.toNat, hv, checkedMul_eq_some_iff.mp hmul⟩
  · rintro ⟨n, hn, ht⟩
    have hlt : n < UInt64.size :=
      lt_of_le_of_lt (Nat.le_mul_of_pos_right n hk) (ht ▸ t.value.toNat_lt)
    have hto : (UInt64.ofNat n).toNat = n := UInt64.toNat_ofNat_of_lt' hlt
    refine ⟨UInt64.ofNat n, by rwa [hto], ?_⟩
    have hmul : checkedMul (UInt64.ofNat n) k = some t.value :=
      checkedMul_eq_some_iff.mpr (by rw [hto, ht])
    simp [hmul]

/-- A duration printed in its unit is read back. -/
lemma parseScaled_decimal {k : UInt64} (hk : 0 < k.toNat) {t : Time} {n : ℕ}
    (ht : t.value.toNat = n * k.toNat) : parseScaled k (decimal n) = .ok t :=
  (parseScaled_eq_ok_iff hk).mpr ⟨n, isNumeral_decimal n, ht⟩

/-- What the text of a time in microseconds means. -/
def IsMicros (value : Str) (t : Time) : Prop :=
  ∃ n, IsNumeral value n ∧ t.value.toNat = n * 1000

/-- **A time in microseconds is accepted exactly with its meaning.** -/
theorem parseMicroseconds_eq_ok_iff {value : Str} {t : Time} :
    parseCgroup ParseMicroseconds value = .ok t ↔ IsMicros value t :=
  parseScaled_eq_ok_iff (k := ParseMicroseconds.NANOSECONDS_PER_MICROSECOND) (by decide)

/-- The number of whole microseconds in a time. -/
def Time.micros (t : Time) : ℕ := t.value.toNat / 1000

/-- The time is a whole number of microseconds. -/
def Time.WholeMicros (t : Time) : Prop := t.value.toNat % 1000 = 0

instance (t : Time) : Decidable t.WholeMicros :=
  inferInstanceAs (Decidable (t.value.toNat % 1000 = 0))

/-- The decimal form of a whole number of microseconds means the time. -/
lemma isMicros_decimal {t : Time} (h : t.WholeMicros) : IsMicros (decimal t.micros) t := by
  refine ⟨t.micros, isNumeral_decimal t.micros, ?_⟩
  unfold Time.micros
  unfold Time.WholeMicros at h
  omega

/-- A whole number of microseconds is read back from its decimal form. -/
lemma parseMicroseconds_decimal {t : Time} (h : t.WholeMicros) :
    parseCgroup ParseMicroseconds (decimal t.micros) = .ok t :=
  parseMicroseconds_eq_ok_iff.mpr (isMicros_decimal h)

/-- An optional time of whole microseconds is read back from its printed value. -/
lemma KeyedFields.optional_micros {fields : KeyedFields} {field : String} {o : Option Time}
    (hget : fields.values[field.toList]? = o.map fun t => decimal t.micros)
    (hwhole : ∀ t, o = some t → t.WholeMicros) :
    fields.optional ParseMicroseconds field = .ok o :=
  optional_of_encoded hget fun t ht => parseMicroseconds_decimal (hwhole t ht)

/-- A nonzero time in microseconds is a time in microseconds that is not zero. -/
lemma parseNonZeroMicroseconds_eq (value : Str) :
    (parseCgroup ParseNonZeroMicroseconds value : Except ParseValueError NonZeroTime) = (do
      let time : Time ← parseCgroup ParseMicroseconds value
      match NonZeroTime.tryNew time with
      | some nonZero => return nonZero
      | none => .error .outOfRange) :=
  rfl

/-- A nonzero time is accepted exactly when the time is. -/
lemma parseNonZeroMicroseconds_eq_ok_iff_time {value : Str} {t : NonZeroTime} :
    parseCgroup ParseNonZeroMicroseconds value = .ok t ↔
      parseCgroup ParseMicroseconds value = .ok t.time := by
  rw [parseNonZeroMicroseconds_eq, bind_eq_ok]
  constructor
  · intro h
    obtain ⟨time, htime, h⟩ := h
    rcases hnew : NonZeroTime.tryNew time with _ | nonZero
    · rw [hnew] at h
      cases h
    · rw [hnew] at h
      cases h
      rw [htime, NonZeroTime.tryNew_eq_some_iff.mp hnew]
  · intro h
    have hnew : NonZeroTime.tryNew t.time = some t := NonZeroTime.tryNew_eq_some_iff.mpr rfl
    refine ⟨t.time, h, ?_⟩
    rw [hnew]
    rfl

/-- **A nonzero time in microseconds is accepted exactly with its meaning**: a positive number whose
nanoseconds fit. -/
theorem parseNonZeroMicroseconds_eq_ok_iff {value : Str} {t : NonZeroTime} :
    parseCgroup ParseNonZeroMicroseconds value = .ok t ↔
      ∃ n, IsNumeral value n ∧ 1 ≤ n ∧ n ≤ (2 ^ 64 - 1) / 1000 ∧
        t.time.value.toNat = 1000 * n := by
  have hpos : 0 < t.time.value.toNat :=
    Nat.pos_of_ne_zero fun h => t.ne_zero (UInt64.toNat_inj.mp h)
  have hlt := t.time.value.toNat_lt
  rw [parseNonZeroMicroseconds_eq_ok_iff_time, parseMicroseconds_eq_ok_iff]
  unfold IsMicros
  constructor
  · intro h
    obtain ⟨n, hn, ht⟩ := h
    exact ⟨n, hn, by omega, by omega, by omega⟩
  · intro h
    obtain ⟨n, hn, -, -, ht⟩ := h
    exact ⟨n, hn, by omega⟩

/-- A nonzero whole number of microseconds is read back from its decimal form. -/
lemma parseNonZeroMicroseconds_decimal {t : NonZeroTime} (h : t.time.WholeMicros) :
    parseCgroup ParseNonZeroMicroseconds (decimal t.time.micros) = .ok t :=
  parseNonZeroMicroseconds_eq_ok_iff_time.mpr (parseMicroseconds_decimal h)

/-! ## Limits -/

instance {U E : Type} [ParseCgroup U T E] : ParseCgroup U (MaxOr T) E where
  parseCgroup value :=
    if value = "max".toList then .ok .max else (parseCgroup U value).map .value

/-- **A limit is `max` exactly on the token `max`**, and a value of the inner encoding otherwise. -/
theorem parseMaxOr_eq_ok_iff {U E : Type} [ParseCgroup U T E] {value : Str} {m : MaxOr T} :
    parseCgroup U value = .ok m ↔
      (value = "max".toList ∧ m = .max) ∨
      (value ≠ "max".toList ∧ ∃ v, parseCgroup U value = .ok v ∧ m = .value v) := by
  show (if value = "max".toList then .ok .max
    else (parseCgroup U value : Except E T).map .value) = .ok m ↔ _
  by_cases hmax : value = "max".toList
  · rw [if_pos hmax]
    simp [hmax, eq_comm]
  · rw [if_neg hmax, map_eq_ok]
    constructor
    · rintro ⟨v, hv, rfl⟩
      exact Or.inr ⟨hmax, v, hv, rfl⟩
    · rintro (⟨h, -⟩ | ⟨-, v, hv, rfl⟩)
      · exact absurd h hmax
      · exact ⟨v, hv, rfl⟩

/-- The text of a limit, from the texts of its values. -/
def MaxOr.encode (enc : T → Str) : MaxOr T → Str
  | .max => "max".toList
  | .value v => enc v

/-- A printed number is not the token `max`. -/
lemma decimal_ne_max (n : ℕ) : decimal n ≠ "max".toList := by
  intro h
  exact not_mem_decimal (c := 'm') (by decide) n (h ▸ List.mem_cons_self)

/-- A printed limit is read back. -/
lemma parseMaxOr_encode {U E : Type} [ParseCgroup U T E] {enc : T → Str}
    (hmax : ∀ v, enc v ≠ "max".toList) (henc : ∀ v, parseCgroup U (enc v) = .ok v)
    (m : MaxOr T) : parseCgroup U (m.encode enc) = .ok m := by
  rw [parseMaxOr_eq_ok_iff]
  cases m with
  | max => exact Or.inl ⟨rfl, rfl⟩
  | value v => exact Or.inr ⟨hmax v, v, henc v, rfl⟩

end Sakai
