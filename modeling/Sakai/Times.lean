import Sakai.Io.Stat

/-!
# Durations

The interfaces give durations as numbers of nanoseconds, microseconds or milliseconds, and store
nanoseconds. `TimeEncoding` lists the encodings; each is decoded as a multiple of its scale.

* `decode_of_error`, `decode_of_allows`, `decode_of_not_allows`: what a token is decoded as, by its
  value as a `u64`.
* `time_tokens`: which tokens are accepted, as which times, and which errors the others give; times
  are ordered as the tokens' numbers are.
-/

namespace Sakai

open Lib

/-- The encodings of a duration.
Source: `parse/mod.rs` and `io/stat.rs`, the `ParseCgroup` instances of `Time` and `NonZeroTime`. -/
inductive TimeEncoding
  | nanoseconds
  | microseconds
  | nonZeroMicroseconds
  | milliseconds
  deriving DecidableEq, Repr

namespace TimeEncoding

/-- The nanoseconds in one unit. -/
def scale : TimeEncoding → UInt64
  | .nanoseconds => 1
  | .microseconds => ParseMicroseconds.NANOSECONDS_PER_MICROSECOND
  | .nonZeroMicroseconds => ParseMicroseconds.NANOSECONDS_PER_MICROSECOND
  | .milliseconds => ParseMilliseconds.NANOSECONDS_PER_MILLISECOND

/-- The time a token is decoded as. -/
def decode : TimeEncoding → Str → Except ParseValueError Time
  | .nanoseconds => parseCgroup ParseNanoseconds
  | .microseconds => parseCgroup ParseMicroseconds
  | .nonZeroMicroseconds => fun value =>
    (parseCgroup ParseNonZeroMicroseconds value : Except ParseValueError NonZeroTime).map
      NonZeroTime.time
  | .milliseconds => parseCgroup ParseMilliseconds

/-- The number of units that a token of the encoding may stand for. -/
def Allows (encoding : TimeEncoding) (n : ℕ) : Prop :=
  n * encoding.scale.toNat ≤ 2 ^ 64 - 1 ∧ (encoding = .nonZeroMicroseconds → 0 < n)

/-! ## Decoding -/

variable {encoding : TimeEncoding} {value : Str}

/-- A unit is at least one nanosecond. -/
lemma scale_pos (encoding : TimeEncoding) : 0 < encoding.scale.toNat := by
  cases encoding <;> decide

/-- A counter of nanoseconds is scaled by one. -/
lemma parseQuantity_eq_parseScaled (value : Str) :
    parseQuantity Time.mk value = parseScaled 1 value := by
  unfold parseQuantity parseScaled
  cases integer (parseU64 value) with
  | error e => rfl
  | ok v =>
      have hone : checkedMul v 1 = some v := checkedMul_eq_some_iff.mpr (by simp)
      rw [ok_bind, hone]
      rfl

/-- A nonzero duration is a duration that is not zero. -/
lemma decode_nonZeroMicroseconds (value : Str) :
    decode .nonZeroMicroseconds value = parseScaled (scale .nonZeroMicroseconds) value >>=
      fun time => if time.value = 0 then .error .outOfRange else .ok time := by
  show (parseCgroup ParseNonZeroMicroseconds value : Except ParseValueError NonZeroTime).map
    NonZeroTime.time = _
  have hmicros : (parseCgroup ParseMicroseconds value : Except ParseValueError Time) =
      parseScaled (scale .nonZeroMicroseconds) value := rfl
  rw [parseNonZeroMicroseconds_eq, hmicros]
  cases parseScaled (scale .nonZeroMicroseconds) value with
  | error e => rfl
  | ok time =>
      simp only [ok_bind, NonZeroTime.tryNew]
      by_cases hzero : time.value = 0
      · simp [hzero, Except.map]
      · simp [hzero, Except.map, pure, Except.pure]

/-- Every encoding is decoded by scaling; one of them rejects zero. -/
lemma decode_eq (encoding : TimeEncoding) (value : Str) :
    encoding.decode value = parseScaled encoding.scale value >>= fun time =>
      if encoding = .nonZeroMicroseconds ∧ time.value = 0 then .error .outOfRange
      else .ok time := by
  have hkeep : ∀ x : Except ParseValueError Time, encoding ≠ .nonZeroMicroseconds →
      x = x >>= fun time =>
        if encoding = .nonZeroMicroseconds ∧ time.value = 0 then .error .outOfRange
        else .ok time := by
    intro x hne
    cases x with
    | error e => rfl
    | ok time => rw [ok_bind, if_neg fun h => hne h.1]
  cases encoding with
  | nanoseconds =>
      rw [← hkeep _ (by decide)]
      exact parseQuantity_eq_parseScaled value
  | microseconds =>
      rw [← hkeep _ (by decide)]
      rfl
  | nonZeroMicroseconds =>
      rw [decode_nonZeroMicroseconds]
      simp only [true_and]
  | milliseconds =>
      rw [← hkeep _ (by decide)]
      rfl

/-- A token that is no `u64` is reported as such. -/
lemma decode_of_error {kind : IntErrorKind} (h : parseU64 value = .error kind) :
    encoding.decode value = .error (.integer kind) := by
  rw [decode_eq, parseScaled, h]
  rfl

/-- A number of units that the encoding allows is scaled exactly. -/
lemma decode_of_allows {v : UInt64} (h : parseU64 value = .ok v) (hv : encoding.Allows v.toNat) :
    ∃ t : Time, encoding.decode value = .ok t ∧
      t.value.toNat = v.toNat * encoding.scale.toNat := by
  obtain ⟨hle, hpos⟩ := hv
  have hlt : v.toNat * encoding.scale.toNat < 2 ^ 64 := by omega
  have hmul : checkedMul v encoding.scale = some (v * encoding.scale) := if_pos hlt
  have htoNat := checkedMul_eq_some_iff.mp hmul
  refine ⟨⟨v * encoding.scale⟩, ?_, htoNat⟩
  have hscaled : parseScaled encoding.scale value = .ok ⟨v * encoding.scale⟩ := by
    unfold parseScaled
    rw [h, integer, Except.mapError, ok_bind, hmul]
    rfl
  have hnonzero : ¬ (encoding = .nonZeroMicroseconds ∧ v * encoding.scale = 0) := by
    intro hzero
    have hproduct := Nat.mul_pos (hpos hzero.1) (scale_pos encoding)
    rw [← htoNat, hzero.2] at hproduct
    exact absurd hproduct (by decide)
  rw [decode_eq, hscaled, ok_bind, if_neg hnonzero]

/-- Any other number of units is out of range. -/
lemma decode_of_not_allows {v : UInt64} (h : parseU64 value = .ok v)
    (hv : ¬ encoding.Allows v.toNat) : encoding.decode value = .error .outOfRange := by
  rw [decode_eq]
  unfold parseScaled
  rw [h, integer, Except.mapError, ok_bind]
  unfold checkedMul
  by_cases hlt : v.toNat * encoding.scale.toNat < 2 ^ 64
  · have hzero : encoding = .nonZeroMicroseconds ∧ v.toNat = 0 := by
      by_contra hne
      exact hv ⟨by omega, fun henc => Nat.pos_of_ne_zero fun h => hne ⟨henc, h⟩⟩
    have hvzero : v = 0 := UInt64.toNat_inj.mp hzero.2
    rw [if_pos hlt, hvzero]
    simp [hzero.1]
  · rw [if_neg hlt]
    rfl

/-- **A token is accepted** exactly when it is a numeral that the encoding allows, and is then
scaled exactly. -/
theorem decode_eq_ok_iff {t : Time} :
    encoding.decode value = .ok t ↔
      ∃ n, IsNumeral value n ∧ encoding.Allows n ∧
        t.value.toNat = n * encoding.scale.toNat := by
  constructor
  · intro h
    rcases hparse : parseU64 value with kind | v
    · rw [decode_of_error hparse] at h
      cases h
    · by_cases hv : encoding.Allows v.toNat
      · obtain ⟨t', ht', htoNat⟩ := decode_of_allows hparse hv
        rw [ht'] at h
        cases h
        exact ⟨v.toNat, parseU64_eq_ok_iff.mp hparse, hv, htoNat⟩
      · rw [decode_of_not_allows hparse hv] at h
        cases h
  · intro h
    obtain ⟨n, hn, hallows, ht⟩ := h
    obtain ⟨v, rfl⟩ : ∃ v : UInt64, v.toNat = n := by
      refine ⟨UInt64.ofNat n, UInt64.toNat_ofNat_of_lt' ?_⟩
      have hle := Nat.le_mul_of_pos_right n (scale_pos encoding)
      have hbound := hallows.1
      rw [UInt64.size]
      omega
    obtain ⟨t', ht', htoNat⟩ := decode_of_allows (parseU64_eq_ok_iff.mpr hn) hallows
    have htime : t' = t := by
      cases t
      cases t'
      exact congrArg Time.mk (UInt64.toNat_inj.mp (htoNat.trans ht.symm))
    rw [ht', htime]

end TimeEncoding

/-- The tokens of every encoding of durations. A token is accepted exactly when it is a numeral
whose nanoseconds fit `u64`, and is not zero where zero is excluded; the stored time is exact. A
token that is no `u64` gives an integer error, any other rejected token is out of range. Times are
ordered as the numbers of their tokens are, and no nonzero time is zero. -/
theorem time_tokens (encoding : TimeEncoding) (token : Str) :
    (∀ t, encoding.decode token = .ok t ↔
      ∃ n, IsNumeral token n ∧ n * encoding.scale.toNat ≤ 2 ^ 64 - 1 ∧
        (encoding = .nonZeroMicroseconds → 0 < n) ∧
        t.value.toNat = n * encoding.scale.toNat) ∧
    ((¬ ∃ n, IsNumeral token n ∧ n ≤ 2 ^ 64 - 1) →
      ∃ kind, parseU64 token = .error kind ∧ encoding.decode token = .error (.integer kind)) ∧
    (∀ n, IsNumeral token n → n ≤ 2 ^ 64 - 1 →
      2 ^ 64 - 1 < n * encoding.scale.toNat ∨ (encoding = .nonZeroMicroseconds ∧ n = 0) →
      encoding.decode token = .error .outOfRange) ∧
    (∀ token' t t' n n', encoding.decode token = .ok t → encoding.decode token' = .ok t' →
      IsNumeral token n → IsNumeral token' n' →
      (n < n' ↔ t.value < t'.value) ∧ (n = n' ↔ t.value = t'.value)) ∧
    ∀ t : NonZeroTime, t.time.value ≠ 0 := by
  refine ⟨?_, ?_, ?_, ?_, NonZeroTime.ne_zero⟩
  · intro t
    rw [TimeEncoding.decode_eq_ok_iff]
    simp only [TimeEncoding.Allows, and_assoc]
  · intro hnone
    rcases hparse : parseU64 token with kind | v
    · exact ⟨kind, rfl, TimeEncoding.decode_of_error hparse⟩
    · have hv := v.toNat_lt
      exact absurd ⟨v.toNat, parseU64_eq_ok_iff.mp hparse, by omega⟩ hnone
  · intro n hn hle hout
    have hto : (UInt64.ofNat n).toNat = n :=
      UInt64.toNat_ofNat_of_lt' (by rw [UInt64.size]; omega)
    have hparse : parseU64 token = .ok (UInt64.ofNat n) :=
      parseU64_eq_ok_iff.mpr (by rwa [hto])
    apply TimeEncoding.decode_of_not_allows hparse
    rw [hto]
    intro hallows
    obtain hover | ⟨henc, hzero⟩ := hout
    · exact absurd hallows.1 (by omega)
    · exact absurd (hallows.2 henc) (by omega)
  · intro token' t t' n n' ht ht' hn hn'
    obtain ⟨m, hm, -, hvalue⟩ := TimeEncoding.decode_eq_ok_iff.mp ht
    obtain ⟨m', hm', -, hvalue'⟩ := TimeEncoding.decode_eq_ok_iff.mp ht'
    obtain rfl := hn.unique hm
    obtain rfl := hn'.unique hm'
    have hscale := TimeEncoding.scale_pos encoding
    rw [UInt64.lt_iff_toNat_lt, ← UInt64.toNat_inj, hvalue, hvalue']
    exact ⟨(Nat.mul_lt_mul_right hscale).symm, (Nat.mul_left_inj hscale.ne').symm⟩

/-- One microsecond more than fits is rejected, and the last millisecond that fits is not. -/
theorem time_tokens_limits :
    TimeEncoding.microseconds.decode "18446744073709552".toList = .error .outOfRange ∧
    TimeEncoding.milliseconds.decode "18446744073709".toList = .ok ⟨18446744073709000000⟩ :=
  ⟨(time_tokens .microseconds _).2.2.1 18446744073709552 (isNumeral_decimal 18446744073709552)
      (by decide) (.inl (by decide)),
    ((time_tokens .milliseconds _).1 _).mpr
      ⟨18446744073709, isNumeral_decimal 18446744073709, by decide, nofun, rfl⟩⟩

end Sakai
