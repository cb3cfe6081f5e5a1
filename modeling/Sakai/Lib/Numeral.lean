import Mathlib.Algebra.Group.Int.Defs
import Mathlib.Algebra.Group.Nat.Defs
import Sakai.Lib.Result
import Sakai.Lib.Text

/-!
# Decimal numerals: fixed-width parsing with overflow checks, and printing

`parseUnsigned` and `parseSigned` follow the standard library's `from_str` for integers: an
optional sign, then digits, each digit checked before the accumulator's overflow is. The bound is
a parameter; `parseU64`, `parseU32`, `parseU16`, `parseU8` and `parseI32` fix it to the machine
types.

* **What is accepted** (`parseUnsigned_eq_ok_iff`): exactly the numerals `IsNumeral s n` (an
  optional `+` and a non-empty run of ASCII digits of value `n`) with `n` within the bound;
  `parseSigned_eq_ok_iff`: exactly the integers `IsInteger s i`, which may start with `-`, in range.
* **Printing** (`decimal`, `decimalInt`) is read back exactly: `parseU32_decimal`,
  `parseI32_decimalInt`.
-/

namespace Sakai.Lib

/-- Why a text is not an integer of the wanted type. -/
inductive IntErrorKind
  | empty
  | invalidDigit
  | posOverflow
  | negOverflow
  deriving DecidableEq, Repr

/-! ## Parsing -/

/-- The digit loop: accumulate `ds` onto `acc`, rejecting a character that is no digit before an
accumulated value above `bound`. -/
def parseDigits (bound : ℕ) (overflow : IntErrorKind) : ℕ → Str → Except IntErrorKind ℕ
  | acc, [] => .ok acc
  | acc, c :: cs =>
    if c.isDigit then
      if 10 * acc + (c.toNat - '0'.toNat) ≤ bound then
        parseDigits bound overflow (10 * acc + (c.toNat - '0'.toNat)) cs
      else .error overflow
    else .error .invalidDigit

/-- `from_str` of an unsigned type with largest value `bound`. A lone sign is no numeral, and `-`
is no digit. -/
def parseUnsigned (bound : ℕ) : Str → Except IntErrorKind ℕ
  | [] => .error .empty
  | c :: cs =>
    if c = '+' then
      if cs = [] then .error .invalidDigit else parseDigits bound .posOverflow 0 cs
    else parseDigits bound .posOverflow 0 (c :: cs)

/-- `from_str` of a signed type with values `-negBound .. bound`. -/
def parseSigned (negBound bound : ℕ) : Str → Except IntErrorKind ℤ
  | [] => .error .empty
  | c :: cs =>
    if c = '-' then
      if cs = [] then .error .invalidDigit
      else (parseDigits negBound .negOverflow 0 cs).map fun n : ℕ => -(n : ℤ)
    else (parseUnsigned bound (c :: cs)).map fun n : ℕ => (n : ℤ)

/-- `u64::from_str`. -/
def parseU64 (s : Str) : Except IntErrorKind UInt64 :=
  (parseUnsigned (2 ^ 64 - 1) s).map UInt64.ofNat

/-- `u32::from_str`. -/
def parseU32 (s : Str) : Except IntErrorKind UInt32 :=
  (parseUnsigned (2 ^ 32 - 1) s).map UInt32.ofNat

/-- `u16::from_str`. -/
def parseU16 (s : Str) : Except IntErrorKind UInt16 :=
  (parseUnsigned (2 ^ 16 - 1) s).map UInt16.ofNat

/-- `u8::from_str`. -/
def parseU8 (s : Str) : Except IntErrorKind UInt8 :=
  (parseUnsigned (2 ^ 8 - 1) s).map UInt8.ofNat

/-- `i32::from_str`. -/
def parseI32 (s : Str) : Except IntErrorKind Int32 :=
  (parseSigned (2 ^ 31) (2 ^ 31 - 1) s).map Int32.ofInt

/-! ## What is accepted -/

/-- A non-empty run of ASCII digits of value `n`. -/
structure IsDigits (s : Str) (n : ℕ) : Prop where
  /-- There is a digit. -/
  ne_nil : s ≠ []
  /-- Every character is an ASCII digit. -/
  digits : ∀ c ∈ s, c.isDigit = true
  /-- The decimal value. -/
  value : Nat.ofDigitChars 10 s 0 = n

/-- A run of digits, as a test of its characters and its value. -/
lemma isDigits_iff {s : Str} {n : ℕ} :
    IsDigits s n ↔ (!s.isEmpty && s.all Char.isDigit && Nat.ofDigitChars 10 s 0 == n) = true := by
  rw [Bool.and_eq_true, Bool.and_eq_true, Bool.not_eq_true', List.isEmpty_eq_false_iff,
    List.all_eq_true, beq_iff_eq]
  exact ⟨fun h => ⟨⟨h.ne_nil, h.digits⟩, h.value⟩, fun h => ⟨h.1.1, h.1.2, h.2⟩⟩

instance (s : Str) (n : ℕ) : Decidable (IsDigits s n) := decidable_of_iff _ isDigits_iff.symm

/-- An optional `+` and a non-empty run of ASCII digits of value `n`. -/
def IsNumeral (s : Str) (n : ℕ) : Prop := IsDigits s n ∨ ∃ ds, s = '+' :: ds ∧ IsDigits ds n

/-- Accumulating digits never loses what was accumulated. -/
lemma le_ofDigitChars (ds : Str) (acc : ℕ) : acc ≤ Nat.ofDigitChars 10 ds acc := by
  induction ds generalizing acc with
  | nil => simp
  | cons c cs ih =>
      rw [Nat.ofDigitChars_cons]
      exact le_trans (by omega) (ih _)

/-- The digit loop succeeds exactly on digits whose accumulated value is within the bound. -/
lemma parseDigits_eq_ok_iff {bound : ℕ} {overflow : IntErrorKind} {ds : Str} {acc n : ℕ}
    (hacc : acc ≤ bound) :
    parseDigits bound overflow acc ds = .ok n ↔
      (∀ c ∈ ds, c.isDigit = true) ∧ Nat.ofDigitChars 10 ds acc = n ∧ n ≤ bound := by
  induction ds generalizing acc with
  | nil =>
      simp only [parseDigits, Except.ok.injEq, Nat.ofDigitChars_nil]
      constructor
      · rintro rfl
        exact ⟨by simp, rfl, hacc⟩
      · exact fun h => h.2.1
  | cons c cs ih =>
      rw [parseDigits, Nat.ofDigitChars_cons]
      by_cases hc : c.isDigit = true
      · rw [if_pos hc]
        by_cases hle : 10 * acc + (c.toNat - '0'.toNat) ≤ bound
        · rw [if_pos hle, ih hle]
          simp [hc]
        · rw [if_neg hle]
          refine ⟨fun h => by simp at h, ?_⟩
          rintro ⟨-, rfl, hn⟩
          exact absurd (le_trans (le_ofDigitChars cs _) hn) hle
      · rw [if_neg hc]
        refine ⟨fun h => by simp at h, ?_⟩
        rintro ⟨h, -⟩
        exact absurd (h c List.mem_cons_self) hc

/-- The digit loop from zero on a non-empty text accepts exactly the digit runs in bounds. -/
lemma parseDigits_zero_eq_ok_iff {bound : ℕ} {overflow : IntErrorKind} {ds : Str} {n : ℕ}
    (hne : ds ≠ []) :
    parseDigits bound overflow 0 ds = .ok n ↔ IsDigits ds n ∧ n ≤ bound := by
  rw [parseDigits_eq_ok_iff (Nat.zero_le bound)]
  exact ⟨fun h => ⟨⟨hne, h.1, h.2.1⟩, h.2.2⟩, fun h => ⟨h.1.digits, h.1.value, h.2⟩⟩

/-- A digit is no white space. -/
lemma not_isDigit_of_isWhitespace {c : Char} (h : isWhitespace c = true) : c.isDigit = false := by
  rw [← Bool.not_eq_true]
  intro hdigit
  have hrange := Char.isDigit_iff_toNat.mp hdigit
  have hzero : '0'.toNat = 48 := rfl
  have hnine : '9'.toNat = 57 := rfl
  unfold isWhitespace at h
  simp only [Bool.or_eq_true, Bool.and_eq_true, decide_eq_true_iff, beq_iff_eq] at h
  omega

/-- A digit run does not start with a sign. -/
lemma IsDigits.head_isDigit {c : Char} {cs : Str} {n : ℕ} (h : IsDigits (c :: cs) n) :
    c.isDigit = true := h.digits c List.mem_cons_self

/-- A text with a plus sign is a numeral exactly when digits follow. -/
lemma isNumeral_plus_iff {ds : Str} {n : ℕ} : IsNumeral ('+' :: ds) n ↔ IsDigits ds n := by
  constructor
  · rintro (h | ⟨ds', hds', h⟩)
    · exact absurd h.head_isDigit (by decide)
    · cases hds'
      exact h
  · exact fun h => Or.inr ⟨ds, rfl, h⟩

/-- A text without a plus sign in front is a numeral exactly when it is digits. -/
lemma isNumeral_of_ne_plus {s : Str} {n : ℕ} (h : s.head? ≠ some '+') :
    IsNumeral s n ↔ IsDigits s n := by
  unfold IsNumeral
  rw [or_iff_left]
  rintro ⟨ds, rfl, -⟩
  exact h rfl

/-- A numeral has one value. -/
lemma IsNumeral.unique {s : Str} {n m : ℕ} (h : IsNumeral s n) (h' : IsNumeral s m) : n = m := by
  by_cases hs : s.head? = some '+'
  · obtain ⟨ds, rfl⟩ := List.head?_eq_some_iff.mp hs
    rw [isNumeral_plus_iff] at h h'
    rw [← h.value, ← h'.value]
  · rw [isNumeral_of_ne_plus hs] at h h'
    rw [← h.value, ← h'.value]

/-- **Unsigned parsing accepts exactly the numerals within the bound.** -/
theorem parseUnsigned_eq_ok_iff {bound : ℕ} {s : Str} {n : ℕ} :
    parseUnsigned bound s = .ok n ↔ IsNumeral s n ∧ n ≤ bound := by
  rcases s with _ | ⟨c, cs⟩
  · rw [isNumeral_of_ne_plus (by simp)]
    refine ⟨fun h => by simp [parseUnsigned] at h, ?_⟩
    rintro ⟨h, -⟩
    exact absurd rfl h.ne_nil
  · rw [parseUnsigned]
    by_cases hc : c = '+'
    · subst hc
      rw [if_pos rfl, isNumeral_plus_iff]
      by_cases hcs : cs = []
      · rw [if_pos hcs]
        refine ⟨fun h => by simp at h, ?_⟩
        rintro ⟨h, -⟩
        exact absurd hcs h.ne_nil
      · rw [if_neg hcs, parseDigits_zero_eq_ok_iff hcs]
    · have hhead : (c :: cs).head? ≠ some '+' := fun h => hc (Option.some.inj h)
      rw [if_neg hc, parseDigits_zero_eq_ok_iff (List.cons_ne_nil c cs),
        isNumeral_of_ne_plus hhead]

/-- A text that parses with the bound of a machine type has a value of that type. -/
lemma parseUnsigned_map_eq_ok_iff {α : Type} {bound : ℕ} (ofNat : ℕ → α) (toNat : α → ℕ)
    (hle : ∀ v, toNat v ≤ bound) (hto : ∀ n, n ≤ bound → toNat (ofNat n) = n)
    (hof : ∀ v, ofNat (toNat v) = v) {s : Str} {v : α} :
    (parseUnsigned bound s).map ofNat = .ok v ↔ IsNumeral s (toNat v) := by
  constructor
  · intro h
    cases hp : parseUnsigned bound s with
    | error e => simp [hp, Except.map] at h
    | ok n =>
        rw [parseUnsigned_eq_ok_iff] at hp
        rw [parseUnsigned_eq_ok_iff.mpr hp] at h
        simp only [Except.map, Except.ok.injEq] at h
        subst h
        rw [hto n hp.2]
        exact hp.1
  · intro h
    rw [parseUnsigned_eq_ok_iff.mpr ⟨h, hle v⟩]
    simp [Except.map, hof]

/-- `u64` parsing accepts exactly the numerals that fit. -/
theorem parseU64_eq_ok_iff {s : Str} {v : UInt64} :
    parseU64 s = .ok v ↔ IsNumeral s v.toNat :=
  parseUnsigned_map_eq_ok_iff UInt64.ofNat UInt64.toNat
    (fun v => by have := v.toNat_lt; omega)
    (fun n hn => UInt64.toNat_ofNat_of_lt' (by rw [UInt64.size]; omega))
    fun _ => UInt64.ofNat_toNat

/-- `u32` parsing accepts exactly the numerals that fit. -/
theorem parseU32_eq_ok_iff {s : Str} {v : UInt32} :
    parseU32 s = .ok v ↔ IsNumeral s v.toNat :=
  parseUnsigned_map_eq_ok_iff UInt32.ofNat UInt32.toNat
    (fun v => by have := v.toNat_lt; omega)
    (fun n hn => UInt32.toNat_ofNat_of_lt' (by rw [UInt32.size]; omega))
    fun _ => UInt32.ofNat_toNat

/-! ## Printing -/

/-- The decimal form of a natural number. -/
def decimal (n : ℕ) : Str := Nat.toDigits 10 n

/-- The decimal form of an integer. -/
def decimalInt (i : ℤ) : Str := if 0 ≤ i then decimal i.toNat else '-' :: decimal (-i).toNat

/-- The decimal form consists of digits and has the printed value. -/
lemma isDigits_decimal (n : ℕ) : IsDigits (decimal n) n :=
  ⟨Nat.toDigits_ne_nil, fun _ hc => Nat.isDigit_of_mem_toDigits (by decide) (by decide) hc,
    Nat.ofDigitChars_ten_toDigits⟩

/-- The decimal form is a numeral of the printed value. -/
lemma isNumeral_decimal (n : ℕ) : IsNumeral (decimal n) n := Or.inl (isDigits_decimal n)

/-- A character that is no digit does not occur in a decimal form. -/
lemma not_mem_decimal {c : Char} (hc : c.isDigit = false) (n : ℕ) : c ∉ decimal n := by
  intro h
  rw [(isDigits_decimal n).digits c h] at hc
  exact absurd hc (by decide)

/-- A character that is neither a digit nor a plus sign does not occur in a numeral. -/
lemma IsNumeral.not_mem {s : Str} {n : ℕ} (h : IsNumeral s n) {c : Char}
    (hdigit : c.isDigit = false) (hplus : c ≠ '+') : c ∉ s := by
  have hdigits : ∀ {ds : Str}, IsDigits ds n → c ∉ ds := by
    intro ds hds hc
    rw [hds.digits c hc] at hdigit
    cases hdigit
  rcases h with hds | ⟨ds, rfl, hds⟩
  · exact hdigits hds
  · intro hc
    rcases List.mem_cons.mp hc with hc | hc
    · exact hplus hc
    · exact hdigits hds hc

/-- `u32` parsing undoes printing. -/
theorem parseU32_decimal (v : UInt32) : parseU32 (decimal v.toNat) = .ok v :=
  parseU32_eq_ok_iff.mpr (isNumeral_decimal v.toNat)

/-- Parsing after a minus sign accepts exactly the digit runs within the negative bound. -/
lemma parseSigned_minus_eq_ok_iff {negBound bound : ℕ} {ds : Str} {i : ℤ} :
    parseSigned negBound bound ('-' :: ds) = .ok i ↔
      ∃ n : ℕ, i = -(n : ℤ) ∧ IsDigits ds n ∧ n ≤ negBound := by
  rw [parseSigned, if_pos rfl]
  by_cases hds : ds = []
  · rw [if_pos hds]
    refine ⟨fun h => by simp at h, ?_⟩
    rintro ⟨n, -, h, -⟩
    exact absurd hds h.ne_nil
  · rw [if_neg hds]
    constructor
    · intro h
      cases hp : parseDigits negBound .negOverflow 0 ds with
      | error e => simp [hp, Except.map] at h
      | ok n =>
          simp only [hp, Except.map, Except.ok.injEq] at h
          exact ⟨n, h.symm, (parseDigits_zero_eq_ok_iff hds).mp hp⟩
    · rintro ⟨n, rfl, hn⟩
      rw [(parseDigits_zero_eq_ok_iff hds).mpr hn]
      rfl

/-- An optional sign and a non-empty run of ASCII digits, of value `i`. -/
def IsInteger (s : Str) (i : ℤ) : Prop :=
  (∃ n : ℕ, IsNumeral s n ∧ i = n) ∨ ∃ ds, ∃ n : ℕ, s = '-' :: ds ∧ IsDigits ds n ∧ i = -(n : ℤ)

/-- A text with a minus sign is an integer exactly when digits follow. -/
lemma isInteger_minus_iff {ds : Str} {i : ℤ} :
    IsInteger ('-' :: ds) i ↔ ∃ n : ℕ, IsDigits ds n ∧ i = -(n : ℤ) := by
  have hnumeral : ∀ n, ¬ IsNumeral ('-' :: ds) n := fun n h =>
    h.not_mem (by decide) (by decide) List.mem_cons_self
  simp [IsInteger, hnumeral]

/-- A text without a minus sign in front is an integer exactly when it is a numeral. -/
lemma isInteger_of_ne_minus {s : Str} {i : ℤ} (h : s.head? ≠ some '-') :
    IsInteger s i ↔ ∃ n : ℕ, IsNumeral s n ∧ i = n := by
  unfold IsInteger
  rw [or_iff_left]
  intro hminus
  obtain ⟨ds, n, rfl, -, -⟩ := hminus
  exact h rfl

/-- **Signed parsing accepts exactly the integers in range.** -/
theorem parseSigned_eq_ok_iff {negBound bound : ℕ} {s : Str} {i : ℤ} :
    parseSigned negBound bound s = .ok i ↔ IsInteger s i ∧ -(negBound : ℤ) ≤ i ∧ i ≤ bound := by
  rcases s with _ | ⟨c, cs⟩
  · have hnumeral : ∀ n, ¬ IsNumeral [] n := fun n h => by
      have hempty := parseUnsigned_eq_ok_iff.mpr ⟨h, le_refl n⟩
      cases hempty
    simp [parseSigned, IsInteger, hnumeral]
  · by_cases hc : c = '-'
    · subst hc
      rw [parseSigned_minus_eq_ok_iff, isInteger_minus_iff]
      constructor
      · intro h
        obtain ⟨n, rfl, hn, hle⟩ := h
        exact ⟨⟨n, hn, rfl⟩, by omega, by omega⟩
      · intro h
        obtain ⟨⟨n, hn, rfl⟩, hlo, -⟩ := h
        exact ⟨n, rfl, hn, by omega⟩
    · have hhead : (c :: cs).head? ≠ some '-' := fun h => hc (Option.some.inj h)
      have hparse : parseSigned negBound bound (c :: cs) =
          (parseUnsigned bound (c :: cs)).map fun n : ℕ => (n : ℤ) := by
        rw [parseSigned, if_neg hc]
      rw [hparse, isInteger_of_ne_minus hhead, map_eq_ok]
      simp only [parseUnsigned_eq_ok_iff]
      constructor
      · intro h
        obtain ⟨n, ⟨hn, hle⟩, rfl⟩ := h
        exact ⟨⟨n, hn, rfl⟩, by omega, by omega⟩
      · intro h
        obtain ⟨⟨n, hn, rfl⟩, -, hhi⟩ := h
        exact ⟨n, ⟨hn, by omega⟩, rfl⟩

/-- **`i32` parsing accepts exactly the integers that fit.** -/
theorem parseI32_eq_ok_iff {s : Str} {v : Int32} : parseI32 s = .ok v ↔ IsInteger s v.toInt := by
  have hlo := Int32.le_toInt v
  have hhi := Int32.toInt_lt v
  unfold parseI32
  rw [map_eq_ok]
  simp only [parseSigned_eq_ok_iff]
  constructor
  · intro h
    obtain ⟨i, ⟨hi, hge, hle⟩, rfl⟩ := h
    rwa [Int32.toInt_ofInt_of_le (by omega) (by omega)]
  · intro h
    exact ⟨v.toInt, ⟨h, by omega, by omega⟩, Int32.ofInt_toInt v⟩

/-- Signed parsing undoes printing of every integer in range. -/
theorem parseSigned_decimalInt {negBound bound : ℕ} {i : ℤ} (hlo : -(negBound : ℤ) ≤ i)
    (hhi : i ≤ bound) : parseSigned negBound bound (decimalInt i) = .ok i := by
  unfold decimalInt
  by_cases hi : 0 ≤ i
  · rw [if_pos hi]
    have hdig := isDigits_decimal i.toNat
    rcases hd : decimal i.toNat with _ | ⟨c, cs⟩
    · exact absurd hd hdig.ne_nil
    · rw [hd] at hdig
      have hc : c ≠ '-' := by
        rintro rfl
        exact absurd hdig.head_isDigit (by decide)
      have hp : parseUnsigned bound (c :: cs) = .ok i.toNat :=
        parseUnsigned_eq_ok_iff.mpr ⟨Or.inl hdig, by omega⟩
      rw [parseSigned, if_neg hc, hp]
      simp only [Except.map, Int.toNat_of_nonneg hi]
  · rw [if_neg hi, parseSigned_minus_eq_ok_iff]
    exact ⟨(-i).toNat, by omega, isDigits_decimal _, by omega⟩

/-- `i32` parsing undoes printing. -/
theorem parseI32_decimalInt (v : Int32) : parseI32 (decimalInt v.toInt) = .ok v := by
  have hlo := Int32.le_toInt v
  have hhi := Int32.toInt_lt v
  rw [parseI32, parseSigned_decimalInt (by omega) (by omega)]
  simp only [Except.map, Int32.ofInt_toInt]

end Sakai.Lib
