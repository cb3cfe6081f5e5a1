import Sakai.Encoding
import Sakai.Lib.Path

/-!
# HugeTLB page sizes

The kernel names its HugeTLB files after the page size, in the largest binary unit that does not
exceed it. A `PageSize` carries the proof that it is a power of two of at least 1 KiB.

* `PageSize.checkedMul_unitOf`: the displayed number, scaled by the unit, is the size.
* `PageSize.fromStr_eq_ok_iff`: a text is accepted exactly when it is the displayed form of a size,
  which is then read.
* `PageSize.fileName_inj`: the name of a file determines the size and the suffix.
-/

namespace Sakai

open Lib

/-- A HugeTLB page size.
Source: `hugetlb.rs`, `PageSize`. -/
structure PageSize where
  /-- The size. -/
  bytes : Bytes
  /-- It is at least 1 KiB. -/
  le : 1024 ≤ bytes.value.toNat
  /-- It is a power of two. -/
  isPowerOfTwo : bytes.value.toNat.isPowerOfTwo
  deriving DecidableEq, Repr

namespace PageSize

/-- Source: `hugetlb.rs`, `PageSize::try_new`, the validation of the `nutype` attribute. -/
def tryNew (bytes : Bytes) : Option PageSize :=
  if h : 1024 ≤ bytes.value.toNat ∧ bytes.value.toNat.isPowerOfTwo then some ⟨bytes, h.1, h.2⟩
  else none

/-- Validation keeps every valid size. -/
@[simp] lemma tryNew_eq_some_iff {bytes : Bytes} {size : PageSize} :
    tryNew bytes = some size ↔ size.bytes = bytes := by
  unfold tryNew
  constructor
  · intro h
    split_ifs at h
    cases h
    rfl
  · rintro rfl
    rw [dif_pos ⟨size.le, size.isPowerOfTwo⟩]

/-! ## Labels -/

/-- A binary unit of a label.
Source: `hugetlb.rs`, the constants of `PageSize` and their suffixes. -/
inductive SizeUnit
  | gibibyte
  | mebibyte
  | kibibyte
  deriving DecidableEq, Repr

namespace SizeUnit

/-- The number of bytes of a unit.
Source: `hugetlb.rs`, `GIBIBYTE`, `MEBIBYTE` and `KIBIBYTE`. -/
def bytes : SizeUnit → UInt64
  | gibibyte => (1 : UInt64) <<< 30
  | mebibyte => (1 : UInt64) <<< 20
  | kibibyte => (1 : UInt64) <<< 10

/-- The suffix of a unit. -/
def suffix : SizeUnit → Str
  | gibibyte => "GB".toList
  | mebibyte => "MB".toList
  | kibibyte => "KB".toList

/-- The exponent of a unit. -/
def exponent : SizeUnit → ℕ
  | gibibyte => 30
  | mebibyte => 20
  | kibibyte => 10

/-- A unit is a power of two. -/
lemma toNat_bytes (u : SizeUnit) : u.bytes.toNat = 2 ^ u.exponent := by
  cases u <;> rfl

/-- Suffixes are of one length. -/
lemma length_suffix (u : SizeUnit) : u.suffix.length = 2 := by
  cases u <;> decide

/-- Different units have different suffixes. -/
lemma suffix_injective {u v : SizeUnit} (h : u.suffix = v.suffix) : u = v := by
  cases u <;> cases v <;> first | rfl | exact absurd h (by decide)

end SizeUnit

/-- The unit a size is displayed in.
Source: `hugetlb.rs`, the selection in `PageSize::fmt`. -/
def unitOf (bytes : UInt64) : SizeUnit :=
  if SizeUnit.gibibyte.bytes ≤ bytes then .gibibyte
  else if SizeUnit.mebibyte.bytes ≤ bytes then .mebibyte
  else .kibibyte

/-- The displayed form of a size.
Source: `hugetlb.rs`, `PageSize::fmt`. -/
def display (self : PageSize) : Str :=
  let bytes := self.bytes.value
  let unit := unitOf bytes
  decimal (bytes / unit.bytes).toNat ++ unit.suffix

/-- The number of a label, and its unit.
Source: `hugetlb.rs`, the selection in `PageSize::from_str`. -/
def splitUnit (label : Str) : Option (Str × SizeUnit) :=
  match stripSuffix SizeUnit.gibibyte.suffix label with
  | some number => some (number, .gibibyte)
  | none => match stripSuffix SizeUnit.mebibyte.suffix label with
    | some number => some (number, .mebibyte)
    | none => match stripSuffix SizeUnit.kibibyte.suffix label with
      | some number => some (number, .kibibyte)
      | none => none

/-- Source: `hugetlb.rs`, `PageSize::from_str`. -/
def fromStr (label : Str) : Parsed PageSize :=
  let invalid := .error (.invalid label "page_size" label .outOfRange)
  match splitUnit label with
  | none => invalid
  | some (number, unit) =>
    match (parseU64 number).toOption.bind fun number => checkedMul number unit.bytes with
    | none => invalid
    | some bytes => match tryNew ⟨bytes⟩ with
      | none => invalid
      | some size => if size.display ≠ label then invalid else .ok size

/-- The name of a file.
Source: `hugetlb.rs`, `PageSize::file_name`. -/
def fileName (self : PageSize) (suffix : Str) : Str :=
  "hugetlb.".toList ++ (self.display ++ '.' :: suffix)

/-- The suffixes of the files.
Source: `hugetlb.rs`, the constants `SUFFIX` and `LOCAL_SUFFIX`. -/
def suffixes : List String :=
  ["current", "max", "rsvd.current", "rsvd.max", "events", "events.local", "numa_stat"]

/-! ## Reading a label back -/

/-- The unit of a size does not exceed it. -/
lemma unitOf_le (size : PageSize) :
    2 ^ (unitOf size.bytes.value).exponent ≤ size.bytes.value.toNat := by
  have hle := size.le
  rw [← SizeUnit.toNat_bytes]
  unfold unitOf
  split_ifs with hgib hmib
  · exact UInt64.le_iff_toNat_le.mp hgib
  · exact UInt64.le_iff_toNat_le.mp hmib
  · exact hle

/-- The unit of a size divides it: both are powers of two. -/
lemma unitOf_dvd (size : PageSize) :
    (unitOf size.bytes.value).bytes.toNat ∣ size.bytes.value.toNat := by
  obtain ⟨k, hk⟩ := size.isPowerOfTwo
  have hle := unitOf_le size
  rw [SizeUnit.toNat_bytes, hk]
  rw [hk] at hle
  exact Nat.pow_dvd_pow 2 ((Nat.pow_le_pow_iff_right (by decide)).mp hle)

/-- **The displayed number, scaled by the unit, is the size.** -/
lemma checkedMul_unitOf (size : PageSize) :
    checkedMul (size.bytes.value / (unitOf size.bytes.value).bytes)
      (unitOf size.bytes.value).bytes = some size.bytes.value := by
  rw [checkedMul_eq_some_iff, UInt64.toNat_div]
  exact (Nat.div_mul_cancel (unitOf_dvd size)).symm

/-- A label does not end with the suffix of another unit. -/
lemma stripSuffix_of_ne (number : Str) {unit other : SizeUnit} (h : other ≠ unit) :
    stripSuffix other.suffix (number ++ unit.suffix) = none := by
  rw [Option.eq_none_iff_forall_ne_some]
  intro rest hrest
  have happend := stripSuffix_eq_some_iff.mp hrest
  have hlength : other.suffix.length = unit.suffix.length := by
    rw [SizeUnit.length_suffix, SizeUnit.length_suffix]
  exact h (SizeUnit.suffix_injective (List.append_inj' happend hlength).2)

/-- A label is taken apart into its number and its unit. -/
lemma splitUnit_append (number : Str) (unit : SizeUnit) :
    splitUnit (number ++ unit.suffix) = some (number, unit) := by
  have hself : ∀ ending : Str, stripSuffix ending (number ++ ending) = some number :=
    fun ending => stripSuffix_eq_some_iff.mpr rfl
  unfold splitUnit
  cases unit with
  | gibibyte => rw [hself]
  | mebibyte => rw [stripSuffix_of_ne number (by decide), hself]
  | kibibyte =>
      rw [stripSuffix_of_ne number (by decide), stripSuffix_of_ne number (by decide), hself]

/-- A size is read back from its displayed form. -/
lemma fromStr_display (size : PageSize) : fromStr size.display = .ok size := by
  have hnumber : (parseU64 (decimal (size.bytes.value / (unitOf size.bytes.value).bytes).toNat)) =
      .ok (size.bytes.value / (unitOf size.bytes.value).bytes) :=
    parseU64_eq_ok_iff.mpr (isNumeral_decimal _)
  have hnew : tryNew size.bytes = some size := tryNew_eq_some_iff.mpr rfl
  have hsplit : splitUnit size.display = some (_, _) := splitUnit_append _ _
  unfold fromStr
  simp only [hsplit, hnumber, Except.toOption, Option.bind_some, checkedMul_unitOf, hnew, ne_eq,
    not_true_eq_false, if_false]

/-- **A text is accepted exactly when it is the displayed form of a size**, which is then read. -/
theorem fromStr_eq_ok_iff {label : Str} {size : PageSize} :
    fromStr label = .ok size ↔ label = size.display := by
  constructor
  · intro h
    unfold fromStr at h
    split at h
    · cases h
    · split at h
      · cases h
      · split at h
        · cases h
        · split_ifs at h with hlabel
          cases h
          exact (not_not.mp hlabel).symm
  · rintro rfl
    exact fromStr_display size

/-- Different sizes are displayed differently. -/
lemma display_injective : Function.Injective display := by
  intro a b h
  have ha := fromStr_display a
  rw [h, fromStr_display b] at ha
  exact (Except.ok.inj ha).symm

/-- Every power of two from 1 KiB on that fits 64 bits is a size. -/
lemma exists_of_exponent {k : ℕ} (hlo : 10 ≤ k) (hhi : k < 64) :
    ∃ size : PageSize, size.bytes.value.toNat = 2 ^ k := by
  have hlt : 2 ^ k < UInt64.size := Nat.pow_lt_pow_right (by decide) hhi
  have hle : 2 ^ 10 ≤ 2 ^ k := Nat.pow_le_pow_right (by decide) hlo
  have hto : (UInt64.ofNat (2 ^ k)).toNat = 2 ^ k := UInt64.toNat_ofNat_of_lt' hlt
  have hsize : 1024 ≤ (UInt64.ofNat (2 ^ k)).toNat := by
    rw [hto]
    exact hle
  exact ⟨⟨⟨UInt64.ofNat (2 ^ k)⟩, hsize, k, hto⟩, hto⟩

/-- A size is such a power of two. -/
lemma exists_exponent (size : PageSize) :
    ∃ k, 10 ≤ k ∧ k < 64 ∧ size.bytes.value.toNat = 2 ^ k := by
  obtain ⟨k, hk⟩ := size.isPowerOfTwo
  have hle : 2 ^ 10 ≤ 2 ^ k := hk ▸ size.le
  have hlt : 2 ^ k < 2 ^ 64 := hk ▸ size.bytes.value.toNat_lt
  exact ⟨k, (Nat.pow_le_pow_iff_right (by decide)).mp hle,
    (Nat.pow_lt_pow_iff_right (by decide)).mp hlt, hk⟩

/-- The unit that a power of two is displayed in. -/
lemma unitOf_of_exponent {bytes : UInt64} {k : ℕ} (hk : bytes.toNat = 2 ^ k) :
    unitOf bytes = if 30 ≤ k then .gibibyte else if 20 ≤ k then .mebibyte else .kibibyte := by
  have hunit : ∀ unit : SizeUnit, unit.bytes ≤ bytes ↔ unit.exponent ≤ k := by
    intro unit
    rw [UInt64.le_iff_toNat_le, SizeUnit.toNat_bytes, hk]
    exact Nat.pow_le_pow_iff_right (by decide)
  unfold unitOf
  simp only [hunit, SizeUnit.exponent]

/-- **The displayed form of a power of two** is what is left of it in its unit. -/
lemma display_of_exponent (size : PageSize) {k : ℕ} (hk : size.bytes.value.toNat = 2 ^ k)
    {unit : SizeUnit} (hunit : unitOf size.bytes.value = unit) :
    size.display = decimal (2 ^ (k - unit.exponent)) ++ unit.suffix := by
  have hle := unitOf_le size
  rw [hunit, hk] at hle
  unfold display
  simp only [hunit]
  rw [UInt64.toNat_div, hk, SizeUnit.toNat_bytes,
    Nat.pow_div ((Nat.pow_le_pow_iff_right (by decide)).mp hle) (by decide)]

/-! ## File names -/

/-- A label holds digits and letters only. -/
lemma not_mem_display (size : PageSize) {c : Char} (hdigit : c.isDigit = false)
    (hletter : c ∉ "GMKB".toList) : c ∉ size.display := by
  have hsuffix : ∀ unit : SizeUnit, ∀ d ∈ unit.suffix, d ∈ "GMKB".toList := by
    intro unit
    cases unit <;> simp [SizeUnit.suffix]
  unfold display
  rw [List.mem_append, not_or]
  exact ⟨not_mem_decimal hdigit _, fun hc => hletter (hsuffix _ c hc)⟩

/-- **The name of a file determines the size and the suffix**: the label ends at the second dot. -/
theorem fileName_inj {a b : PageSize} {s t : Str} (h : a.fileName s = b.fileName t) :
    a = b ∧ s = t := by
  have hdot : ∀ size : PageSize, '.' ∉ size.display :=
    fun size => not_mem_display size (by decide) (by decide)
  have happend := List.append_cancel_left h
  have hsplit := splitOnce_append_cons (hdot a) s
  rw [happend, splitOnce_append_cons (hdot b) t, Option.some.injEq, Prod.mk.injEq] at hsplit
  exact ⟨display_injective hsplit.1.symm, hsplit.2.symm⟩

/-- The name of a file holds no separator. -/
lemma not_mem_fileName (size : PageSize) {suffix : Str} (hsuffix : '/' ∉ suffix) :
    '/' ∉ size.fileName suffix := by
  unfold fileName
  simp only [List.mem_append, List.mem_cons, not_or]
  exact ⟨by decide, not_mem_display size (by decide) (by decide), by decide, hsuffix⟩

/-- The name of a file is a single path component. -/
lemma components_fileName (size : PageSize) {suffix : Str} (hsuffix : '/' ∉ suffix) :
    Path.components (size.fileName suffix) = [.normal (size.fileName suffix)] := by
  have hsep := not_mem_fileName size hsuffix
  have hhead : (size.fileName suffix).head? = some 'h' := by
    unfold fileName
    rw [List.head?_append_of_ne_nil _ (by decide)]
    decide
  refine Path.components_of_not_mem hsep ?_ ?_ ?_ <;>
    · intro hname
      rw [hname] at hhead
      exact absurd hhead (by decide)

end PageSize

/-- **Page-size labels are canonical.** A text is read as a size exactly when it is the displayed
form of this size, so displaying and reading are inverse, and every power of two from 1 KiB on that
fits 64 bits is a size. It is displayed in gibibytes from 1 GiB on, in mebibytes from 1 MiB on, and
in kibibytes below. The name of each file is one path component, and files of different sizes or
suffixes have different names. -/
theorem page_size_labels :
    (∀ label size, PageSize.fromStr label = .ok size ↔ label = size.display) ∧
    (∀ k, 10 ≤ k → k < 64 → ∃ size : PageSize, size.bytes.value.toNat = 2 ^ k) ∧
    (∀ size : PageSize, ∃ k, 10 ≤ k ∧ k < 64 ∧ size.bytes.value.toNat = 2 ^ k) ∧
    (∀ (size : PageSize) (k : ℕ), size.bytes.value.toNat = 2 ^ k → size.display =
      if 30 ≤ k then decimal (2 ^ (k - 30)) ++ "GB".toList
      else if 20 ≤ k then decimal (2 ^ (k - 20)) ++ "MB".toList
      else decimal (2 ^ (k - 10)) ++ "KB".toList) ∧
    (∀ label label' size, PageSize.fromStr label = .ok size → PageSize.fromStr label' = .ok size →
      label = label') ∧
    (∀ size : PageSize, ∀ suffix ∈ PageSize.suffixes, '/' ∉ size.fileName suffix.toList ∧
      Path.components (size.fileName suffix.toList) = [.normal (size.fileName suffix.toList)]) ∧
    ∀ (a b : PageSize) (s t : Str), a ≠ b → a.fileName s ≠ b.fileName t := by
  refine ⟨fun label size => PageSize.fromStr_eq_ok_iff,
    fun k hlo hhi => PageSize.exists_of_exponent hlo hhi, PageSize.exists_exponent,
    fun size k hk => ?_, fun label label' size h h' => ?_, fun size suffix hsuffix => ?_,
    fun a b s t hne heq => hne (PageSize.fileName_inj heq).1⟩
  · have hunit := PageSize.unitOf_of_exponent hk
    split_ifs at hunit ⊢
    · exact size.display_of_exponent hk hunit
    · exact size.display_of_exponent hk hunit
    · exact size.display_of_exponent hk hunit
  · rw [PageSize.fromStr_eq_ok_iff.mp h, PageSize.fromStr_eq_ok_iff.mp h']
  · have hsep : ∀ suffix ∈ PageSize.suffixes, '/' ∉ suffix.toList := by decide
    exact ⟨PageSize.not_mem_fileName size (hsep suffix hsuffix),
      PageSize.components_fileName size (hsep suffix hsuffix)⟩

/-- The page size of two megabytes. -/
theorem page_size_labels_megabytes :
    ∃ size : PageSize, size.bytes.value.toNat = 2 ^ 21 ∧ size.display = "2MB".toList ∧
      PageSize.fromStr "2MB".toList = .ok size := by
  obtain ⟨hparse, hsize, -, hdisplay, -⟩ := page_size_labels
  obtain ⟨size, hbytes⟩ := hsize 21 (by decide) (by decide)
  have hlabel : size.display = "2MB".toList := (hdisplay size 21 hbytes).trans (by decide)
  exact ⟨size, hbytes, hlabel, (hparse _ size).mpr hlabel.symm⟩

end Sakai
