import Mathlib.Data.Rat.Defs
import Sakai.Fields

/-!
# `cpu.max`

The CPU bandwidth limit: a quota, which may be `max`, and a period, both in microseconds and not
zero.

* `CpuMax.fromStr_eq_ok_iff` says which texts are accepted, and `CpuMax.fromStr_eq_error_iff` which
  field of any other text decides the error.
* `cpu_max_limits`: the tokens as numbers, the stored times, and the CPU count they give, whose
  divisor is never zero.
-/

namespace Sakai

open Lib

/-- The CPU bandwidth limit.
Source: `cpu/max.rs`, `CpuMax`. -/
structure CpuMax where
  /-- The CPU time allowed in a period. -/
  quota : MaxOr NonZeroTime
  /-- The enforcement period. -/
  period : NonZeroTime
  deriving DecidableEq, Repr

namespace CpuMax

/-- Source: `cpu/max.rs`, `CpuMax::from_str`. -/
def fromStr (contents : Str) : Parsed CpuMax :=
  Parser.parse contents do
    return {
      quota := ← Parser.nextField ParseNonZeroMicroseconds "quota"
      period := ← Parser.nextField ParseNonZeroMicroseconds "period" }

/-- The CPU bandwidth that the limit implies, with the conversion of integers and the division of
`F`, the numbers of a ratio. `Time.micros` is the integer `get::<microsecond>` of a time.
Source: `cpu/max.rs`, `CpuMax::cpu_count`. -/
def cpuCount (F : Type) [NatCast F] [Div F] (self : CpuMax) : MaxOr F :=
  match self.quota with
  | .max => .max
  | .value quota => .value ((quota.time.micros : F) / (self.period.time.micros : F))

/-- **A limit is accepted exactly when it is two tokens**, both nonzero times in microseconds; the
first may be `max` instead. -/
theorem fromStr_eq_ok_iff {contents : Str} {limit : CpuMax} :
    fromStr contents = .ok limit ↔
      ∃ quota period, splitAsciiWhitespace contents = [quota, period] ∧
        parseCgroup ParseNonZeroMicroseconds quota = .ok limit.quota ∧
        parseCgroup ParseNonZeroMicroseconds period = .ok limit.period := by
  obtain ⟨limitQuota, limitPeriod⟩ := limit
  unfold fromStr Parser.parse
  rw [Parser.parseLine_eq_ok_iff]
  constructor
  · rintro ⟨parser, hparse, hnil⟩
    obtain ⟨⟨q, parser₁⟩, hq, hrest⟩ := bind_eq_ok.mp hparse
    obtain ⟨⟨p, parser₂⟩, hp, hpure⟩ := bind_eq_ok.mp hrest
    cases hpure
    obtain ⟨quota, htokens, -, hquota⟩ := Parser.nextField_eq_ok_iff.mp hq
    obtain ⟨period, htokens₁, -, hperiod⟩ := Parser.nextField_eq_ok_iff.mp hp
    refine ⟨quota, period, ?_, hquota, hperiod⟩
    rw [htokens₁, hnil] at htokens
    exact htokens
  · rintro ⟨quota, period, htokens, hquota, hperiod⟩
    refine ⟨⟨contents, []⟩, bind_eq_ok.mpr ⟨(limitQuota, ⟨contents, [period]⟩), ?_, ?_⟩, rfl⟩
    · exact Parser.nextField_eq_ok_iff.mpr ⟨quota, htokens, rfl, hquota⟩
    · refine bind_eq_ok.mpr ⟨(limitPeriod, ⟨contents, []⟩), ?_, rfl⟩
      exact Parser.nextField_eq_ok_iff.mpr ⟨period, rfl, rfl, hperiod⟩

/-- A third token is in excess. -/
example : fromStr "max 100000 extra".toList = .error (.excess "max 100000 extra".toList) := rfl

/-! ## The two fields -/

/-- The type of a field.
Source: `cpu/max.rs`, the fields of `CpuMax`. -/
def FieldType : Fin 2 → Type
  | 0 => MaxOr NonZeroTime
  | 1 => NonZeroTime

instance : (i : Fin 2) → ParseCgroup ParseNonZeroMicroseconds (FieldType i) ParseValueError
  | 0 => inferInstanceAs
    (ParseCgroup ParseNonZeroMicroseconds (MaxOr NonZeroTime) ParseValueError)
  | 1 => inferInstanceAs (ParseCgroup ParseNonZeroMicroseconds NonZeroTime ParseValueError)

/-- The label of a field.
Source: `cpu/max.rs`, `CpuMax::from_str`. -/
def fieldLabel : Fin 2 → String
  | 0 => "quota"
  | 1 => "period"

/-- The fields of a limit, as two fields in order. -/
lemma nextFields_two (parser : Parser) :
    (do return {
          quota := ← Parser.nextField ParseNonZeroMicroseconds "quota"
          period := ← Parser.nextField ParseNonZeroMicroseconds "period" } :
        ParserM ParseValueError CpuMax) parser =
      (Parser.nextFields 2 (fun _ => ParseNonZeroMicroseconds) FieldType fieldLabel parser).map
        fun p => (⟨p.1 0, p.1 1⟩, p.2) := by
  show ((Parser.nextField ParseNonZeroMicroseconds "quota" parser :
      Except (ParseError ParseValueError) (MaxOr NonZeroTime × Parser)) >>= _) =
    ((Parser.nextField ParseNonZeroMicroseconds "quota" parser :
      Except (ParseError ParseValueError) (MaxOr NonZeroTime × Parser)) >>= _).map _
  rcases (Parser.nextField ParseNonZeroMicroseconds "quota" parser :
    Except (ParseError ParseValueError) (MaxOr NonZeroTime × Parser)) with e | ⟨quota, next⟩
  · rfl
  · show ((Parser.nextField ParseNonZeroMicroseconds "period" next :
        Except (ParseError ParseValueError) (NonZeroTime × Parser)) >>= _) =
      (((Parser.nextField ParseNonZeroMicroseconds "period" next :
        Except (ParseError ParseValueError) (NonZeroTime × Parser)) >>= _) >>= _).map _
    cases (Parser.nextField ParseNonZeroMicroseconds "period" next :
      Except (ParseError ParseValueError) (NonZeroTime × Parser)) <;> rfl

/-- A limit is a file of two fields. -/
lemma fromStr_eq_nextFields (contents : Str) :
    fromStr contents =
      (Parser.parse contents (Parser.nextFields 2 (fun _ => ParseNonZeroMicroseconds) FieldType
        fieldLabel)).map fun v => ⟨v 0, v 1⟩ := by
  unfold fromStr Parser.parse Parser.parseLine
  rw [nextFields_two]
  rcases Parser.nextFields 2 (fun _ => ParseNonZeroMicroseconds) FieldType fieldLabel
    (Parser.new contents contents) with e | ⟨v, next⟩
  · rfl
  · show (Parser.finish next >>= fun _ => .ok _) = (Parser.finish next >>= fun _ => .ok v).map _
    cases (Parser.finish next : Except (ParseError ParseValueError) (Unit × Parser)) <;> rfl

/-- The field is absent, or its token is invalid. -/
def FieldFails (T : Type) [ParseCgroup ParseNonZeroMicroseconds T ParseValueError]
    (contents : Str) (label : String) (token? : Option Str) (e : ParseError ParseValueError) :
    Prop :=
  (token? = none ∧ e = .missing contents label) ∨
  ∃ token source, token? = some token ∧
    (parseCgroup ParseNonZeroMicroseconds token : Except ParseValueError T) = .error source ∧
    e = .invalid contents label token source

/-- The field is read. -/
def FieldReads (T : Type) [ParseCgroup ParseNonZeroMicroseconds T ParseValueError]
    (token? : Option Str) : Prop :=
  ∃ token, ∃ v : T, token? = some token ∧ parseCgroup ParseNonZeroMicroseconds token = .ok v

/-- **The first field that fails decides the error**; a token is in excess only when none does. -/
theorem fromStr_eq_error_iff {contents : Str} {e : ParseError ParseValueError} :
    fromStr contents = .error e ↔
      FieldFails (MaxOr NonZeroTime) contents "quota" (splitAsciiWhitespace contents)[0]? e ∨
      (FieldReads (MaxOr NonZeroTime) (splitAsciiWhitespace contents)[0]? ∧
        FieldFails NonZeroTime contents "period" (splitAsciiWhitespace contents)[1]? e) ∨
      (FieldReads (MaxOr NonZeroTime) (splitAsciiWhitespace contents)[0]? ∧
        FieldReads NonZeroTime (splitAsciiWhitespace contents)[1]? ∧
        2 < (splitAsciiWhitespace contents).length ∧ e = .excess contents) := by
  rw [fromStr_eq_nextFields, map_eq_error, Parser.parse_nextFields_eq_error_iff]
  constructor
  · intro h
    obtain h | ⟨haccepts, hlt, he⟩ := h
    · obtain ⟨-, hfails⟩ | ⟨haccepts, hfails⟩ := Fin.exists_fin_two.mp h
      · exact Or.inl hfails
      · exact Or.inr (Or.inl ⟨haccepts 0 (by decide), hfails⟩)
    · exact Or.inr (Or.inr ⟨haccepts 0, haccepts 1, hlt, he⟩)
  · intro h
    obtain hfails | ⟨hquota, hfails⟩ | ⟨hquota, hperiod, hlt, he⟩ := h
    · exact Or.inl ⟨0, fun j hj => absurd hj (Fin.not_lt_zero j), hfails⟩
    · refine Or.inl ⟨1, fun j hj => ?_, hfails⟩
      obtain rfl : j = 0 := by omega
      exact hquota
    · exact Or.inr ⟨Fin.forall_fin_two.mpr ⟨hquota, hperiod⟩, hlt, he⟩

/-! ## The numbers of a limit -/

/-- The token is a positive number of microseconds whose nanoseconds fit `u64`. -/
def IsLimit (token : Str) (n : ℕ) : Prop :=
  IsNumeral token n ∧ 1 ≤ n ∧ n ≤ (2 ^ 64 - 1) / 1000

/-- A period is a number. -/
lemma parse_period_eq_ok_iff {token : Str} {t : NonZeroTime} :
    parseCgroup ParseNonZeroMicroseconds token = .ok t ↔
      ∃ n, IsLimit token n ∧ t.time.value.toNat = 1000 * n := by
  rw [parseNonZeroMicroseconds_eq_ok_iff]
  simp only [IsLimit, and_assoc]

/-- A number is read as a time. -/
lemma IsLimit.exists_time {token : Str} {n : ℕ} (h : IsLimit token n) :
    ∃ t : NonZeroTime, parseCgroup ParseNonZeroMicroseconds token = .ok t := by
  obtain ⟨hn, hpos, hle⟩ := h
  have hto : (UInt64.ofNat (1000 * n)).toNat = 1000 * n :=
    UInt64.toNat_ofNat_of_lt' (by rw [UInt64.size]; omega)
  have hne : UInt64.ofNat (1000 * n) ≠ 0 := by
    intro hzero
    rw [hzero, UInt64.toNat_zero] at hto
    omega
  exact ⟨⟨⟨UInt64.ofNat (1000 * n)⟩, hne⟩, parse_period_eq_ok_iff.mpr ⟨n, ⟨hn, hpos, hle⟩, hto⟩⟩

/-- A time of a number of microseconds has that many. -/
lemma micros_eq {t : Time} {n : ℕ} (h : t.value.toNat = 1000 * n) : t.micros = n := by
  unfold Time.micros
  omega

/-- A period is a number exactly when it is read. -/
lemma exists_period_iff {token : Str} :
    (∃ t : NonZeroTime, parseCgroup ParseNonZeroMicroseconds token = .ok t) ↔
      ∃ n, IsLimit token n := by
  constructor
  · intro h
    obtain ⟨t, ht⟩ := h
    obtain ⟨n, hn, -⟩ := parse_period_eq_ok_iff.mp ht
    exact ⟨n, hn⟩
  · intro h
    obtain ⟨n, hn⟩ := h
    exact hn.exists_time

/-- A number is not the token `max`. -/
lemma IsLimit.ne_max {token : Str} {n : ℕ} (h : IsLimit token n) : token ≠ "max".toList := by
  rintro rfl
  exact h.1.not_mem (c := 'm') (by decide) (by decide) List.mem_cons_self

/-- A quota is `max` or a number exactly when it is read. -/
lemma exists_quota_iff {token : Str} :
    (∃ m : MaxOr NonZeroTime, parseCgroup ParseNonZeroMicroseconds token = .ok m) ↔
      token = "max".toList ∨ ∃ n, IsLimit token n := by
  simp only [parseMaxOr_eq_ok_iff]
  constructor
  · intro h
    obtain ⟨m, ⟨hmax, -⟩ | ⟨-, t, ht, -⟩⟩ := h
    · exact Or.inl hmax
    · exact Or.inr (exists_period_iff.mp ⟨t, ht⟩)
  · intro h
    obtain hmax | ⟨n, hn⟩ := h
    · exact ⟨.max, Or.inl ⟨hmax, rfl⟩⟩
    · obtain ⟨t, ht⟩ := hn.exists_time
      exact ⟨.value t, Or.inr ⟨hn.ne_max, t, ht, rfl⟩⟩

end CpuMax

/-- Limits of CPU bandwidth, with any numbers `F` as ratios. A text is accepted exactly when it has
two tokens, the first `max` or a positive number of microseconds that fits, the second such a
number. The times are stored exactly; the CPU count is `max` exactly when the quota is, and is
otherwise the quotient of the two numbers, of which the second is not zero. The first field that
fails decides the error of any other text. -/
theorem cpu_max_limits (contents : Str) (F : Type) [NatCast F] [Div F] :
    ((∃ limit, CpuMax.fromStr contents = .ok limit) ↔
      ∃ quota period, splitAsciiWhitespace contents = [quota, period] ∧
        (quota = "max".toList ∨ ∃ q, CpuMax.IsLimit quota q) ∧ ∃ p, CpuMax.IsLimit period p) ∧
    (∀ limit, CpuMax.fromStr contents = .ok limit →
      ∃ quota period, splitAsciiWhitespace contents = [quota, period] ∧
      ∃ p, CpuMax.IsLimit period p ∧ limit.period.time.value.toNat = 1000 * p ∧
        ((quota = "max".toList ∧ limit.quota = .max ∧ limit.cpuCount F = .max) ∨
        ∃ q t, CpuMax.IsLimit quota q ∧ limit.quota = .value t ∧
          t.time.value.toNat = 1000 * q ∧ limit.cpuCount F = .value ((q : F) / (p : F)))) ∧
    (∀ limit, CpuMax.fromStr contents = .ok limit → 1 ≤ limit.period.time.micros) ∧
    ∀ e, CpuMax.fromStr contents = .error e ↔
      CpuMax.FieldFails (MaxOr NonZeroTime) contents "quota"
        (splitAsciiWhitespace contents)[0]? e ∨
      (CpuMax.FieldReads (MaxOr NonZeroTime) (splitAsciiWhitespace contents)[0]? ∧
        CpuMax.FieldFails NonZeroTime contents "period" (splitAsciiWhitespace contents)[1]? e) ∨
      (CpuMax.FieldReads (MaxOr NonZeroTime) (splitAsciiWhitespace contents)[0]? ∧
        CpuMax.FieldReads NonZeroTime (splitAsciiWhitespace contents)[1]? ∧
        2 < (splitAsciiWhitespace contents).length ∧ e = .excess contents) := by
  have hread : ∀ limit, CpuMax.fromStr contents = .ok limit →
      ∃ quota period, splitAsciiWhitespace contents = [quota, period] ∧
      ∃ p, CpuMax.IsLimit period p ∧ limit.period.time.value.toNat = 1000 * p ∧
        ((quota = "max".toList ∧ limit.quota = .max ∧ limit.cpuCount F = .max) ∨
        ∃ q t, CpuMax.IsLimit quota q ∧ limit.quota = .value t ∧
          t.time.value.toNat = 1000 * q ∧ limit.cpuCount F = .value ((q : F) / (p : F))) := by
    intro limit h
    obtain ⟨quota, period, htokens, hquota, hperiod⟩ := CpuMax.fromStr_eq_ok_iff.mp h
    obtain ⟨p, hp, hptime⟩ := CpuMax.parse_period_eq_ok_iff.mp hperiod
    refine ⟨quota, period, htokens, p, hp, hptime, ?_⟩
    obtain ⟨hmax, hlimit⟩ | ⟨-, t, ht, hlimit⟩ := parseMaxOr_eq_ok_iff.mp hquota
    · refine Or.inl ⟨hmax, hlimit, ?_⟩
      rw [CpuMax.cpuCount, hlimit]
    · obtain ⟨q, hq, hqtime⟩ := CpuMax.parse_period_eq_ok_iff.mp ht
      refine Or.inr ⟨q, t, hq, hlimit, hqtime, ?_⟩
      rw [CpuMax.cpuCount, hlimit]
      simp only [CpuMax.micros_eq hqtime, CpuMax.micros_eq hptime]
  refine ⟨?_, hread, ?_, fun e => CpuMax.fromStr_eq_error_iff⟩
  · constructor
    · intro h
      obtain ⟨limit, hlimit⟩ := h
      obtain ⟨quota, period, htokens, hquota, hperiod⟩ := CpuMax.fromStr_eq_ok_iff.mp hlimit
      exact ⟨quota, period, htokens, CpuMax.exists_quota_iff.mp ⟨_, hquota⟩,
        CpuMax.exists_period_iff.mp ⟨_, hperiod⟩⟩
    · intro h
      obtain ⟨quota, period, htokens, hquota, hperiod⟩ := h
      obtain ⟨m, hm⟩ := CpuMax.exists_quota_iff.mpr hquota
      obtain ⟨t, ht⟩ := CpuMax.exists_period_iff.mpr hperiod
      exact ⟨⟨m, t⟩, CpuMax.fromStr_eq_ok_iff.mpr ⟨quota, period, htokens, hm, ht⟩⟩
  · intro limit h
    obtain ⟨quota, period, -, p, hp, hptime, -⟩ := hread limit h
    rw [CpuMax.micros_eq hptime]
    exact hp.2.1

/-- No quota is no limit on the number of CPUs. -/
theorem cpu_max_limits_max :
    ∃ limit, CpuMax.fromStr "max 100000\n".toList = .ok limit ∧ limit.cpuCount ℚ = .max ∧
      1 ≤ limit.period.time.micros := by
  obtain ⟨-, hlimit, hpos, -⟩ := cpu_max_limits "max 100000\n".toList ℚ
  refine ⟨⟨.max, ⟨⟨100000000⟩, by decide⟩⟩, rfl, ?_, hpos _ rfl⟩
  obtain ⟨_, _, -, _, -, -, ⟨-, -, hcount⟩ | ⟨_, _, -, hvalue, -⟩⟩ := hlimit _ rfl
  · exact hcount
  · cases hvalue

end Sakai
