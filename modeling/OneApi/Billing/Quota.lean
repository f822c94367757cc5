import Mathlib.Data.Rat.Floor

/-!
# Quota conversions

The conversions of `common/quota_math.go` from a computed value to a quota: rounded or truncated,
then clamped to the range of a 32-bit column.  Values are exact rationals, so the `NaN` branch of
`saturateQuota` has no counterpart.
-/

namespace OneApi.Billing.Quota

def maxQuota : ℤ := 2147483647

def minQuota : ℤ := -2147483648

inductive QuotaClampKind
  | overflow
  | underflow
  deriving Repr, DecidableEq

structure QuotaClamp where
  op : String
  kind : QuotaClampKind
  original : ℚ
  clamped : ℤ
  deriving Repr, DecidableEq

def QuotaClampKind.text : QuotaClampKind → String
  | .overflow => "overflow"
  | .underflow => "underflow"

/-- `QuotaClamp.Error`; `formatG` is the `%g` of a value. -/
def QuotaClamp.message (formatG : ℚ → String) (c : QuotaClamp) : String :=
  "quota conversion (" ++ c.op ++ ") " ++ c.kind.text ++ ": original=" ++ formatG c.original ++
    s!", clamped={c.clamped}"

/-- Go's conversion to `int`, towards zero. -/
def truncate (value : ℚ) : ℤ := if 0 ≤ value then ⌊value⌋ else ⌈value⌉

/-- Rounding to the nearest integer, halves away from zero. -/
def roundAway (value : ℚ) : ℤ := if 0 ≤ value then ⌊value + 1 / 2⌋ else ⌈value - 1 / 2⌉

def saturateQuota (value : ℚ) (op : String) : ℤ × Option QuotaClamp :=
  if maxQuota ≤ value then (maxQuota, some ⟨op, .overflow, value, maxQuota⟩)
  else if value ≤ minQuota then (minQuota, some ⟨op, .underflow, value, minQuota⟩)
  else (truncate value, none)

def quotaFromFloatChecked (value : ℚ) : ℤ × Option QuotaClamp :=
  saturateQuota value "QuotaFromFloat"

/-- `QuotaFromFloatStrict`: a clamp is an error. -/
def quotaFromFloatStrict (value : ℚ) : Except QuotaClamp ℤ :=
  match quotaFromFloatChecked value with
  | (_, some clamp) => .error clamp
  | (quota, none) => .ok quota

def quotaFromDecimalChecked (d : ℚ) : ℤ × Option QuotaClamp :=
  saturateQuota (roundAway d) "QuotaFromDecimal"

variable {value : ℚ}

theorem truncate_nonneg (h : 0 ≤ value) : 0 ≤ truncate value := by
  rw [truncate, if_pos h]
  exact Int.floor_nonneg.mpr h

theorem roundAway_nonneg (h : 0 ≤ value) : 0 ≤ roundAway value := by
  rw [roundAway, if_pos h]
  exact Int.floor_nonneg.mpr (by linarith)

theorem truncate_of_nonneg (h : 0 ≤ value) : truncate value = ⌊value⌋ := if_pos h

theorem truncate_intCast (n : ℤ) : truncate (n : ℚ) = n := by
  rw [truncate]
  split
  · exact Int.floor_intCast n
  · exact Int.ceil_intCast n

theorem truncate_pos_iff (value : ℚ) : 0 < truncate value ↔ 1 ≤ value := by
  rw [truncate]
  split
  · rw [Int.floor_pos]
  · rename_i hneg
    have hceil : ⌈value⌉ ≤ 0 := Int.ceil_le.mpr (by push_cast; linarith)
    constructor
    · intro h
      omega
    · intro h
      linarith

theorem roundAway_of_nonneg (h : 0 ≤ value) : roundAway value = ⌊value + 1 / 2⌋ := if_pos h

theorem roundAway_pos_iff (value : ℚ) : 0 < roundAway value ↔ 1 / 2 ≤ value := by
  rw [roundAway]
  split
  · rw [Int.floor_pos]
    constructor <;> intro h <;> linarith
  · rename_i hneg
    have hceil : ⌈value - 1 / 2⌉ ≤ 0 := Int.ceil_le.mpr (by push_cast; linarith)
    constructor
    · intro h
      omega
    · intro h
      linarith

/-- A value that is not negative is not made a credit. -/
theorem saturateQuota_nonneg (h : 0 ≤ value) (op : String) : 0 ≤ (saturateQuota value op).1 := by
  rw [saturateQuota]
  split
  · show 0 ≤ maxQuota
    decide
  split
  · rename_i hle
    have hmin : ((minQuota : ℤ) : ℚ) < 0 := by norm_num [minQuota]
    linarith
  · exact truncate_nonneg h

end OneApi.Billing.Quota
