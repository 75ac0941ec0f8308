import Mathlib.Data.Rat.Floor

/-! # Rounding

`trunc` is the conversion to an integer that drops the fraction, next to the floor and the ceiling
of the library. A `Precision` says how a number system rounds the exact result of an operation:
`exact` does not, `float64` takes the nearest number with 53 significant bits.

* `trunc_mul_eq_ceil_iff`, `trunc_pos_iff`. -/

namespace Tokilake.Lib.Rounding

/-- How the exact result of an operation is rounded. -/
structure Precision where
  round : ℚ → ℚ
  round_zero : round 0 = 0

instance : CoeFun Precision fun _ => ℚ → ℚ := ⟨Precision.round⟩

/-- Exact arithmetic. -/
def Precision.exact : Precision := ⟨id, rfl⟩

/-- The nearest integer; a tie goes to the even one. -/
def nearestEven (x : ℚ) : ℤ :=
  if x - ⌊x⌋ < 1 / 2 ∨ (x - ⌊x⌋ = 1 / 2 ∧ ⌊x⌋ % 2 = 0) then ⌊x⌋ else ⌊x⌋ + 1

/-- The product of `x` with the power of two to the `k`. -/
def shift (x : ℚ) : ℤ → ℚ
  | .ofNat k => x * (2 ^ k : ℕ)
  | .negSucc k => x / (2 ^ (k + 1) : ℕ)

@[simp] lemma shift_zero (k : ℤ) : shift 0 k = 0 := by cases k <;> simp [shift]

/-- The nearest number with 53 significant bits, a tie to even, for exponents that are in range. -/
def roundFloat64 (x : ℚ) : ℚ :=
  let e := (Nat.log2 x.num.natAbs : ℤ) - Nat.log2 x.den
  -- `x` lies between the powers of two to `e - 1` and to `e + 1`
  let e := if |shift x (-e)| < 1 then e - 1 else e
  shift (nearestEven (shift x (52 - e))) (e - 52)

/-- IEEE 754 double precision, rounded after each operation. -/
def Precision.float64 : Precision := ⟨roundFloat64, by simp [roundFloat64, nearestEven]⟩

/-- The integer part of `x`, rounded towards zero. -/
def trunc (x : ℚ) : ℤ :=
  if 0 ≤ x then ⌊x⌋ else ⌈x⌉

@[simp] lemma trunc_zero : trunc 0 = 0 := by simp [trunc]

lemma trunc_of_nonneg {x : ℚ} (h : 0 ≤ x) : trunc x = ⌊x⌋ := if_pos h

lemma trunc_nonpos {x : ℚ} (h : x < 0) : trunc x ≤ 0 := by
  rw [trunc, if_neg (not_le.mpr h), Int.ceil_le]
  exact_mod_cast h.le

lemma trunc_pos_iff {x : ℚ} : 0 < trunc x ↔ 1 ≤ x := by
  constructor
  · intro h
    rcases lt_or_ge x 0 with hx | hx
    · exact absurd h (not_lt.mpr (trunc_nonpos hx))
    · rw [trunc_of_nonneg hx, Int.floor_pos] at h
      exact h
  · intro h
    rw [trunc_of_nonneg (zero_le_one.trans h), Int.floor_pos]
    exact h

/-- A positive number meets its ceiling only where the scaled value lies from one to below two. -/
lemma trunc_mul_eq_ceil_iff {k x : ℚ} (hk : 3 ≤ k) (hx : 0 < x) :
    trunc (k * x) = ⌈x⌉ ↔ 1 ≤ k * x ∧ k * x < 2 := by
  have hkx : x < k * x := by nlinarith
  rw [trunc_of_nonneg (hx.trans hkx).le]
  constructor
  · intro h
    have hceil : 0 < ⌈x⌉ := Int.ceil_pos.mpr hx
    refine ⟨Int.floor_pos.mp (h ▸ hceil), ?_⟩
    by_contra hge
    push Not at hge
    -- past two, the fraction dropped is less than what the scaling added
    have hfl : k * x < ⌊k * x⌋ + 1 := Int.lt_floor_add_one _
    have hcl := Int.ceil_lt_add_one x
    have htwo : (2 : ℤ) ≤ ⌈x⌉ := h ▸ Int.le_floor.mpr (by exact_mod_cast hge)
    have hone : 1 < x := by
      have := Int.lt_ceil.mp (show (1 : ℤ) < ⌈x⌉ by omega)
      exact_mod_cast this
    rw [h] at hfl
    nlinarith
  · rintro ⟨h1, h2⟩
    have hx1 : x ≤ 1 := by nlinarith
    have hfloor : ⌊k * x⌋ = 1 := Int.floor_eq_iff.mpr ⟨by exact_mod_cast h1, by push_cast; linarith⟩
    have hceil : ⌈x⌉ = 1 := Int.ceil_eq_iff.mpr ⟨by push_cast; linarith, by exact_mod_cast hx1⟩
    rw [hfloor, hceil]

end Tokilake.Lib.Rounding
