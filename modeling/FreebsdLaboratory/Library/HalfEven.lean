import Mathlib.Algebra.Order.Floor.Ring
import Mathlib.Algebra.Order.Field.Basic
import Mathlib.Analysis.Real.Sqrt
import Mathlib.Tactic.Linarith

/-!
# Rounding half to even

`roundHalfEven` goes to the nearest integer, and from the middle between two to the even one.  It is
monotone and fixes the integers, so it keeps a value between integer bounds and keeps every order;
so does `roundPlaces`, which rounds to a number of decimal places.  `roundSqrt` rounds a square root
without computing it.
-/

namespace Library

section Rounding

variable {K : Type} [Field K] [LinearOrder K] [FloorRing K] {x y : K}

def roundHalfEven (x : K) : ℤ :=
  if Int.fract x < 1 / 2 then ⌊x⌋
  else if 1 / 2 < Int.fract x then ⌊x⌋ + 1
  else if ⌊x⌋ % 2 = 0 then ⌊x⌋
  else ⌊x⌋ + 1

theorem floor_le_roundHalfEven (x : K) : ⌊x⌋ ≤ roundHalfEven x := by
  unfold roundHalfEven
  split_ifs <;> omega

theorem roundHalfEven_le_floor_add_one (x : K) : roundHalfEven x ≤ ⌊x⌋ + 1 := by
  unfold roundHalfEven
  split_ifs <;> omega

variable [IsStrictOrderedRing K]

@[simp] theorem roundHalfEven_intCast (n : ℤ) : roundHalfEven (n : K) = n := by
  have hhalf : (0 : K) < 1 / 2 := by positivity
  simp [roundHalfEven]

theorem roundHalfEven_mono (h : x ≤ y) : roundHalfEven x ≤ roundHalfEven y := by
  rcases lt_or_eq_of_le (Int.floor_mono h) with hlt | heq
  · calc
      roundHalfEven x ≤ ⌊x⌋ + 1 := roundHalfEven_le_floor_add_one x
      _ ≤ ⌊y⌋ := hlt
      _ ≤ roundHalfEven y := floor_le_roundHalfEven y
  · -- in one unit interval the fractions decide
    have hfract : Int.fract x ≤ Int.fract y := by
      unfold Int.fract
      rw [heq]
      linarith
    unfold roundHalfEven
    rw [heq]
    split_ifs <;> first | omega | linarith

/-- `round(x, places)` -/
def roundPlaces (places : ℕ) (x : K) : K := roundHalfEven (x * 10 ^ places) / 10 ^ places

theorem roundPlaces_mono {places : ℕ} (h : x ≤ y) : roundPlaces places x
    ≤ roundPlaces places y := by
  have hpow : (0 : K) < 10 ^ places := by positivity
  have hmul : x * 10 ^ places ≤ y * 10 ^ places := mul_le_mul_of_nonneg_right h hpow.le
  unfold roundPlaces
  exact div_le_div_of_nonneg_right (Int.cast_le.mpr (roundHalfEven_mono hmul)) hpow.le

end Rounding

/-! ## Square roots -/

/-- The square root of a rational that is not negative, rounded to an integer. -/
def roundSqrt (q : ℚ) : ℤ :=
  let k := Nat.sqrt ⌊q⌋₊
  if q < (k + 1 / 2) ^ 2 then k
  else if (k + 1 / 2) ^ 2 < q then k + 1
  else if k % 2 = 0 then k
  else k + 1

/-- The root lies between two integers. -/
lemma sqrt_bounds {q : ℚ} (h : 0 ≤ q) :
    (Nat.sqrt ⌊q⌋₊ : ℝ) ≤ √(q : ℝ) ∧ √(q : ℝ) < Nat.sqrt ⌊q⌋₊ + 1 := by
  have hlow : ((Nat.sqrt ⌊q⌋₊ : ℕ) : ℚ) ^ 2 ≤ q := by
    have hsqrt : Nat.sqrt ⌊q⌋₊ ^ 2 ≤ ⌊q⌋₊ := Nat.sqrt_le' _
    calc
      ((Nat.sqrt ⌊q⌋₊ : ℕ) : ℚ) ^ 2 ≤ (⌊q⌋₊ : ℚ) := by exact_mod_cast hsqrt
      _ ≤ q := Nat.floor_le h
  have hhigh : q < ((Nat.sqrt ⌊q⌋₊ : ℕ) + 1 : ℚ) ^ 2 := by
    have hsqrt : ⌊q⌋₊ + 1 ≤ (Nat.sqrt ⌊q⌋₊ + 1) ^ 2 := Nat.lt_succ_sqrt' _
    calc
      q < (⌊q⌋₊ : ℚ) + 1 := Nat.lt_floor_add_one q
      _ ≤ ((Nat.sqrt ⌊q⌋₊ : ℕ) + 1 : ℚ) ^ 2 := by exact_mod_cast hsqrt
  constructor
  · refine Real.le_sqrt_of_sq_le ?_
    exact_mod_cast hlow
  · rw [Real.sqrt_lt' (by positivity)]
    exact_mod_cast hhigh

theorem roundSqrt_eq {q : ℚ} (h : 0 ≤ q) : roundSqrt q = roundHalfEven √(q : ℝ) := by
  obtain ⟨hlow, hhigh⟩ := sqrt_bounds h
  have hfloor : ⌊√(q : ℝ)⌋ = Nat.sqrt ⌊q⌋₊ := by
    rw [Int.floor_eq_iff]
    exact ⟨by exact_mod_cast hlow, by exact_mod_cast hhigh⟩
  have hpos : (0 : ℝ) < Nat.sqrt ⌊q⌋₊ + 1 / 2 := by positivity
  have hlt : q < ((Nat.sqrt ⌊q⌋₊ : ℕ) + 1 / 2 : ℚ) ^ 2 ↔ Int.fract √(q : ℝ) < 1 / 2 := by
    rw [Int.fract, hfloor, sub_lt_iff_lt_add', Int.cast_natCast, Real.sqrt_lt' hpos,
      ← Rat.cast_lt (K := ℝ)]
    push_cast
    rfl
  have hgt : ((Nat.sqrt ⌊q⌋₊ : ℕ) + 1 / 2 : ℚ) ^ 2 < q ↔ 1 / 2 < Int.fract √(q : ℝ) := by
    rw [Int.fract, hfloor, lt_sub_iff_add_lt', Int.cast_natCast, Real.lt_sqrt hpos.le,
      ← Rat.cast_lt (K := ℝ)]
    push_cast
    rfl
  unfold roundSqrt roundHalfEven
  simp only [hlt, hgt, hfloor]
  split_ifs <;> omega

end Library
