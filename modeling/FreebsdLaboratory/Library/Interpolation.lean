import Mathlib.Algebra.Order.Floor.Semiring
import Mathlib.Algebra.Order.Field.Basic
import Mathlib.Algebra.Order.Floor.Ring
import Mathlib.Tactic.Linarith
import Mathlib.Tactic.Ring

/-!
# Linear interpolation

A sequence of values, and the line through them: at a natural number it takes the value there, and
in between it is straight.  For an ascending sequence the line ascends, which puts any two quantiles
of sorted samples in the order of their ranks.
-/

namespace Library

variable {K : Type} [Field K] [LinearOrder K] [IsStrictOrderedRing K] [FloorSemiring K]
variable {f : ℕ → K} {r s : K} {n : ℕ}

/-- The value at rank `r` on the line through the values of `f`. -/
def interpolate (f : ℕ → K) (r : K) : K :=
  f ⌊r⌋₊ * (1 - (r - ⌊r⌋₊)) + f ⌈r⌉₊ * (r - ⌊r⌋₊)

theorem interpolate_natCast (f : ℕ → K) (i : ℕ) : interpolate f i = f i := by
  simp [interpolate]

/-- Between two neighbours. -/
theorem interpolate_add (f : ℕ → K) (i : ℕ) {t : K} (h0 : 0 ≤ t) (h1 : t ≤ 1) :
    interpolate f (i + t) = f i + t * (f (i + 1) - f i) := by
  rcases eq_or_lt_of_le h0 with rfl | hpos
  · simp [interpolate]
  rcases eq_or_lt_of_le h1 with rfl | hlt
  · have hcast : ((i : K) + 1) = ((i + 1 : ℕ) : K) := by push_cast; rfl
    rw [hcast, interpolate_natCast]
    ring
  · have hfloor : ⌊(i : K) + t⌋₊ = i := by
      rw [Nat.floor_eq_iff (by positivity)]
      constructor <;> linarith
    have hceil : ⌈(i : K) + t⌉₊ = i + 1 := by
      rw [Nat.ceil_eq_iff (by omega)]
      push_cast
      constructor <;> linarith
    simp only [interpolate, hfloor, hceil]
    ring

/-- A rank that is not negative is a natural number and a fraction. -/
theorem exists_rank (h : 0 ≤ r) : ∃ (i : ℕ) (t : K), 0 ≤ t ∧ t < 1 ∧ r = i + t := by
  refine ⟨⌊r⌋₊, r - ⌊r⌋₊, ?_, ?_, by ring⟩
  · exact sub_nonneg.mpr (Nat.floor_le h)
  · have := Nat.lt_floor_add_one r
    linarith

/-- On a segment the line stays between its ends. -/
theorem interpolate_between {i : ℕ} {t : K} (h0 : 0 ≤ t) (h1 : t ≤ 1) (hf : f i ≤ f (i + 1)) :
    f i ≤ interpolate f (i + t) ∧ interpolate f (i + t) ≤ f (i + 1) := by
  have hrise : 0 ≤ f (i + 1) - f i := sub_nonneg.mpr hf
  have hpos : 0 ≤ t * (f (i + 1) - f i) := mul_nonneg h0 hrise
  have hle : t * (f (i + 1) - f i) ≤ f (i + 1) - f i := mul_le_of_le_one_left hrise h1
  rw [interpolate_add f i h0 h1]
  constructor <;> linarith

/-- **The line through ascending values ascends.** -/
theorem interpolate_mono (hf : ∀ i j, i ≤ j → j ≤ n → f i ≤ f j) (h0 : 0 ≤ r) (hrs : r ≤ s)
    (hsn : s ≤ n) : interpolate f r ≤ interpolate f s := by
  obtain ⟨i, t, ht0, ht1, rfl⟩ := exists_rank h0
  obtain ⟨j, u, hu0, hu1, rfl⟩ := exists_rank (h0.trans hrs)
  have hij : i < j + 1 := by
    have hcast : (i : K) < j + 1 := by linarith
    exact_mod_cast hcast
  rcases Nat.lt_or_ge i j with hlt | hge
  · -- on different segments there is a whole number between the ranks
    have hjn : j ≤ n := by
      have hcast : (j : K) ≤ n := by linarith
      exact_mod_cast hcast
    have hfirst := (interpolate_between ht0 ht1.le (hf i (i + 1) (by omega) (by omega))).2
    have hsecond : f j ≤ interpolate f (j + u) := by
      rcases eq_or_lt_of_le hu0 with rfl | hpos
      · simp [interpolate_natCast]
      · have hjn' : j < n := by
          have hcast : (j : K) < n := by linarith
          exact_mod_cast hcast
        exact (interpolate_between hu0 hu1.le (hf j (j + 1) (by omega) hjn')).1
    exact hfirst.trans ((hf (i + 1) j hlt hjn).trans hsecond)
  · -- on one segment the fractions decide
    obtain rfl : i = j := by omega
    have htu : t ≤ u := by linarith
    rw [interpolate_add f i ht0 ht1.le, interpolate_add f i hu0 hu1.le]
    rcases eq_or_lt_of_le hu0 with rfl | hpos
    · obtain rfl : t = 0 := le_antisymm htu ht0
      rfl
    · have hin : i < n := by
        have hcast : (i : K) < n := by linarith
        exact_mod_cast hcast
      have hrise : 0 ≤ f (i + 1) - f i := sub_nonneg.mpr (hf i (i + 1) (by omega) hin)
      have hmul := mul_le_mul_of_nonneg_right htu hrise
      linarith

end Library
