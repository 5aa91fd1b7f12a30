import FreebsdLaboratory.Library.Interpolation
import FreebsdLaboratory.Model.Benchmark
import Mathlib.Tactic

/-!
# Summaries are in order

The smallest sample, the median, the 95th percentile and the largest sample all lie on the line
through the sorted samples, at the ranks `0`, `(n - 1) / 2`, `0.95 (n - 1)` and `n - 1`.  So their
order is that of the ranks, and rounding keeps it.
-/

namespace FreebsdLaboratory

open Library

variable {values : List ℚ} {n : ℕ}

/-! ## Elements -/

/-- The values as a sequence. -/
def sequence (values : List ℚ) (i : ℕ) : ℚ := values.getD i 0

lemma item_natCast {i : ℕ} (h : i < values.length) : item values i = .ok (sequence values i) := by
  have hi : ¬ (i : ℤ) < 0 := by omega
  simp [item, sequence, hi, h]

lemma item_last (h : values ≠ []) :
    item values (-1) = .ok (sequence values (values.length - 1)) := by
  have hpos : 0 < values.length := List.length_pos_iff.mpr h
  have hplace : (-1 : ℤ) + values.length = ((values.length - 1 : ℕ) : ℤ) := by omega
  have hlt : values.length - 1 < values.length := by omega
  simp only [item, hplace]
  simp [sequence, hlt]

/-- Sorted values as a sequence ascend. -/
lemma sequence_le (h : values.Pairwise (· ≤ ·)) {i j : ℕ} (hij : i ≤ j)
    (hj : j < values.length) : sequence values i ≤ sequence values j := by
  have hi : i < values.length := by omega
  simp only [sequence, List.getD_eq_getElem?_getD, List.getElem?_eq_getElem hi,
    List.getElem?_eq_getElem hj, Option.getD_some]
  rcases Nat.lt_or_eq_of_le hij with hlt | rfl
  · exact List.pairwise_iff_getElem.mp h i j hi hj hlt
  · rfl

/-! ## Ranks -/

/-- The values that are looked up for the median and for the percentile exist. -/
structure IndexesExisting (n : ℕ) : Prop where
  first : 0 < n
  odd : (n : ℤ) % 2 = 1 → 0 ≤ (n : ℤ) / 2 ∧ (n : ℤ) / 2 < n
  even : (n : ℤ) % 2 ≠ 1 → 0 ≤ (n : ℤ) / 2 - 1 ∧ (n : ℤ) / 2 < n
  lower : 0 ≤ ⌊p95Rank n⌋
  lower_le : ⌊p95Rank n⌋ ≤ ⌈p95Rank n⌉
  upper : ⌈p95Rank n⌉ < n

lemma p95Rank_bounds (h : 0 < n) : 0 ≤ p95Rank n ∧ p95Rank n ≤ n - 1 := by
  have hn : (1 : ℚ) ≤ n := by exact_mod_cast h
  unfold p95Rank
  constructor <;> linarith

lemma indexesExisting (h : 0 < n) : IndexesExisting n := by
  obtain ⟨hlow, hhigh⟩ := p95Rank_bounds h
  refine ⟨h, by omega, by omega, Int.floor_nonneg.mpr hlow, Int.floor_le_ceil _, ?_⟩
  have hceil : ⌈p95Rank n⌉ ≤ (n : ℤ) - 1 := by
    rw [Int.ceil_le]
    push_cast
    exact hhigh
  omega

/-- The median is on the line, in the middle. -/
lemma median_eq (h : values ≠ []) :
    median values = .ok (interpolate (sequence values) (((values.length : ℚ) - 1) / 2)) := by
  have hpos : 0 < values.length := List.length_pos_iff.mpr h
  obtain ⟨k, hk | hk⟩ := Nat.even_or_odd' values.length
  · obtain ⟨i, rfl⟩ : ∃ i, k = i + 1 := ⟨k - 1, by omega⟩
    have hmiddle : (((values.length : ℕ) : ℚ) - 1) / 2 = (i : ℚ) + 1 / 2 := by
      rw [hk]
      push_cast
      ring
    have hdiv : (values.length : ℤ) / 2 = ((i + 1 : ℕ) : ℤ) := by omega
    have hprev : (((i + 1 : ℕ) : ℤ) - 1) = ((i : ℕ) : ℤ) := by omega
    have hmod : ¬ (values.length : ℤ) % 2 = 1 := by omega
    have hi : i < values.length := by omega
    have hi' : i + 1 < values.length := by omega
    simp only [median, if_neg hmod, hdiv, hprev, item_natCast hi, item_natCast hi']
    rw [hmiddle, interpolate_add _ i (by norm_num) (by norm_num)]
    simp only [bind, Except.bind, pure, Except.pure]
    congr 1
    ring
  · have hmiddle : (((values.length : ℕ) : ℚ) - 1) / 2 = (k : ℚ) := by
      rw [hk]
      push_cast
      ring
    have hdiv : (values.length : ℤ) / 2 = ((k : ℕ) : ℤ) := by omega
    have hmod : (values.length : ℤ) % 2 = 1 := by omega
    rw [hmiddle, interpolate_natCast]
    simp only [median, if_pos hmod, hdiv]
    exact item_natCast (by omega)

/-- The percentile is on the line at its rank. -/
lemma p95_eq (h : values ≠ []) :
    p95 values = .ok (interpolate (sequence values) (p95Rank values.length)) := by
  have hpos : 0 < values.length := List.length_pos_iff.mpr h
  have hrank := (p95Rank_bounds hpos).1
  by_cases hone : values.length = 1
  · have hzero : p95Rank values.length = ((0 : ℕ) : ℚ) := by
      rw [hone]
      norm_num [p95Rank]
    rw [hzero, interpolate_natCast]
    simp only [p95, if_pos hone]
    exact item_natCast hpos
  · have hindexes := indexesExisting hpos
    have hfloor : ⌊p95Rank values.length⌋ = ((⌊p95Rank values.length⌋₊ : ℕ) : ℤ) :=
      (Int.natCast_floor_eq_floor hrank).symm
    have hceil : ⌈p95Rank values.length⌉ = ((⌈p95Rank values.length⌉₊ : ℕ) : ℤ) :=
      (Int.natCast_ceil_eq_ceil hrank).symm
    have hlower := hindexes.lower_le
    have hupper := hindexes.upper
    rw [hfloor, hceil] at hlower
    rw [hceil] at hupper
    have hlow : item values ⌊p95Rank values.length⌋
        = .ok (sequence values ⌊p95Rank values.length⌋₊) := by
      rw [hfloor]
      exact item_natCast (by omega)
    have hhigh : item values ⌈p95Rank values.length⌉
        = .ok (sequence values ⌈p95Rank values.length⌉₊) := by
      rw [hceil]
      exact item_natCast (by omega)
    have hcast : ((⌊p95Rank values.length⌋ : ℤ) : ℚ) = ⌊p95Rank values.length⌋₊ := by
      rw [hfloor, Int.cast_natCast]
    simp only [p95, if_neg hone, hlow, hhigh, hcast, bind, Except.bind, pure,
      Except.pure, interpolate]

/-! ## Values -/

/-- The values of sorted samples. -/
def valuesOf (values : List ℚ) : MetricValues where
  count := values.length
  mean := fmean values
  median := interpolate (sequence values) (((values.length : ℚ) - 1) / 2)
  min := sequence values 0
  max := sequence values (values.length - 1)
  variance := if values.length > 1 then variance values else 0
  p95 := interpolate (sequence values) (p95Rank values.length)

lemma metricValues_eq (h : values ≠ []) : metricValues values = .ok (valuesOf values) := by
  have hpos : 0 < values.length := List.length_pos_iff.mpr h
  have hfirst : item values 0 = .ok (sequence values 0) := item_natCast hpos
  simp only [metricValues, median_eq h, hfirst, item_last h, p95_eq h, bind, Except.bind, pure,
    Except.pure]
  rfl

/-- The mean lies between bounds of the samples. -/
lemma fmean_bounds {low high : ℚ} (h : values ≠ []) (hbounds : ∀ x ∈ values, low ≤ x ∧ x ≤ high) :
    low ≤ fmean values ∧ fmean values ≤ high := by
  have hpos : (0 : ℚ) < values.length := by
    exact_mod_cast List.length_pos_iff.mpr h
  have hlow := List.card_nsmul_le_sum values low fun x hx => (hbounds x hx).1
  have hhigh := List.sum_le_card_nsmul values high fun x hx => (hbounds x hx).2
  rw [nsmul_eq_mul] at hlow hhigh
  unfold fmean
  constructor
  · rw [le_div_iff₀ hpos, mul_comm]
    exact hlow
  · rw [div_le_iff₀ hpos, mul_comm]
    exact hhigh

/-- The values of a summary are in order. -/
structure InOrder (min median p95 max mean : ℚ) : Prop where
  min_le_median : min ≤ median
  median_le_p95 : median ≤ p95
  p95_le_max : p95 ≤ max
  min_le_mean : min ≤ mean
  mean_le_max : mean ≤ max

lemma valuesOf_inOrder (h : values ≠ []) (hsorted : values.Pairwise (· ≤ ·)) :
    InOrder (valuesOf values).min (valuesOf values).median (valuesOf values).p95
      (valuesOf values).max (valuesOf values).mean := by
  have hpos : 0 < values.length := List.length_pos_iff.mpr h
  obtain ⟨n, hn⟩ : ∃ n, values.length = n + 1 := ⟨values.length - 1, by omega⟩
  have hmono : ∀ i j, i ≤ j → j ≤ n → sequence values i ≤ sequence values j :=
    fun i j hij hj => sequence_le hsorted hij (by omega)
  have hcast : ((values.length : ℕ) : ℚ) = n + 1 := by
    rw [hn]
    push_cast
    rfl
  have hn0 : (0 : ℚ) ≤ n := by positivity
  have hrank : p95Rank values.length = 95 / 100 * n := by
    rw [p95Rank, hcast]
    ring
  have hmiddle : ((values.length : ℚ) - 1) / 2 = n / 2 := by
    rw [hcast]
    ring
  have hmin : (valuesOf values).min = interpolate (sequence values) 0 := by
    have := interpolate_natCast (K := ℚ) (sequence values) 0
    rw [Nat.cast_zero] at this
    exact this.symm
  have hmax : (valuesOf values).max = interpolate (sequence values) n := by
    rw [interpolate_natCast]
    simp [valuesOf, hn]
  have hmean : sequence values 0 ≤ fmean values
      ∧ fmean values ≤ sequence values (values.length - 1) :=
    fmean_bounds h fun x hx => by
      obtain ⟨i, hi, rfl⟩ := List.getElem_of_mem hx
      have hx : values[i] = sequence values i := by
        simp [sequence, hi]
      rw [hx]
      exact ⟨hmono 0 i (by omega) (by omega), sequence_le hsorted (by omega) (by omega)⟩
  refine ⟨?_, ?_, ?_, hmean.1, hmean.2⟩
  · rw [hmin, valuesOf, hmiddle]
    exact interpolate_mono hmono le_rfl (by linarith) (by linarith)
  · rw [valuesOf, hmiddle, hrank]
    exact interpolate_mono hmono (by linarith) (by linarith) (by linarith)
  · rw [hmax, valuesOf, hrank]
    exact interpolate_mono hmono (by linarith) (by linarith) le_rfl

/-- `y` is the linear interpolation of the samples at the rank. -/
def Interpolates (samples : List ℚ) (rank y : ℚ) : Prop :=
  ∃ (i : ℕ) (t a : ℚ), rank = i + t ∧ 0 ≤ t ∧ t < 1 ∧ samples[i]? = some a
    ∧ (t = 0 ∧ y = a ∨ ∃ b, samples[i + 1]? = some b ∧ y = a + t * (b - a))

lemma interpolates_of_line {rank : ℚ} (h0 : 0 ≤ rank) (hrank : rank ≤ values.length - 1) :
    Interpolates values rank (interpolate (sequence values) rank) := by
  obtain ⟨i, t, ht0, ht1, rfl⟩ := exists_rank h0
  have hi : i < values.length := by
    have hcast : (i : ℚ) < values.length := by linarith
    exact_mod_cast hcast
  have hvalue : ∀ j, j < values.length → values[j]? = some (sequence values j) := by
    intro j hj
    simp [sequence, hj]
  refine ⟨i, t, sequence values i, rfl, ht0, ht1, hvalue i hi, ?_⟩
  rcases eq_or_lt_of_le ht0 with rfl | hpos
  · exact .inl ⟨rfl, by rw [add_zero, interpolate_natCast]⟩
  · have hnext : i + 1 < values.length := by
      have hcast : (i : ℚ) + 1 < values.length := by linarith
      exact_mod_cast hcast
    exact .inr ⟨_, hvalue (i + 1) hnext, interpolate_add _ i ht0 ht1.le⟩

/-! ## Summaries -/

/-- Rounding keeps the order. -/
lemma InOrder.round {min median p95 max mean : ℚ} (h : InOrder min median p95 max mean)
    (places : ℕ) :
    InOrder (roundPlaces places min) (roundPlaces places median) (roundPlaces places p95)
      (roundPlaces places max) (roundPlaces places mean) :=
  ⟨roundPlaces_mono h.min_le_median, roundPlaces_mono h.median_le_p95,
    roundPlaces_mono h.p95_le_max, roundPlaces_mono h.min_le_mean, roundPlaces_mono h.mean_le_max⟩

lemma insertionSort_eq {others : List ℚ} (h : others.Perm values) :
    others.insertionSort (· ≤ ·) = values.insertionSort (· ≤ ·) := by
  have hperm := ((List.perm_insertionSort (· ≤ ·) others).trans h).trans
    (List.perm_insertionSort (· ≤ ·) values).symm
  exact hperm.eq_of_pairwise (fun a b _ _ => le_antisymm) (List.pairwise_insertionSort _ _)
    (List.pairwise_insertionSort _ _)

/-- The standard deviation in a summary is the root of the variance to four places. -/
theorem stdDev_round (v : MetricValues) (h : 0 ≤ v.variance) :
    (v.round.stdDev : ℝ) = roundPlaces 4 √(v.variance : ℝ) := by
  have hroot : √((v.variance * 10 ^ 8 : ℚ) : ℝ) = √(v.variance : ℝ) * 10 ^ 4 := by
    have hsq : ((10 : ℝ) ^ 8) = (10 ^ 4) ^ 2 := by norm_num
    push_cast
    rw [hsq, Real.sqrt_mul' _ (by positivity), Real.sqrt_sq (by positivity)]
  have hrounded : v.round.stdDev = roundSqrt (v.variance * 10 ^ 8) / 10 ^ 4 := rfl
  rw [hrounded, roundSqrt_eq (by positivity), hroot]
  push_cast
  rfl

/-- **A summary is in order, before and after rounding**, whatever the order of the samples. -/
theorem summary_of_samples (samples : List ℚ) (h : samples ≠ []) :
    ∃ v, metricValues (samples.insertionSort (· ≤ ·)) = .ok v
      ∧ IndexesExisting samples.length
      ∧ (∀ others : List ℚ, others.Perm samples → computeMetricSummary others = .ok v.round)
      ∧ InOrder v.min v.median v.p95 v.max v.mean
      ∧ InOrder v.round.min v.round.median v.round.p95 v.round.max v.round.mean
      ∧ Interpolates (samples.insertionSort (· ≤ ·)) (95 / 100 * (samples.length - 1)) v.p95 := by
  have hlength : (samples.insertionSort (· ≤ ·)).length = samples.length :=
    List.length_insertionSort _ _
  have hpos : 0 < samples.length := List.length_pos_iff.mpr h
  have hsorted : samples.insertionSort (· ≤ ·) ≠ [] := by
    rw [← List.length_pos_iff, hlength]
    exact hpos
  have hvalues := metricValues_eq hsorted
  have horder := valuesOf_inOrder hsorted (List.pairwise_insertionSort _ _)
  have hbounds := p95Rank_bounds hpos
  refine ⟨_, hvalues, indexesExisting hpos, ?_, horder, horder.round 4, ?_⟩
  · intro others hperm
    have hne : others ≠ [] := by
      rintro rfl
      exact h hperm.nil_eq.symm
    rw [computeMetricSummary, if_neg hne, insertionSort_eq hperm, hvalues]
    rfl
  · rw [valuesOf, hlength]
    refine interpolates_of_line hbounds.1 ?_
    rw [hlength]
    exact hbounds.2

/-- Three samples. -/
theorem summary_of_samples_three : ∃ v, computeMetricSummary [3, 1, 2] = .ok v
    ∧ InOrder v.min v.median v.p95 v.max v.mean := by
  obtain ⟨v, -, -, hsummary, -, horder, -⟩ := summary_of_samples [3, 1, 2] (by decide)
  exact ⟨v.round, hsummary _ (.refl _), horder⟩

end FreebsdLaboratory
