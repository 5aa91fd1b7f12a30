import FreebsdLaboratory.Library.HalfEven
import FreebsdLaboratory.Model.Commands
import Mathlib.Data.List.Sort

/-!
# Summaries of benchmark samples

`compute_metric_summary` of `benchmark.py`, over exact rationals.  `fmean`, `median` and `stdev` are
those of Python's `statistics`; the standard deviation is kept as the variance until it is rounded.
-/

namespace FreebsdLaboratory

open Library

/-- `MetricSummary` -/
structure MetricSummary where
  count : ℕ := 0
  mean : ℚ := 0
  median : ℚ := 0
  min : ℚ := 0
  max : ℚ := 0
  stdDev : ℚ := 0
  p95 : ℚ := 0
  deriving DecidableEq

/-- The values before they are rounded, with the square of the standard deviation. -/
structure MetricValues where
  count : ℕ
  mean : ℚ
  median : ℚ
  min : ℚ
  max : ℚ
  variance : ℚ
  p95 : ℚ

/-- `values[i]`: a negative index counts from the end. -/
def item (values : List ℚ) (i : ℤ) : Except PyError ℚ :=
  let place := if i < 0 then i + values.length else i
  if place < 0 then .error .indexError
  else match values[place.toNat]? with
    | some value => .ok value
    | none => .error .indexError

/-- `statistics.fmean(values)` -/
def fmean (values : List ℚ) : ℚ := values.sum / values.length

/-- `statistics.median(values)` of sorted values. -/
def median (values : List ℚ) : Except PyError ℚ := do
  let n : ℤ := values.length
  if n % 2 = 1 then item values (n / 2)
  else return ((← item values (n / 2 - 1)) + (← item values (n / 2))) / 2

/-- The square of `statistics.stdev(values)`. -/
def variance (values : List ℚ) : ℚ :=
  (values.map fun value => (value - fmean values) ^ 2).sum / (values.length - 1)

/-- `rank` -/
def p95Rank (n : ℕ) : ℚ := 95 / 100 * (n - 1)

/-- The 95th percentile of sorted values. -/
def p95 (values : List ℚ) : Except PyError ℚ := do
  let n := values.length
  if n = 1 then item values 0
  else
    let rank := p95Rank n
    let lower := ⌊rank⌋
    let upper := ⌈rank⌉
    let weight := rank - lower
    return (← item values lower) * (1 - weight) + (← item values upper) * weight

/-- `compute_metric_summary` up to the rounding, from the sorted values. -/
def metricValues (values : List ℚ) : Except PyError MetricValues := do
  return {
    count := values.length
    mean := fmean values
    median := ← median values
    min := ← item values 0
    max := ← item values (-1)
    variance := if values.length > 1 then variance values else 0
    p95 := ← p95 values }

def MetricValues.round (v : MetricValues) : MetricSummary where
  count := v.count
  mean := roundPlaces 4 v.mean
  median := roundPlaces 4 v.median
  min := roundPlaces 4 v.min
  max := roundPlaces 4 v.max
  -- the root of the variance to four places
  stdDev := roundSqrt (v.variance * 10 ^ 8) / 10 ^ 4
  p95 := roundPlaces 4 v.p95

/-- `compute_metric_summary(values)` -/
def computeMetricSummary (values : List ℚ) : Except PyError MetricSummary :=
  if values = [] then .ok {}
  else (metricValues (values.insertionSort (· ≤ ·))).map MetricValues.round

end FreebsdLaboratory
