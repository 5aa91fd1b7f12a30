import FreebsdLaboratory.Library.Csv
import FreebsdLaboratory.Library.Grouping
import FreebsdLaboratory.Model.Benchmark
import FreebsdLaboratory.Model.BenchmarkRunner

/-!
# The report of a benchmark

`summarize_results`, `format_csv_data` and the exit code of `benchmark.py`.
-/

namespace FreebsdLaboratory

open Library Library.Unicode Library.Json

/-- The fields of an `IterationResult` that are summarized. -/
inductive Metric where
  | createSec
  | wsConnectSec
  | firstExecSec
  | spinupSec
  | warmExecSec
  | destroySec
  | lifecycleSec
  deriving DecidableEq

/-- `getattr(r, m_name)` -/
def IterationResult.metric (r : IterationResult) : Metric → ℚ
  | .createSec => r.createSec
  | .wsConnectSec => r.wsConnectSec
  | .firstExecSec => r.firstExecSec
  | .spinupSec => r.spinupSec
  | .warmExecSec => r.warmExecSec
  | .destroySec => r.destroySec
  | .lifecycleSec => r.lifecycleSec

/-- `metric_names` -/
def metricNames (mode : ResultMode) : List Metric :=
  [.createSec, .destroySec, .lifecycleSec]
    ++ if mode = .jupyter then [.wsConnectSec, .firstExecSec, .spinupSec, .warmExecSec] else []

/-- `RuntimeBenchmarkSummary` -/
structure RuntimeBenchmarkSummary where
  runtimeAlias : String
  runtimeDisplay : String
  mode : ResultMode
  totalRuns : ℕ
  successfulRuns : ℕ
  failedRuns : ℕ
  metrics : List (Metric × MetricSummary)
  guestMetadata : Value

/-- The results that are no warm-up. -/
def measured (results : List IterationResult) : List IterationResult :=
  results.filter fun r => !r.isWarmup

/-- The summary of a group. -/
def summarizeGroup (key : String × ResultMode) (group : List IterationResult) :
    Except PyError RuntimeBenchmarkSummary := do
  let successful := group.filter (·.success)
  let metrics ← (metricNames key.2).mapM fun m => do
    let summary ← computeMetricSummary (successful.map (·.metric m))
    return (m, summary)
  return {
    runtimeAlias := key.1
    runtimeDisplay := (group.head?.map (·.runtimeDisplay)).getD key.1
    mode := key.2
    totalRuns := group.length
    successfulRuns := successful.length
    failedRuns := group.length - successful.length
    metrics
    guestMetadata :=
      ((successful.find? fun r => isTruthy r.guestMetadata).map (·.guestMetadata)).getD (.dict []) }

/-- `summarize_results` -/
def summarizeResults (results : List IterationResult) :
    Except PyError (List RuntimeBenchmarkSummary) :=
  (group (fun r => (r.runtimeAlias, r.mode)) (measured results)).mapM fun g =>
  summarizeGroup g.1 g.2

/-- What `async_main` returns. -/
def exitCode (results : List IterationResult) : ℕ :=
  if (measured results).any fun r => !r.success then 1 else 0

/-! ## CSV -/

/-- The dialect `excel`. -/
def excel : Csv.Dialect ℕ where
  delimiter := 44
  quote := 34
  cr := 13
  lf := 10
  quote_ne_delimiter := by decide
  cr_ne_delimiter := by decide
  lf_ne_delimiter := by decide
  cr_ne_quote := by decide
  lf_ne_quote := by decide
  cr_ne_lf := by decide

/-- The first row. -/
def csvHeader : List Str :=
  ["runtime_alias", "runtime_display", "mode", "iteration", "is_warmup", "success", "create_sec",
    "ws_connect_sec", "first_exec_sec", "spinup_sec", "warm_exec_sec", "destroy_sec",
    "lifecycle_sec", "error", "guest_os", "guest_release", "guest_python"].map str

def ResultMode.text : ResultMode → String
  | .jupyter => "jupyter"
  | .daemon => "daemon"

/-- `str(b)` -/
def boolText (b : Bool) : Str := str (if b then "True" else "False")

/-- `r.guest_metadata or {}`, `none` where it has no `get`. -/
def IterationResult.metadata (r : IterationResult) : Option (List (Str × Value)) :=
  if isTruthy r.guestMetadata then
    match r.guestMetadata with
    | .dict items => some items
    | _ => none
  else some []

/-- A value in a row; `shown` is `str` on what is no string. -/
def csvField (shown : Value → Str) : Value → Str
  | .none => []
  | .str s => s
  | v => shown v

/-- The row of a result; `repr` is that of floats. -/
def csvRow (repr : ℚ → Str) (shown : Value → Str) (r : IterationResult) : Option (List Str) :=
  r.metadata.map fun items =>
    let get (key : String) := csvField shown ((Value.lookup items (str key)).getD (.str []))
    [str r.runtimeAlias, str r.runtimeDisplay, str r.mode.text, decimal r.iteration,
      boolText r.isWarmup, boolText r.success, repr r.createSec, repr r.wsConnectSec,
      repr r.firstExecSec, repr r.spinupSec, repr r.warmExecSec, repr r.destroySec,
      repr r.lifecycleSec, str (r.error.getD ""), get "system", get "release", get "python"]

/-- `format_csv_data`, `none` where it raises. -/
def formatCsvData (repr : ℚ → Str) (shown : Value → Str) (results : List IterationResult) :
    Option Str :=
  (results.mapM (csvRow repr shown)).map fun rows => excel.writeRows (csvHeader :: rows)

end FreebsdLaboratory
