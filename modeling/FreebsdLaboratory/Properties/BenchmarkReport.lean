import FreebsdLaboratory.Model.BenchmarkReport
import FreebsdLaboratory.Properties.Benchmark
import FreebsdLaboratory.Properties.BenchmarkRunner
import FreebsdLaboratory.Tunnels.Names
import Mathlib.Logic.Embedding.Basic

/-!
# The report of a run

A run that returns has a result for everything that was scheduled, so the report has a summary for
every runtime and service, in the order in which they were first measured, with the number of runs
that was asked for.  The CSV report says the same of every single result to whoever reads it back.
-/

namespace FreebsdLaboratory

open Library Library.Unicode Library.Json

/-- The group a result is summarized in. -/
def IterationResult.key (r : IterationResult) : String × ResultMode := (r.runtimeAlias, r.mode)

/-- The groups of one iteration. -/
def BenchmarkConfig.round (config : BenchmarkConfig) : List (String × ResultMode) :=
  config.selectedRuntimes.flatMap fun selected =>
    (if config.usesJupyter then [(selected.1, .jupyter)] else [])
      ++ if config.usesDaemon then [(selected.1, .daemon)] else []

/-- What a summary says about the results it is of. -/
structure RuntimeBenchmarkSummary.Summarizes (s : RuntimeBenchmarkSummary)
    (group : List IterationResult) :
    Prop where
  total : s.totalRuns = group.length
  successful : s.successfulRuns = (group.filter (·.success)).length
  failed : s.failedRuns = (group.filter (!·.success)).length
  names : s.metrics.map Prod.fst = metricNames s.mode
  metrics : ∀ m ∈ s.metrics, m.2.count = s.successfulRuns
    ∧ computeMetricSummary ((group.filter (·.success)).map (·.metric m.1)) = .ok m.2

/-- A report on the results of a run. -/
structure IsReport (config : BenchmarkConfig) (results : List IterationResult)
    (summaries : List RuntimeBenchmarkSummary) : Prop where
  groups : summaries.map (fun s => (s.runtimeAlias, s.mode))
    = if config.iterations = 0 then [] else firsts config.round
  runs : ∀ s ∈ summaries, s.totalRuns = config.iterations * config.round.count
    (s.runtimeAlias, s.mode)
  summarizes : ∀ s ∈ summaries,
    s.Summarizes ((measured results).filter fun r => r.key = (s.runtimeAlias, s.mode))
  exitCode : exitCode results = 0 ↔ ∀ s ∈ summaries, s.failedRuns = 0

/-- What the CSV report says of a result, the guest aside; no error is an empty text in it. -/
def IterationResult.reported (r : IterationResult) :
    (String × ResultMode × ℕ × Bool) × String × Bool × List ℚ × String :=
  (r.label, r.runtimeDisplay, r.success,
    [r.createSec, r.wsConnectSec, r.firstExecSec, r.spinupSec, r.warmExecSec, r.destroySec,
      r.lifecycleSec],
    r.error.getD "")

namespace BenchmarkReport

variable {config : BenchmarkConfig} {results : List IterationResult}

/-! ## Groups -/

/-- The iterations that are measured come after those that are not. -/
lemma measured_keys (h : results.map IterationResult.label = config.schedule) :
    (measured results).map IterationResult.key
      = (List.range config.iterations).flatMap fun _ => config.round := by
  have hmeasured : (measured results).map IterationResult.key
      = ((results.map IterationResult.label).filter fun l => !l.2.2.2).map fun l =>
        (l.1, l.2.1) := by
    rw [List.filter_map, List.map_map]
    rfl
  have hlabels : ∀ i, (config.selectedRuntimes.flatMap fun selected =>
      ((config.labels i selected.1).filter fun l => !l.2.2.2).map fun l => (l.1, l.2.1))
        = if i < config.warmup then [] else config.round := by
    intro i
    by_cases hi : i < config.warmup
    · rw [if_pos hi, List.flatMap_eq_nil_iff]
      intro selected _
      rw [BenchmarkConfig.labels]
      split_ifs <;> simp [hi]
    · rw [if_neg hi, BenchmarkConfig.round]
      congr 1
      funext selected
      rw [BenchmarkConfig.labels]
      split_ifs <;> simp [hi]
  rw [hmeasured, h, BenchmarkConfig.schedule, List.filter_flatMap, List.map_flatMap]
  simp only [List.filter_flatMap, List.map_flatMap, hlabels]
  rw [Nat.add_comm, List.range_add, List.flatMap_append, List.flatMap_map]
  have hbefore : ((List.range config.warmup).flatMap fun i =>
      if i < config.warmup then [] else config.round) = [] := by
    rw [List.flatMap_eq_nil_iff]
    intro i hi
    rw [if_pos (List.mem_range.mp hi)]
  rw [hbefore, List.nil_append]
  congr 1
  funext i
  rw [if_neg (by omega)]

lemma firsts_rounds (n : ℕ) :
    firsts ((List.range n).flatMap fun _ => config.round) = if n
      = 0 then [] else firsts config.round := by
  induction n with
  | zero => rfl
  | succ n ih =>
      rw [List.range_succ, List.flatMap_append, List.flatMap_singleton, if_neg (Nat.succ_ne_zero n)]
      cases n with
      | zero => rfl
      | succ n =>
          rw [firsts_append_of_subset, ih, if_neg (Nat.succ_ne_zero n)]
          intro k hk
          exact List.mem_flatMap.mpr ⟨0, by simp, hk⟩

lemma count_rounds (n : ℕ) (k : String × ResultMode) :
    ((List.range n).flatMap fun _ => config.round).count k = n * config.round.count k := by
  induction n with
  | zero => simp
  | succ n ih =>
      rw [List.range_succ, List.flatMap_append, List.flatMap_singleton, List.count_append, ih]
      ring

lemma length_group (k : String × ResultMode) :
    ((measured results).filter fun r => r.key = k).length
      = ((measured results).map IterationResult.key).count k := by
  rw [List.count_eq_countP, List.countP_map, List.countP_eq_length_filter]
  congr 2
  funext r
  simp [Function.comp, beq_eq_decide]

/-! ## Summaries -/

/-- There is a summary of any samples, and it counts them. -/
lemma exists_summary (samples : List ℚ) :
    ∃ v, computeMetricSummary samples = .ok v ∧ v.count = samples.length := by
  by_cases h : samples = []
  · exact ⟨{}, by rw [computeMetricSummary, if_pos h], by rw [h]; rfl⟩
  · have hlength : (samples.insertionSort (· ≤ ·)).length = samples.length :=
      List.length_insertionSort _ _
    have hsorted : samples.insertionSort (· ≤ ·) ≠ [] := by
      rw [← List.length_pos_iff, hlength]
      exact List.length_pos_iff.mpr h
    refine ⟨(valuesOf (samples.insertionSort (· ≤ ·))).round, ?_, hlength⟩
    rw [computeMetricSummary, if_neg h, metricValues_eq hsorted]
    rfl

/-- The summary of a group succeeds, whatever the group. -/
lemma exists_summaries (names : List Metric) (successful : List IterationResult) :
    ∃ metrics : List (Metric × MetricSummary),
      (names.mapM fun m => do
        let summary ← computeMetricSummary (successful.map (·.metric m))
        return (m, summary)) = Except.ok metrics
      ∧ metrics.map Prod.fst = names
      ∧ ∀ m ∈ metrics, m.2.count = successful.length
          ∧ computeMetricSummary (successful.map (·.metric m.1)) = .ok m.2 := by
  induction names with
  | nil => exact ⟨[], rfl, rfl, by simp⟩
  | cons m names ih =>
      obtain ⟨metrics, hmetrics, hnames, hall⟩ := ih
      obtain ⟨v, hv, hcount⟩ := exists_summary (successful.map (·.metric m))
      refine ⟨(m, v) :: metrics, ?_, by rw [List.map_cons, hnames], ?_⟩
      · rw [List.mapM_cons, hv, hmetrics]
        rfl
      · rw [List.forall_mem_cons]
        rw [List.length_map] at hcount
        exact ⟨⟨hcount, hv⟩, hall⟩

lemma exists_summarizeGroup (key : String × ResultMode) (group : List IterationResult) :
    ∃ s, summarizeGroup key group = .ok s ∧ (s.runtimeAlias, s.mode) = key
      ∧ s.Summarizes group := by
  obtain ⟨metrics, hmetrics, hnames, hall⟩ :=
    exists_summaries (metricNames key.2) (group.filter (·.success))
  have hfailed : group.length - (group.filter (·.success)).length
      = (group.filter (!·.success)).length := by
    have hsplit := List.length_eq_length_filter_add (l := group) (·.success)
    omega
  rw [summarizeGroup, hmetrics]
  exact ⟨_, rfl, rfl, rfl, rfl, hfailed, hnames, hall⟩

/-- Each group has its summary. -/
lemma exists_summarizeGroups (keys : List (String × ResultMode))
    (groupOf : String × ResultMode → List IterationResult) :
    ∃ summaries, ((keys.map fun k => (k, groupOf k)).mapM fun g => summarizeGroup g.1 g.2)
      = .ok summaries
      ∧ summaries.map (fun s => (s.runtimeAlias, s.mode)) = keys
      ∧ ∀ s ∈ summaries, s.Summarizes (groupOf (s.runtimeAlias, s.mode)) := by
  induction keys with
  | nil => exact ⟨[], rfl, rfl, by simp⟩
  | cons k keys ih =>
      obtain ⟨summaries, hsummaries, hkeys, hall⟩ := ih
      obtain ⟨s, hs, hkey, hsummarizes⟩ := exists_summarizeGroup k (groupOf k)
      refine ⟨s :: summaries, ?_, by rw [List.map_cons, hkey, hkeys], ?_⟩
      · rw [List.map_cons, List.mapM_cons, hs, hsummaries]
        rfl
      · rw [List.forall_mem_cons]
        exact ⟨hkey ▸ hsummarizes, hall⟩

/-- The exit code is that of the summaries: a failure is a failure of some group. -/
lemma exitCode_eq_zero {summaries : List RuntimeBenchmarkSummary}
    (hkeys : ∀ r ∈ measured results, r.key ∈ summaries.map fun s => (s.runtimeAlias, s.mode))
    (hall : ∀ s ∈ summaries,
      s.Summarizes ((measured results).filter fun r => r.key = (s.runtimeAlias, s.mode))) :
    exitCode results = 0 ↔ ∀ s ∈ summaries, s.failedRuns = 0 := by
  have hcode : exitCode results = 0 ↔ ∀ r ∈ measured results, r.success = true := by
    have hany : ((measured results).any fun r => !r.success) = true
        ↔ ¬ ∀ r ∈ measured results, r.success = true := by
      simp [List.any_eq_true]
    rw [exitCode]
    by_cases hall : ∀ r ∈ measured results, r.success = true
    · rw [if_neg fun h => hany.mp h hall]
      exact iff_of_true rfl hall
    · rw [if_pos (hany.mpr hall)]
      exact iff_of_false one_ne_zero hall
  have hfailed : ∀ s ∈ summaries, s.failedRuns = 0 ↔
      ∀ r ∈ measured results, r.key = (s.runtimeAlias, s.mode) → r.success = true := by
    intro s hs
    rw [(hall s hs).failed, List.length_eq_zero_iff, List.filter_eq_nil_iff]
    simp [List.mem_filter]
  rw [hcode]
  constructor
  · intro h s hs
    exact (hfailed s hs).mpr fun r hr _ => h r hr
  · intro h r hr
    obtain ⟨s, hs, hkey⟩ := List.mem_map.mp (hkeys r hr)
    exact (hfailed s hs).mp (h s hs) r hr hkey.symm

/-- The results of a whole run have a report. -/
lemma reported (h : results.map IterationResult.label = config.schedule) :
    ∃ summaries, summarizeResults results = .ok summaries ∧ IsReport config results summaries := by
  obtain ⟨summaries, hsummaries, hkeys, hall⟩ := exists_summarizeGroups
    (firsts ((measured results).map IterationResult.key))
    fun k => (measured results).filter fun r => r.key = k
  refine ⟨summaries, ?_, ?_, ?_, hall, ?_⟩
  · rw [summarizeResults, group_eq]
    exact hsummaries
  · rw [hkeys, measured_keys h, firsts_rounds]
  · intro s hs
    rw [(hall s hs).total, length_group, measured_keys h, count_rounds]
  · refine exitCode_eq_zero (fun r hr => ?_) hall
    rw [hkeys, mem_firsts]
    exact List.mem_map_of_mem hr

/-- **A run that returns is reported in full**: `summarize_results` does not raise; there is a
summary for every runtime and service, once and in order, over exactly the measured runs that were
asked for, each metric over the successful ones; and the exit code is zero just if no summary counts
a failure. -/
theorem run_is_reported (config : BenchmarkConfig) :
    config.run.Obeys benchmarkRuns
      (fun results _ => ∃ summaries, summarizeResults results = .ok summaries
        ∧ IsReport config results summaries)
      (fun _ _ => True) {} :=
  (BenchmarkRunner.run_obeys config).mono (fun _ _ h => reported h.1) fun _ _ _ => trivial

/-! ## CSV -/

variable {repr : ℚ ↪ Str} {shown : Value → Str} {r r' : IterationResult} {text : Str}

/-- A result has no row where its metadata is neither empty nor a dictionary. -/
lemma csvRow_eq_none :
    csvRow repr shown r = none ↔ isTruthy r.guestMetadata ∧ ∀ items, r.guestMetadata
      ≠ .dict items := by
  rw [csvRow, Option.map_eq_none_iff, IterationResult.metadata]
  by_cases htruthy : isTruthy r.guestMetadata = true
  · rw [if_pos htruthy, and_iff_right htruthy]
    cases r.guestMetadata <;> simp
  · rw [if_neg htruthy]
    simp [htruthy]

lemma mapM_eq_none {f : IterationResult → Option (List Str)} :
    results.mapM f = none ↔ ∃ r ∈ results, f r = none := by
  induction results with
  | nil => simp
  | cons r results ih =>
      rw [List.mapM_cons, List.exists_mem_cons_iff, ← ih]
      cases f r <;> cases results.mapM f <;> simp

lemma forall₂_of_rows {f : IterationResult → Option (List Str)} {rows : List (List Str)}
    (h : results.mapM f = some rows) : List.Forall₂ (fun r row => f r = some row) results rows := by
  induction results generalizing rows with
  | nil =>
      obtain rfl := Option.some.inj h
      exact .nil
  | cons r results ih =>
      rw [List.mapM_cons] at h
      obtain ⟨row, hrow, h⟩ := Option.bind_eq_some_iff.mp h
      obtain ⟨others, hothers, h⟩ := Option.bind_eq_some_iff.mp h
      obtain rfl := Option.some.inj h
      exact .cons hrow (ih hothers)

lemma boolText_injective {b b' : Bool} (h : boolText b = boolText b') : b = b' := by
  cases b <;> cases b' <;> first | rfl | exact absurd h (by decide)

lemma text_injective {mode mode' : ResultMode} (h : str mode.text = str mode'.text) :
    mode = mode' := by
  cases mode <;> cases mode' <;> first | rfl | exact absurd h (by decide)

/-- A row tells its result. -/
lemma reported_of_csvRow {row : List Str} (h : csvRow repr shown r = some row)
    (h' : csvRow repr shown r' = some row) : r.reported = r'.reported := by
  obtain ⟨items, -, hrow⟩ := Option.map_eq_some_iff.mp h
  obtain ⟨items', -, hrow'⟩ := Option.map_eq_some_iff.mp h'
  rw [← hrow'] at hrow
  simp only [List.cons.injEq] at hrow
  obtain ⟨halias, hdisplay, hmode, hiteration, hwarmup, hsuccess, h1, h2, h3, h4, h5, h6,
    h7, herror, -⟩ :=
    hrow
  simp only [IterationResult.reported, IterationResult.label, str_injective halias,
    str_injective hdisplay, text_injective hmode, decimal_injective hiteration,
    boolText_injective hwarmup, boolText_injective hsuccess, repr.injective h1, repr.injective h2,
    repr.injective h3, repr.injective h4, repr.injective h5, repr.injective h6, repr.injective h7,
    str_injective herror]

lemma reported_of_csvRows {results' : List IterationResult} {rows : List (List Str)}
    (h : results.mapM (csvRow repr shown) = some rows)
    (h' : results'.mapM (csvRow repr shown) = some rows) :
    results.map IterationResult.reported = results'.map IterationResult.reported := by
  have hrows := forall₂_of_rows h
  have hrows' := (forall₂_of_rows h').flip
  have hsame : ∀ r row r', csvRow repr shown r = some row → csvRow repr shown r' = some row →
      r.reported = r'.reported := fun r row r' h h' => reported_of_csvRow h h'
  rw [← List.forall₂_eq_eq_eq, List.forall₂_map_left_iff, List.forall₂_map_right_iff]
  exact forall₂_trans hsame hrows hrows'

/-- `csv.field_size_limit()`, which nobody has set. -/
def fieldSizeLimit : ℕ := 131072

lemma fits_csvHeader : Csv.Dialect.Fits fieldSizeLimit csvHeader := by decide

/-- **The CSV report of a run is complete.**  It cannot be made just if a guest has reported
something other than a dictionary; `csv.reader` reads a row for each result from it, unless it gives
up at a field that is too long, and any results with that report agree in all that it says: they are
those of the schedule, with the same outcomes and times. -/
theorem csv_report_of_run (repr : ℚ ↪ Str) (shown : Value → Str) (config : BenchmarkConfig) :
    config.run.Obeys benchmarkRuns
      (fun results _ =>
        (formatCsvData repr shown results = none ↔
          ∃ r ∈ results, isTruthy r.guestMetadata ∧ ∀ items, r.guestMetadata ≠ .dict items)
        ∧ ∀ text, formatCsvData repr shown results = some text →
          (∃ rows, results.mapM (csvRow repr shown) = some rows
            ∧ excel.read fieldSizeLimit text
              = if ∀ row ∈ rows, Csv.Dialect.Fits fieldSizeLimit row then some (csvHeader :: rows)
                else none)
          ∧ ∀ results', formatCsvData repr shown results' = some text →
            results'.map IterationResult.reported = results.map IterationResult.reported
            ∧ results'.map IterationResult.label = config.schedule)
      (fun _ _ => True) {} := by
  refine (BenchmarkRunner.run_obeys config).mono (fun results _ h => ⟨?_, ?_⟩) fun _ _ _ => trivial
  · rw [formatCsvData, Option.map_eq_none_iff, mapM_eq_none]
    simp only [csvRow_eq_none]
  · intro text htext
    obtain ⟨rows, hrows, rfl⟩ := Option.map_eq_some_iff.mp htext
    refine ⟨⟨rows, hrows, ?_⟩, ?_⟩
    · rw [Csv.Dialect.read_writeRows]
      simp only [List.forall_mem_cons, fits_csvHeader, true_and]
    intro results' htext'
    obtain ⟨rows', hrows', hwritten⟩ := Option.map_eq_some_iff.mp htext'
    have hsame : rows' = rows :=
      (List.cons.inj (Csv.Dialect.writeRows_injective hwritten)).2
    have hreported := reported_of_csvRows (hsame ▸ hrows') hrows
    refine ⟨hreported, ?_⟩
    have hlabels := congrArg (List.map Prod.fst) hreported
    rw [List.map_map, List.map_map] at hlabels
    rw [← h.1]
    exact hlabels

end BenchmarkReport

end FreebsdLaboratory
