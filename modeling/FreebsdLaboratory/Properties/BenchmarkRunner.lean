import FreebsdLaboratory.Model.BenchmarkRunner

/-!
# The benchmark leaves nothing behind

`BenchmarkState` follows the runtimes a run has launched, from outside: which calls have reported
one, for which of them a deletion has been tried since and has failed, and which the two sets of
active runtimes hold.  A signal can come with every operation; the handler then tries to delete what
is in the sets.

What is left at the end is only what a signal has found outside the sets: launched, but not yet
tracked.  `Lost` says so, every signal establishes it (`lost_interrupted`), and nothing but a launch
undoes it.
-/

namespace FreebsdLaboratory

open Library Prog Bench BenchmarkConfig

/-! ## What a run does to the runtimes -/

structure BenchmarkState where
  /-- Reported by a call, the last one first. -/
  launched : List Launched := []
  /-- Put into one of the sets. -/
  tracked : List Launched := []
  /-- Deleted by the run, or it has tried to; the handler's calls do not count. -/
  tried : List Launched := []
  /-- No deletion has been tried since. -/
  outstanding : List Launched := []
  /-- A deletion has raised, and none has returned since. -/
  refused : List Launched := []
  /-- `_active_kernels` and `_active_daemon_runtimes` -/
  active : List Launched := []
  /-- Outstanding and in neither set when a signal came. -/
  exposed : List Launched := []
  signalled : Bool := false

/-- The runtime that the answer of a call reports. -/
def BenchOp.reports : (o : BenchOp) → o.Answer → Option Launched
  | createKernel _, id => Option.map Launched.kernel id
  | createJail name _, _ => some (.runtime name)
  | createBhyve name _ _, _ => some (.runtime name)
  | _, _ => none

/-- The runtime is launched by this call. -/
def BenchOp.launches : BenchOp → Bool
  | createKernel _ | createJail _ _ | createBhyve _ _ _ => true
  | _ => false

/-- A call or a `print` may raise an exception; the clocks and the sets do not. -/
def BenchOp.mayRaise : BenchOp → Bool
  | perfCounter | time | track _ | untrack _ | isTracked _ | isInterrupted => false
  | _ => true

/-- Neither a launch nor a deletion, and no change of the sets. -/
def BenchOp.isQuiet : BenchOp → Bool
  | createKernel _ | createJail _ _ | createBhyve _ _ _ | delete _ | track _ | untrack _ => false
  | _ => true

namespace BenchmarkState

variable (s : BenchmarkState)

/-- The effect of an operation that returns, apart from its answer. -/
def effect : BenchOp → BenchmarkState
  | .delete l =>
      { s with
        tried := l :: s.tried
        outstanding := s.outstanding.filter (· ≠ l)
        refused := s.refused.filter (· ≠ l) }
  | .track l => { s with tracked := l :: s.tracked, active := l :: s.active }
  | .untrack l => { s with active := s.active.filter (· ≠ l) }
  | _ => s

/-- The effect of an operation that raises: what could not be deleted may still be up. -/
def failing : BenchOp → BenchmarkState
  | .delete l =>
      { s with
        tried := l :: s.tried
        outstanding := s.outstanding.filter (· ≠ l)
        refused := l :: s.refused }
  | _ => s

/-- A call has reported a runtime. -/
def report : Option Launched → BenchmarkState
  | some l => { s with launched := l :: s.launched, outstanding := l :: s.outstanding }
  | none => s

/-- What an operation leads to that returns. -/
def after (o : BenchOp) (v : o.Answer) : BenchmarkState := (s.effect o).report (o.reports v)

/-- The signal handler: `_emergency_cleanup` tries to delete what the sets hold, and some of it may
fail. -/
def interrupted (fails : Launched → Bool) : BenchmarkState :=
  { s with
    outstanding := s.outstanding.filter (· ∉ s.active)
    refused := s.refused.filter (· ∉ s.active) ++ s.active.filter fails
    exposed := s.exposed ++ s.outstanding.filter (· ∉ s.active)
    signalled := true }

/-- What `in` returns, and what the flag of the handler is. -/
def admits : (o : BenchOp) → o.Answer → Prop
  | .isTracked l, v => v = decide (l ∈ s.active)
  | .isInterrupted, v => v = s.signalled
  | _, _ => True

end BenchmarkState

/-- The runs of the benchmark.  A runtime is launched when no other is outstanding or in the sets,
put into its set when it is outstanding, and deleted when it is and in its set; behind a signal
nothing is launched or put into the sets, and what was launched may be deleted again. -/
def benchmarkRuns : Protocol BenchOp.Resp BenchmarkState where
  permits s o :=
    match o with
    | .delete l => l ∈ s.launched ∧ (s.signalled = true ∨ l ∈ s.outstanding ∧ l ∈ s.active)
    | .track l => l ∈ s.outstanding ∧ l ∉ s.active ∧ s.signalled = false
    | o => o.launches = true → s.outstanding = [] ∧ s.active = [] ∧ s.signalled = false
  moves s o r s' :=
    match r with
    | .ok v => s.admits o v ∧ s' = s.after o v
    | .error (.exception _) => o.mayRaise = true ∧ s' = s.failing o
    -- the signal comes before the operation has its effect, or after
    | .error .exit => ∃ fails, s' = s.interrupted fails ∨ s' = (s.effect o).interrupted fails
        ∨ s' = (s.failing o).interrupted fails

/-- What is left was outside the sets when a signal came. -/
def BenchmarkState.Lost (s : BenchmarkState) : Prop := ∀ l ∈ s.outstanding, l ∈ s.exposed

/-! ## What a run is to do -/

/-- What a result is the result of. -/
def IterationResult.label (r : IterationResult) : String × ResultMode × ℕ × Bool :=
  (r.runtimeAlias, r.mode, r.iteration, r.isWarmup)

/-- How many of the results are no success. -/
def failures (results : List IterationResult) : ℕ := results.countP fun r => !r.success

/-- What the results are the results of, in order. -/
def BenchmarkConfig.labels (config : BenchmarkConfig) (i : ℕ) (key : String) :
    List (String × ResultMode × ℕ × Bool) :=
  (if config.usesJupyter then [(key, .jupyter, i + 1, decide (i < config.warmup))] else [])
    ++ if config.usesDaemon then [(key, .daemon, i + 1, decide (i < config.warmup))] else []

/-- Every iteration takes every runtime, and every runtime the services of the mode. -/
def BenchmarkConfig.schedule (config : BenchmarkConfig) : List (String × ResultMode × ℕ × Bool) :=
  (List.range (config.iterations + config.warmup)).flatMap fun i =>
    config.selectedRuntimes.flatMap fun selected => config.labels i selected.1

namespace BenchmarkRunner

/-! ## Rules -/

section Rules

variable {T : Protocol BenchOp.Resp BenchmarkState} {α σ : Type} {s : BenchmarkState} {x : σ}
  {R : Raised → BenchmarkState → Prop}

/-- The body of a `try` stops where it raises. -/
lemma obeys_steps_cons {p : σ → Bench σ} {ps : List (σ → Bench σ)}
    {Q : σ × Option Raised → BenchmarkState → Prop} :
    (steps (p :: ps) x).Obeys T Q R s
      ↔ (p x).Obeys T (fun x' s => (steps ps x').Obeys T Q R s) (fun e s => Q (x, some e) s) s := by
  rw [steps, obeys_bind, caught, obeys_tryCatch, obeys_bind]
  exact Iff.rfl

lemma obeys_step {o : BenchOp} {Q : o.Answer → BenchmarkState → Prop} :
    (step o).Obeys T Q R s ↔ T.permits s o ∧ ∀ r s', T.moves s o r s' →
      (∀ v, r = .ok v → Q v s') ∧ ∀ e, r = .error e → R e s' := by
  rw [step, obeys_bind, obeys_op]
  simp only [obeys_ofExcept]

end Rules

/-! ## Signals -/

/-- The runtimes of this iteration, those in the sets and the outstanding ones have been
reported. -/
structure Known (mine : List Launched) (s : BenchmarkState) : Prop where
  mine : ∀ l ∈ mine, l ∈ s.launched
  active : ∀ l ∈ s.active, l ∈ s.launched
  outstanding : ∀ l ∈ s.outstanding, l ∈ s.launched

/-- Behind a signal: what is left was exposed. -/
structure Ended (mine : List Launched) (s : BenchmarkState) : Prop where
  lost : s.Lost
  signalled : s.signalled = true
  known : Known mine s

/-- What holds where a program raises: a signal, or an exception with `E`. -/
def Ends (mine : List Launched) (E : BenchmarkState → Prop) : Raised → BenchmarkState → Prop
  | .exit, s => Ended mine s
  | .exception _, s => E s

lemma lost_interrupted (s : BenchmarkState) (fails : Launched → Bool) :
    (s.interrupted fails).Lost := by
  intro l hl
  exact List.mem_append.mpr (.inr hl)

variable {mine : List Launched} {E : BenchmarkState → Prop} {s : BenchmarkState} {α β : Type}

lemma launched_effect (s : BenchmarkState) (o : BenchOp) : (s.effect o).launched = s.launched := by
  cases o <;> rfl

lemma Known.effect (h : Known mine s) {o : BenchOp} (ho : benchmarkRuns.permits s o) :
    Known mine (s.effect o) := by
  refine ⟨fun l hl => ?_, fun l hl => ?_, fun l hl => ?_⟩
  · rw [launched_effect]
    exact h.mine l hl
  · rw [launched_effect]
    cases o with
    | track l' =>
        rcases List.mem_cons.mp hl with rfl | hl
        · exact h.outstanding _ ho.1
        · exact h.active l hl
    | untrack l' => exact h.active l (List.mem_of_mem_filter hl)
    | _ => exact h.active l hl
  · rw [launched_effect]
    cases o with
    | delete l' => exact h.outstanding l (List.mem_of_mem_filter hl)
    | _ => exact h.outstanding l hl

lemma Known.failing (h : Known mine s) (o : BenchOp) : Known mine (s.failing o) := by
  cases o with
  | delete l =>
      exact ⟨h.mine, h.active, fun l' hl' => h.outstanding l' (List.mem_of_mem_filter hl')⟩
  | _ => exact h

lemma ended_interrupted (h : Known mine s) (fails : Launched → Bool) :
    Ended mine (s.interrupted fails) :=
  ⟨lost_interrupted s fails, rfl, h.mine, h.active,
    fun l hl => h.outstanding l (List.mem_of_mem_filter hl)⟩

/-- **One operation**: it returns, it raises an exception, or a signal comes. -/
lemma obeys_op_of {o : BenchOp} {Q : o.Answer → BenchmarkState → Prop}
    (hpermits : benchmarkRuns.permits s o) (hknown : Known mine s)
    (hreturns : ∀ v, s.admits o v → Q v (s.after o v))
    (hraises : o.mayRaise = true → E (s.failing o)) :
    (step o).Obeys benchmarkRuns Q (Ends mine E) s := by
  refine obeys_step.mpr ⟨hpermits, fun r s' hmoves => ?_⟩
  cases r with
  | ok v =>
      obtain ⟨hadmits, rfl⟩ := hmoves
      refine ⟨fun w hw => ?_, fun e he => absurd he (by simp)⟩
      obtain rfl := Except.ok.inj hw
      exact hreturns v hadmits
  | error e =>
      refine ⟨fun v hv => absurd hv (by simp), fun e' he => ?_⟩
      obtain rfl := Except.error.inj he
      cases e with
      | exception text =>
          obtain ⟨hraise, rfl⟩ := hmoves
          exact hraises hraise
      | exit =>
          obtain ⟨fails, rfl | rfl | rfl⟩ := hmoves
          · exact ended_interrupted hknown fails
          · exact ended_interrupted (hknown.effect hpermits) fails
          · exact ended_interrupted (hknown.failing o) fails

/-! ## Programs that do nothing to the runtimes -/

/-- A state that such operations keep, and in which they are permitted. -/
def Calm (mine : List Launched) (A : BenchmarkState → Prop) (p : Bench α) : Prop :=
  ∀ s, A s → p.Obeys benchmarkRuns (fun _ => A) (Ends mine A) s

variable {A : BenchmarkState → Prop}

lemma calm_step (hA : ∀ s, A s → Known mine s) {o : BenchOp} (ho : o.isQuiet = true) :
    Calm mine A (step o) := by
  intro s hs
  have hafter : ∀ v, s.after o v = s := by
    intro v
    cases o <;> first | rfl | simp [BenchOp.isQuiet] at ho
  have hfailing : s.failing o = s := by
    cases o <;> first | rfl | simp [BenchOp.isQuiet] at ho
  have hpermits : benchmarkRuns.permits s o := by
    cases o <;> first
      | exact fun h => absurd h Bool.false_ne_true
      | simp [BenchOp.isQuiet] at ho
  refine obeys_op_of hpermits (hA s hs) (fun v _ => ?_) fun _ => ?_
  · rw [hafter]
    exact hs
  · rw [hfailing]
    exact hs

lemma Calm.pure {a : α} : Calm mine A (pure a : Bench α) := fun _ hs => hs

/-- A calm program, and then another one. -/
lemma Calm.then {p : Bench α} {f : α → Bench β} {Q : β → BenchmarkState → Prop} (hp : Calm mine A p)
    (hs : A s) (hf : ∀ a s, A s → (f a).Obeys benchmarkRuns Q (Ends mine A) s) :
    (p >>= f).Obeys benchmarkRuns Q (Ends mine A) s :=
  obeys_bind.mpr ((hp s hs).mono (fun a s hs => hf a s hs) fun _ _ h => h)

lemma Calm.bind {p : Bench α} {f : α → Bench β} (hp : Calm mine A p) (hf : ∀ a, Calm mine A (f a)) :
    Calm mine A (p >>= f) :=
  fun _ hs => hp.then hs fun a s hs => hf a s hs

variable {config : BenchmarkConfig}

lemma Calm.ite {c : Prop} [Decidable c] {p q : Bench α} (hp : Calm mine A p) (hq : Calm mine A q) :
    Calm mine A (if c then p else q) := by
  by_cases hc : c
  · rwa [if_pos hc]
  · rwa [if_neg hc]

lemma calm_log (hA : ∀ s, A s → Known mine s) : Calm mine A config.log :=
  .ite .pure (calm_step hA rfl)

lemma calm_logVerbose (hA : ∀ s, A s → Known mine s) :
    Calm mine A config.logVerbose :=
  .ite (calm_step hA rfl) .pure

/-! ## The states of an iteration -/

/-- Each runtime has been put into its set and deleted once; at most so many deletions have
failed. -/
structure Idle (failed : ℕ) (s : BenchmarkState) : Prop where
  outstanding : s.outstanding = []
  active : s.active = []
  signalled : s.signalled = false
  tracked : s.tracked = s.launched
  tried : s.tried = s.launched
  refused : s.refused.length ≤ failed

/-- One runtime is up. -/
structure Up (failed : ℕ) (l : Launched) (tracked : Bool) (s : BenchmarkState) : Prop where
  outstanding : s.outstanding = [l]
  active : s.active = if tracked then [l] else []
  signalled : s.signalled = false
  launched : s.launched = l :: s.tried
  tracked : s.tracked = if tracked then s.launched else s.tried
  refused : s.refused.length ≤ failed

/-- Its deletion has been tried. -/
structure Down (failed : ℕ) (l : Launched) (s : BenchmarkState) : Prop where
  outstanding : s.outstanding = []
  active : s.active = [l]
  signalled : s.signalled = false
  launched : l ∈ s.launched
  tracked : s.tracked = s.launched
  tried : s.tried = s.launched
  refused : s.refused.length ≤ failed

variable {failed : ℕ}

lemma Idle.known (h : Idle failed s) : Known [] s :=
  ⟨by simp, by simp [h.active], by simp [h.outstanding]⟩

lemma Up.mem_launched {l : Launched} {tracked : Bool} (h : Up failed l tracked s) :
    l ∈ s.launched := by
  rw [h.launched]
  exact List.mem_cons_self

lemma Up.known {l : Launched} {tracked : Bool} (h : Up failed l tracked s) : Known [l] s := by
  refine ⟨fun l' hl' => ?_, fun l' hl' => ?_, fun l' hl' => ?_⟩
  · obtain rfl := List.mem_singleton.mp hl'
    exact h.mem_launched
  · rw [h.active] at hl'
    cases tracked with
    | false => cases hl'
    | true =>
        obtain rfl := List.mem_singleton.mp hl'
        exact h.mem_launched
  · rw [h.outstanding] at hl'
    obtain rfl := List.mem_singleton.mp hl'
    exact h.mem_launched

lemma Down.known {l : Launched} (h : Down failed l s) : Known [] s := by
  refine ⟨by simp, fun l' hl' => ?_, by simp [h.outstanding]⟩
  rw [h.active] at hl'
  obtain rfl := List.mem_singleton.mp hl'
  exact h.launched

lemma Idle.mono {more : ℕ} (h : Idle failed s) (hle : failed ≤ more) : Idle more s :=
  ⟨h.outstanding, h.active, h.signalled, h.tracked, h.tried, h.refused.trans hle⟩

lemma Down.mono {more : ℕ} {l : Launched} (h : Down failed l s) (hle : failed ≤ more) :
    Down more l s :=
  ⟨h.outstanding, h.active, h.signalled, h.launched, h.tracked, h.tried, h.refused.trans hle⟩

lemma Known.none (h : Known mine s) : Known [] s := ⟨by simp, h.active, h.outstanding⟩

lemma Idle.lost (h : Idle failed s) : s.Lost := by
  intro l hl
  rw [h.outstanding] at hl
  cases hl

/-! ## Statements that may raise -/

/-- The body of a `try` has ended with variables that have `I`: by a signal, or in a state with
`A`. -/
def Tried (mine : List Launched) (A : BenchmarkState → Prop) {σ : Type} (I : σ → Prop) :
    σ × Option Raised → BenchmarkState → Prop
  | (x, some .exit), s => I x ∧ Ended mine s
  | (x, _), s => I x ∧ A s

section Statements

variable {σ : Type} {I : σ → Prop} {x : σ} {R : Raised → BenchmarkState → Prop}

lemma tried_of_ends {e : Raised} (hx : I x) (h : Ends mine A e s) :
    Tried mine A I (x, some e) s := by
  cases e with
  | exit => exact ⟨hx, h⟩
  | exception text => exact ⟨hx, h⟩

/-- Statements that each keep `I` and `A`. -/
lemma calm_steps {ps : List (σ → Bench σ)}
    (hps : ∀ p ∈ ps, ∀ x s, I x → A s →
      (p x).Obeys benchmarkRuns (fun x' s => I x' ∧ A s) (Ends mine A) s)
    (hx : I x) (hs : A s) : (steps ps x).Obeys benchmarkRuns (Tried mine A I) R s := by
  induction ps generalizing x s with
  | nil => exact ⟨hx, hs⟩
  | cons p ps ih =>
      rw [List.forall_mem_cons] at hps
      refine obeys_steps_cons.mpr ((hps.1 x s hx hs).mono (fun x' s h => ?_) fun e s h => ?_)
      · exact ih hps.2 h.1 h.2
      · exact tried_of_ends hx h

lemma recover_exception {handler : σ → String → Bench σ} {text : String} :
    recover handler (x, some (.exception text)) = steps [fun x => handler x text] x := rfl

lemma recover_tried {handler : σ → String → Bench σ} {tried : σ × Option Raised}
    (hhandler : ∀ text x s, I x → A s →
      (handler x text).Obeys benchmarkRuns (fun x' s => I x' ∧ A s) (Ends mine A) s)
    (h : Tried mine A I tried s) :
    (recover handler tried).Obeys benchmarkRuns (Tried mine A I) R s := by
  obtain ⟨x, raised⟩ := tried
  rcases raised with _ | ⟨text⟩ | _
  · exact h
  · rw [recover_exception]
    refine calm_steps ?_ h.1 h.2
    intro p hp
    obtain rfl := List.mem_singleton.mp hp
    exact hhandler text
  · exact h

lemma reraise_tried {tried : σ × Option Raised} (h : Tried mine A I tried s) :
    (reraise tried).Obeys benchmarkRuns (fun x s => I x ∧ A s) (Ends mine A) s := by
  obtain ⟨x, raised⟩ := tried
  rcases raised with _ | ⟨text⟩ | _
  · exact h
  · exact h.2
  · exact h.2

end Statements

/-! ## Deleting -/

/-- The clock raises no exception. -/
lemma perfCounter_then {f : ℚ → Bench β} {Q : β → BenchmarkState → Prop}
    (hknown : Known mine s)
    (hf : ∀ now, (f now).Obeys benchmarkRuns Q (Ends mine E) s) :
    (perfCounter >>= f).Obeys benchmarkRuns Q (Ends mine E) s :=
  obeys_bind.mpr (obeys_op_of (fun h => absurd h Bool.false_ne_true) hknown (fun now _ => hf now)
    fun h => absurd h Bool.false_ne_true)

lemma deleted_eq_nil {l : Launched} (h : s.outstanding = [l]) :
    s.outstanding.filter (· ≠ l) = [] := by
  simp [h]

/-- A deletion is tried once. -/
lemma Up.permits_delete {l : Launched} (h : Up failed l true s) :
    benchmarkRuns.permits s (.delete l) :=
  ⟨h.mem_launched, .inr ⟨by rw [h.outstanding]; exact List.mem_singleton_self l,
    by rw [h.active]; exact List.mem_singleton_self l⟩⟩

/-- It returns. -/
lemma Up.deleted {l : Launched} (h : Up failed l true s) :
    Down failed l (s.effect (.delete l)) where
  outstanding := deleted_eq_nil h.outstanding
  active := h.active
  signalled := h.signalled
  launched := h.mem_launched
  tracked := h.tracked
  tried := h.launched.symm
  refused := (List.length_filter_le _ _).trans h.refused

/-- It raises. -/
lemma Up.refused_delete {l : Launched} (h : Up failed l true s) :
    Down (failed + 1) l (s.failing (.delete l)) where
  outstanding := deleted_eq_nil h.outstanding
  active := h.active
  signalled := h.signalled
  launched := h.mem_launched
  tracked := h.tracked
  tried := h.launched.symm
  refused := Nat.succ_le_succ h.refused

/-- The call that deletes a runtime. -/
lemma delete_then {l : Launched} {f : Unit → Bench β} {Q : β → BenchmarkState → Prop}
    (h : Up failed l true s)
    (hf : ∀ s, Down failed l s →
      (f ()).Obeys benchmarkRuns Q (Ends [] (Down (failed + 1) l)) s) :
    (step (.delete l) >>= f).Obeys benchmarkRuns Q (Ends [] (Down (failed + 1) l)) s :=
  obeys_bind.mpr (obeys_op_of h.permits_delete h.known.none (fun _ _ => hf _ h.deleted)
    fun _ => h.refused_delete)

lemma Down.untracked {l : Launched} (h : Down failed l s) :
    Idle failed (s.effect (.untrack l)) := by
  refine ⟨h.outstanding, ?_, h.signalled, h.tracked, h.tried, h.refused⟩
  change s.active.filter (· ≠ l) = []
  simp [h.active]

/-- `discard` behind a deletion. -/
lemma untrack_then {l : Launched} {f : Unit → Bench β} {Q : β → BenchmarkState → Prop}
    (h : Down failed l s)
    (hf : ∀ s, Idle failed s → (f ()).Obeys benchmarkRuns Q (Ends [] E) s) :
    (step (.untrack l) >>= f).Obeys benchmarkRuns Q (Ends [] E) s :=
  obeys_bind.mpr (obeys_op_of (fun h => absurd h Bool.false_ne_true) h.known
    (fun _ _ => hf _ h.untracked) fun h => absurd h Bool.false_ne_true)

lemma ended_effect (h : Ended mine s) {o : BenchOp} (ho : benchmarkRuns.permits s o) :
    Ended mine (s.effect o) := by
  refine ⟨?_, ?_, h.known.effect ho⟩
  · cases o with
    | delete l =>
        intro l' hl'
        exact h.lost l' (List.mem_of_mem_filter hl')
    | _ => exact h.lost
  · cases o <;> exact h.signalled

lemma ended_failing (h : Ended mine s) (o : BenchOp) : Ended mine (s.failing o) := by
  refine ⟨?_, ?_, h.known.failing o⟩
  · cases o with
    | delete l =>
        intro l' hl'
        exact h.lost l' (List.mem_of_mem_filter hl')
    | _ => exact h.lost
  · cases o <;> exact h.signalled

lemma after_of_not_launches {o : BenchOp} (ho : o.launches = false) (v : o.Answer) :
    s.after o v = s.effect o := by
  cases o <;> first | rfl | exact absurd ho Bool.true_eq_false.mp

/-- Behind a signal nothing but a launch matters. -/
lemma ended_then {o : BenchOp} {f : o.Answer → Bench β} {Q : β → BenchmarkState → Prop}
    (ho : o.launches = false) (htrack : ∀ l, o ≠ .track l) (hmine : ∀ l, o = .delete l → l ∈ mine)
    (h : Ended mine s)
    (hE : o.mayRaise = true → ∀ s, Ended mine s → E s)
    (hf : ∀ v s, Ended mine s → (f v).Obeys benchmarkRuns Q (Ends mine E) s) :
    (step o >>= f).Obeys benchmarkRuns Q (Ends mine E) s := by
  have hpermits : benchmarkRuns.permits s o := by
    cases o with
    | delete l => exact ⟨h.known.mine l (hmine l rfl), .inl h.signalled⟩
    | track l => exact absurd rfl (htrack l)
    | _ => exact fun hlaunch => absurd (ho.symm.trans hlaunch) Bool.false_ne_true
  refine obeys_bind.mpr (obeys_op_of hpermits h.known (fun v _ => ?_) fun hraise => ?_)
  · rw [after_of_not_launches ho]
    exact hf v _ (ended_effect h hpermits)
  · exact hE hraise _ (ended_failing h o)

/-- How the body of the `try` around a deletion ends. -/
def Deleted (failed : ℕ) (l : Launched) (I : IterationResult → Prop) :
    IterationResult × Option Raised → BenchmarkState → Prop
  | (r, none), s => I r ∧ Down failed l s
  | (r, some (.exception _)), s => I r ∧ Down (failed + 1) l s
  | (r, some .exit), s => I r ∧ Ended [] s

lemma deleted_of_ends {l : Launched} {I : IterationResult → Prop} {r : IterationResult} {e : Raised}
    (hr : I r) (h : Ends [] (Down (failed + 1) l) e s) : Deleted failed l I (r, some e) s := by
  cases e with
  | exit => exact ⟨hr, h⟩
  | exception text => exact ⟨hr, h⟩

/-- The `try` statement around a deletion: where it raises, the result is no success. -/
lemma deleteTried_obeys {l : Launched} {t0 start : ℚ} {result : IterationResult}
    {R : Raised → BenchmarkState → Prop} (h : Up failed l true s) :
    (steps
      [fun r => do
        step (.delete l)
        let stop ← perfCounter
        return { r with destroySec := Library.roundPlaces 4 (stop - start) },
       fun r => do
        let now ← perfCounter
        return { r with lifecycleSec := Library.roundPlaces 4 (now - t0) },
       fun r => do
        config.log
        return r] result).Obeys benchmarkRuns
      (Deleted failed l fun r => r.label = result.label) R s := by
  let I : IterationResult → Prop := fun r => r.label = result.label
  refine obeys_steps_cons.mpr (Obeys.mono (Q := fun r s => I r ∧ Down failed l s)
    (R := Ends [] (Down (failed + 1) l)) ?_ (fun r s hr => ?_) fun e s he => deleted_of_ends rfl he)
  · refine delete_then h fun s hs => ?_
    exact perfCounter_then hs.known fun stop => ⟨rfl, hs⟩
  · refine Obeys.mono (Q := Tried [] (Down failed l) I) (R := R) (calm_steps ?_ hr.1 hr.2)
      (fun tried s htried => ?_) fun _ _ h => h
    · simp only [List.forall_mem_cons, List.not_mem_nil, false_imp_iff, implies_true, and_true]
      refine ⟨fun r s hr hs => ?_, fun r s hr hs => ?_⟩
      · exact perfCounter_then hs.known fun now => ⟨hr, hs⟩
      · exact (calm_log fun _ h => h.known).then hs fun _ s hs => ⟨hr, hs⟩
    · obtain ⟨r, raised⟩ := tried
      rcases raised with _ | ⟨text⟩ | _
      · exact htried
      · exact ⟨htried.1, htried.2.mono (Nat.le_succ _)⟩
      · exact htried

/-- How the handler leaves it: the result accounts for a deletion that has failed. -/
def Recovered (failed : ℕ) (l : Launched) (I : IterationResult → Prop) :
    IterationResult × Option Raised → BenchmarkState → Prop
  | (r, none), s => I r ∧ Down (failed + failures [r]) l s
  | (_, some (.exception _)), s => Down (failed + 1) l s
  | (_, some .exit), s => Ended [] s

lemma deleteRecovered_obeys {l : Launched} {result : IterationResult}
    {R : Raised → BenchmarkState → Prop}
    {tried : IterationResult × Option Raised}
    (h : Deleted failed l (fun r => r.label = result.label) tried s) :
    (recover (fun r text => do
      config.log
      return if r.success then
          { r with success := false, error := some ("Destroy error: " ++ text) }
        else r) tried).Obeys benchmarkRuns
      (Recovered failed l fun r => r.label = result.label) R s := by
  obtain ⟨r, raised⟩ := tried
  rcases raised with _ | ⟨text⟩ | _
  · exact ⟨h.1, h.2.mono (Nat.le_add_right _ _)⟩
  · rw [recover_exception]
    refine obeys_steps_cons.mpr (Obeys.mono (Q := fun (r : IterationResult) s =>
      r.label = result.label ∧ r.success = false ∧ Down (failed + 1) l s)
      (R := Ends [] (Down (failed + 1) l)) ?_ (fun r s hr => ?_) fun e s he => ?_)
    · refine (calm_log fun _ h => h.known).then h.2 fun _ s hs => ?_
      by_cases hsuccess : r.success = true
      · rw [if_pos hsuccess]
        exact ⟨h.1, rfl, hs⟩
      · rw [if_neg hsuccess]
        exact ⟨h.1, Bool.eq_false_iff.mpr hsuccess, hs⟩
    · have hone : failures [r] = 1 := by simp [failures, hr.2.1]
      exact ⟨hr.1, by rw [hone]; exact hr.2.2⟩
    · cases e with
      | exit => exact he
      | exception text => exact he
  · exact h.2

/-- **The deletion of a runtime that is tracked**: whatever it raises, it was tried, and where it
failed the result is no success. -/
lemma deleteLaunched_up {l : Launched} {t0 : ℚ} {result : IterationResult}
    (h : Up failed l true s) :
    (config.deleteLaunched l t0 result).Obeys benchmarkRuns
      (fun r s => r.label = result.label ∧ Idle (failed + failures [r]) s)
      (Ends [] (Idle (failed + 1))) s := by
  let I : IterationResult → Prop := fun r => r.label = result.label
  rw [deleteLaunched]
  refine perfCounter_then h.known.none fun start => obeys_bind.mpr ?_
  refine (deleteTried_obeys h).mono (fun tried s htried => ?_) fun _ _ h => h
  refine obeys_bind.mpr
    ((deleteRecovered_obeys htried).mono (fun tried s htried => ?_) fun _ _ h => h)
  obtain ⟨r, raised⟩ := tried
  rcases raised with _ | ⟨text⟩ | _
  · obtain ⟨hr, hs⟩ := htried
    exact untrack_then hs fun s hs => ⟨hr, hs⟩
  · exact untrack_then htried fun s hs => hs
  · exact ended_then rfl (by simp) (by simp) htried (fun h => absurd h Bool.false_ne_true)
      fun _ s hs => hs

/-- Behind a signal it is tried again. -/
lemma deleteLaunched_ended {l : Launched} {t0 : ℚ} {result : IterationResult} (hl : l ∈ mine) :
    Calm mine (Ended mine) (config.deleteLaunched l t0 result) := by
  have hmine : ∀ s, Ended mine s → Known mine s := fun _ h => h.known
  intro s hs
  rw [deleteLaunched]
  refine perfCounter_then hs.known fun start => obeys_bind.mpr ?_
  refine Obeys.mono (Q := Tried mine (Ended mine) fun _ => True) (R := Ends mine (Ended mine)) ?_
    (fun tried s htried => ?_) fun _ _ h => h
  · refine calm_steps ?_ trivial hs
    simp only [List.forall_mem_cons, List.not_mem_nil, false_imp_iff, implies_true, and_true]
    refine ⟨fun r s _ hs => ?_, fun r s _ hs => ?_, fun r s _ hs => ?_⟩
    · refine ended_then rfl (by simp) (fun l' hl' => ?_) hs (fun _ _ h => h) fun _ s hs => ?_
      · cases hl'
        exact hl
      · exact perfCounter_then hs.known fun stop => ⟨trivial, hs⟩
    · exact perfCounter_then hs.known fun now => ⟨trivial, hs⟩
    · exact (calm_log hmine).then hs fun _ s hs => ⟨trivial, hs⟩
  · refine obeys_bind.mpr (Obeys.mono (Q := Tried mine (Ended mine) fun _ => True)
      (R := Ends mine (Ended mine)) (recover_tried (fun text r s _ hs => ?_) htried)
      (fun tried s htried => ?_) fun _ _ h => h)
    · exact (calm_log hmine).then hs fun _ s hs => ⟨trivial, hs⟩
    · have hs : Ended mine s := by
        obtain ⟨r, raised⟩ := tried
        rcases raised with _ | ⟨text⟩ | _ <;> exact htried.2
      refine ended_then rfl (by simp) (by simp) hs (fun _ _ h => h) fun _ s hs => ?_
      have htried' : Tried mine (Ended mine) (fun _ : IterationResult => True) tried s := by
        obtain ⟨r, raised⟩ := tried
        rcases raised with _ | ⟨text⟩ | _ <;> exact ⟨trivial, hs⟩
      exact (reraise_tried htried').mono (fun _ _ h => h.2) fun _ _ h => h

/-! ## A kernel -/

/-- Only a signal gets out. -/
lemma suppressed_obeys {p : Bench Unit} (hp : Calm mine A p) (hs : A s) :
    (suppressed p).Obeys benchmarkRuns (fun _ => A) (Ends mine E) s := by
  rw [suppressed]
  refine obeys_bind.mpr (Obeys.mono (Q := Tried mine A fun _ => True) (R := Ends mine E)
    (calm_steps ?_ trivial hs) (fun tried s htried => ?_) fun _ _ h => h)
  · simp only [List.forall_mem_cons, List.not_mem_nil, false_imp_iff, implies_true, and_true]
    exact fun _ s _ hs => (hp s hs).mono (fun _ _ h => ⟨trivial, h⟩) fun _ _ h => h
  · obtain ⟨x, raised⟩ := tried
    rcases raised with _ | ⟨text⟩ | _
    · exact htried.2
    · exact htried.2
    · exact htried.2

/-- The kernel of an id that was stored is up. -/
def KernelUp (failed : ℕ) (tracked : Bool) : Option String → BenchmarkState → Prop
  | some id => Up failed (.kernel id) tracked
  | none => Idle failed

/-- The kernel of an id, if there is one. -/
def kernelOf (id : Option String) : List Launched := (id.map Launched.kernel).toList

lemma kernelUp_known {id : Option String} : ∀ s, KernelUp failed true id s →
    Known (kernelOf id) s := by
  intro s hs
  cases id with
  | none => exact Idle.known hs
  | some id => exact Up.known hs

/-- The variables of a launch whose id is stored. -/
def Holds (id : Option String) (label : String × ResultMode × ℕ × Bool) (l : KernelLaunch) : Prop :=
  l.kernelId = id ∧ l.result.label = label

variable {id : Option String} {label : String × ResultMode × ℕ × Bool} {l : KernelLaunch}

/-- A call that is timed, and neither launches nor deletes. -/
lemma timed_call {o : BenchOp} (ho : o.isQuiet = true) (hA : ∀ s, A s → Known mine s)
    {f : ℚ → o.Answer → ℚ → KernelLaunch} {I : KernelLaunch → Prop}
    (hf : ∀ start v stop, I (f start v stop)) (hs : A s) :
    (do
      let start ← perfCounter
      let v ← step o
      let stop ← perfCounter
      return f start v stop : Bench KernelLaunch).Obeys benchmarkRuns (fun x s => I x ∧ A s)
        (Ends mine A) s :=
  perfCounter_then (hA s hs) fun start => (calm_step hA ho).then hs fun v s hs =>
    perfCounter_then (hA s hs) fun stop => ⟨hf start v stop, hs⟩

lemma logged_obeys {p : Bench Unit} (hp : Calm mine A p) {I : KernelLaunch → Prop} (hl : I l)
    (hs : A s) :
    (logged p l).Obeys benchmarkRuns (fun x s => I x ∧ A s) (Ends mine A) s :=
  hp.then hs fun _ _ hs => ⟨hl, hs⟩

lemma calm_describe (hA : ∀ s, A s → Known mine s) {data : Library.Json.Value} :
    Calm mine A (config.describe data) := by
  refine .ite ?_ .pure
  cases data with
  | dict items => exact calm_logVerbose hA
  | _ => exact fun _ hs => hs

/-- Where the body of the `try` ends, for some id. -/
def LaunchTried (failed : ℕ) (label : String × ResultMode × ℕ × Bool)
    (tried : KernelLaunch × Option Raised)
    (s : BenchmarkState) : Prop :=
  ∃ id, Tried (kernelOf id) (KernelUp failed true id) (Holds id label) tried s

/-- The statements behind the launch. -/
lemma kernelSteps_obeys {t0 : ℚ} {R : Raised → BenchmarkState → Prop} (hl : Holds id label l)
    (hs : KernelUp failed true id s) :
    (steps
      [logged config.logVerbose, connectStep, logged config.logVerbose, probeStep t0, parseStep,
        logged config.log, fun l => logged (config.describe l.result.guestMetadata) l, warmStep,
        logged config.logVerbose] l).Obeys benchmarkRuns
      (Tried (kernelOf id) (KernelUp failed true id) (Holds id label)) R s := by
  have hA : ∀ s, KernelUp failed true id s → Known (kernelOf id) s := kernelUp_known
  refine calm_steps ?_ hl hs
  simp only [List.forall_mem_cons, List.not_mem_nil, false_imp_iff, implies_true, and_true]
  refine ⟨?_, ?_, ?_, ?_, ?_, ?_, ?_, ?_, ?_⟩
  · exact fun l s hl hs => logged_obeys (calm_logVerbose hA) hl hs
  · intro l s hl hs
    exact timed_call (o := .connectWebsocket l.kernelId) rfl hA (fun _ _ _ => hl) hs
  · exact fun l s hl hs => logged_obeys (calm_logVerbose hA) hl hs
  · intro l s hl hs
    exact timed_call (o := .executeCode probeCode) rfl hA (fun _ _ _ => hl) hs
  · intro l s hl hs
    rw [parseStep]
    cases probeData l.stdout with
    | some text => exact (calm_step hA rfl).then hs fun _ s hs => ⟨hl, hs⟩
    | none => exact ⟨hl, hs⟩
  · exact fun l s hl hs => logged_obeys (calm_log hA) hl hs
  · exact fun l s hl hs => logged_obeys (calm_describe hA) hl hs
  · intro l s hl hs
    exact timed_call (o := .executeCode "1 + 1") rfl hA (fun _ _ _ => hl) hs
  · exact fun l s hl hs => logged_obeys (calm_logVerbose hA) hl hs

/-- A call has reported a runtime. -/
lemma Idle.up (h : Idle failed s) (l : Launched) : Up failed l false (s.report (some l)) := by
  refine ⟨?_, h.active, h.signalled, ?_, h.tracked.trans h.tried.symm, h.refused⟩
  · change l :: s.outstanding = _
    rw [h.outstanding]
  · change l :: s.launched = l :: s.tried
    rw [h.tried]

/-- It is put into the set. -/
lemma Up.track {l : Launched} (h : Up failed l false s) :
    Up failed l true (s.effect (.track l)) := by
  refine ⟨h.outstanding, ?_, h.signalled, h.launched, ?_, h.refused⟩
  · change l :: s.active = _
    rw [h.active]
    rfl
  · change l :: s.tracked = s.launched
    rw [h.tracked, h.launched]
    rfl

lemma Up.permits_track {l : Launched} (h : Up failed l false s) :
    benchmarkRuns.permits s (.track l) := by
  refine ⟨?_, ?_, h.signalled⟩
  · rw [h.outstanding]
    exact List.mem_singleton_self l
  · rw [h.active]
    exact List.not_mem_nil

lemma kernelUp_none {tracked : Bool} (h : KernelUp failed tracked id s) : Known [] s := by
  cases id with
  | none => exact Idle.known h
  | some id => exact (Up.known h).none

lemma idle_permits_launch {o : BenchOp} (ho : o.launches = true) (hs : Idle failed s) :
    benchmarkRuns.permits s o := by
  cases o <;> first
    | exact fun _ => ⟨hs.outstanding, hs.active, hs.signalled⟩
    | exact absurd ho Bool.false_ne_true

/-- The launch: the kernel is up, and not yet tracked. -/
lemma createStep_obeys {name : String} (hl : Holds none label l) (hs : Idle failed s) :
    (createStep name l).Obeys benchmarkRuns
      (fun l s => ∃ id, Holds id label l ∧ KernelUp failed false id s)
      (Ends [] (Idle failed)) s := by
  refine perfCounter_then hs.known fun start => obeys_bind.mpr ?_
  refine obeys_op_of (idle_permits_launch rfl hs) hs.known (fun id _ => ?_) fun _ => hs
  have hup : KernelUp failed false id (s.report (id.map Launched.kernel)) := by
    cases id with
    | none => exact hs
    | some id => exact hs.up _
  exact perfCounter_then (kernelUp_none hup) fun stop => ⟨id, ⟨rfl, hl.2⟩, hup⟩

/-- From here on it is in the set. -/
lemma trackStep_obeys (hl : Holds id label l) (hs : KernelUp failed false id s) :
    (trackStep l).Obeys benchmarkRuns (fun l s => Holds id label l ∧ KernelUp failed true id s)
      (Ends (kernelOf id) fun _ => False) s := by
  obtain ⟨hid, hlabel⟩ := hl
  rw [trackStep, hid]
  cases id with
  | none => exact ⟨⟨hid, hlabel⟩, hs⟩
  | some id =>
      have hs : Up failed (.kernel id) false s := hs
      exact obeys_bind.mpr
        (obeys_op_of hs.permits_track hs.known (fun _ _ => ⟨⟨hid, hlabel⟩, hs.track⟩)
        fun h => absurd h Bool.false_ne_true)

/-- The body of the `try`. -/
lemma launchSteps_obeys {name : String} {t0 : ℚ} {R : Raised → BenchmarkState → Prop}
    (hl : Holds none label l) (hs : Idle failed s) :
    (steps
      [createStep name, trackStep, logged config.logVerbose, connectStep, logged config.logVerbose,
        probeStep t0, parseStep, logged config.log,
        fun l => logged (config.describe l.result.guestMetadata) l, warmStep,
        logged config.logVerbose] l).Obeys benchmarkRuns (LaunchTried failed label) R s := by
  refine obeys_steps_cons.mpr ((createStep_obeys hl hs).mono (fun l s h => ?_) fun e s he => ?_)
  · obtain ⟨id, hl, hs⟩ := h
    refine obeys_steps_cons.mpr ((trackStep_obeys hl hs).mono (fun l s h => ?_) fun e s he => ?_)
    · exact (kernelSteps_obeys h.1 h.2).mono (fun _ _ h => ⟨id, h⟩) fun _ _ h => h
    · cases e with
      | exit => exact ⟨id, hl, he⟩
      | exception text => exact he.elim
  · exact ⟨none, tried_of_ends hl he⟩

lemma lost_of_ends {e : Raised} (hE : ∀ s, E s → s.Lost) (h : Ends mine E e s) : s.Lost := by
  cases e with
  | exit => exact h.lost
  | exception text => exact hE s h

lemma closeConnection_obeys (hA : ∀ s, A s → Known mine s) (hs : A s) :
    (closeConnection l).Obeys benchmarkRuns (fun _ => A) (Ends mine E) s := by
  rw [closeConnection]
  by_cases hconn : l.conn = true
  · rw [if_pos hconn]
    exact suppressed_obeys (calm_step hA rfl) hs
  · rw [if_neg hconn]
    exact hs

/-- The `finally` block, where the kernel is up. -/
lemma releaseKernel_up {t0 : ℚ} (hl : Holds id label l) (hs : KernelUp failed true id s) :
    (config.releaseKernel t0 l).Obeys benchmarkRuns
      (fun r s => r.label = label ∧ Idle (failed + failures [r]) s)
      (Ends [] (Idle (failed + 1))) s := by
  rw [releaseKernel]
  refine obeys_bind.mpr ((closeConnection_obeys (E := Idle (failed + 1)) kernelUp_known hs).mono
    (fun _ s hs => ?_) fun e s he => ?_)
  · rw [hl.1]
    cases id with
    | none => exact ⟨hl.2, Idle.mono hs (Nat.le_add_right _ _)⟩
    | some id =>
        refine (deleteLaunched_up hs).mono (fun r s hr => ⟨?_, hr.2⟩) fun _ _ h => h
        rw [hr.1, hl.2]
  · cases e with
    | exit => exact ⟨he.lost, he.signalled, he.known.none⟩
    | exception text => exact he

/-- The `finally` block behind a signal. -/
lemma releaseKernel_ended {t0 : ℚ} (hl : Holds id label l) :
    Calm (kernelOf id) (Ended (kernelOf id)) (config.releaseKernel t0 l) := by
  intro s hs
  rw [releaseKernel]
  refine obeys_bind.mpr ((closeConnection_obeys (fun _ h => h.known) hs).mono
    (fun _ s hs => ?_) fun _ _ h => h)
  rw [hl.1]
  cases id with
  | none => exact hs
  | some id => exact deleteLaunched_ended (List.mem_singleton_self _) s hs

lemma failed_obeys {result : IterationResult} {text : String}
    (hA : ∀ s, A s → Known mine s) (hs : A s) :
    (config.failed result text).Obeys benchmarkRuns (fun r s => r.label = result.label ∧ A s)
      (Ends mine A) s :=
  (calm_log hA).then hs fun _ _ hs => ⟨rfl, hs⟩

lemma lost_of_idle : ∀ e s, Ends [] (Idle failed) e s → s.Lost :=
  fun _ _ => lost_of_ends fun _ => Idle.lost

/-- **One kernel**: whatever happens, its deletion has been tried at the end, or a signal has found
it untracked. -/
theorem benchmarkJupyterRuntime_obeys {key : String} {spec : BenchmarkRuntime} {i : ℕ} {w : Bool}
    (hs : Idle failed s) :
    (config.benchmarkJupyterRuntime key spec i w).Obeys benchmarkRuns
      (fun r s => r.label = (key, .jupyter, i + 1, w) ∧ Idle (failed + failures [r]) s)
      (fun _ s => s.Lost) s := by
  rw [benchmarkJupyterRuntime]
  refine obeys_bind.mpr ((calm_log (fun _ h => h.known) s hs).mono (fun _ s hs => ?_) lost_of_idle)
  refine obeys_bind.mpr
    ((calm_step (fun _ h => h.known) rfl s hs).mono (fun t0 s hs => ?_) lost_of_idle)
  refine obeys_bind.mpr ((launchSteps_obeys (R := fun _ s => s.Lost)
    (show Holds none (key, .jupyter, i + 1, w) _ from ⟨rfl, rfl⟩) hs).mono
    (fun tried s htried => ?_)
    fun _ _ h => h)
  obtain ⟨id, htried⟩ := htried
  refine obeys_bind.mpr
    ((recover_tried (R := fun _ s => s.Lost) (fun text l s hl hs => ?_) htried).mono
    (fun tried s htried => ?_) fun _ _ h => h)
  · refine obeys_bind.mpr ((failed_obeys kernelUp_known hs).mono (fun r s hr => ?_) fun _ _ h => h)
    exact ⟨⟨hl.1, hr.1.trans hl.2⟩, hr.2⟩
  · obtain ⟨l, raised⟩ := tried
    rcases raised with _ | ⟨text⟩ | _
    · exact obeys_bind.mpr
        ((releaseKernel_up htried.1 htried.2).mono (fun r s hr => hr) lost_of_idle)
    · refine obeys_bind.mpr
        ((releaseKernel_up htried.1 htried.2).mono (fun r s hr => ?_) lost_of_idle)
      exact hr.2.lost
    · refine obeys_bind.mpr ((releaseKernel_ended htried.1 s htried.2).mono (fun r s hr => ?_) ?_)
      · exact hr.lost
      · exact fun e s => lost_of_ends fun _ h => h.lost

/-! ## A runtime of the daemon -/

lemma createRuntime_obeys {spec : BenchmarkRuntime} {name key : String} (hs : Idle failed s) :
    (createRuntime spec name key).Obeys benchmarkRuns (fun _ => Up failed (.runtime name) false)
      (Ends [] (Idle failed)) s := by
  rw [createRuntime]
  by_cases htype : spec.type = "jail"
  · rw [if_pos htype]
    exact obeys_op_of (idle_permits_launch rfl hs) hs.known (fun _ _ => hs.up _) fun _ => hs
  · rw [if_neg htype]
    exact obeys_op_of (idle_permits_launch rfl hs) hs.known (fun _ _ => hs.up _) fun _ => hs

/-- The runtime is up and in the set, or it was not reported. -/
def Reported (failed : ℕ) (name : String) (s : BenchmarkState) : Prop :=
  Up failed (.runtime name) true s ∨ Idle failed s

variable {name key : String} {spec : BenchmarkRuntime}

lemma Reported.known : ∀ s, Reported failed name s → Known [] s := by
  rintro s (h | h)
  · exact h.known.none
  · exact h.known

/-- The body of the `try`. -/
lemma runtimeSteps_obeys {result : IterationResult} {R : Raised → BenchmarkState → Prop}
    (hl : result.label = label) (hs : Idle failed s) :
    (steps
      [createRuntimeStep spec name key,
       fun r => do
        step (.track (.runtime name))
        return r,
       fun r => do
        config.log
        return r] result).Obeys benchmarkRuns
      (Tried [] (Reported failed name) fun r => r.label = label) R s := by
  refine obeys_steps_cons.mpr (Obeys.mono
    (Q := fun (r : IterationResult) s => r.label = label ∧ Up failed (.runtime name) false s)
    (R := Ends [] (Idle failed)) ?_ (fun r s hr => ?_) fun e s he => ?_)
  · refine perfCounter_then hs.known fun start => obeys_bind.mpr ?_
    refine (createRuntime_obeys hs).mono (fun _ s hs => ?_) fun _ _ h => h
    exact perfCounter_then hs.known.none fun stop => ⟨hl, hs⟩
  · refine obeys_steps_cons.mpr (Obeys.mono
      (Q := fun (r : IterationResult) s => r.label = label ∧ Reported failed name s)
      (R := Ends [] fun _ => False) ?_ (fun r s hr => calm_steps ?_ hr.1 hr.2) fun e s he => ?_)
    · exact obeys_bind.mpr (obeys_op_of hr.2.permits_track hr.2.known.none
        (fun _ _ => ⟨hr.1, .inl hr.2.track⟩) fun h => absurd h Bool.false_ne_true)
    · simp only [List.forall_mem_cons, List.not_mem_nil, false_imp_iff, implies_true, and_true]
      intro r s hr hs
      exact (calm_log Reported.known).then hs fun _ s hs => ⟨hr, hs⟩
    · cases e with
      | exit => exact ⟨hr.1, he⟩
      | exception text => exact he.elim
  · cases e with
    | exit => exact ⟨hl, he⟩
    | exception text => exact ⟨hl, .inr he⟩

/-- The `finally` block: what is in the set is deleted. -/
lemma releaseRuntime_obeys {result : IterationResult} {t0 : ℚ} (hs : Reported failed name s) :
    (config.releaseRuntime name t0 result).Obeys benchmarkRuns
      (fun r s => r.label = result.label ∧ Idle (failed + failures [r]) s)
      (Ends [] (Idle (failed + 1))) s := by
  refine obeys_bind.mpr (obeys_op_of (fun h => absurd h Bool.false_ne_true) (Reported.known s hs)
    (fun tracked htracked => ?_) fun h => absurd h Bool.false_ne_true)
  have hactive : tracked = decide (Launched.runtime name ∈ s.active) := htracked
  rcases hs with hs | hs
  · have htrue : tracked = true := by
      rw [hactive, hs.active]
      simp
    rw [if_pos htrue]
    exact deleteLaunched_up hs
  · have hfalse : tracked ≠ true := by
      rw [hactive, hs.active]
      simp
    rw [if_neg hfalse]
    exact ⟨rfl, hs.mono (Nat.le_add_right _ _)⟩

lemma releaseRuntime_ended {result : IterationResult} {t0 : ℚ} (hs : Ended [] s) :
    (config.releaseRuntime name t0 result).Obeys benchmarkRuns (fun _ s => s.Lost)
    (fun _ s => s.Lost) s := by
  refine obeys_bind.mpr (Obeys.mono (R := Ends [] fun s => s.Lost)
    (obeys_op_of (fun h => absurd h Bool.false_ne_true) hs.known (fun tracked htracked => ?_)
      fun h => absurd h Bool.false_ne_true) (fun _ _ h => h) fun e s => lost_of_ends fun _ h => h)
  have hactive : tracked = decide (Launched.runtime name ∈ s.active) := htracked
  by_cases htrue : tracked = true
  · have hmem : Launched.runtime name ∈ s.active := by
      rw [htrue] at hactive
      exact of_decide_eq_true hactive.symm
    have hended : Ended [.runtime name] s := by
      refine ⟨hs.lost, hs.signalled, fun l hl => ?_, hs.known.active, hs.known.outstanding⟩
      obtain rfl := List.mem_singleton.mp hl
      exact hs.known.active _ hmem
    rw [if_pos htrue]
    exact (deleteLaunched_ended (List.mem_singleton_self _) s hended).mono (fun _ _ h => h.lost)
      fun e s => lost_of_ends fun _ h => h.lost
  · rw [if_neg htrue]
    exact hs.lost

lemma calm_getSshKey {known : Option String} (hA : ∀ s, A s → Known mine s) :
    Calm mine A (getSshKey known) := by
  cases known with
  | some key => exact .pure
  | none => exact (calm_step hA rfl).bind fun _ => (calm_step hA rfl).bind fun _ => .pure

/-- **One runtime of the daemon**: whatever happens, its deletion has been tried at the end, or a
signal has found it untracked. -/
theorem benchmarkDaemonRuntime_obeys {i : ℕ} {w : Bool} {known : Option String}
    (hs : Idle failed s) :
    (config.benchmarkDaemonRuntime key spec i w known).Obeys benchmarkRuns
      (fun r s => r.1.label = (key, .daemon, i + 1, w) ∧ Idle (failed + failures [r.1]) s)
      (fun _ s => s.Lost) s := by
  have hA : ∀ s, Idle failed s → Known [] s := fun _ h => h.known
  rw [benchmarkDaemonRuntime]
  refine obeys_bind.mpr ((calm_log hA s hs).mono (fun _ s hs => ?_) lost_of_idle)
  refine obeys_bind.mpr ((calm_step hA rfl s hs).mono (fun now s hs => ?_) lost_of_idle)
  refine obeys_bind.mpr ((calm_getSshKey hA s hs).mono (fun sshKey s hs => ?_) lost_of_idle)
  refine obeys_bind.mpr ((calm_step hA rfl s hs).mono (fun t0 s hs => ?_) lost_of_idle)
  refine obeys_bind.mpr ((runtimeSteps_obeys (R := fun _ s => s.Lost)
    (show IterationResult.label _ = (key, .daemon, i + 1, w) from rfl) hs).mono
    (fun tried s htried => ?_) fun _ _ h => h)
  refine obeys_bind.mpr
    ((recover_tried (R := fun _ s => s.Lost) (fun text r s hr hs => ?_) htried).mono
    (fun tried s htried => ?_) fun _ _ h => h)
  · exact (failed_obeys Reported.known hs).mono (fun r' s hr' => ⟨hr'.1.trans hr, hr'.2⟩)
      fun _ _ h => h
  · obtain ⟨r, raised⟩ := tried
    rcases raised with _ | ⟨text⟩ | _
    · exact obeys_bind.mpr ((releaseRuntime_obeys htried.2).mono
        (fun r s hr => ⟨hr.1.trans htried.1, hr.2⟩) lost_of_idle)
    · exact obeys_bind.mpr
        ((releaseRuntime_obeys htried.2).mono (fun r s hr => hr.2.lost) lost_of_idle)
    · exact obeys_bind.mpr ((releaseRuntime_ended htried.2).mono (fun r s hr => hr) fun _ _ h => h)

/-! ## A run -/

/-- The results so far: each deletion that has failed is in a result that is no success. -/
def Done (done : List (String × ResultMode × ℕ × Bool)) (r : Runner) (s : BenchmarkState) : Prop :=
  r.results.map IterationResult.label = done ∧ Idle (failures r.results) s

variable {done : List (String × ResultMode × ℕ × Bool)} {r : Runner}

lemma failures_concat (results : List IterationResult) (result : IterationResult) :
    failures (results ++ [result]) = failures results + failures [result] :=
  List.countP_append

lemma runJupyter_obeys {i : ℕ} {selected : String × BenchmarkRuntime} (h : Done done r s) :
    (config.runJupyter i selected r).Obeys benchmarkRuns
      (Done (done ++ if config.usesJupyter then
        [(selected.1, .jupyter, i + 1, decide (i < config.warmup))] else []))
      (fun _ s => s.Lost) s := by
  rw [runJupyter]
  by_cases hmode : config.usesJupyter = true
  · rw [if_pos hmode, if_pos hmode]
    refine obeys_bind.mpr ((benchmarkJupyterRuntime_obeys h.2).mono (fun result s hr => ?_)
      fun _ _ h => h)
    refine ⟨?_, ?_⟩
    · rw [List.map_append, h.1, List.map_singleton, hr.1]
    · rw [failures_concat]
      exact hr.2
  · rw [if_neg hmode, if_neg hmode, List.append_nil]
    exact h

lemma runDaemon_obeys {i : ℕ} {selected : String × BenchmarkRuntime} (h : Done done r s) :
    (config.runDaemon i selected r).Obeys benchmarkRuns
      (Done (done ++ if config.usesDaemon then
        [(selected.1, .daemon, i + 1, decide (i < config.warmup))] else []))
      (fun _ s => s.Lost) s := by
  rw [runDaemon]
  by_cases hmode : config.usesDaemon = true
  · rw [if_pos hmode, if_pos hmode]
    refine obeys_bind.mpr ((benchmarkDaemonRuntime_obeys h.2).mono (fun result s hr => ?_)
      fun _ _ h => h)
    refine ⟨?_, ?_⟩
    · rw [List.map_append, h.1, List.map_singleton, hr.1]
    · rw [failures_concat]
      exact hr.2
  · rw [if_neg hmode, if_neg hmode, List.append_nil]
    exact h

lemma runRuntime_obeys {i : ℕ} (selected : String × BenchmarkRuntime) (h : Done done r s) :
    (config.runRuntime i r selected).Obeys benchmarkRuns (Done (done ++ config.labels i selected.1))
      (fun _ s => s.Lost) s := by
  rw [runRuntime]
  refine obeys_bind.mpr ((runJupyter_obeys h).mono (fun r s h => ?_) fun _ _ h => h)
  rw [labels, ← List.append_assoc]
  exact runDaemon_obeys h

/-- The runtimes of an iteration: no signal has come where the flag is read. -/
lemma runRuntimes_obeys {i : ℕ} (others : List (String × BenchmarkRuntime)) (h : Done done r s) :
    (config.runRuntimes i others r).Obeys benchmarkRuns
      (Done (done ++ others.flatMap fun selected => config.labels i selected.1))
      (fun _ s => s.Lost) s := by
  induction others generalizing done r s with
  | nil =>
      rw [runRuntimes, List.flatMap_nil, List.append_nil]
      exact h
  | cons selected others ih =>
      rw [runRuntimes, List.flatMap_cons, ← List.append_assoc]
      refine obeys_bind.mpr (Obeys.mono (R := Ends [] (Idle (failures r.results)))
        (obeys_op_of (fun h => absurd h Bool.false_ne_true) h.2.known (fun flag hflag => ?_)
          fun h => absurd h Bool.false_ne_true) (fun _ _ h => h) lost_of_idle)
      have hfalse : flag = false := Eq.trans hflag h.2.signalled
      rw [hfalse, if_neg Bool.false_ne_true]
      exact obeys_bind.mpr ((runRuntime_obeys selected h).mono (fun r s h => ih h) fun _ _ h => h)

/-- All iterations. -/
lemma runIterations_obeys (config : BenchmarkConfig) (is : List ℕ) (h : Done done r s) :
    (is.foldlM config.runIteration r).Obeys benchmarkRuns
      (Done (done ++ is.flatMap fun i =>
        config.selectedRuntimes.flatMap fun selected => config.labels i selected.1))
      (fun _ s => s.Lost) s := by
  induction is generalizing done r s with
  | nil => simpa using h
  | cons i is ih =>
      rw [List.foldlM_cons, List.flatMap_cons, ← List.append_assoc]
      exact obeys_bind.mpr ((runRuntimes_obeys config.selectedRuntimes h).mono (fun r s h => ih h)
        fun _ _ h => h)

/-- A service that does not answer ends the run with nothing up, or a signal does. -/
lemma preflight_obeys {ping : BenchOp} {only : Bool} (hping : ping.isQuiet = true)
    (hs : Idle failed s) :
    (config.preflight ping only).Obeys benchmarkRuns (fun _ => Idle failed)
    (fun _ s => s.Lost) s := by
  have hA : ∀ s, Idle failed s → Known [] s := fun _ h => h.known
  rw [preflight]
  refine obeys_bind.mpr (Obeys.mono (Q := Tried [] (Idle failed) fun _ => True)
    (R := fun _ s => s.Lost) (calm_steps ?_ trivial hs) (fun tried s htried => ?_) fun _ _ h => h)
  · simp only [List.forall_mem_cons, List.not_mem_nil, false_imp_iff, implies_true, and_true]
    refine ⟨fun _ s _ hs => ?_, fun _ s _ hs => ?_⟩
    · exact (calm_step hA hping).then hs fun _ s hs => ⟨trivial, hs⟩
    · exact (calm_log hA s hs).mono (fun _ _ h => ⟨trivial, h⟩) fun _ _ h => h
  · refine obeys_bind.mpr (Obeys.mono (Q := Tried [] (Idle failed) fun _ => True)
      (R := fun _ s => s.Lost) (recover_tried (fun text _ s _ hs => ?_) htried)
      (fun tried s htried => ?_) fun _ _ h => h)
    · refine (calm_log hA).then hs fun _ s hs => ?_
      by_cases honly : only = true
      · rw [if_pos honly]
        exact hs
      · rw [if_neg honly]
        exact ⟨trivial, hs⟩
    · exact (reraise_tried htried).mono (fun _ _ h => h.2) lost_of_idle

/-- A run that returns has worked off its schedule. -/
lemma run_obeys (config : BenchmarkConfig) :
    config.run.Obeys benchmarkRuns
      (fun results s => results.map IterationResult.label = config.schedule
        ∧ Idle (failures results) s)
      (fun _ s => s.Lost) {} := by
  have hA : ∀ s, Idle 0 s → Known [] s := fun _ h => h.known
  have hstart : Idle 0 {} := ⟨rfl, rfl, rfl, rfl, rfl, le_refl _⟩
  have hjupyter : ∀ s, Idle 0 s →
      config.pingJupyter.Obeys benchmarkRuns (fun _ => Idle 0) (fun _ s => s.Lost) s := by
    intro s hs
    rw [pingJupyter]
    by_cases hmode : config.usesJupyter = true
    · rw [if_pos hmode]
      exact preflight_obeys rfl hs
    · rw [if_neg hmode]
      exact hs
  have hdaemon : ∀ s, Idle 0 s →
      config.pingDaemon.Obeys benchmarkRuns (fun _ => Idle 0) (fun _ s => s.Lost) s := by
    intro s hs
    rw [pingDaemon]
    by_cases hmode : config.usesDaemon = true
    · rw [if_pos hmode]
      exact preflight_obeys rfl hs
    · rw [if_neg hmode]
      exact hs
  rw [BenchmarkConfig.run]
  refine obeys_bind.mpr ((hjupyter _ hstart).mono (fun _ s hs => ?_) fun _ _ h => h)
  refine obeys_bind.mpr ((hdaemon s hs).mono (fun _ s hs => ?_) fun _ _ h => h)
  refine obeys_bind.mpr ((calm_log hA s hs).mono (fun _ s hs => ?_) lost_of_idle)
  have hnone : Done [] {} s := ⟨rfl, hs⟩
  have hloop := runIterations_obeys config (List.range (config.iterations + config.warmup)) hnone
  refine obeys_bind.mpr (hloop.mono (fun r s hr => ?_) fun _ _ h => h)
  have hcleanup : (cleanupTempSshKey r.sshPublicKey).Obeys benchmarkRuns
      (fun _ => Idle (failures r.results)) (Ends [] (Idle (failures r.results))) s := by
    rw [cleanupTempSshKey]
    by_cases hkey : r.sshPublicKey.isSome = true
    · rw [if_pos hkey]
      exact suppressed_obeys (calm_step (fun _ h => Idle.known h) rfl) hr.2
    · rw [if_neg hkey]
      exact hr.2
  refine obeys_bind.mpr (hcleanup.mono (fun _ s hs => ⟨?_, hs⟩) lost_of_idle)
  exact hr.1

end BenchmarkRunner

end FreebsdLaboratory
