import FreebsdLaboratory.Library.HalfEven
import FreebsdLaboratory.Library.Json
import FreebsdLaboratory.Library.Program
import FreebsdLaboratory.Library.Text

/-!
# The benchmark runner

`BenchmarkRunner` of `benchmark.py` as a program: every call it makes is one operation, and so is
every place where a signal can be delivered and make a difference.  An operation is answered by its
value or by what it raises; `SystemExit` is what the signal handler raises after it has cleaned up.
The handler prints before it does, to `stderr`, and that is taken to work.
-/

namespace FreebsdLaboratory

open Library Library.Unicode Library.Json

/-! ## Configuration -/

/-- A runtime to benchmark, as far as the runner reads it. -/
structure BenchmarkRuntime where
  name : String
  displayName : String
  type : String
  profile : Option String

/-- `RUNTIME_PRESETS` -/
def RUNTIME_PRESETS : List (String × BenchmarkRuntime) :=
  [("jail",
    { name := "freebsd-python"
      displayName := "FreeBSD VNET Jail"
      type := "jail"
      profile := none }),
   ("freebsd-bhyve",
    { name := "freebsd-python-bhyve"
      displayName := "FreeBSD bhyve VM"
      type := "bhyve"
      profile := some "freebsd-python" }),
   ("linux-bhyve",
    { name := "linux-python-bhyve"
      displayName := "Linux bhyve VM"
      type := "bhyve"
      profile := some "linux-python" })]

/-- `mode` -/
inductive BenchmarkMode where
  | jupyter
  | daemon
  | both
  deriving DecidableEq

/-- `BenchmarkConfig`, as far as the runner reads it.  `lower` is `str.lower`. -/
structure BenchmarkConfig where
  mode : BenchmarkMode := .jupyter
  runtimes : List String := ["jail", "freebsd-bhyve", "linux-bhyve"]
  iterations : ℕ := 3
  warmup : ℕ := 0
  verbose : Bool := false
  quiet : Bool := false
  lower : String → String

/-- The runtime for one name of the configuration: a preset, or a kernelspec of that name. -/
def selectRuntime (clean : String) : BenchmarkRuntime :=
  (RUNTIME_PRESETS.lookup clean).getD
    { name := clean
      displayName := clean
      type := if Text.contains "jail" clean then "jail" else "bhyve"
      profile := some (if Text.contains "freebsd" clean then "freebsd-python" else "linux-python") }

/-- `selected_runtimes`, with the keys. -/
def BenchmarkConfig.selectedRuntimes (config : BenchmarkConfig) :
    List (String × BenchmarkRuntime) :=
  config.runtimes.map fun name =>
    let clean := config.lower (Text.strip name)
    (clean, selectRuntime clean)

/-! ## Results -/

/-- `IterationResult.mode` -/
inductive ResultMode where
  | jupyter
  | daemon
  deriving DecidableEq

/-- `IterationResult` -/
structure IterationResult where
  runtimeAlias : String
  runtimeDisplay : String
  iteration : ℕ
  isWarmup : Bool
  mode : ResultMode
  createSec : ℚ := 0
  wsConnectSec : ℚ := 0
  firstExecSec : ℚ := 0
  spinupSec : ℚ := 0
  warmExecSec : ℚ := 0
  destroySec : ℚ := 0
  lifecycleSec : ℚ := 0
  success : Bool := true
  error : Option String := none
  kernelId : Option String := none
  guestMetadata : Value := .dict []

/-! ## Operations -/

/-- What travels up the stack: an exception by its text, or the `SystemExit` of the signal
handler. -/
inductive Raised where
  | exception (text : String)
  | exit

/-- A runtime that a call has reported: a kernel by its id, or a runtime of the daemon by its
name. -/
inductive Launched where
  | kernel (id : String)
  | runtime (name : String)
  deriving DecidableEq

inductive BenchOp where
  | perfCounter
  | time
  | print
  | pingJupyter
  | pingDaemon
  | createKernel (name : String)
  | connectWebsocket (kernelId : Option String)
  | executeCode (code : String)
  | closeWebsocket
  | createJail (name sshPublicKey : String)
  | createBhyve (name sshPublicKey profile : String)
  /-- `delete_kernel` or `destroy`. -/
  | delete (launched : Launched)
  /-- `add` on one of the two sets of active runtimes. -/
  | track (launched : Launched)
  /-- `discard`. -/
  | untrack (launched : Launched)
  /-- `in`. -/
  | isTracked (launched : Launched)
  /-- `_interrupted`. -/
  | isInterrupted
  /-- `json.loads`, as far as it raises anything but `JSONDecodeError`. -/
  | parseProbe
  | keygen
  | readKey
  | removeKey

/-- What an operation returns.  For a kernel it is the id in the reply, where there is one that is
not empty; for code that was executed it is what was printed. -/
@[reducible] def BenchOp.Answer : BenchOp → Type
  | perfCounter | time => ℚ
  | createKernel _ => Option String
  | executeCode _ | readKey => String
  | isTracked _ | isInterrupted => Bool
  | _ => Unit

/-- An operation returns or raises. -/
abbrev BenchOp.Resp (o : BenchOp) : Type := Except Raised o.Answer

abbrev Bench (α : Type) := Prog BenchOp.Resp Raised α

namespace Bench

/-- One operation. -/
def step (o : BenchOp) : Bench o.Answer := do
  let r ← Prog.op BenchOp.Resp Raised o
  Prog.ofExcept r

/-- `time.perf_counter()` -/
def perfCounter : Bench ℚ := step BenchOp.perfCounter

/-- `launched in active` -/
def isTracked (launched : Launched) : Bench Bool := step (BenchOp.isTracked launched)

/-- How a program ends. -/
def caught {α : Type} (p : Bench α) : Bench (Except Raised α) :=
  Prog.tryCatch (do return .ok (← p)) fun e => return .error e

/-- The body of a `try`, statement by statement: the variables as they are where it ends, and what
it has raised. -/
def steps {σ : Type} : List (σ → Bench σ) → σ → Bench (σ × Option Raised)
  | [], s => return (s, none)
  | p :: ps, s => do
      match ← caught (p s) with
      | .ok s' => steps ps s'
      | .error e => return (s, some e)

/-- `except Exception as error`. -/
def recover {σ : Type} (handler : σ → String → Bench σ) (tried : σ × Option Raised) :
    Bench (σ × Option Raised) :=
  match tried.2 with
  | some (.exception text) => steps [fun s => handler s text] tried.1
  | _ => return tried

/-- What a `try` statement comes to. -/
def reraise {σ : Type} (tried : σ × Option Raised) : Bench σ :=
  match tried.2 with
  | none => return tried.1
  | some e => Prog.raise e

end Bench

open Bench

namespace BenchmarkConfig

variable (config : BenchmarkConfig)

/-- `_log` -/
def log : Bench Unit :=
  if config.quiet then return () else step .print

/-- `_log_verbose` -/
def logVerbose : Bench Unit :=
  if config.verbose && !config.quiet then step .print else return ()

/-- The part of the `finally` blocks that deletes what was launched. -/
def deleteLaunched (launched : Launched) (t0 : ℚ) (result : IterationResult) :
    Bench IterationResult := do
  let start ← perfCounter
  let tried ← steps
    [fun r => do
      step (.delete launched)
      let stop ← perfCounter
      return { r with destroySec := roundPlaces 4 (stop - start) },
     fun r => do
      let now ← perfCounter
      return { r with lifecycleSec := roundPlaces 4 (now - t0) },
     fun r => do
      config.log
      return r] result
  let tried ← recover
    (fun r text => do
      config.log
      return if r.success
        then { r with success := false, error := some ("Destroy error: " ++ text) }
        else r) tried
  step (.untrack launched)
  reraise tried

/-- `except Exception as error` around a launch. -/
def failed (result : IterationResult) (text : String) : Bench IterationResult := do
  config.log
  return { result with success := false, error := some text }

end BenchmarkConfig

/-! ## A kernel of Jupyter -/

/-- The code of the first execution. -/
def probeCode : String :=
  "import json, sys, os, platform\n"
    ++ "info = \x7b'platform': sys.platform, 'nodename': os.uname().nodename, "
    ++ "'system': platform.system(), 'release': platform.release(), 'python': sys.version.split()[0]\x7d\n"
    ++ "print('PROBE_DATA:' + json.dumps(info))\n"

/-- What stands behind the first occurrence of `text`. -/
def afterFirst (text : List Char) : List Char → Option (List Char)
  | [] => if text = [] then some [] else none
  | c :: cs =>
      if text.isPrefixOf (c :: cs) then some ((c :: cs).drop text.length) else afterFirst text cs

/-- What stands behind `PROBE_DATA:` on the first line with it. -/
def probeData (stdout : String) : Option Str :=
  ((Text.splitLines stdout).findSome? fun line => afterFirst "PROBE_DATA:".toList line.toList).map
    fun rest => str (Text.strip (String.ofList rest))

/-- A float that is zero. -/
def isZero (literal : FloatLiteral) : Bool :=
  isFloatToken literal.1
    && (literal.1.takeWhile fun c => c ≠ 101 && c ≠ 69).all fun c => !(49 ≤ c && c ≤ 57)

/-- `bool(value)` -/
def isTruthy : Value → Bool
  | .none => false
  | .bool b => b
  | .int z => z != 0
  | .float literal => !isZero literal
  | .str s => s != []
  | .seq _ xs | .set _ xs => !xs.isEmpty
  | .dict items => !items.isEmpty
  | .object _ => true

/-- The variables of `benchmark_jupyter_runtime`. -/
structure KernelLaunch where
  result : IterationResult
  kernelId : Option String := none
  conn : Bool := false
  stdout : String := ""

namespace BenchmarkConfig

variable (config : BenchmarkConfig)

/-- `POST /api/kernels`. -/
def createStep (name : String) (l : KernelLaunch) : Bench KernelLaunch := do
  let start ← perfCounter
  let id ← step (.createKernel name)
  let stop ← perfCounter
  return { l with
    result := { l.result with createSec := roundPlaces 4 (stop - start), kernelId := id }
    kernelId := id }

def trackStep (l : KernelLaunch) : Bench KernelLaunch :=
  match l.kernelId with
  | some id => do
      step (.track (.kernel id))
      return l
  | none => return l

def connectStep (l : KernelLaunch) : Bench KernelLaunch := do
  let start ← perfCounter
  step (.connectWebsocket l.kernelId)
  let stop ← perfCounter
  return { l with
    result := { l.result with wsConnectSec := roundPlaces 4 (stop - start) }
    conn := true }

def probeStep (t0 : ℚ) (l : KernelLaunch) : Bench KernelLaunch := do
  let start ← perfCounter
  let stdout ← step (.executeCode probeCode)
  let stop ← perfCounter
  return { l with
    stdout
    result :=
      { l.result with
        firstExecSec := roundPlaces 4 (stop - start)
        spinupSec := roundPlaces 4 (stop - t0) } }

/-- The guest's data, where it is JSON; integers of too many digits and lists in too many lists
raise. -/
def parseStep (l : KernelLaunch) : Bench KernelLaunch :=
  match probeData l.stdout with
  | some text => do
      step .parseProbe
      return { l with
        result := { l.result with guestMetadata := (loads text).getD l.result.guestMetadata } }
  | none => return l

/-- The guest's data is logged, which raises unless it is a dictionary. -/
def describe (data : Value) : Bench Unit :=
  if isTruthy data then
    match data with
    | .dict _ => config.logVerbose
    | _ => Prog.raise (.exception "AttributeError")
  else return ()

def warmStep (l : KernelLaunch) : Bench KernelLaunch := do
  let start ← perfCounter
  let _ ← step (.executeCode "1 + 1")
  let stop ← perfCounter
  return { l with result := { l.result with warmExecSec := roundPlaces 4 (stop - start) } }

/-- Nothing but a log line. -/
def logged (print : Bench Unit) (l : KernelLaunch) : Bench KernelLaunch := do
  print
  return l

/-- `try: ... except Exception: pass` -/
def suppressed (p : Bench Unit) : Bench Unit := do
  let tried ← steps [fun _ => p] ()
  let handled ← recover (fun _ _ => return ()) tried
  reraise handled

def closeConnection (l : KernelLaunch) : Bench Unit :=
  if l.conn then suppressed (step .closeWebsocket) else return ()

/-- The `finally` block. -/
def releaseKernel (t0 : ℚ) (l : KernelLaunch) : Bench IterationResult := do
  closeConnection l
  match l.kernelId with
  | some id => config.deleteLaunched (.kernel id) t0 l.result
  | none => return l.result

/-- `benchmark_jupyter_runtime` -/
def benchmarkJupyterRuntime (runtimeKey : String) (spec : BenchmarkRuntime) (iteration : ℕ)
    (isWarmup : Bool) : Bench IterationResult := do
  config.log
  let result : IterationResult :=
    { runtimeAlias := runtimeKey
      runtimeDisplay := spec.displayName
      iteration := iteration + 1
      isWarmup
      mode := .jupyter }
  let t0 ← perfCounter
  let tried ← steps
    [createStep spec.name, trackStep, logged config.logVerbose, connectStep,
      logged config.logVerbose, probeStep t0, parseStep, logged config.log,
      fun l => logged (config.describe l.result.guestMetadata) l, warmStep,
      logged config.logVerbose]
    { result }
  let tried ← recover (fun l text => do return { l with result := ← config.failed l.result text })
    tried
  let result ← config.releaseKernel t0 tried.1
  reraise (result, tried.2)

/-! ## A runtime of the daemon -/

/-- Eight digits. -/
def eightDigits (n : ℕ) : String :=
  let digits := toString n
  String.ofList (List.replicate (8 - digits.length) '0') ++ digits

/-- The name of a runtime, by the clock. -/
def benchmarkName (now : ℚ) : String :=
  "freebsd-lab-b" ++ eightDigits (⌊now * 1000⌋ % 100000000).toNat

/-- `_get_ssh_key` -/
def getSshKey (known : Option String) : Bench String :=
  match known with
  | some key => return key
  | none => do
      step .keygen
      let text : String ← step .readKey
      return Text.strip text

/-- The call of the daemon. -/
def createRuntime (spec : BenchmarkRuntime) (name key : String) : Bench Unit :=
  if spec.type = "jail" then step (.createJail name key)
  else
    step (.createBhyve name key
      (match spec.profile with
      | some profile => if profile = "" then "freebsd-python" else profile
      | none => "freebsd-python"))

def createRuntimeStep (spec : BenchmarkRuntime) (name key : String) (result : IterationResult) :
    Bench IterationResult := do
  let start ← perfCounter
  createRuntime spec name key
  let stop ← perfCounter
  return { result with
    createSec := roundPlaces 4 (stop - start)
    spinupSec := roundPlaces 4 (stop - start) }

/-- The `finally` block. -/
def releaseRuntime (name : String) (t0 : ℚ) (result : IterationResult) : Bench IterationResult := do
  if ← isTracked (.runtime name) then config.deleteLaunched (.runtime name) t0 result
  else return result

/-- `benchmark_daemon_runtime`, with the key that is left for the next one. -/
def benchmarkDaemonRuntime (runtimeKey : String) (spec : BenchmarkRuntime) (iteration : ℕ)
    (isWarmup : Bool) (known : Option String) : Bench (IterationResult × String) := do
  config.log
  let result : IterationResult :=
    { runtimeAlias := runtimeKey
      runtimeDisplay := spec.displayName ++ " (Daemon)"
      iteration := iteration + 1
      isWarmup
      mode := .daemon }
  let now : ℚ ← step .time
  let name := benchmarkName now
  let key ← getSshKey known
  let t0 ← perfCounter
  let tried ← steps
    [createRuntimeStep spec name key,
     fun r => do
      step (.track (.runtime name))
      return r,
     fun r => do
      config.log
      return r] result
  let tried ← recover config.failed tried
  let result ← config.releaseRuntime name t0 tried.1
  let result ← reraise (result, tried.2)
  return (result, key)

/-! ## The run -/

/-- `results` and `_ssh_public_key` -/
structure Runner where
  results : List IterationResult := []
  sshPublicKey : Option String := none

/-- Whether a service answers: a failure is fatal where it is the only one that is asked for. -/
def preflight (ping : BenchOp) (only : Bool) : Bench Unit := do
  let answered ← steps
    [fun _ => do
      let _ ← step ping
      return (),
     fun _ => config.log] ()
  let handled ← recover
    (fun _ text => do
      config.log
      if only then Prog.raise (.exception text) else pure ()) answered
  reraise handled

/-- `if self.config.mode in ("jupyter", "both")` -/
def usesJupyter : Bool := config.mode = .jupyter ∨ config.mode = .both

/-- `if self.config.mode in ("daemon", "both")` -/
def usesDaemon : Bool := config.mode = .daemon ∨ config.mode = .both

def runJupyter (i : ℕ) (selected : String × BenchmarkRuntime) (r : Runner) : Bench Runner :=
  if config.usesJupyter then do
    let result ← config.benchmarkJupyterRuntime selected.1 selected.2 i (i < config.warmup)
    return { r with results := r.results ++ [result] }
  else return r

def runDaemon (i : ℕ) (selected : String × BenchmarkRuntime) (r : Runner) : Bench Runner :=
  if config.usesDaemon then do
    let (result, key) ←
      config.benchmarkDaemonRuntime selected.1 selected.2 i (i < config.warmup) r.sshPublicKey
    return { results := r.results ++ [result], sshPublicKey := some key }
  else return r

/-- One runtime in one iteration. -/
def runRuntime (i : ℕ) (r : Runner) (selected : String × BenchmarkRuntime) : Bench Runner := do
  let r ← config.runJupyter i selected r
  config.runDaemon i selected r

/-- The runtimes of an iteration, up to where the run is interrupted. -/
def runRuntimes (i : ℕ) : List (String × BenchmarkRuntime) → Runner → Bench Runner
  | [], r => return r
  | selected :: others, r => do
      if ← step .isInterrupted then return r
      let r ← config.runRuntime i r selected
      runRuntimes i others r

/-- One iteration. -/
def runIteration (r : Runner) (i : ℕ) : Bench Runner :=
  config.runRuntimes i config.selectedRuntimes r

/-- `_cleanup_temp_ssh_key` -/
def cleanupTempSshKey (known : Option String) : Bench Unit :=
  if known.isSome then suppressed (step .removeKey) else return ()

def pingJupyter : Bench Unit :=
  if config.usesJupyter then config.preflight .pingJupyter (config.mode = .jupyter) else return ()

def pingDaemon : Bench Unit :=
  if config.usesDaemon then config.preflight .pingDaemon (config.mode = .daemon) else return ()

/-- `run` -/
def run : Bench (List IterationResult) := do
  config.pingJupyter
  config.pingDaemon
  config.log
  let r ← (List.range (config.iterations + config.warmup)).foldlM config.runIteration {}
  cleanupTempSshKey r.sshPublicKey
  return r.results

end BenchmarkConfig

end FreebsdLaboratory
