import FreebsdLaboratory.Library.Interleaving
import FreebsdLaboratory.Model.Host

/-!
# Atomic operations of the daemon

`Op` lists the steps at which a thread of the daemon touches anything another thread, a later
request or the host can see: locks, the two caching flags, registry files, the lease directory,
external commands, process probes and the key files.  `World` is what they act on, and `exec` is one
step: `none` means that the thread has to wait for a lock.

`Answer` is the environment's part of a step; its default is the step going well.  The two kinds of
lock are `threading.RLock` for the shared lock and `threading.Lock` for the lock of a runtime;
`reentrant` makes the latter re-enterable by the thread that holds it, which the source's are not.
-/

namespace FreebsdLaboratory

open Library

/-- `_shared_lock`, or an entry of `_runtime_locks`. -/
inductive LockId where
  | shared
  | runtime (name : String)
  deriving DecidableEq

/-- `_bridge_configured` and `_vm_switch_configured`. -/
inductive Flag where
  | bridgeConfigured
  | vmSwitchConfigured
  deriving DecidableEq

/-- Writes to key files and their directories. -/
inductive FileEffect where
  | writeRuntimePublicKey (name : String)
  | unlink (path : String)
  | mkdir (path : String)
  | chmod (path : String)
  | chown (path : String) (uid gid : ℤ)
  | writeText (path content : String)
  deriving DecidableEq

/-- Questions to the file system. -/
inductive FileQuery where
  | isSymlink (path : String)
  | isFile (path : String)
  | exists (path : String)
  deriving DecidableEq

inductive Op where
  /-- `_runtime_lock(name)`: makes the entry of the table. -/
  | runtimeLock (name : String)
  | acquire (lock : LockId)
  | release (lock : LockId)
  | readFlag (flag : Flag)
  | setFlag (flag : Flag)
  | loadRegistry (name : String)
  /-- The stems of `registry_dir.glob("freebsd-lab-*.json")`, sorted. -/
  | registryNames
  | writeRegistry (record : RuntimeRecord)
  | deleteRegistry (name : String)
  | leaseAllocate (owner : String)
  | leaseRelease (address owner : String)
  | leaseClearOrphans (active : List String)
  | run (command : Command)
  /-- `_vm_available()`. -/
  | vmAvailable
  /-- `os.kill(pid, 0)`. -/
  | kill (pid : ℤ)
  /-- `/bin/ps -o uid= -o lstart= -p <pid>`. -/
  | ps (pid : ℤ)
  | resolve (path : String)
  | ask (question : FileQuery)
  | file (effect : FileEffect)
  deriving DecidableEq

@[reducible] def Op.Resp : Op → Type
  | .runtimeLock _ | .acquire _ | .release _ | .setFlag _ => Unit
  | .readFlag _ | .vmAvailable => Bool
  | .loadRegistry _ => Except PyError (Option RuntimeRecord)
  | .registryNames => List String
  | .writeRegistry _ | .deleteRegistry _ | .file _ => Except PyError Unit
  | .leaseAllocate _ => Except PyError IPv4Address
  | .leaseRelease _ _ => Except PyError Bool
  | .leaseClearOrphans _ => Except PyError (List String)
  | .run _ | .ps _ => RunOutcome
  | .kill _ => Except PyError Bool
  | .resolve _ => Except PyError String
  | .ask _ => Bool

/-- The environment's part of a step. -/
structure Answer where
  /-- How a command ends. -/
  exit : Exit := .truthful
  /-- The number the kernel prefers for a new unit. -/
  unit : ℕ := 0
  /-- A file operation raises `OSError`. -/
  fails : Bool := false
  /-- It does so after its effect. -/
  effect : Bool := false
  /-- Lease files that cannot be opened. -/
  unreadable : List String := []
  /-- Lease files that cannot be removed. -/
  stuck : List String := []
  /-- The answer to a question. -/
  yes : Bool := false
  /-- A resolved path. -/
  path : String := ""
  deriving DecidableEq

/-- What a registry file holds: a record, or something `_load_registry` raises on. -/
inductive RegistryFile where
  | record (r : RuntimeRecord)
  | invalid (error : PyError)
  deriving DecidableEq

abbrev Registry := AList fun _ : String => RegistryFile

/-- The record of a name, if the registry has a readable one. -/
def Registry.get? (registry : Registry) (name : String) : Option RuntimeRecord :=
  match registry.lookup name with
  | some (.record r) => some r
  | _ => none

structure World where
  registry : Registry := ∅
  leases : LeaseDir := ∅
  host : Host := {}
  /-- The processes that are alive. -/
  processes : List Process := []
  /-- The processes that are not any more. -/
  departed : List Process := []
  /-- The names in `_runtime_locks`. -/
  runtimeLocks : List String := []
  /-- The thread that holds a lock, and how often. -/
  held : LockId → Option (ℕ × ℕ) := fun _ => none
  bridgeConfigured : Bool := false
  vmSwitchConfigured : Bool := false

namespace World

def flag (w : World) : Flag → Bool
  | .bridgeConfigured => w.bridgeConfigured
  | .vmSwitchConfigured => w.vmSwitchConfigured

def setFlag (w : World) : Flag → World
  | .bridgeConfigured => { w with bridgeConfigured := true }
  | .vmSwitchConfigured => { w with vmSwitchConfigured := true }

/-- `_load_registry`. -/
def load (w : World) (name : String) : Except PyError (Option RuntimeRecord) :=
  match w.registry.lookup name with
  | none => .ok none
  | some (.record r) => .ok (some r)
  | some (.invalid error) => .error error

def storeRecord (w : World) (name : String) (record : RuntimeRecord) : World :=
  { w with registry := w.registry.insert name (.record record) }

def dropRecord (w : World) (name : String) : World :=
  { w with registry := w.registry.erase name }

/-- Taking a lock; `none` where the thread has to wait. -/
def acquire (reentrant : Bool) (i : ℕ) (lock : LockId) (w : World) : Option World :=
  match w.held lock with
  | none => some { w with held := Function.update w.held lock (some (i, 1)) }
  | some (j, depth) =>
      if j = i ∧ (lock = .shared ∨ reentrant = true) then
        some { w with held := Function.update w.held lock (some (i, depth + 1)) }
      else none

def release (lock : LockId) (w : World) : World :=
  match w.held lock with
  | some (i, depth + 2) => { w with held := Function.update w.held lock (some (i, depth + 1)) }
  | _ => { w with held := Function.update w.held lock none }

/-- A process with this id that is alive. -/
def processOf (w : World) (pid : ℤ) : Option Process := w.processes.find? fun p => p.pid = pid

/-- What `ps` prints for a process. -/
def psLine (p : Process) : String := toString p.uid ++ " " ++ p.started ++ "\n"

/-- `ps` as the daemon sees it.  It may fail in any way, but an output that can be read as an
identity is the process's own. -/
def ps (w : World) (pid : ℤ) (exit : Exit) : RunOutcome :=
  let truthful : RunOutcome :=
    match w.processOf pid with
    | some p => .completed 0 (psLine p)
    | none => .completed 1 ""
  match exit with
  | .truthful => truthful
  | .status 0 stdout _ =>
      if (parseProcessIdentity pid stdout).isNone then .completed 0 stdout else truthful
  | .status (n + 1) stdout _ => .completed (n + 1) stdout
  | .timeoutExpired _ => .timeoutExpired
  | .undecodable _ => .raises .unicodeDecodeError
  | .cannotExecute => .osError

/-- A file operation that may raise before or after its effect. -/
def fileStep (w : World) (a : Answer) (w' : World) : Except PyError Unit × World :=
  if a.fails then (.error .osError, if a.effect then w' else w) else (.ok (), w')

/-- `_write_registry`. -/
def writeRecord (w : World) (record : RuntimeRecord) (a : Answer) : Except PyError Unit × World :=
  match record.name with
  | .str name =>
      match validateName name with
      | .ok name => w.fileStep a (w.storeRecord name record)
      | .error e => (.error e, w)
  | _ => (.error (.valueError "Invalid FreeBSD Laboratory runtime name"), w)

/-- `allocate`.  A write that fails after the exclusive create leaves an empty file. -/
def allocate (m : RuntimeManager) (w : World) (owner : String) (a : Answer) :
    Except PyError IPv4Address × World :=
  if a.fails ∧ ¬ a.effect then (.error .osError, w)
  else
    let (result, leases) := m.pool.allocate a.unreadable w.leases owner
    match result with
    | .ok address =>
        if a.fails then
          (.error .osError,
            { w with leases := w.leases.insert (leaseName address) (.owner "") })
        else (.ok address, { w with leases := leases })
    | .error e => (.error e, w)

def releaseLease (m : RuntimeManager) (w : World) (address owner : String) (a : Answer) :
    Except PyError Bool × World :=
  if a.fails ∧ ¬ a.effect then (.error .osError, w)
  else
    let (result, leases) := m.pool.release a.unreadable a.stuck w.leases address owner
    (if a.fails then .error .osError else result, { w with leases := leases })

def clearOrphans (w : World) (active : List String) (a : Answer) :
    Except PyError (List String) × World :=
  if a.fails ∧ ¬ a.effect then (.error .osError, w)
  else
    let (result, leases) := IPv4LeasePool.clearOrphans a.unreadable a.stuck w.leases active
    (if a.fails then .error .osError else result, { w with leases := leases })

end World

/-- **One step** of thread `i`, which works for runtime `runtime`. -/
def exec (m : RuntimeManager) (reentrant : Bool) (i : ℕ) (runtime : String) (w : World) :
    (o : Op) → Answer → Option (o.Resp × World)
  | .runtimeLock name, _ => some ((), { w with runtimeLocks := w.runtimeLocks.insert name })
  | .acquire lock, _ => (w.acquire reentrant i lock).map fun w' => ((), w')
  | .release lock, _ => some ((), w.release lock)
  | .readFlag flag, _ => some (w.flag flag, w)
  | .setFlag flag, _ => some ((), w.setFlag flag)
  | .loadRegistry name, a =>
      some (if a.fails then .error (.runtimeError "Invalid runtime registry record")
        else w.load name, w)
  | .registryNames, _ =>
      some ((w.registry.keys.filter (Text.startsWith RUNTIME_PREFIX)).insertionSort (· ≤ ·), w)
  | .writeRegistry record, a => some (w.writeRecord record a)
  | .deleteRegistry name, a => some (w.fileStep a (w.dropRecord name))
  | .leaseAllocate owner, a => some (w.allocate m owner a)
  | .leaseRelease address owner, a => some (w.releaseLease m address owner a)
  | .leaseClearOrphans active, a => some (w.clearOrphans active a)
  | .run command, a =>
      let (outcome, host) := w.host.respond m runtime a.unit a.exit command
      some (outcome, { w with host := host })
  | .vmAvailable, _ => some (w.host.vmInstalled, w)
  | .kill pid, _ =>
      some (if pid ≤ maxPid then .ok (w.processOf pid).isSome else .error .overflowError, w)
  | .ps pid, a => some (w.ps pid a.exit, w)
  | .resolve _, a => some (if a.fails then .error .osError else .ok a.path, w)
  | .ask _, a => some (a.yes, w)
  | .file _, a => some (if a.fails then .error .osError else .ok (), w)

end FreebsdLaboratory
