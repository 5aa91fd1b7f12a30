import FreebsdLaboratory.Library.Interleaving
import FreebsdLaboratory.Model.Payload
import FreebsdLaboratory.Model.Runtime

/-!
# Leases of tunnel ports

`port_leases.py`: processes on one host lease local ports from each other by files in one
directory.  The name of a lease says which process holds it, and a lease is good as long as that
process lives.

Each operation on the directory, on the process table or on a socket is one atomic step; `leases`
puts the programs of all callers together with what the operations do into a machine, in which
processes start and end between any two steps.  Whether a socket can be bound, and whether an
operation on the directory fails, is chosen by the environment.
-/

namespace FreebsdLaboratory

open Library Library.Unicode Library.Json

/-! ## Operations -/

/-- `LocalPortReservation`; its sockets are those of its ports. -/
structure LocalPortReservation where
  owner : Str
  pid : ℤ
  uid : ℤ
  processDigest : Str
  ports : List ℕ
  deriving DecidableEq

inductive LeaseOp where
  /-- `query_process_identity(pid)` -/
  | identify (pid : ℤ)
  /-- Entering `_locked()`. -/
  | lock
  | unlock
  /-- `self.directory.glob(f"{port}.*.lease")` -/
  | glob (port : ℕ)
  | isSymlink (name : Str)
  /-- `_reserve_socket(port)` -/
  | bind (port : ℕ)
  | close (port : ℕ)
  /-- `path.unlink(missing_ok=True)` -/
  | unlink (name : Str)
  /-- `_write_lease(path)` -/
  | write (name : Str)
  /-- The caller gets the reservation that `allocate` has returned. -/
  | hold (r : LocalPortReservation)
  /-- The caller begins to release a reservation. -/
  | drop (r : LocalPortReservation)
  deriving DecidableEq

@[reducible] def LeaseOp.Resp : LeaseOp → Type
  | .identify _ => Except PyError (Option ProcessIdentity)
  | .glob _ => Except PyError (List Str)
  | .isSymlink _ | .bind _ => Except PyError Bool
  | .lock | .unlink _ | .write _ => Except PyError Unit
  | .unlock | .close _ | .hold _ | .drop _ => Unit

abbrev LeaseProgram (α : Type) := Prog LeaseOp.Resp PyError α

/-- An operation that raises or returns. -/
def attempt {α : Type} (p : LeaseProgram (Except PyError α)) : LeaseProgram α :=
  p >>= Prog.ofExcept

/-- `query_process_identity(pid)` -/
def identify (pid : ℤ) : LeaseProgram (Option ProcessIdentity) :=
  attempt (Prog.op LeaseOp.Resp PyError (.identify pid))

def unlink (name : Str) : LeaseProgram Unit :=
  attempt (Prog.op LeaseOp.Resp PyError (.unlink name))

/-! ## Names of leases -/

/-- `f"{n}"` of an integer. -/
def intName (z : ℤ) : Str := if z < 0 then 45 :: decimal z.natAbs else decimal z.natAbs

/-- `_owner_digest(owner)`, `none` where it raises. -/
def ownerDigest (owner : Str) : Option Str := (encode owner).map sha256Bytes

/-- `_lease_path(port, owner, pid, uid, process_digest).name`, by the digest of the owner. -/
def portLeaseName (port : ℕ) (digest : Str) (pid uid : ℤ) (processDigest : Str) : Str :=
  List.intercalate [46] [decimal port, intName pid, intName uid, processDigest, digest, str "lease"]

/-- `_lease_path(port, owner, pid, uid, process_digest).name`, `none` where it raises: a lone
surrogate has no UTF-8, and an integer no text of more than 4300 digits. -/
def leasePath (port : ℕ) (owner : Str) (pid uid : ℤ) (processDigest : Str) : Option Str :=
  if (decimal pid.natAbs).length ≤ maxIntDigits ∧ (decimal uid.natAbs).length ≤ maxIntDigits then
    (ownerDigest owner).map fun digest => portLeaseName port digest pid uid processDigest
  else none

/-- A digit of `int(text, 16)`. -/
def isHexDigit (c : Char) : Bool :=
  Text.isDigit c || 'a' ≤ c && c ≤ 'f' || 'A' ≤ c && c ≤ 'F'

/-- Digits with single underscores inside; `seen` says whether the last one was a digit. -/
def isHexRun : List Char → (seen : Bool) → Bool
  | [], seen => seen
  | c :: cs, seen => if c = '_' then seen && isHexRun cs false else isHexDigit c && isHexRun cs true

/-- Digits behind an optional `0x`, whose zero is one of any script. -/
def isUnsignedHex : List Char → Bool
  | z :: x :: c :: cs =>
      if Text.digitValue z = some 0 ∧ (x = 'x' ∨ x = 'X') then isHexRun (c :: cs) true
      else isHexRun (z :: x :: c :: cs) false
  | cs => isHexRun cs false

/-- `int(text, 16)` does not raise. -/
def isHexText (text : Str) : Bool :=
  match Text.stripNumber (text.map Char.ofNat) with
  | '-' :: cs | '+' :: cs => isUnsignedHex cs
  | cs => isUnsignedHex cs

/-- `len(digest) == 64`, and `int(digest, 16)` does not raise. -/
def isDigest (digest : Str) : Bool := digest.length = 64 && isHexText digest

/-- What `_lease_identity` reads off the name of a regular file. -/
def parseLeaseName (name : Str) (port : ℕ) : Option (ℤ × ℤ × Str) :=
  match name.splitOn 46 with
  | [first, pid, uid, processDigest, digest, last] =>
      if first = decimal port ∧ last = str "lease" then do
        let pid ← intOfText pid
        let uid ← intOfText uid
        if pid ≤ 1 ∨ uid < 0 then none
        else if isDigest processDigest && isDigest digest then some (pid, uid, processDigest)
        else none
      else none
  | _ => none

/-- The name matches `f"{port}.*.lease"`. -/
def isLeaseOf (port : ℕ) (name : Str) : Bool :=
  let first := decimal port ++ [46]
  let last := str ".lease"
  first.isPrefixOf name && last.isSuffixOf name && first.length + last.length ≤ name.length

/-! ## The pool -/

/-- `LocalPortLeasePool`, without the directory, which all callers share. -/
structure LocalPortLeasePool where
  start : ℕ
  stop : ℕ
  start_ge : 1024 ≤ start
  stop_le : stop ≤ 65535
  start_le_stop : start ≤ stop
  deriving DecidableEq

def LocalPortLeasePool.capacity (pool : LocalPortLeasePool) : ℕ := pool.stop - pool.start + 1

/-- `_lease_identity(path, port)` -/
def leaseIdentity (name : Str) (port : ℕ) : LeaseProgram (Option (ℤ × ℤ × Str)) := do
  let link ← attempt (Prog.op LeaseOp.Resp PyError (.isSymlink name))
  return if link then none else parseLeaseName name port

/-- `process_matches(pid, uid, digest)` -/
def leaseMatches (pid uid : ℤ) (digest : Str) : LeaseProgram Bool := do
  if pid ≤ 1 ∨ uid < 0 ∨ digest = [] then return false
  else
    let identity ← identify pid
    return match identity with
      | some identity => identity.uid = uid && str identity.digest = digest
      | none => false

/-- `any(…)` over the leases of a port: one of them is held by a live process. -/
def anyLive (port : ℕ) : List Str → LeaseProgram Bool
  | [] => pure false
  | name :: names => do
      match ← leaseIdentity name port with
      | some (pid, uid, digest) =>
          if ← leaseMatches pid uid digest then return true else anyLive port names
      | none => anyLive port names

/-- The digest of the owner, for names and for the first candidate. -/
def requireDigest (owner : Str) : LeaseProgram Str :=
  match ownerDigest owner with
  | some digest => pure digest
  | none => Prog.raise (.valueError "'utf-8' codec can't encode character: surrogates not allowed")

/-- One round of the loop of `allocate`: the name of the new lease, if the port can be had. -/
def takePort (owner : Str) (pid : ℤ) (identity : ProcessIdentity) (port : ℕ) :
    LeaseProgram (Option Str) := do
  let names ← attempt (Prog.op LeaseOp.Resp PyError (.glob port))
  if ← anyLive port names then return none
  else if ← attempt (Prog.op LeaseOp.Resp PyError (.bind port)) then
    Prog.tryCatch
      (do
        Prog.forEach names unlink
        let digest ← requireDigest owner
        let name := portLeaseName port digest pid identity.uid (str identity.digest)
        attempt (Prog.op LeaseOp.Resp PyError (.write name))
        return some name)
      (fun e => do
        Prog.op LeaseOp.Resp PyError (.close port)
        Prog.raise e)
  else return none

/-- Closing the sockets and taking back the leases of the ports that were had. -/
def takeBack (ports : List ℕ) (names : List Str) : LeaseProgram Unit := do
  Prog.forEach ports fun port => Prog.op LeaseOp.Resp PyError (.close port)
  Prog.forEach names unlink

/-- The error for a range that has not enough ports. -/
def noPorts (pool : LocalPortLeasePool) (count : ℤ) : PyError :=
  .runtimeError ("Unable to reserve " ++ toString count ++ " SSH tunnel ports in "
    ++ toString pool.start ++ "-" ++ toString pool.stop)

/-- The loop of `allocate`, from the ports and leases had so far: all ports, if there are enough. -/
def takePorts (pool : LocalPortLeasePool) (owner : Str) (pid : ℤ) (identity : ProcessIdentity)
    (count : ℤ) : List ℕ → (ports : List ℕ) → (names : List Str) → LeaseProgram (List ℕ)
  | [], ports, names => do
      takeBack ports names
      Prog.raise (noPorts pool count)
  | port :: rest, ports, names => do
      let taken ← Prog.tryCatch (takePort owner pid identity port) fun e => do
        takeBack ports names
        Prog.raise e
      match taken with
      | none => takePorts pool owner pid identity count rest ports names
      | some name =>
          if ((ports ++ [port]).length : ℤ) = count then return ports ++ [port]
          else takePorts pool owner pid identity count rest (ports ++ [port]) (names ++ [name])

/-- `_candidate_ports(owner)`, from the bytes of the owner. -/
def LocalPortLeasePool.candidatePorts (pool : LocalPortLeasePool) (owner : Bytes) : List ℕ :=
  let offset := ((Sha256.digest owner).take 8).foldl (fun n b => 256 * n + b) 0 % pool.capacity
  (List.range pool.capacity).map fun index => pool.start + (offset + index) % pool.capacity

/-- `with self._locked(): …` -/
def locked {α : Type} (body : LeaseProgram α) : LeaseProgram α := do
  attempt (Prog.op LeaseOp.Resp PyError .lock)
  Prog.finallyDo body (Prog.op LeaseOp.Resp PyError .unlock)

/-- The body of `allocate`, under the lock. -/
def LocalPortLeasePool.reserve (pool : LocalPortLeasePool) (owner : Str) (pid : ℤ)
    (identity : ProcessIdentity) (count : ℤ) : LeaseProgram (List ℕ) :=
  match encode owner with
  | some bytes => takePorts pool owner pid identity count (pool.candidatePorts bytes) [] []
  | none => Prog.raise (.valueError "'utf-8' codec can't encode character: surrogates not allowed")

/-- `allocate(owner, pid, count)` in the process `getpid` of the user `getuid`. -/
def LocalPortLeasePool.allocate (pool : LocalPortLeasePool) (getpid getuid : ℤ) (owner : Str)
    (pid count : ℤ) : LeaseProgram LocalPortReservation := do
  if owner = [] then Prog.raise (.valueError "Tunnel port lease owner is required")
  else if pid ≠ getpid then
    Prog.raise (.valueError "Tunnel port lease PID must match the calling process")
  else if count ≤ 0 ∨ count > pool.capacity then
    Prog.raise (.valueError "Invalid tunnel port lease count")
  else
    match ← identify pid with
    | none => Prog.raise (.runtimeError "Unable to fingerprint tunnel port lease owner")
    | some identity =>
        if identity.uid ≠ getuid then
          Prog.raise (.runtimeError "Unable to fingerprint tunnel port lease owner")
        else
          let ports ← locked (pool.reserve owner pid identity count)
          return ⟨owner, pid, identity.uid, str identity.digest, ports⟩

/-- `release_reservations()` -/
def LocalPortReservation.releaseReservations (r : LocalPortReservation) : LeaseProgram Unit :=
  Prog.forEach r.ports fun port => Prog.op LeaseOp.Resp PyError (.close port)

/-- `LocalPortLeasePool.release(ports, owner, pid, uid, process_digest)` -/
def releaseLeases (ports : List ℕ) (owner : Str) (pid uid : ℤ) (processDigest : Str) :
    LeaseProgram Unit := do
  if ports = [] ∨ owner = [] ∨ pid ≤ 1 ∨ uid < 0 ∨ processDigest = [] then return ()
  else if ¬ ∀ port ∈ ports, 1024 ≤ port ∧ port ≤ 65535 then return ()
  else
    locked (Prog.forEach ports fun port => do
      let digest ← requireDigest owner
      unlink (portLeaseName port digest pid uid processDigest))

/-- `LocalPortReservation.release()` -/
def LocalPortReservation.release (r : LocalPortReservation) : LeaseProgram Unit := do
  r.releaseReservations
  releaseLeases r.ports r.owner r.pid r.uid r.processDigest

/-! ## The host -/

/-- A call of one of the three methods; a reservation is released by the process that has it. -/
inductive LeaseCall where
  | allocate (pool : LocalPortLeasePool) (owner : Str) (pid count : ℤ)
  | releaseReservations (r : LocalPortReservation)
  | release (r : LocalPortReservation)

/-- A thread of a process that makes a call. -/
structure LeaseCaller where
  process : Process
  call : LeaseCall

def LeaseCaller.program (c : LeaseCaller) : LeaseProgram Unit :=
  match c.call with
  | .allocate pool owner pid count => do
      let r ← pool.allocate c.process.pid c.process.uid owner pid count
      Prog.op LeaseOp.Resp PyError (.hold r)
  | .releaseReservations r => r.releaseReservations
  | .release r => do
      Prog.op LeaseOp.Resp PyError (.drop r)
      r.release

/-- The processes, the lease directory, and the reservations that callers have. -/
structure LeaseWorld where
  processes : List Process
  departed : List Process
  /-- Names of the regular files of the directory. -/
  files : List Str
  /-- Names of its symbolic links. -/
  links : List Str
  /-- The thread that has the lock, with its process. -/
  locked : Option (ℕ × Process)
  /-- The reservations that are not released. -/
  held : List (Process × LocalPortReservation)

/-- How an operation ends. -/
inductive LeaseChoice where
  | succeeds
  /-- It raises without any effect. -/
  | fails
  /-- `_write_lease` raises when the file is there. -/
  | failsLate
  /-- The port is in use. -/
  | refuses
  deriving DecidableEq

/-- What `ps` tells about a process. -/
def Process.identity (p : Process) : ProcessIdentity :=
  ⟨p.pid, p.uid, p.startedAt, processDigest p.uid p.startedAt⟩

/-- `query_process_identity(pid)`, where `ps` tells the user and the start time of every live
process. -/
def LeaseWorld.identify (w : LeaseWorld) (pid : ℤ) : Except PyError (Option ProcessIdentity) :=
  if pid ≤ 1 then .ok none
  else if pid > maxPid then .error .overflowError
  else .ok ((w.processes.find? fun p => p.pid = pid).map Process.identity)

/-- What an operation of thread `i` of a live process does. -/
def LeaseWorld.perform (i : ℕ) (p : Process) (w : LeaseWorld) :
    (o : LeaseOp) → LeaseChoice → Option (o.Resp × LeaseWorld)
  | .identify pid, .succeeds => some (w.identify pid, w)
  -- `ps` prints what is no text
  | .identify pid, .fails => some (match w.identify pid with
      | .ok (some _) => .error .unicodeDecodeError
      | found => found, w)
  -- `ps` does not answer, which is no error
  | .identify pid, _ => some ((w.identify pid).map fun _ => none, w)
  | .lock, .succeeds =>
      if w.locked = none then some (.ok (), { w with locked := some (i, p) }) else none
  | .lock, _ => some (.error (.runtimeError "Tunnel lease lock must be provisioned"), w)
  | .unlock, _ => some ((), { w with locked := none })
  | .glob port, .succeeds => some (.ok ((w.files ++ w.links).filter (isLeaseOf port)), w)
  | .isSymlink name, .succeeds => some (.ok (decide (name ∈ w.links)), w)
  | .glob _, _ | .isSymlink _, _ => some (.error .osError, w)
  | .bind _, .succeeds => some (.ok true, w)
  | .bind _, .refuses => some (.ok false, w)
  | .bind _, _ => some (.error .osError, w)
  | .close _, _ => some ((), w)
  | .unlink name, .succeeds => some (.ok (),
      { w with files := w.files.filter (· ≠ name), links := w.links.filter (· ≠ name) })
  | .unlink _, _ => some (.error .osError, w)
  | .write name, choice =>
      if name ∈ w.files ++ w.links then some (.error .osError, w)
      else match choice with
        | .succeeds => some (.ok (), { w with files := name :: w.files })
        | .failsLate => some (.error .osError, { w with files := name :: w.files })
        | _ => some (.error .osError, w)
  | .hold r, _ => some ((), { w with held := (p, r) :: w.held })
  | .drop r, _ =>
      if (p, r) ∈ w.held then some ((), { w with held := w.held.erase (p, r) }) else none

/-- Only threads of live processes take steps. -/
def LeaseWorld.exec (i : ℕ) (c : LeaseCaller) (w : LeaseWorld) (o : LeaseOp)
    (choice : LeaseChoice) :
    Option (o.Resp × LeaseWorld) :=
  if c.process ∈ w.processes then w.perform i c.process o choice else none

/-- The ids that the system gives. -/
def Process.Plausible (p : Process) : Prop := p.pid ≤ maxPid ∧ p.uid < 2 ^ 32

instance (p : Process) : Decidable p.Plausible :=
  inferInstanceAs (Decidable (p.pid ≤ maxPid ∧ p.uid < 2 ^ 32))

/-- A process id is free when a process starts, and is used again with another user or start time
only; a process that ends gives the lock back. -/
def LeaseWorld.environment (w : LeaseWorld) : ProcessEvent → Option LeaseWorld
  | .started p =>
      if p.Plausible ∧ (∀ q ∈ w.processes, q.pid ≠ p.pid)
          ∧ ∀ q ∈ w.departed, (q.pid, q.uid, q.startedAt) ≠ (p.pid, p.uid, p.startedAt) then
        some { w with processes := p :: w.processes }
      else none
  | .ended pid =>
      some
        { w with
          processes := w.processes.filter fun p => p.pid ≠ pid
          departed := w.processes.filter (fun p => p.pid = pid) ++ w.departed
          locked := w.locked.filter fun l => l.2.pid ≠ pid }

end FreebsdLaboratory
