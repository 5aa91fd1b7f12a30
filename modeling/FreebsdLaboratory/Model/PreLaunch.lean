import FreebsdLaboratory.Model.RemoteConnection
import FreebsdLaboratory.Tunnels.Rollback

/-!
# The launch of a kernel

`remote_provisioner.py`: `pre_launch` behind `_create_runtime`.  `asyncio.gather` starts two tasks,
the wait for SSH and `_prepare_connection`; when one of them has failed, the handler of `pre_launch`
runs, and the other task goes on.

What a coroutine does between two awaits is one step of the event loop.  The threads work next to
it, and the one that allocates the ports takes its steps in the lease directory one operation at a
time.  The handler releases the ports on the event loop, which does nothing else until it is
through.  Other processes leave the lease directory alone meanwhile.
-/

namespace FreebsdLaboratory

open Library Library.Unicode Library.Json

/-- The fields of the provisioner that `pre_launch` and its handler read. -/
structure Provisioner where
  runtimeName : Option Str
  runtimeCreated : Bool
  originalConnectionIp : Option Str
  originalConnectionPorts : List ℤ
  tunnelPorts : List ℤ
  tunnelReservation : Option LocalPortReservation

/-- The task that waits for SSH. -/
inductive WaitTask where
  | running
  | ready
  | failed

/-- The task of `_prepare_connection`: its thread has operations of `allocate` before it, or it has
ended. -/
inductive PrepareTask where
  | allocating (rest : LeaseProgram LocalPortReservation)
  | prepared
  | failed

/-- The operation that the thread of the task performs next. -/
def PrepareTask.pending : PrepareTask → Option LeaseOp
  | .allocating (.perform o _) => some o
  | _ => none

/-- Where `pre_launch` is, with the error that it will raise. -/
inductive PreLaunch where
  /-- In `gather`, which has the first exception of a task. -/
  | gathering (failure : Option PyError)
  /-- Behind `gather`, until the command is put together. -/
  | staging
  /-- In `_release_tunnel_ports`. -/
  | releasing (rest : LeaseProgram Unit) (e : PyError)
  /-- Waiting for the daemon. -/
  | destroying (e : PyError)
  | raised (e : PyError)
  | returned

/-- The operation of `_release_tunnel_ports` that comes next. -/
def PreLaunch.pending : PreLaunch → Option LeaseOp
  | .releasing (.perform o _) _ => some o
  | _ => none

structure Launch where
  process : Process
  provisioner : Provisioner
  connection : KernelConnection
  /-- The lease directory, with the sockets and leases of this launch. -/
  leases : Attempt
  waiting : WaitTask
  preparing : PrepareTask
  main : PreLaunch

/-- What happens next, and how it ends. -/
inductive LaunchStep where
  /-- `wait_until_ready` ends. -/
  | waited (result : Except PyError Unit)
  /-- The next operation of `allocate`. -/
  | allocate (choice : LeaseChoice)
  /-- `_prepare_connection` goes on behind `allocate`: the file operations, and the end of
  `release_jupyter_cached_ports` and `get_connection_info`. -/
  | prepare (fault : FileStep → Bool) (installed : Except PyError Unit)
  /-- `pre_launch` goes on behind `gather`. -/
  | gathered (fault : FileStep → Bool)
  /-- The connection file is staged and the command put together. -/
  | staged (result : Except PyError Unit) (fault : FileStep → Bool)
  /-- The next operation of `_release_tunnel_ports`. -/
  | release (choice : LeaseChoice)
  /-- `_release_tunnel_ports` ends. -/
  | released
  /-- The daemon has answered; errors other than `RuntimeControlError` are given. -/
  | destroyed (result : Except PyError Unit)

/-- `_release_tunnel_ports`, as far as it can raise. -/
def Provisioner.releaseTunnelPorts (self : Provisioner) : LeaseProgram Unit :=
  match self.tunnelReservation with
  | some reservation => reservation.release
  | none => pure ()

/-- One operation of a thread in the lease directory. -/
def Attempt.step {α : Type} (t : Attempt) (i : ℕ) (p : Process) (choice : LeaseChoice) :
    LeaseProgram α → Option (LeaseProgram α × Attempt)
  | .perform o k => (t.world.perform i p o choice).map fun (r, w) => (k r, t.next w o r)
  | _ => none

namespace Launch

/-- `pre_launch` in `gather`.  `pool` is what `_port_pool()` gives. -/
def start (process : Process) (runtimeName : Str) (pool : Except PyError LocalPortLeasePool)
    (connection : KernelConnection) (w : LeaseWorld) : Launch where
  process := process
  provisioner :=
    { runtimeName := some runtimeName
      runtimeCreated := true
      originalConnectionIp := none
      originalConnectionPorts := []
      tunnelPorts := []
      tunnelReservation := none }
  connection := connection
  leases := Attempt.fresh w
  waiting := .running
  preparing := match pool with
    | .ok pool => .allocating
        (pool.allocate process.pid process.uid runtimeName process.pid
          CONNECTION_PORT_FIELDS.length)
    | .error _ => .failed
  main := match pool with
    | .ok _ => .gathering none
    | .error e => .gathering (some e)

/-- `gather` keeps the first exception; when `pre_launch` has gone on, nobody looks at it. -/
def fail (s : Launch) (e : PyError) : Launch :=
  match s.main with
  | .gathering none => { s with main := .gathering (some e) }
  | _ => s

/-- `_prepare_connection` behind the allocation, which has given a reservation. -/
def prepareConnection (py : PythonLibrary) (fault : FileStep → Bool)
    (installed : Except PyError Unit)
    (s : Launch) (reservation : LocalPortReservation) : Launch :=
  let s := { s with provisioner := { s.provisioner with tunnelReservation := some reservation } }
  match rewriteConnectionFile fault py "127.0.0.1"
      (some (.iterable (reservation.ports.map fun port : ℕ => .int port))) s.connection with
  | (.error e, connection) => { s with connection, preparing := .failed }.fail e
  | (.ok result, connection) =>
      let s := { s with
        connection
        provisioner := { s.provisioner with
          originalConnectionIp := some result.originalIp
          originalConnectionPorts := result.originalPorts
          tunnelPorts := result.tunnelPorts } }
      match installed with
      | .error e => { s with preparing := .failed }.fail e
      | .ok () => { s with preparing := .prepared }

/-- The handler of `pre_launch`, up to `_release_tunnel_ports`. -/
def handle (fault : FileStep → Bool) (e : PyError) (s : Launch) : Launch :=
  match restoreConnectionFile fault s.provisioner.originalConnectionIp
      (s.provisioner.originalConnectionPorts.map .int) s.connection with
  | (.error e', connection) => { s with connection, main := .raised e' }
  | (.ok (), connection) => { s with
      connection
      provisioner := { s.provisioner with
        originalConnectionIp := none
        originalConnectionPorts := []
        tunnelReservation := none }
      main := .releasing s.provisioner.releaseTunnelPorts e }

/-- The end of `_destroy_runtime`. -/
def forget (s : Launch) (e : PyError) : Launch :=
  { s with
    provisioner := { s.provisioner with runtimeName := none, runtimeCreated := false }
    main := .raised e }

/-- One step; `none` where it cannot come. -/
def next (py : PythonLibrary) (s : Launch) : LaunchStep → Option Launch
  | .waited result =>
      match s.main, s.waiting with
      | .releasing _ _, _ => none
      | _, .running => match result with
          | .ok () => some { s with waiting := .ready }
          | .error e => some ({ s with waiting := .failed }.fail e)
      | _, _ => none
  | .allocate choice =>
      match s.preparing with
      | .allocating rest => (s.leases.step 0 s.process choice rest).map fun (rest, leases) =>
          { s with leases, preparing := .allocating rest }
      | _ => none
  | .prepare fault installed =>
      match s.main, s.preparing with
      | .releasing _ _, _ => none
      | _, .allocating (.ret reservation) =>
          some (s.prepareConnection py fault installed reservation)
      | _, .allocating (.raise e) => some ({ s with preparing := .failed }.fail e)
      | _, _ => none
  | .gathered fault =>
      match s.main, s.waiting, s.preparing with
      | .gathering (some e), _, _ => some (s.handle fault e)
      | .gathering none, .ready, .prepared => some { s with main := .staging }
      | _, _, _ => none
  | .staged result fault =>
      match s.main, result with
      | .staging, .ok () => some { s with main := .returned }
      | .staging, .error e => some (s.handle fault e)
      | _, _ => none
  | .release choice =>
      match s.main with
      | .releasing rest e => (s.leases.step 1 s.process choice rest).map fun (rest, leases) =>
          { s with leases, main := .releasing rest e }
      | _ => none
  | .released =>
      match s.main with
      | .releasing (.ret ()) e =>
          let s := { s with provisioner := { s.provisioner with tunnelPorts := [] } }
          match s.provisioner.runtimeName with
          | some (_ :: _) =>
              if s.provisioner.runtimeCreated then some { s with main := .destroying e }
              else some (s.forget e)
          | _ => some (s.forget e)
      | .releasing (.raise e) _ => some { s with main := .raised e }
      | _ => none
  | .destroyed result =>
      match s.main with
      | .destroying e => match result with
          | .ok () => some (s.forget e)
          | .error e => some (s.forget e)
      | _ => none

/-- Several steps. -/
def run (py : PythonLibrary) : List LaunchStep → Launch → Option Launch
  | [], s => some s
  | step :: steps, s => (s.next py step).bind (run py steps)

/-- `pre_launch` has raised, and both tasks have ended. -/
def Finished (s : Launch) : Prop :=
  (match s.main with
    | .raised _ => True
    | _ => False) ∧
  (match s.waiting with
    | .running => False
    | _ => True) ∧
  (match s.preparing with
    | .allocating _ => False
    | _ => True)

end Launch

end FreebsdLaboratory
