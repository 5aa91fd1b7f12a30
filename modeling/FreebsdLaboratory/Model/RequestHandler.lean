import FreebsdLaboratory.Model.GarbageCollection

/-!
# The request handler and the daemon

`RuntimeRequestHandler`: what arrives on a connection, `_dispatch`, and the reply.  `daemon` puts it
together with `exec` into a machine: one thread per connection, every step of every thread atomic,
and processes of the host that start and end.
-/

namespace FreebsdLaboratory

open Library Program

/-- What a peer sends before the newline or the end of the stream. -/
inductive RawRequest where
  | nothing
  | oversized
  | undecodable
  | notAnObject
  | object (fields : List (String × Json))
  deriving DecidableEq

/-- A connection: the kernel's credentials of the peer and what it sends. -/
structure Connection where
  peer : PeerCredentials
  request : RawRequest
  deriving DecidableEq

/-- The result of a request. -/
inductive Result where
  | pong
  | created (result : CreateResult)
  | destroyed (result : DestroyResult)
  | collected (report : GcReport)
  deriving DecidableEq

inductive Reply where
  | ok (result : Result)
  | error (error : PyError)
  /-- The peer closed the connection without a request. -/
  | none
  deriving DecidableEq

/-- `request.get(key)`. -/
def field (fields : List (String × Json)) (key : String) : Json :=
  (fields.lookup key).getD .null

/-- A field that has to be a string. -/
def stringField (fields : List (String × Json)) (key : String) : Except PyError String :=
  match field fields key with
  | .str s => .ok s
  | _ => .error (.valueError (key ++ " must be a string"))

/-- `owner_pid`. -/
def ownerPidField (fields : List (String × Json)) : Except PyError ℤ :=
  match field fields "owner_pid" with
  | .int pid => .ok pid
  | _ => .error (.valueError "owner_pid must be an integer process id")

/-- A lifecycle request with well-typed arguments. -/
inductive Action where
  | ping
  | createJail (name : String) (ownerPid : ℤ) (sshPublicKey : String)
  | createBhyve (name : String) (ownerPid : ℤ) (sshPublicKey profile : String)
  | destroy (name : String)
  | gc (staleOnly : Bool)
  deriving DecidableEq

/-- The checks of `_dispatch` on the fields of a request. -/
def parseAction (fields : List (String × Json)) : Except PyError Action := do
  match field fields "action" with
  | .str "ping" => return .ping
  | .str "create-jail" =>
      let name ← stringField fields "name"
      let ownerPid ← ownerPidField fields
      let sshPublicKey ← stringField fields "ssh_public_key"
      return .createJail name ownerPid sshPublicKey
  | .str "create-bhyve" =>
      let name ← stringField fields "name"
      let ownerPid ← ownerPidField fields
      let sshPublicKey ← stringField fields "ssh_public_key"
      match (fields.lookup "profile").getD (.str "freebsd-python") with
      | .str profile => return .createBhyve name ownerPid sshPublicKey profile
      | _ => throw (.valueError "profile must be a string")
  | .str "destroy" => return .destroy (← stringField fields "name")
  | .str "gc" =>
      match (fields.lookup "stale_only").getD (.bool true) with
      | .bool staleOnly => return .gc staleOnly
      | _ => throw (.valueError "stale_only must be boolean")
  | _ => throw (.valueError "unsupported runtime action")

/-- The method a well-typed request calls. -/
def perform (m : RuntimeManager) (peer : PeerCredentials) : Action → Program Result
  | .ping => pure .pong
  | .createJail name ownerPid key => return .created (← createJail m name ownerPid peer key)
  | .createBhyve name ownerPid key profile =>
      return .created (← createBhyve m name ownerPid peer key profile)
  | .destroy name => return .destroyed (← destroy m name (some peer.uid) false)
  | .gc staleOnly => return .collected (← gc m staleOnly peer.uid)

/-- What the connection asks for, if it gets past the checks of `handle` and `_dispatch`. -/
def Connection.action (c : Connection) : Except PyError Action :=
  match c.request with
  | .object fields => parseAction fields
  | .oversized => .error (.valueError "request exceeded size limit")
  | .undecodable => .error (.valueError "undecodable request")
  | .nothing | .notAnObject => .error (.valueError "request must be an object")

/-- `handle`. -/
def handle (m : RuntimeManager) (c : Connection) : Program Reply :=
  match c.request with
  | .nothing => pure .none
  | _ =>
      Prog.tryCatch
        (do
          let action ← ofExcept c.action
          return .ok (← perform m c.peer action))
        fun error => pure (.error error)

/-- The runtime a request is about. -/
def Action.runtime : Action → String
  | .createJail name _ _ | .createBhyve name _ _ _ | .destroy name => name
  | .ping | .gc _ => ""

def Connection.runtime (c : Connection) : String :=
  match c.action with
  | .ok action => action.runtime
  | .error _ => ""

/-! ## Startup -/

/-- What `main` does between configuring the socket and `serve_forever`: unless `--no-reconcile` is
given, it reconciles, and prints what has failed. -/
def reconcileAtStartup (m : RuntimeManager) (noReconcile : Bool) : Program (List String) := do
  if noReconcile then pure []
  else
    let result ← gc m true 0
    pure (result.errors.map fun (name, detail) =>
      s!"freebsd-lab-runtime-daemon: reconciliation failed for {name}: {detail}")

/-! ## Processes -/

/-- A process may start under an id that is free, and with a fingerprint no process had before. -/
def World.environment (w : World) : ProcessEvent → Option World
  | .started p =>
      if (∀ q ∈ w.processes, q.pid ≠ p.pid)
          ∧ ∀ q ∈ w.processes ++ w.departed, q.fingerprint ≠ p.fingerprint then
        some { w with processes := p :: w.processes }
      else none
  | .ended pid =>
      some
        { w with
          processes := w.processes.filter fun p => p.pid ≠ pid
          departed := w.processes.filter (fun p => p.pid = pid) ++ w.departed }

end FreebsdLaboratory
