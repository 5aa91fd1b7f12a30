import FreebsdLaboratory.Model.RequestHandler

/-!
# The client of the daemon

`runtime_client.py`: the five requests as `RuntimeClient.request` sends them, and the line it reads
back.
-/

namespace FreebsdLaboratory

open Library

/-- `RuntimeClient.request(action, **payload)`. -/
def request (action : String) (payload : List (String × Json)) : RawRequest :=
  .object (("action", .str action) :: payload)

namespace RuntimeClient

/-- `RuntimeClient.ping`. -/
def ping : RawRequest := request "ping" []

/-- `RuntimeClient.create_jail`. -/
def createJail (name : String) (ownerPid : ℤ) (sshPublicKey : String) : RawRequest :=
  request "create-jail"
    [("name", .str name), ("owner_pid", .int ownerPid), ("ssh_public_key", .str sshPublicKey)]

/-- `RuntimeClient.create_bhyve`. -/
def createBhyve (name : String) (ownerPid : ℤ) (sshPublicKey : String)
    (profile : String := "freebsd-python") : RawRequest :=
  request "create-bhyve"
    [("name", .str name), ("owner_pid", .int ownerPid), ("ssh_public_key", .str sshPublicKey),
      ("profile", .str profile)]

/-- `RuntimeClient.destroy`. -/
def destroy (name : String) : RawRequest := request "destroy" [("name", .str name)]

/-- `RuntimeClient.gc`. -/
def gc (staleOnly : Bool := true) : RawRequest := request "gc" [("stale_only", .bool staleOnly)]

/-! ## The response -/

def MAX_RESPONSE_BYTES : ℕ := 1024 * 1024

/-- `RuntimeControlError` for a response that is too long. -/
def sizeLimitExceeded : PyError := .runtimeError "Runtime daemon response exceeded size limit"

/-- `RuntimeControlError` for a connection that is closed before anything was sent. -/
def closedWithoutResponse : PyError :=
  .runtimeError "Runtime daemon closed the connection without a response"

/-- The `while` loop of `_read_line` on what its calls of `recv` return; the list ends, or holds an
empty chunk, where the daemon has closed the connection. -/
def readChunks (chunks : List (List ℕ)) (size : ℕ) :
    List (List ℕ) → Except PyError (List (List ℕ) × ℕ)
  | [] => .ok (chunks, size)
  | chunk :: rest =>
      if chunk = [] then .ok (chunks, size)
      else if 10 ∈ chunk then
        let chunk := chunk.takeWhile (· ≠ 10)
        .ok (chunks ++ [chunk], size + chunk.length)
      else if size + chunk.length > MAX_RESPONSE_BYTES then .error sizeLimitExceeded
      else readChunks (chunks ++ [chunk]) (size + chunk.length) rest

/-- `RuntimeClient._read_line`. -/
def readLine (received : List (List ℕ)) : Except PyError (List ℕ) := do
  let (chunks, size) ← readChunks [] 0 received
  if size > MAX_RESPONSE_BYTES then throw sizeLimitExceeded
  if chunks = [] then throw closedWithoutResponse
  return chunks.flatten

end RuntimeClient

/-! ## Sample requests

A Jupyter process and its requests; the concrete runs of the development are theirs. -/

/-- An Ed25519 public key. -/
def sampleKey : String :=
  "ssh-ed25519 AAAAC3NzaC1lZDI1NTE5AAAAIAAAAAAAAAAAAAAAAAAAAAAAAAAAAAAAAAAAAAAAAAAA"

/-- A Jupyter server of user 1001. -/
def jupyter : Process := ⟨100, 1001, "Mon Jan  1 10:00:00 2024"⟩

/-- A host on which it runs and nothing else has happened. -/
def sampleWorld : World := { processes := [jupyter] }

/-- Its requests. -/
def fromJupyter (request : RawRequest) : Connection := ⟨⟨100, 1001, 1001⟩, request⟩

/-- Root's requests. -/
def fromRoot (request : RawRequest) : Connection := ⟨⟨50, 0, 0⟩, request⟩

/-- The registry record of a jail of user 1001, by the process that owns it and its address. -/
def sampleRecord (name : String) (owner : Process) (address : IPv4Address) : RuntimeRecord :=
  jailRecord .standard name
    { pid := owner.pid
      uid := owner.uid
      gid := 1001
      startedAt := owner.startedAt
      processDigest := processDigest owner.uid owner.startedAt }
    address (RuntimeManager.standard.jailDataset name)
    (RuntimeManager.standard.config.jailMountRoot ++ "/" ++ name)

/-- A Jupyter server of user 1001 that is not running any more. -/
def formerJupyter : Process := ⟨99, 1001, "Sun Dec 31 09:00:00 2023"⟩

/-- The daemon reads a client's request as the client meant it. -/
example : (fromJupyter (RuntimeClient.createJail "freebsd-lab-a" 100 sampleKey)).action
    = .ok (.createJail "freebsd-lab-a" 100 sampleKey) := rfl

end FreebsdLaboratory
