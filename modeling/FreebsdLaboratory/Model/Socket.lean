import FreebsdLaboratory.Model.CommandText
import FreebsdLaboratory.Model.RuntimeClient
import FreebsdLaboratory.Library.JsonLine

/-!
# The lines on the socket

Each side sends one line of JSON: the client its request, the daemon its reply.  Here `RawRequest`
and `Reply` are bytes, as `json.dumps` writes them and `json.loads` reads them, and `callOverSocket`
is a whole call: the client sends, the daemon reads, handles and replies, and the client makes a
result of what it receives.  `connect`, `sendall` and `recv` of the client can each raise.
-/

namespace FreebsdLaboratory

open Library Library.Unicode Library.Json

/-! ## The request -/

/-- The value of a field, where the field says which it is. -/
def Json.value : Json → Option Value
  | .null => some .none
  | .bool b => some (.bool b)
  | .int z => some (.int z)
  | .str s => some (.str (Unicode.str s))
  | .float _ | .compound => none

/-- A field under its key. -/
def itemOf (field : String × Json) : Option (Str × Value) :=
  field.2.value.map fun v => (str field.1, v)

/-- `{"action": action, **payload}`. -/
def RawRequest.document : RawRequest → Option Value
  | .object fields => (fields.mapM itemOf).map .dict
  | .nothing | .oversized | .undecodable | .notAnObject => none

/-- `encoded` in `RuntimeClient.request`, where `json.dumps` does not raise. -/
def RawRequest.encoded (request : RawRequest) : Option (List ℕ) := do
  let document ← request.document
  let text ← (dumpsLine document).toOption
  let bytes ← encode text
  return bytes ++ [10]

/-- The method of the client for an action. -/
def Action.request : Action → RawRequest
  | .ping => RuntimeClient.ping
  | .createJail name ownerPid key => RuntimeClient.createJail name ownerPid key
  | .createBhyve name ownerPid key profile => RuntimeClient.createBhyve name ownerPid key profile
  | .destroy name => RuntimeClient.destroy name
  | .gc staleOnly => RuntimeClient.gc staleOnly

def MAX_REQUEST_BYTES : ℕ := 64 * 1024

/-- `rfile.readline(limit)` of a peer that sends `stream`. -/
def readline (stream : List ℕ) (limit : ℕ) : List ℕ :=
  (stream.takeWhile (· ≠ 10) ++ (stream.dropWhile (· ≠ 10)).take 1).take limit

/-- A string without lone surrogates. -/
def scalarText (s : Str) : Option String :=
  if s.all isScalar then some (String.ofList (s.map Char.ofNat)) else none

/-- What `isinstance` tells about a value.  `number` is what the literal of a float stands for. -/
def jsonOf (number : FloatLiteral → Json) : Value → Option Json
  | .none => some .null
  | .bool b => some (.bool b)
  | .int z => some (.int z)
  | .float literal => some (number literal)
  | .str s => (scalarText s).map .str
  | .seq _ _ | .set _ _ | .dict _ | .object _ => some .compound

/-- An item of the object that was read. -/
def fieldOf (number : FloatLiteral → Json) (item : Str × Value) : Option (String × Json) := do
  let key ← scalarText item.1
  let field ← jsonOf number item.2
  return (key, field)

/-- What `handle` reads of the bytes a peer sends; `none` where a key or a field is a string with a
lone surrogate. -/
def readRequest (number : FloatLiteral → Json) (stream : List ℕ) : Option RawRequest :=
  let raw := readline stream (MAX_REQUEST_BYTES + 1)
  if raw = [] then some .nothing
  else if raw.length > MAX_REQUEST_BYTES then some .oversized
  else
    match (decode raw).bind loads with
    | some (.dict items) => (items.mapM (fieldOf number)).map .object
    | some _ => some .notAnObject
    | none => some .undecodable

/-! ## The reply -/

/-- A string. -/
def textValue (s : String) : Value := .str (str s)

/-- A list of strings. -/
def textValues (xs : List String) : Value := .seq false (xs.map textValue)

/-- A dictionary with the keys of the source. -/
def itemsOf (items : List (String × Value)) : List (Str × Value) :=
  items.map fun (key, v) => (str key, v)

/-- What `create_jail` and `create_bhyve` return. -/
def CreateResult.document (result : CreateResult) : List (Str × Value) :=
  itemsOf
    ([("name", textValue result.name), ("type", textValue result.type)]
      ++ (result.profile.map fun profile => ("profile", textValue profile)).toList
      ++ (result.guestOs.map fun guestOs => ("guest_os", textValue guestOs)).toList
      ++ [("guest_ip", textValue result.guestIp), ("network_cidr", textValue result.networkCidr),
        ("bridge", textValue result.bridge), ("interface", textValue result.interface)])

/-- What `destroy` returns. -/
def DestroyResult.document (result : DestroyResult) : List (Str × Value) :=
  itemsOf [("name", textValue result.name), ("removed", textValues result.removed)]

/-- What `gc` returns. -/
def GcReport.document (report : GcReport) : List (Str × Value) :=
  itemsOf
    [("cleaned", textValues report.cleaned), ("retained", textValues report.retained),
      ("removed_epairs", textValues report.removedEpairs),
      ("released_addresses", textValues report.releasedAddresses),
      ("errors", .dict (report.errors.foldl
        (fun errors (name, detail) => Value.insertItem (str name) (textValue detail) errors) [])),
      ("stale_only", .bool report.staleOnly)]

/-- What `_dispatch` returns. -/
def Result.document : Result → List (Str × Value)
  | .pong =>
      itemsOf
        [("service", textValue "freebsd-laboratory-runtime"), ("version", .int 4),
          ("capabilities", textValues ["jail", "bhyve.freebsd", "bhyve.linux"]),
          ("bhyve_profiles", textValues (sortedSet (BHYVE_PROFILES.map Prod.fst)))]
  | .created result => result.document
  | .destroyed result => result.document
  | .collected report => report.document

/-- What `handle` passes to `_reply`. -/
def Reply.document (m : RuntimeManager) : Reply → Option (List (Str × Value))
  | .ok result => some (itemsOf [("ok", .bool true), ("result", .dict result.document)])
  | .error e => some (itemsOf [("ok", .bool false), ("error", textValue (e.text m))])
  | .none => Option.none

/-- The bytes of a reply, where `json.dumps` does not raise. -/
def Reply.encoded (m : RuntimeManager) (reply : Reply) : Option (List ℕ) :=
  match reply.document m with
  | Option.none => some []
  | some document => do
      let text ← (dumpsLine (.dict document)).toOption
      let bytes ← encode text
      return bytes ++ [10]

/-! ## The response -/

/-- A `RuntimeControlError`: of `_read_line`, or with the text of `request`. -/
inductive ControlError where
  | reading (error : PyError)
  | control (message : Str)

/-- `str(document.get("error") or "runtime operation failed")`; `shown` is the text for a detail
that is no string. -/
def detailText (shown : Value → Str) (document : List (Str × Value)) : Str :=
  match Value.lookup document (str "error") with
  | some (.str s) => if s = [] then str "runtime operation failed" else s
  | some detail => shown detail
  | none => str "runtime operation failed"

/-- What `request` makes of a document that is an object. -/
def resultOf (shown : Value → Str) (document : List (Str × Value)) :
    Except ControlError (List (Str × Value)) :=
  match Value.lookup document (str "ok") with
  | some (.bool true) =>
      match (Value.lookup document (str "result")).getD (.dict []) with
      | .dict result => .ok result
      | _ => .error (.control (str "Runtime daemon returned an invalid result"))
  | _ => .error (.control (detailText shown document))

/-- What `request` makes of the line it has read. -/
def response (shown : Value → Str) (line : List ℕ) : Except ControlError (List (Str × Value)) :=
  match (decode line).bind loads with
  | some (.dict document) => resultOf shown document
  | some _ => .error (.control (str "Runtime daemon returned a non-object response"))
  | none => .error (.control (str "Runtime daemon returned invalid JSON"))

/-- What the calls of `recv` return, and the text of an `OSError` that the call behind them
raises. -/
structure Received where
  chunks : List (List ℕ)
  failure : Option String

/-- The loop of `_read_line` calls `recv` again behind the chunks. -/
def asksOn (size : ℕ) : List (List ℕ) → Bool
  | [] => true
  | chunk :: rest =>
      chunk ≠ [] && 10 ∉ chunk && size + chunk.length ≤ RuntimeClient.MAX_RESPONSE_BYTES
        && asksOn (size + chunk.length) rest

/-- The `RuntimeControlError` for an `OSError`. -/
def unavailable (socketPath error : String) : ControlError :=
  .control (str s!"Runtime daemon unavailable at {socketPath}: {error}")

/-- `_read_line` and the rest of `request`. -/
def receive (shown : Value → Str) (socketPath : String) (received : Received) :
    Except ControlError (List (Str × Value)) :=
  match received.failure, asksOn 0 received.chunks with
  | some error, true => .error (unavailable socketPath error)
  | _, _ => do
      let line ← (RuntimeClient.readLine received.chunks).mapError .reading
      response shown line

/-! ## A call -/

/-- What the client's socket does: `connect` raises, or `sendall` does when the daemon has got some
bytes of the request and gets no more, or `recv` hands out the reply. -/
inductive Channel where
  | unreachable (error : String)
  | broken (got : ℕ) (error : String)
  | connected (recv : List ℕ → Received)

/-- A call of the client, and the daemon at the other end.  `none` where `json.dumps` raises. -/
def callOverSocket (m : RuntimeManager) (peer : PeerCredentials) (number : FloatLiteral → Json)
    (shown : Value → Str) (socketPath : String) (channel : Channel) (action : Action) :
    Option (Program (Option (Except ControlError (List (Str × Value))))) := do
  let sent ← action.request.encoded
  match channel with
  | .unreachable error => return pure (some (.error (unavailable socketPath error)))
  | .broken got error =>
      let request ← readRequest number (sent.take got)
      return do
        let _ ← handle m ⟨peer, request⟩
        return some (.error (unavailable socketPath error))
  | .connected recv =>
      let request ← readRequest number sent
      return do
        let reply ← handle m ⟨peer, request⟩
        return (reply.encoded m).map fun answer => receive shown socketPath (recv answer)

end FreebsdLaboratory
