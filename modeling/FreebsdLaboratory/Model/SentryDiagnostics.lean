import Mathlib.Data.Rat.Defs

/-!
# The TCP step of the Sentry diagnostics

`_connect_resolved` of `sentry_diagnostics.py`, which tries the addresses that the resolver has
returned, and the step of `run_diagnostics` around it.  What the system answers to `socket.socket`
and to `connect` is data; the sockets that are open are the state.
-/

namespace FreebsdLaboratory

/-- `sockaddr`: of IPv4 it has the first two parts. -/
structure SockAddr where
  host : String
  port : ℕ
  flowinfo : ℕ := 0
  scopeId : ℕ := 0
  deriving DecidableEq

/-- An entry of what `getaddrinfo` returns. -/
structure AddrInfo where
  family : ℤ
  socktype : ℤ
  proto : ℤ
  canonname : String := ""
  sockaddr : SockAddr
  deriving DecidableEq

/-- What the calls raise; an `OSError` by its text. -/
inductive SocketError where
  | osError (text : String)
  | valueError
  | overflowError
  deriving DecidableEq

/-- How the calls for each entry end, by its place in the list: the text of the `OSError`, if there
is one. -/
structure SocketCalls where
  socket : ℕ → AddrInfo → Option String
  connect : ℕ → AddrInfo → Option String

/-- An open socket: the place of its entry, and the address it is connected to. -/
structure Socket where
  place : ℕ
  peer : Option SockAddr := none
  deriving DecidableEq

/-- `settimeout(timeout)`: the time has to be one in 64-bit nanoseconds, and not negative. -/
def settimeout (timeout : ℚ) : Except SocketError Unit :=
  if timeout * 10 ^ 9 < -2 ^ 63 ∨ 2 ^ 63 ≤ timeout * 10 ^ 9 then .error .overflowError
  else if timeout < 0 then .error .valueError
  else .ok ()

/-- The error behind the loop. -/
def noConnection (lastError : Option String) : SocketError :=
  .osError (lastError.getD "resolver returned no connectable addresses")

/-- The loop of `_connect_resolved` from a place in the list on, with the last error and the open
sockets: its result, and the sockets that are open then. -/
def connectLoop (calls : SocketCalls) (timeout : ℚ) :
    List AddrInfo → (place : ℕ) → Option String → List Socket →
      Except SocketError Socket × List Socket
  | [], _, lastError, opened => (.error (noConnection lastError), opened)
  | address :: addresses, place, _, opened =>
      match calls.socket place address with
      | some text => (.error (.osError text), opened)
      | none =>
          let rawSocket : Socket := ⟨place, none⟩
          let opened := rawSocket :: opened
          match settimeout timeout with
          | .error e => (.error e, opened)
          | .ok () =>
              match calls.connect place address with
              | none =>
                  let connected : Socket := ⟨place, some address.sockaddr⟩
                  (.ok connected, connected :: opened.erase rawSocket)
              | some text =>
                  connectLoop calls timeout addresses (place + 1) (some text)
                    (opened.erase rawSocket)

/-- `_connect_resolved(addresses, timeout=timeout)` -/
def connectResolved (calls : SocketCalls) (timeout : ℚ) (addresses : List AddrInfo) :
    Except SocketError Socket × List Socket :=
  connectLoop calls timeout addresses 0 none []

/-- `DiagnosticResult` -/
structure DiagnosticResult where
  check : String
  status : String
  detail : String
  deriving DecidableEq

/-- The TCP step of `run_diagnostics`: what it appends to the results, and what it does not
catch. -/
def tcpStep (calls : SocketCalls) (timeout : ℚ) (addresses : List AddrInfo) :
    Except SocketError DiagnosticResult :=
  match (connectResolved calls timeout addresses).1 with
  | .ok _ => .ok ⟨"tcp", "PASS", "TCP connection succeeded"⟩
  | .error (.osError text) => .ok ⟨"tcp", "FAIL", "connection error: " ++ text⟩
  | .error e => .error e

end FreebsdLaboratory
