import FreebsdLaboratory.Model.CommandText

/-!
# Waiting for SSH

`ssh_transport.py`: the command line of the `ssh` client, and `wait_until_ready`, which probes a new
runtime until it answers or the time is up.  The clock and the outcomes of the probes are data; what
is passed to the socket, to the subprocess and to `time.sleep` is recorded.  Times are exact, and a
float is met where it ends: at the sum for the deadline.
-/

namespace FreebsdLaboratory

open Library

/-- `SSHTransport`, without the fields only `scp` uses. -/
structure SSHTransport where
  host : String
  user : String
  privateKey : String
  knownHostsFile : String
  sshCommand : String := "/usr/bin/ssh"
  configFile : String := "/dev/null"
  connectTimeout : ℤ := 5
  connectionAttempts : ℤ := 3
  serverAliveInterval : ℤ := 15
  serverAliveCountMax : ℤ := 4
  tcpKeepAlive : Bool := true
  bindAddress : String := "127.0.0.1"

/-- What `socket.create_connection` meets: no address for the host, a connection that does not come
about, a connection, a name with a label that is empty or too long (`UnicodeError`, a
`ValueError`). -/
inductive TcpOutcome where
  | unresolved
  | refused
  | connected
  | unencodable (text : String)
  deriving DecidableEq

/-- What `subprocess.run` meets.  A NUL in an argument and output that is not UTF-8 are a
`ValueError`, a time that `poll` cannot take is an `OverflowError`. -/
inductive ProbeOutcome where
  | completed (returncode : ℤ) (stdout stderr : String)
  | timeoutExpired
  | osError (text : String)
  | valueError (text : String)
  | overflowError
  deriving DecidableEq

/-- The calls that are given a time. -/
inductive TimedCall where
  | connect (timeout : ℚ)
  | run (command : List String) (timeout : ℚ) (outcome : ProbeOutcome)
  | sleep (duration : ℚ)
  deriving DecidableEq

/-- One round of the loop as the environment shapes it: the readings of the clock at the loop
test, for `remaining` and in front of the sleep, and the outcomes of the two probes. -/
structure Round where
  test : ℚ
  remaining : ℚ
  pause : ℚ
  tcp : TcpOutcome
  ssh : ProbeOutcome

namespace SSHTransport

def target (t : SSHTransport) : String := s!"{t.user}@{t.host}"

def options (t : SSHTransport) : List String :=
  ["-F", t.configFile, "-i", t.privateKey, "-o", "BatchMode=yes", "-o", "IdentitiesOnly=yes",
    "-o", s!"ConnectTimeout={t.connectTimeout}",
    "-o", s!"ConnectionAttempts={t.connectionAttempts}",
    "-o", s!"ServerAliveInterval={t.serverAliveInterval}",
    "-o", s!"ServerAliveCountMax={t.serverAliveCountMax}",
    "-o", "TCPKeepAlive=" ++ (if t.tcpKeepAlive then "yes" else "no"),
    "-o", "ExitOnForwardFailure=yes", "-o", "StrictHostKeyChecking=accept-new",
    "-o", "GlobalKnownHostsFile=/dev/null", "-o", s!"UserKnownHostsFile={t.knownHostsFile}"]

/-- `command` with forwarding ports that are integers. -/
def command (t : SSHTransport) (remoteCommand : String) (forwardPorts : List ℤ := []) :
    Except PyError (List String) := do
  let forwards ← (forwardPorts.dedup.mergeSort (· ≤ ·)).mapM fun port =>
    if 1 ≤ port ∧ port ≤ 65535 then
      .ok ["-L", s!"{t.bindAddress}:{port}:127.0.0.1:{port}"]
    else .error (.valueError "Invalid SSH forwarding port")
  return t.sshCommand :: t.options ++ ["-T"] ++ forwards.flatten ++ [t.target, remoteCommand]

/-- `_run`, with `check` and the outcome of the subprocess. -/
def run (command : List String) (check : Bool) (outcome : ProbeOutcome) :
    Except PyError (ℤ × String × String) :=
  match outcome with
  | .timeoutExpired => .error (.runtimeError ("Command timed out: " ++ shlexJoin command))
  | .osError text =>
      .error (.runtimeError ("Unable to execute " ++ shlexJoin command ++ ": " ++ text))
  | .valueError text => .error (.valueError text)
  | .overflowError => .error .overflowError
  | .completed returncode stdout stderr =>
      if check ∧ returncode ≠ 0 then
        let detail := if Text.strip stderr ≠ "" then Text.strip stderr
          else if Text.strip stdout ≠ "" then Text.strip stdout else "command failed"
        .error (.runtimeError (shlexJoin command ++ ": " ++ detail))
      else .ok (returncode, stdout, stderr)

/-- `time.sleep(min(limit, max(0, deadline - time.monotonic())))`. -/
def sleep (limit deadline now : ℚ) : TimedCall := .sleep (min limit (max 0 (deadline - now)))

end SSHTransport

end FreebsdLaboratory
