import FreebsdLaboratory.Model.RemoteConnection
import FreebsdLaboratory.Model.SshTransport
import FreebsdLaboratory.Model.Verify

/-!
# The command that launches a kernel

What `pre_launch` does behind `gather`, on the host's side: `SSHTransport.assert_available`,
`stage`, which copies the connection file to the guest, `remote_kernel_command`, and the `ssh`
command line that is handed to Jupyter.
-/

namespace FreebsdLaboratory

open Library Library.Unicode

/-! ## `assert_available` -/

/-- What the client finds on the host under a path. -/
structure ClientFiles where
  isFile : String → Bool
  isSymlink : String → Bool
  /-- One of the execution bits is set. -/
  isExecutable : String → Bool
  /-- `shutil.which` finds the command. -/
  which : String → Bool
  /-- `os.access(path, os.R_OK)`. -/
  readable : String → Bool

/-- `executable_exists`. -/
def executableExists (files : ClientFiles) (command : String) : Bool :=
  if Text.startsWith "/" command then files.isFile command && files.isExecutable command
  else files.which command

def isUserHead (c : Char) : Bool := c.isLower || c = '_'

def isUserTail (c : Char) : Bool := c.isLower || c.isDigit || c = '_' || c = '-'

/-- `re.fullmatch(r"[a-z_][a-z0-9_-]*", user)`. -/
def isUserName (user : String) : Bool :=
  match user.toList with
  | [] => false
  | c :: cs => isUserHead c && cs.all isUserTail

/-- `re.fullmatch(r"[a-zA-Z0-9][a-zA-Z0-9.-]*", host)`. -/
def isHostName (host : String) : Bool :=
  match host.toList with
  | [] => false
  | c :: cs => c.isAlphanum && cs.all fun d => d.isAlphanum || d = '.' || d = '-'

namespace SSHTransport

/-- `assert_available`. -/
def assertAvailable (py : PythonLibrary) (files : ClientFiles) (scpCommand : String)
    (t : SSHTransport) : Except PyError Unit := do
  unless py.ipAddress t.bindAddress do
    throw (.valueError s!"Invalid bind_address: {t.bindAddress}")
  unless isUserName t.user do throw (.valueError s!"Invalid SSH user: {t.user}")
  unless py.ipAddress t.host || isHostName t.host do
    throw (.valueError s!"Invalid host address: {t.host}")
  for command in [t.sshCommand, scpCommand] do
    unless executableExists files command do
      throw (.runtimeError s!"Required executable is unavailable: {command}")
  if files.isSymlink t.privateKey || !files.isFile t.privateKey then
    throw (.runtimeError s!"Required SSH private key is unavailable: {t.privateKey}")
  if t.configFile ≠ "/dev/null" then
    if files.isSymlink t.configFile || !files.isFile t.configFile || !files.readable
      t.configFile then
      throw (.runtimeError s!"SSH client configuration path is unavailable: {t.configFile}")
  if files.isSymlink t.knownHostsFile then
    throw (.runtimeError s!"Known hosts file must not be a symbolic link: {t.knownHostsFile}")

end SSHTransport

/-! ## `stage` -/

/-- A file of the host, as `stage` finds it under its path. -/
structure HostFile where
  path : String
  /-- `path.resolve()`. -/
  resolved : String
  present : Bool
  isSymlink : Bool
  /-- What a regular file holds. -/
  bytes : Option (List ℕ)
  /-- Reading it raises `OSError`. -/
  unreadable : Bool := false

/-- `path.name`. -/
def HostFile.name (file : HostFile) : String := Text.afterLast '/' file.path

/-- `path.read_text(encoding="utf-8")`. -/
def HostFile.readText (file : HostFile) : Except PyError Str :=
  if file.unreadable then .error .osError
  else match file.bytes.bind decode with
    | some text => .ok (universalNewlines text)
    | none => .error .unicodeDecodeError

/-- A call of `_run` with its input. -/
structure StageCall where
  command : List String
  input : Str
  timeout : ℚ

/-- The command that `stage` gives to the shell of the guest. -/
def stageCommand (remoteDir remotePath : String) : String :=
  let quotedDir := shlexQuote remoteDir
  let quotedPath := shlexQuote remotePath
  s!"install -d -m 700 {quotedDir} && cat > {quotedPath} && chmod 600 {quotedPath}"

/-- `f"{remote_dir.rstrip('/')}/{host_path.name}"`. -/
def HostFile.remotePath (file : HostFile) (remoteDir : String) : String :=
  Text.rstripChar '/' remoteDir ++ "/" ++ file.name

/-- `stage`, with the call it makes and the outcome of that. -/
def SSHTransport.stage (t : SSHTransport) (file : HostFile) (remoteDir : String)
    (outcome : ProbeOutcome) : Option StageCall × Except PyError String :=
  let prepared : Except PyError StageCall := do
    unless file.present do
      throw (.runtimeError s!"File to stage does not exist: {file.path}")
    if file.isSymlink || file.bytes.isNone then
      throw (.runtimeError s!"File to stage must be a regular file: {file.path}")
    unless Text.startsWith "/" remoteDir do
      throw (.valueError s!"remote_dir must be an absolute path: {remoteDir}")
    let content ← file.readText
    let command ← t.command (stageCommand remoteDir (file.remotePath remoteDir))
    return ⟨command, content, 15⟩
  match prepared with
  | .error e => (none, .error e)
  | .ok call =>
      (some call, (SSHTransport.run call.command true outcome).map fun _ =>
        file.remotePath remoteDir)

/-! ## The kernel's command -/

/-- `remote_kernel_command`. -/
def remoteKernelCommand (command : List String) (file : HostFile) (remoteConnectionFile : String) :
    Except PyError (List String) :=
  let candidates := [file.path, file.resolved, file.name]
  if command.any candidates.contains then
    .ok (command.map fun argument =>
      if candidates.contains argument then remoteConnectionFile else argument)
  else .error (.runtimeError "Kernel command does not contain the Jupyter connection file")

/-- The settings of a provisioner that its transport and its kernels depend on. -/
structure RemoteSettings where
  sshUser : String := "freebsd"
  sshCommand : String := "/usr/bin/ssh"
  scpCommand : String := "/usr/bin/scp"
  remoteConnectionDir : String := "/tmp/freebsd-laboratory"
  sshConnectTimeout : ℤ := 5
  sshConnectionAttempts : ℤ := 3
  sshServerAliveInterval : ℤ := 15
  sshServerAliveCountMax : ℤ := 4

/-- `_transport()` of a provisioner with a guest, a key and a known-hosts file. -/
def RemoteSettings.transport (s : RemoteSettings) (guestIp knownHostsFile sshPrivateKey : String) :
    SSHTransport where
  host := guestIp
  user := s.sshUser
  privateKey := sshPrivateKey
  knownHostsFile := knownHostsFile
  sshCommand := s.sshCommand
  connectTimeout := s.sshConnectTimeout
  connectionAttempts := s.sshConnectionAttempts
  serverAliveInterval := s.sshServerAliveInterval
  serverAliveCountMax := s.sshServerAliveCountMax

/-- `"exec " + " ".join(shlex.quote(value) for value in kernel_command)`. -/
def execCommand (kernelCommand : List String) : String := "exec " ++ shlexJoin kernelCommand

/-- `pre_launch` behind `gather`: the connection file is staged, and the command for Jupyter put
together. -/
def SSHTransport.prepareCommand (t : SSHTransport) (file : HostFile) (remoteDir : String)
    (cmd : List String) (tunnelPorts : List ℤ) (outcome : ProbeOutcome) :
    Option StageCall × Except PyError (List String) :=
  match t.stage file remoteDir outcome with
  | (call, .error e) => (call, .error e)
  | (call, .ok remoteConnection) => (call, do
      let kernelCommand ← remoteKernelCommand cmd file remoteConnection
      t.command (execCommand kernelCommand) tunnelPorts)

end FreebsdLaboratory
