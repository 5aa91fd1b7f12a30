import FreebsdLaboratory.Library.Base64
import FreebsdLaboratory.Library.Sha256
import FreebsdLaboratory.Model.Network

/-!
# Runtimes, their owners and their registry records

The data of `runtime_daemon.py`: the configuration, the credentials and the fingerprint of an owner,
the guest profiles, the registry record, and the checks on names, process ids and public keys that
stand before every lifecycle operation.
-/

namespace FreebsdLaboratory

open Library

/-! ## Names -/

def RUNTIME_PREFIX : String := "freebsd-lab-"

/-- `[a-z0-9]`. -/
def isNameChar (c : Char) : Bool := ('a' ≤ c && c ≤ 'z') || ('0' ≤ c && c ≤ '9')

/-- `RUNTIME_NAME_RE.fullmatch(name)`. -/
def isRuntimeName (name : String) : Bool :=
  let tail := name.toList.drop RUNTIME_PREFIX.length
  RUNTIME_PREFIX.toList.isPrefixOf name.toList && 1 ≤ tail.length && tail.length ≤ 16
    && tail.all isNameChar

theorem isRuntimeName_iff {name : String} :
    isRuntimeName name = true ↔ ∃ tail : List Char, name.toList = RUNTIME_PREFIX.toList ++ tail
      ∧ 1 ≤ tail.length ∧ tail.length ≤ 16 ∧ ∀ c ∈ tail, isNameChar c = true := by
  have hlen : RUNTIME_PREFIX.length = RUNTIME_PREFIX.toList.length := by decide
  simp only [isRuntimeName, Bool.and_eq_true, decide_eq_true_eq, List.all_eq_true, hlen]
  constructor
  · rintro ⟨⟨⟨hpre, h1⟩, h16⟩, hall⟩
    obtain ⟨tail, htail⟩ := List.isPrefixOf_iff_prefix.mp hpre
    rw [← htail, List.drop_left] at h1 h16 hall
    exact ⟨tail, htail.symm, h1, h16, hall⟩
  · rintro ⟨tail, htail, h1, h16, hall⟩
    rw [htail, List.drop_left]
    exact ⟨⟨⟨List.isPrefixOf_iff_prefix.mpr (List.prefix_append _ _), h1⟩, h16⟩, hall⟩

/-- `validate_name`. -/
def validateName (name : String) : Except PyError String :=
  if isRuntimeName name then .ok name
  else .error (.valueError "Invalid FreeBSD Laboratory runtime name")

/-- `validate_owner_pid` on an integer. -/
def validateOwnerPid (ownerPid : ℤ) : Except PyError ℤ :=
  if ownerPid ≤ 1 then .error (.valueError "owner_pid must be a positive host process id")
  else .ok ownerPid

/-! ## Public keys -/

/-- `base64.b64decode(text, validate=True)`, `none` where it raises. -/
def base64Decode (text : List Char) : Option (List ℕ) := Base64.decode (text.map Char.toNat)

/-- The bytes of an ASCII text. -/
def asciiBytes (s : String) : List ℕ := s.toList.map Char.toNat

/-- `validate_ssh_public_key` on a string. -/
def validateSshPublicKey (value : String) : Except PyError String :=
  if value = "" ∨ value.length > 1024 then
    .error (.valueError "Runtime SSH public key is invalid")
  else if '\n' ∈ value.toList ∨ '\r' ∈ value.toList then
    .error (.valueError "Runtime SSH public key must be one line")
  else match Text.split (Text.strip value) with
    | algorithm :: material :: _ =>
        if algorithm ≠ "ssh-ed25519" then
          .error (.valueError "Runtime SSH public key must be Ed25519")
        else match base64Decode material.toList with
          | none => .error (.valueError "Runtime SSH public key has invalid base64")
          | some blob =>
              if blob.length ≠ 51 ∨ blob.take 4 ≠ [0, 0, 0, 11]
                  ∨ (blob.drop 4).take 11 ≠ asciiBytes "ssh-ed25519"
                  ∨ (blob.drop 15).take 4 ≠ [0, 0, 0, 32] then
                .error (.valueError "Runtime SSH public key has invalid Ed25519 encoding")
              else .ok ("ssh-ed25519 " ++ material)
    | _ => .error (.valueError "Runtime SSH public key must be Ed25519")

/-! ## Configuration -/

/-- `RuntimeConfig`, without the addresses, which `RuntimeManager` holds in parsed form. -/
structure RuntimeConfig where
  networkCidr : String := "172.31.254.0/24"
  bridgeName : String := "labbridge0"
  jailTemplateSnapshot : String := "zroot/jails/templates/freebsd-python@clean"
  jailDatasetParent : String := "zroot/jails/containers"
  jailMountRoot : String := "/usr/local/jails/containers"
  jailInterfaceName : String := "vnet0"
  jailSshUser : String := "freebsd"
  jailSshdService : String := "/usr/sbin/service"
  vmCommand : String := "/usr/local/sbin/vm"
  vmImage : String := "freebsd-python.raw"
  vmSwitch : String := "freebsdlab"
  vmDiskBackend : String := "zvol-clone"
  vmZvolSnapshot : String := "zroot/vm/.zvol/freebsd-python@ready"
  vmZvolParent : String := "zroot/vm/.zvol"
  vmDatasetParent : String := "zroot/vm"
  vmDiskSize : String := "3G"
  vmMemdiskType : String := "swap"

/-! ## The names of host resources -/

/-- `re.fullmatch(r"epair\d+a", name)`. -/
def isEpairHost (name : String) : Bool := (Text.matchDigits "epair" "a" name).isSome

/-- `re.fullmatch(r"md\d+", name)`. -/
def isMdUnit (name : String) : Bool := (Text.matchDigits "md" "" name).isSome

/-- `stdout.strip().splitlines()[-1].strip()`, `none` where there is no line. -/
def lastLine (stdout : String) : Option String :=
  (Text.splitLines (Text.strip stdout)).getLast?.map Text.strip

/-- The name of the new host interface, from the output of `ifconfig epair create`. -/
def newEpairHost (stdout : String) : Except PyError String :=
  match lastLine stdout with
  | none => .error .indexError
  | some epair =>
      if Text.endsWith "a" epair then .ok epair
      else .error (.runtimeError s!"Unexpected epair interface name: {epair}")

/-- `re.search(r"(?:^|/dev/)?(md\d+)$", output)` on stripped output: the longest `md` and digits
the text ends with. -/
def newMdUnit (stdout : String) : Except PyError String :=
  let output := Text.strip stdout
  let digits := output.toList.rtakeWhile Text.isDigit
  let before := output.toList.take (output.length - digits.length)
  if digits ≠ [] ∧ ['m', 'd'].isSuffixOf before then .ok (String.ofList ('m' :: 'd' :: digits))
  else .error (.runtimeError s!"Unexpected mdconfig output: {output}")

namespace RuntimeConfig

/-- `_jail_dataset`. -/
def jailDataset (config : RuntimeConfig) (name : String) : String :=
  Text.rstripChar '/' config.jailDatasetParent ++ "/" ++ name

/-- The dataset of a VM. -/
def vmDataset (config : RuntimeConfig) (name : String) : String :=
  config.vmDatasetParent ++ "/" ++ name

/-- The temporary clone `_create_memdisk` copies from. -/
def srcDataset (config : RuntimeConfig) (name : String) : String :=
  config.vmZvolParent ++ "/" ++ name ++ "-src"

/-- The datasets under which those of the runtimes lie. -/
def parents (config : RuntimeConfig) : List String :=
  [Text.rstripChar '/' config.jailDatasetParent, config.vmDatasetParent, config.vmZvolParent]

/-- The datasets the daemon destroys for a runtime, by their roots. -/
def roots (config : RuntimeConfig) (name : String) : List String :=
  [config.jailDataset name, config.vmDataset name, config.srcDataset name]

end RuntimeConfig

/-- What `RuntimeManager.__init__` leaves behind and no request changes.  `host_mem` is its check;
`parents_outside` is what the administrator sees to: no configured parent lies in a dataset that
belongs to a runtime. -/
structure RuntimeManager where
  config : RuntimeConfig := {}
  pool : IPv4LeasePool
  hostAddress : IPv4Address
  host_mem : pool.network.contains hostAddress = true
  parents_outside : ∀ name, isRuntimeName name = true → ∀ root ∈ config.roots name,
    ∀ parent ∈ config.parents, Text.isBelow root parent = false

namespace RuntimeManager

def jailDataset (m : RuntimeManager) (name : String) : String := m.config.jailDataset name

def vmDataset (m : RuntimeManager) (name : String) : String := m.config.vmDataset name

def srcDataset (m : RuntimeManager) (name : String) : String := m.config.srcDataset name

/-- The path of a runtime's dataset starts with a parent and the prefix of all names. -/
theorem prefix_of_root {config : RuntimeConfig} {name root : String}
    (hname : isRuntimeName name = true) (hroot : root ∈ config.roots name) :
    ∃ parent ∈ config.parents, (parent ++ "/" ++ RUNTIME_PREFIX).toList <+: root.toList := by
  have hpre : RUNTIME_PREFIX.toList <+: name.toList := by
    simp only [isRuntimeName, Bool.and_eq_true] at hname
    exact List.isPrefixOf_iff_prefix.mp hname.1.1.1
  obtain ⟨tail, htail⟩ := hpre
  simp only [RuntimeConfig.roots, List.mem_cons, List.not_mem_nil, or_false] at hroot
  rcases hroot with rfl | rfl | rfl
  · exact ⟨Text.rstripChar '/' config.jailDatasetParent, by simp [RuntimeConfig.parents],
      by simp [RuntimeConfig.jailDataset, ← htail]⟩
  · exact ⟨config.vmDatasetParent, by simp [RuntimeConfig.parents],
      by simp [RuntimeConfig.vmDataset, ← htail]⟩
  · exact ⟨config.vmZvolParent, by simp [RuntimeConfig.parents],
      by simp [RuntimeConfig.srcDataset, ← htail]⟩

/-- `RuntimeManager(RuntimeConfig())`. -/
def standard : RuntimeManager where
  pool :=
    { network := { address := .ofOctets 172 31 254 0, prefixLen := 24 }
      start := .ofOctets 172 31 254 10
      finish := .ofOctets 172 31 254 199
      start_mem := by decide
      finish_mem := by decide
      start_le_finish := by decide }
  hostAddress := .ofOctets 172 31 254 1
  host_mem := by decide
  parents_outside := by
    have hapart : ∀ parent ∈ RuntimeConfig.parents {}, ∀ parent' ∈ RuntimeConfig.parents {},
        ¬ (parent ++ "/" ++ RUNTIME_PREFIX).toList <+: parent'.toList := by decide
    intro name hname root hroot parent' hparent'
    obtain ⟨parent, hparent, hpre⟩ := prefix_of_root hname hroot
    by_contra hbelow
    have hroot' := (Text.isBelow_iff.mp (by simpa using hbelow)).prefix_of
    exact hapart parent hparent parent' hparent' (hpre.trans hroot')

end RuntimeManager

/-- `prefix_len`. -/
def RuntimeManager.prefixLen (m : RuntimeManager) : ℕ := m.pool.network.prefixLen

/-- `BhyveGuestProfile`. -/
structure BhyveGuestProfile where
  template : String
  memdiskTemplate : String
  image : String
  zvolSnapshot : String
  interface : String
  guestOs : String

/-- `BHYVE_PROFILES`. -/
def BHYVE_PROFILES : List (String × BhyveGuestProfile) :=
  [("freebsd-python",
    { template := "freebsd-lab"
      memdiskTemplate := "freebsd-lab-memdisk"
      image := "freebsd-python.raw"
      zvolSnapshot := "zroot/vm/.zvol/freebsd-python@ready"
      interface := "vtnet0"
      guestOs := "freebsd" }),
   ("linux-python",
    { template := "linux-lab"
      memdiskTemplate := "linux-lab-memdisk"
      image := "linux-python.raw"
      zvolSnapshot := "zroot/vm/.zvol/linux-python@ready"
      interface := "eth0"
      guestOs := "linux" })]

/-! ## Owners -/

/-- `PeerCredentials`, as `LOCAL_PEERCRED` reports them. -/
structure PeerCredentials where
  pid : ℤ
  uid : ℕ
  gid : ℕ
  deriving DecidableEq

/-- A process of the host; `started` is what `ps -o lstart=` prints for it. -/
structure Process where
  pid : ℤ
  uid : ℕ
  started : String
  deriving DecidableEq

/-- The largest process id `os.kill` accepts; beyond it the call raises `OverflowError`. -/
def maxPid : ℤ := 2 ^ 31 - 1

/-- A process starts or ends. -/
inductive ProcessEvent where
  | started (p : Process)
  | ended (pid : ℤ)
  deriving DecidableEq

/-- The start time of a process as the daemon records it. -/
def Process.startedAt (p : Process) : String := " ".intercalate (Text.split p.started)

/-- `ProcessIdentity`. -/
structure ProcessIdentity where
  pid : ℤ
  uid : ℤ
  startedAt : String
  digest : String
  deriving DecidableEq

/-- The fingerprint of a UID and a start time. -/
def processDigest (uid : ℤ) (startedAt : String) : String :=
  Sha256.hexDigest (toString uid ++ ":" ++ startedAt)

/-- What identifies a process for good: its id, its user and its start time. -/
def Process.fingerprint (p : Process) : ℤ × ℤ × String :=
  (p.pid, p.uid, processDigest p.uid p.startedAt)

/-- The identity `query_process_identity` reads off the output of `ps`, if it can. -/
def parseProcessIdentity (pid : ℤ) (stdout : String) : Option ProcessIdentity :=
  match Text.split stdout with
  | uidText :: started@(_ :: _) =>
      let startedAt := " ".intercalate started
      (Text.parseInt uidText).map fun uid => ⟨pid, uid, startedAt, processDigest uid startedAt⟩
  | _ => none

/-- `RuntimeOwner`. -/
structure RuntimeOwner where
  pid : ℤ
  uid : ℕ
  gid : ℕ
  startedAt : String
  processDigest : String
  deriving DecidableEq

/-! ## Registry records -/

/-- A registry record, by the fields the daemon writes.  A field that is absent reads as `null`,
which is what `record.get` makes of it. -/
structure RuntimeRecord where
  name : RecordValue := .null
  type : RecordValue := .null
  profile : RecordValue := .null
  guestOs : RecordValue := .null
  ownerPid : RecordValue := .null
  ownerUid : RecordValue := .null
  ownerGid : RecordValue := .null
  ownerStartedAt : RecordValue := .null
  ownerProcessDigest : RecordValue := .null
  guestIp : RecordValue := .null
  dataset : RecordValue := .null
  jailRoot : RecordValue := .null
  bridge : RecordValue := .null
  epairHost : RecordValue := .null
  epairGuest : RecordValue := .null
  jailCreated : RecordValue := .null
  datasetCreated : RecordValue := .null
  diskBackend : RecordValue := .null
  mdUnit : RecordValue := .null
  vmCreated : RecordValue := .null
  deriving DecidableEq

/-- `{**owner.registry_fields()}`. -/
def RuntimeOwner.registryFields (owner : RuntimeOwner) (record : RuntimeRecord) : RuntimeRecord :=
  { record with
    ownerPid := .int owner.pid
    ownerUid := .int owner.uid
    ownerGid := .int owner.gid
    ownerStartedAt := .str owner.startedAt
    ownerProcessDigest := .str owner.processDigest }

/-- `_authorize_record`; the requester is the authenticated UID. -/
def authorizeRecord (record : RuntimeRecord) (requesterUid : Option ℕ) : Except PyError Unit :=
  match requesterUid with
  | none => .error (.permissionError "Runtime operation has no authenticated requester")
  | some uid =>
      if uid = 0 then .ok ()
      else if record.ownerUid = .int uid then .ok ()
      else .error (.permissionError "Runtime is owned by another Unix user")

/-- `_record_owned_by`. -/
def recordOwnedBy (record : RuntimeRecord) (owner : RuntimeOwner) : Bool :=
  record.ownerPid.eqInt owner.pid && record.ownerUid.eqInt owner.uid
    && record.ownerGid.eqInt owner.gid && record.ownerProcessDigest.eqStr owner.processDigest

end FreebsdLaboratory
