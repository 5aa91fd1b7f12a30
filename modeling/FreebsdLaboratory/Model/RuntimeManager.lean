import FreebsdLaboratory.Model.Operations

/-!
# The lifecycle manager

`RuntimeManager` of `runtime_daemon.py`, function by function, as programs over the operations of
`Operations.lean`.  The order of operations, the `check=False` calls whose status is ignored, the
places where a record is written and the extent of each `try` block are the source's.

`time.sleep` between retries is left out: it has no effect another step could see.
-/

namespace FreebsdLaboratory

open Library

/-- A piece of the daemon's code. -/
abbrev Program (α : Type) := Prog Op.Resp PyError α

namespace Program

/-- One atomic operation. -/
def op (o : Op) : Program o.Resp := Prog.op Op.Resp PyError o

def raise {α : Type} (e : PyError) : Program α := Prog.raise e

def ofExcept {α : Type} (x : Except PyError α) : Program α := Prog.ofExcept x

/-- An operation that may itself raise. -/
def loadRegistry (name : String) : Program (Option RuntimeRecord) := do
  ofExcept (← op (.loadRegistry name))

def writeRegistry (record : RuntimeRecord) : Program Unit := do
  ofExcept (← op (.writeRegistry record))

def deleteRegistry (name : String) : Program Unit := do ofExcept (← op (.deleteRegistry name))

def file (effect : FileEffect) : Program Unit := do ofExcept (← op (.file effect))

def resolve (path : String) : Program String := do ofExcept (← op (.resolve path))

/-- `if condition: body`. -/
def when (condition : Prop) [Decidable condition] (body : Program Unit) : Program Unit :=
  if condition then body else pure ()

/-- `for _ in range(attempts)`: runs a command until it exits with status 0; says whether one
did. -/
def retry (attempt : Program Bool) : ℕ → Program Bool
  | 0 => pure false
  | attempts + 1 => do if ← attempt then pure true else retry attempt attempts

end Program

open Program

/-- `CompletedProcess`. -/
structure Completed where
  returncode : ℕ
  stdout : String

/-- `_run`: with `check`, every outcome but status 0 raises; without it a command that could not be
executed counts as status 127.  A timeout always raises, and so does what its handlers do not
catch. -/
def run (command : Command) (check : Bool := true) : Program Completed := do
  match ← op (.run command) with
  | .timeoutExpired => raise (.commandTimedOut command)
  | .raises error => raise error
  | .osError =>
      if check then raise (.unableToExecute command) else pure ⟨127, ""⟩
  | .completed returncode stdout =>
      if check ∧ returncode ≠ 0 then
        raise (.commandFailed command
          (if Text.strip stdout = "" then "command failed" else Text.strip stdout))
      else pure ⟨returncode, stdout⟩

/-- A command run for its status alone. -/
def succeeds (command : Command) : Program Bool := do
  return (← run command false).returncode = 0

/-! ## Process identity -/

/-- `_pid_exists`. -/
def pidExists (pid : ℤ) : Program Bool := do
  if pid ≤ 1 then pure false else ofExcept (← op (.kill pid))

/-- `query_process_identity`. -/
def queryProcessIdentity (pid : ℤ) : Program (Option ProcessIdentity) := do
  if ← pidExists pid then
    match ← op (.ps pid) with
    | .completed 0 stdout => pure (parseProcessIdentity pid stdout)
    | .raises error => raise error
    | _ => pure none
  else pure none

/-- `process_matches`. -/
def processMatches (pid uid : ℤ) (digest : String) : Program Bool := do
  if pid ≤ 1 ∨ uid < 0 ∨ digest = "" then pure false
  else
    match ← queryProcessIdentity pid with
    | some identity => pure (identity.uid = uid ∧ identity.digest = digest)
    | none => pure false

/-- `_owner_alive`. -/
def ownerAlive (record : RuntimeRecord) : Program Bool :=
  match record.ownerPid.asInt, record.ownerUid.asInt, record.ownerProcessDigest.asStr with
  | some ownerPid, some ownerUid, some processDigest =>
      if ownerPid ≤ 1 ∨ processDigest = "" then pure false
      else processMatches ownerPid ownerUid processDigest
  | some ownerPid, some ownerUid, none =>
      -- no digest has a lone surrogate, but `process_matches` compares only when it has asked for
      -- the process
      if record.ownerProcessDigest ≠ .surrogate ∨ ownerPid ≤ 1 ∨ ownerUid < 0 then pure false
      else do
        let _ ← queryProcessIdentity ownerPid
        pure false
  | _, _, _ => pure false

/-- `_owner_from_peer`. -/
def ownerFromPeer (peer : PeerCredentials) (requestedPid : ℤ) : Program RuntimeOwner := do
  let ownerPid ← ofExcept (validateOwnerPid requestedPid)
  if ownerPid ≠ peer.pid then
    raise (.permissionError
      s!"owner_pid {ownerPid} does not match authenticated peer pid {peer.pid}")
  else
    match ← queryProcessIdentity peer.pid with
    | none => raise (.permissionError "Unable to fingerprint authenticated peer process")
    | some identity =>
        if identity.uid ≠ peer.uid then
          raise (.permissionError
            s!"Authenticated peer uid {peer.uid} does not own pid {peer.pid}")
        else
          pure
            { pid := peer.pid
              uid := peer.uid
              gid := peer.gid
              startedAt := identity.startedAt
              processDigest := identity.digest }

/-! ## Locks -/

/-- `with lock: body`. -/
def withLock {α : Type} (lock : LockId) (body : Program α) : Program α := do
  op (.acquire lock)
  Prog.finallyDo body (op (.release lock))

/-- `_serialized_lifecycle` on a method whose first argument is a name. -/
def serializedByName {α : Type} (name : String) (body : Program α) : Program α := do
  op (.runtimeLock name)
  withLock (.runtime name) body

/-! ## Probes -/

/-- `_require_vm_backend`. -/
def requireVmBackend (m : RuntimeManager) : Program Unit := do
  if ← op .vmAvailable then pure ()
  else raise (.runtimeError
    s!"bhyve backend is unavailable: {m.config.vmCommand}; install vm-bhyve")

/-- `_jail_exists`. -/
def jailExists (name : String) : Program Bool := succeeds (.jlsName name)

/-- `_vm_exists`. -/
def vmExists (name : String) : Program Bool := do
  if ← op .vmAvailable then succeeds (.vmInfo name) else pure false

/-- `_dataset_exists`. -/
def datasetExists (dataset : String) : Program Bool := succeeds (.zfsListDataset dataset)

/-- `_interface_exists`. -/
def interfaceExists (interface : String) : Program Bool := succeeds (.ifconfigShow interface)

/-- `md_unit[2:]`. -/
def unitNumber (mdUnit : String) : String := String.ofList (mdUnit.toList.drop 2)

/-- `_md_exists`. -/
def mdExists (mdUnit : String) : Program Bool := do
  if isMdUnit mdUnit then succeeds (.mdconfigQuery (unitNumber mdUnit)) else pure false

/-- `_snapshot_exists`. -/
def snapshotExists (snapshot : String) : Program Bool := do
  if snapshot = "" ∨ '@' ∉ snapshot.toList then pure false
  else succeeds (.zfsListSnapshot snapshot)

/-! ## Bridge, switch and address -/

/-- `_ensure_bridge`. -/
def ensureBridge (m : RuntimeManager) : Program Unit := do
  if ← op (.readFlag .bridgeConfigured) then pure ()
  else withLock .shared do
    if ← op (.readFlag .bridgeConfigured) then pure ()
    else
      let shown ← run .ifconfigBridge false
      let result ←
        (if shown.returncode ≠ 0 then do
          let _ ← run .ifconfigBridgeCreate
          run .ifconfigBridge
        else pure shown)
      let _ ← run (if Text.contains ("inet " ++ m.hostAddress.text ++ " ") result.stdout then
        .ifconfigBridgeUp else .ifconfigBridgeInet)
      op (.setFlag .bridgeConfigured)

/-- `_ensure_vm_switch`. -/
def ensureVmSwitch (m : RuntimeManager) : Program Unit := do
  if ← op (.readFlag .vmSwitchConfigured) then pure ()
  else withLock .shared do
    if ← op (.readFlag .vmSwitchConfigured) then pure ()
    else
      requireVmBackend m
      let result ← run .vmSwitchInfo false
      when (result.returncode ≠ 0) do
        let _ ← run .vmSwitchCreate
      let _ ← run .vmSwitchPrivate
      op (.setFlag .vmSwitchConfigured)

/-- `_allocate`. -/
def allocate (m : RuntimeManager) (name : String) : Program IPv4Address := do
  let address ← ofExcept (← op (.leaseAllocate name))
  if address = m.hostAddress then
    let _ ← ofExcept (← op (.leaseRelease address.text name))
    raise (.runtimeError "Address pool contains the host bridge address")
  else pure address

/-! ## Destroy -/

/-- `DestroyResult`: the dictionary `destroy` returns. -/
structure DestroyResult where
  name : String
  removed : List String
  deriving DecidableEq

/-- One retry loop of `destroy`: the label goes into `removed` if some attempt succeeds. -/
def removeWith (attempts : ℕ) (command : Command) (label : String) : Program (List String) := do
  return if ← retry (succeeds command) attempts then [label] else []

/-- The VM block of `destroy`. -/
def destroyVm (m : RuntimeManager) (name : String) (record : RuntimeRecord) :
    Program (List String) := do
  when (record.type.eqStr "bhyve") (requireVmBackend m)
  let present ← (if record.type.eqStr "bhyve" then pure true else vmExists name)
  if present then
    let _ ← run (.vmPoweroff name) false
    removeWith 5 (.vmDestroy name) "bhyve"
  else pure []

/-- The memory-disk block. -/
def destroyMd (record : RuntimeRecord) : Program (List String) :=
  match record.mdUnit with
  | .str md => if isMdUnit md then removeWith 5 (.mdconfigDetach (unitNumber md)) md else pure []
  | _ => pure []

/-- A dataset block: destroyed if it exists. -/
def destroyDataset (dataset : String) : Program (List String) := do
  if ← datasetExists dataset then removeWith 10 (.zfsDestroyRecursive dataset) dataset else pure []

/-- The block for the dataset the record names. -/
def destroyRecordedDataset (record : RuntimeRecord) : Program (List String) :=
  match record.dataset with
  | .str dataset => destroyDataset dataset
  | .surrogate => raise .unicodeEncodeError
  | _ => pure []

/-- The jail block. -/
def destroyJail (name : String) (record : RuntimeRecord) : Program (List String) := do
  let present ← (if record.type.eqStr "jail" then pure true else jailExists name)
  if present then removeWith 5 (.jailRemove name) "jail" else pure []

/-- The epair block. -/
def destroyEpair (record : RuntimeRecord) : Program (List String) :=
  match record.epairHost with
  | .str epair => if isEpairHost epair then removeWith 5 (.ifconfigDestroy epair) epair else pure []
  | _ => pure []

/-- One of the final probes: the label of what is still there. -/
def labelIf (probe : Program Bool) (label : String) : Program (List String) := do
  return if ← probe then [label] else []

/-- The probe for the recorded epair. -/
def remainingEpair (record : RuntimeRecord) : Program (List String) :=
  match record.epairHost with
  | .str epair => if isEpairHost epair then labelIf (interfaceExists epair) epair else pure []
  | _ => pure []

/-- The probe for the recorded memory disk. -/
def remainingMd (record : RuntimeRecord) : Program (List String) :=
  match record.mdUnit with
  | .str md => if isMdUnit md then labelIf (mdExists md) md else pure []
  | _ => pure []

/-- The probe for the recorded dataset. -/
def remainingDataset (record : RuntimeRecord) : Program (List String) :=
  match record.dataset with
  | .str dataset => labelIf (datasetExists dataset) dataset
  | .surrogate => raise .unicodeEncodeError
  | _ => pure []

/-- The final probes. -/
def remainingResources (m : RuntimeManager) (name : String) (record : RuntimeRecord) :
    Program (List String) := do
  let vm ← labelIf (vmExists name) "bhyve"
  let jail ← labelIf (jailExists name) "jail"
  let epair ← remainingEpair record
  let md ← remainingMd record
  let recorded ← remainingDataset record
  let dataset ← labelIf (datasetExists (m.jailDataset name)) (m.jailDataset name)
  return vm ++ jail ++ epair ++ md ++ recorded ++ dataset

/-- The lease and the ARP entry of a destroyed runtime. -/
def forgetAddress (name : String) (record : RuntimeRecord) : Program Unit :=
  match record.guestIp with
  | .str guestIp =>
      when (guestIp ≠ "") do
        let _ ← ofExcept (← op (.leaseRelease guestIp name))
        let _ ← run (.arpDelete guestIp) false
  -- no address for `release`, and no argument for `arp`
  | .surrogate => raise .unicodeEncodeError
  | _ => pure ()

/-- The last phase: lease, ARP entry and record. -/
def forget (name : String) (record : RuntimeRecord) : Program Unit := do
  forgetAddress name record
  deleteRegistry name

/-- `destroy` inside its lock; `requesterUid` is `none` where the caller passes none. -/
def destroyBody (m : RuntimeManager) (name : String) (requesterUid : Option ℕ) (force : Bool) :
    Program DestroyResult := do
  let name ← ofExcept (validateName name)
  let record := (← loadRegistry name).getD {}
  when (force = false) (ofExcept (authorizeRecord record requesterUid))
  let vm ← destroyVm m name record
  let md ← destroyMd record
  let recorded ← destroyRecordedDataset record
  let jail ← destroyJail name record
  let epair ← destroyEpair record
  let dataset ← destroyDataset (m.jailDataset name)
  let remaining ← remainingResources m name record
  when (remaining ≠ []) (raise (.runtimeError
    ("Runtime cleanup incomplete for " ++ name ++ ": " ++ ", ".intercalate remaining)))
  forget name record
  pure ⟨name, vm ++ md ++ recorded ++ jail ++ epair ++ dataset⟩

/-- `destroy`. -/
def destroy (m : RuntimeManager) (name : String) (requesterUid : Option ℕ) (force : Bool) :
    Program DestroyResult :=
  serializedByName name (destroyBody m name requesterUid force)

/-! ## Reconciliation before create -/

/-- `_reconcile_registered_before_create`. -/
def reconcileRegisteredBeforeCreate (m : RuntimeManager) (name : String) (owner : RuntimeOwner) :
    Program Unit := do
  match ← loadRegistry name with
  | none => pure ()
  | some record =>
      if recordOwnedBy record owner = false then
        raise (.runtimeError s!"Runtime already registered: {name}")
      else
        let _ ← destroy m name (some owner.uid) false
        if (← loadRegistry name).isSome then
          raise (.runtimeError s!"Runtime cleanup incomplete before recreate: {name}")

/-- `_reconcile_orphaned_jail_before_create`. -/
def reconcileOrphanedJailBeforeCreate (m : RuntimeManager) (name dataset : String) :
    Program Unit := do
  if (← loadRegistry name).isSome then pure ()
  else
    let jail ← jailExists name
    let present ← (if jail then pure true else datasetExists dataset)
    if present then
      let _ ← destroy m name none true
      let jail ← jailExists name
      let left ← datasetExists dataset
      if jail || left then
        raise (.runtimeError ("Unable to reconcile orphaned runtime " ++ name ++ ": "
          ++ ", ".intercalate ((if jail then ["jail:" ++ name] else [])
            ++ if left then ["dataset:" ++ dataset] else [])))

/-! ## Creating a jail -/

/-- What both create operations return. -/
structure CreateResult where
  name : String
  type : String
  profile : Option String
  guestOs : Option String
  guestIp : String
  networkCidr : String
  bridge : String
  interface : String
  deriving DecidableEq

/-- `jail_root_path in home_path.parents or home_path == jail_root_path`. -/
def pathWithin (root path : String) : Bool :=
  path == root || Text.startsWith (Text.rstripChar '/' root ++ "/") path

/-- `_install_jail_authorized_key`. -/
def installJailAuthorizedKey (m : RuntimeManager) (jailRoot publicKey : String) :
    Program Unit := do
  let user := Text.strip (← run (.pwUsershow jailRoot)).stdout
  match Text.splitAt ':' user with
  | [_, _, uidText, gidText, _, home, _] =>
      match Text.parseInt uidText, Text.parseInt gidText with
      | some uid, some gid =>
          if Text.startsWith "/" home = false ∨ home = "/" then
            raise (.runtimeError "Jail SSH user must have a dedicated absolute home directory")
          else
            let homePath ← resolve (jailRoot ++ "/" ++ Text.lstripChar '/' home)
            let jailRootPath ← resolve jailRoot
            when (pathWithin jailRootPath homePath = false)
              (raise (.runtimeError "Jail SSH home escapes the jail root"))
            let sshDir := homePath ++ "/.ssh"
            when (← op (.ask (.isSymlink sshDir))) (file (.unlink sshDir))
            file (.mkdir sshDir)
            file (.chmod sshDir)
            file (.chown sshDir uid gid)
            let authorizedKeys := sshDir ++ "/authorized_keys"
            when (← op (.ask (.isSymlink authorizedKeys))) (file (.unlink authorizedKeys))
            file (.writeText authorizedKeys (publicKey ++ "\n"))
            file (.chmod authorizedKeys)
            file (.chown authorizedKeys uid gid)
      | _, _ => raise (.valueError "invalid literal for int() with base 10")
  | _ => raise (.runtimeError s!"Unable to resolve jail SSH user: {m.config.jailSshUser}")

/-- `f"{epair_host[:-1]}b"`. -/
def guestSide (epairHost : String) : String := String.ofList (epairHost.toList.dropLast) ++ "b"

/-- The record `create_jail` writes before its `try` block. -/
def jailRecord (m : RuntimeManager) (name : String) (owner : RuntimeOwner) (address : IPv4Address)
    (dataset jailRoot : String) : RuntimeRecord :=
  owner.registryFields
    { name := .str name
      type := .str "jail"
      guestIp := .str address.text
      dataset := .str dataset
      jailRoot := .str jailRoot
      bridge := .str m.config.bridgeName
      jailCreated := .bool false
      datasetCreated := .bool false }

/-- The record as the `try` block completes it.  The source sets each field once the step is done;
nothing reads the record before the last write. -/
def RuntimeRecord.withJail (record : RuntimeRecord) (epairHost : String) : RuntimeRecord :=
  { record with
    datasetCreated := .bool true
    epairHost := .str epairHost
    epairGuest := .str (guestSide epairHost)
    jailCreated := .bool true }

/-- The `try` block of `create_jail`. -/
def createJailTry (m : RuntimeManager) (name publicKey : String) (address : IPv4Address)
    (dataset jailRoot : String) (record : RuntimeRecord) : Program CreateResult := do
  let _ ← run (.zfsCloneTemplate jailRoot dataset)
  installJailAuthorizedKey m jailRoot publicKey
  let epairResult ← run .ifconfigEpairCreate
  let epairHost ← ofExcept (newEpairHost epairResult.stdout)
  let _ ← run (.ifconfigBridgeAddm epairHost)
  let _ ← run (.ifconfigBridgePrivate epairHost)
  let _ ← run (.ifconfigUp epairHost)
  let _ ← run (.jailCreate name jailRoot (guestSide epairHost))
  let _ ← run (.jexecStart name (guestSide epairHost) address.text)
  writeRegistry (record.withJail epairHost)
  pure
    { name := name
      type := "jail"
      profile := none
      guestOs := none
      guestIp := address.text
      networkCidr := m.config.networkCidr
      bridge := m.config.bridgeName
      interface := m.config.jailInterfaceName }

/-- `try: attempt except Exception: self.destroy(name, force=True); raise`. -/
def cleaningUp {α : Type} (m : RuntimeManager) (name : String) (attempt : Program α) : Program α :=
  Prog.tryCatch attempt fun error => do
    let _ ← destroy m name none true
    raise error

/-- `create_jail` inside its lock. -/
def createJailBody (m : RuntimeManager) (name : String) (ownerPid : ℤ) (peer : PeerCredentials)
    (sshPublicKey : String) : Program CreateResult := do
  let name ← ofExcept (validateName name)
  let publicKey ← ofExcept (validateSshPublicKey sshPublicKey)
  let owner ← ownerFromPeer peer ownerPid
  reconcileRegisteredBeforeCreate m name owner
  let dataset := m.jailDataset name
  reconcileOrphanedJailBeforeCreate m name dataset
  ensureBridge m
  let jailRoot ← resolve (m.config.jailMountRoot ++ "/" ++ name)
  let address ← allocate m name
  let _ ← run (.arpDelete address.text) false
  let record := jailRecord m name owner address dataset jailRoot
  writeRegistry record
  cleaningUp m name (createJailTry m name publicKey address dataset jailRoot record)

/-- `create_jail`. -/
def createJail (m : RuntimeManager) (name : String) (ownerPid : ℤ) (peer : PeerCredentials)
    (sshPublicKey : String) : Program CreateResult :=
  serializedByName name (createJailBody m name ownerPid peer sshPublicKey)

/-! ## Creating a VM -/

/-- The branch of `_create_memdisk` that copies a clone of the snapshot. -/
def copySnapshot (m : RuntimeManager) (name snapshot md : String) : Program Unit := do
  let tmpSrc := m.srcDataset name
  when (← datasetExists tmpSrc) do
    let _ ← run (.zfsDestroyRecursive tmpSrc) false
  let _ ← run (.zfsClone snapshot tmpSrc)
  Prog.finallyDo (do let _ ← run (.dd ("/dev/zvol/" ++ tmpSrc) md))
    (do let _ ← run (.zfsDestroyRecursive tmpSrc) false)

/-- The branch that copies the image file, if there is one. -/
def copyImage (image md : String) : Program Unit := do
  when (← op (.ask (.isFile image))) do
    let _ ← run (.dd image md)

/-- `_create_memdisk`, with the profile's snapshot and image. -/
def createMemdisk (m : RuntimeManager) (name snapshot image : String) : Program String := do
  let snapshot := if snapshot = "" then m.config.vmZvolSnapshot else snapshot
  let image := if image = "" then m.config.vmImage else image
  let result ← run .mdconfigAttach
  let md ← ofExcept (newMdUnit result.stdout)
  let fromSnapshot ← snapshotExists snapshot
  (if fromSnapshot then copySnapshot m name snapshot md else copyImage image md)
  pure md

/-- `_configure_vm_memdisk`. -/
def configureVmMemdisk (name md : String) : Program Unit := do
  let _ ← run (.vmSet name ("disk0_name=/dev/" ++ md)) false
  let _ ← run (.vmSet name "disk0_dev=custom") false

/-- The record `create_bhyve` writes before its `try` block. -/
def bhyveRecord (m : RuntimeManager) (name : String) (owner : RuntimeOwner) (address : IPv4Address)
    (profile : String) (guestProfile : BhyveGuestProfile) : RuntimeRecord :=
  owner.registryFields
    { name := .str name
      type := .str "bhyve"
      profile := .str profile
      guestOs := .str guestProfile.guestOs
      guestIp := .str address.text
      bridge := .str m.config.bridgeName
      diskBackend := .str m.config.vmDiskBackend
      vmCreated := .bool false }

/-- The `zvol-clone` backend. -/
def cloneVmDisk (m : RuntimeManager) (name key netconfig : String)
    (guestProfile : BhyveGuestProfile) (record : RuntimeRecord) : Program RuntimeRecord := do
  let vmDataset := m.vmDataset name
  let _ ← run (.vmCreate guestProfile.template none key netconfig name)
  when (← datasetExists (vmDataset ++ "/disk0")) do
    let _ ← run (.zfsDestroy (vmDataset ++ "/disk0"))
  let _ ← run (.zfsClone guestProfile.zvolSnapshot (vmDataset ++ "/disk0"))
  pure { record with dataset := .str vmDataset }

/-- The `memdisk` backend. -/
def memdiskVmDisk (m : RuntimeManager) (name key netconfig : String)
    (guestProfile : BhyveGuestProfile) (record : RuntimeRecord) : Program RuntimeRecord := do
  let md ← createMemdisk m name guestProfile.zvolSnapshot guestProfile.image
  let _ ← run (.vmCreate guestProfile.memdiskTemplate none key netconfig name)
  configureVmMemdisk name md
  pure { record with mdUnit := .str md }

/-- `zvol-clone` is configured and the profile's snapshot exists. -/
def clonesVmDisk (m : RuntimeManager) (guestProfile : BhyveGuestProfile) : Program Bool :=
  if m.config.vmDiskBackend = "zvol-clone" then snapshotExists guestProfile.zvolSnapshot
  else pure false

/-- The disk backends of the `try` block: the record with what was created. -/
def createVmDisk (m : RuntimeManager) (name key netconfig : String)
    (guestProfile : BhyveGuestProfile) (record : RuntimeRecord) : Program RuntimeRecord := do
  if ← clonesVmDisk m guestProfile then cloneVmDisk m name key netconfig guestProfile record
  else if m.config.vmDiskBackend = "memdisk" then
    memdiskVmDisk m name key netconfig guestProfile record
  else
    let _ ← run (.vmCreate guestProfile.template (some guestProfile.image) key netconfig name)
    pure record

/-- The path `_write_runtime_public_key` returns; the random part of the name is not modelled. -/
def publicKeyPath (name : String) : String := "." ++ name ++ ".ssh-key"

/-- The `try` block of `create_bhyve` after the key file exists. -/
def createBhyveTry (m : RuntimeManager) (name : String) (address : IPv4Address) (profile : String)
    (guestProfile : BhyveGuestProfile) (record : RuntimeRecord) : Program CreateResult := do
  let netconfig := ";".intercalate
    [s!"interface={guestProfile.interface}", s!"ip={address.text}/{m.prefixLen}",
      s!"hostname={name}"]
  let record ← createVmDisk m name (publicKeyPath name) netconfig guestProfile record
  writeRegistry { record with vmCreated := .bool true }
  let _ ← run (.vmStart name)
  pure
    { name := name
      type := "bhyve"
      profile := some profile
      guestOs := some guestProfile.guestOs
      guestIp := address.text
      networkCidr := m.config.networkCidr
      bridge := m.config.bridgeName
      interface := guestProfile.interface }

/-- `finally: if temporary_public_key.exists(): temporary_public_key.unlink()`. -/
def removePublicKey (name : String) : Program Unit := do
  if ← op (.ask (.exists (publicKeyPath name))) then file (.unlink (publicKeyPath name))

/-- `create_bhyve` inside its lock. -/
def createBhyveBody (m : RuntimeManager) (name : String) (ownerPid : ℤ) (peer : PeerCredentials)
    (sshPublicKey profile : String) : Program CreateResult := do
  let name ← ofExcept (validateName name)
  let _ ← ofExcept (validateSshPublicKey sshPublicKey)
  match BHYVE_PROFILES.lookup profile with
  | none =>
      raise (.valueError ("Unknown bhyve guest profile: '" ++ profile
        ++ "'. Supported profiles: ['freebsd-python', 'linux-python']"))
  | some guestProfile =>
      let owner ← ownerFromPeer peer ownerPid
      requireVmBackend m
      reconcileRegisteredBeforeCreate m name owner
      ensureBridge m
      ensureVmSwitch m
      when (← succeeds (.vmInfo name))
        (raise (.runtimeError s!"Refusing to replace existing vm-bhyve guest: {name}"))
      let address ← allocate m name
      let _ ← run (.arpDelete address.text) false
      let record := bhyveRecord m name owner address profile guestProfile
      writeRegistry record
      -- the `finally` removes the key file only once `_write_runtime_public_key` has returned
      cleaningUp m name (file (.writeRuntimePublicKey name))
      Prog.finallyDo
        (cleaningUp m name (createBhyveTry m name address profile guestProfile record))
        (removePublicKey name)

/-- `create_bhyve`. -/
def createBhyve (m : RuntimeManager) (name : String) (ownerPid : ℤ) (peer : PeerCredentials)
    (sshPublicKey profile : String) : Program CreateResult :=
  serializedByName name (createBhyveBody m name ownerPid peer sshPublicKey profile)

end FreebsdLaboratory
