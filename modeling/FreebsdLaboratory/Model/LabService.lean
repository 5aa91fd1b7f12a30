import FreebsdLaboratory.Model.Signing

/-!
# The evidence session

`LabService` of `service.py`.  What is fixed when the service starts is `LabService`; what its
methods change is `Session`: the list of events in memory and the files of the session directory.

Every method that touches the session does so under `_lock`, so a call is one step, in the order in
which the threads get the lock; the checks in front of the lock read nothing that changes.  The
environment chooses the clock and how each write ends.
-/

namespace FreebsdLaboratory

open Library Library.Unicode Library.Json

/-! ## The session -/

/-- `lab.yaml` as `_load_spec` accepts it. -/
structure LabSpec where
  document : Items
  id : Str
  schema_eq : Value.lookup document (str "schema") = some (.str (str "softcloud.lab/v1"))
  id_eq : Value.lookup document (str "id") = some (.str id)
  id_ne_nil : id ≠ []

/-- What a path leads to. -/
structure PathTarget where
  isSymlink : Bool
  /-- The last part of the resolved path. -/
  name : Str
  /-- The content, if it is a regular file. -/
  content : Option Bytes

/-- What is fixed when the service has started. -/
structure LabService where
  spec : LabSpec
  sessionId : String
  startedAt : String
  sessionDir : Str
  maxEvents : ℕ
  maxEventPayloadBytes : ℕ
  fsyncEvents : Bool
  /-- `platform.system()`, `platform.release()` and `platform.machine()`. -/
  system : String
  release : String
  machine : String
  /-- A path after `expanduser()`; `none` where that raises. -/
  path : Str → Option PathTarget
  maxEvents_pos : 1 ≤ maxEvents
  maxEventPayloadBytes_ge : 1024 ≤ maxEventPayloadBytes

structure EvidenceEvent where
  sequence : ℕ
  recordedAt : Str
  kind : Str
  source : Str
  payloadSha256 : Str
  payload : Items

/-- The fields of an event. -/
def EvidenceEvent.items (e : EvidenceEvent) : Items :=
  [(str "sequence", .int e.sequence), (str "recorded_at", .str e.recordedAt),
    (str "kind", .str e.kind), (str "source", .str e.source),
    (str "payload_sha256", .str e.payloadSha256), (str "payload", .dict e.payload)]

/-- `asdict(event)` -/
def EvidenceEvent.asdict (e : EvidenceEvent) : Value := .dict e.items

/-- What the methods of the service change. -/
structure Session where
  events : List EvidenceEvent
  /-- The regular files of the session directory. -/
  files : Str → Option Bytes

def eventsName : Str := str "events.jsonl"
def evidenceName : Str := str "evidence.json"
def environmentName : Str := str "environment.json"
def manifestName : Str := str "manifest.json"
def signatureName : Str := str "manifest.sig.json"
def temporaryName : Str := str ".manifest.sig.json.tmp"
def sumsName : Str := str "SHA256SUMS"

/-- The session of a service that has just started. -/
def Session.fresh : Session := ⟨[], fun name => if name = eventsName then some [] else none⟩

/-- The bytes of `events.jsonl`. -/
def Session.log (s : Session) : Bytes := (s.files eventsName).getD []

/-- The session with new content of a file. -/
def Session.setFile (s : Session) (name : Str) (content : Option Bytes) : Session :=
  { s with files := fun n => if n = name then content else s.files n }

/-- A method: it returns or raises, and leaves a session. -/
abbrev ServiceM (α : Type) := ExceptT ServiceError (StateM Session) α

/-- The size a file can have, in a signed 64-bit `off_t`. -/
def maxFileSize : ℕ := 2 ^ 63 - 1

/-! ## Recording -/

/-- How an append to `events.jsonl` ends. -/
inductive AppendAnswer where
  /-- Opening the file, or writing to it, raises before anything is written. -/
  | raises
  /-- The write returns with so many bytes left out, and `fsync` and `close` end as told. -/
  | writes (missing : ℕ) (synced closed : Bool)

/-- `stream.write(serialized)`, `os.fsync` and closing the stream. -/
def LabService.append (m : LabService) (serialized : Bytes) (a : AppendAnswer) : ServiceM Unit := do
  match a with
  | .raises => throw .writeFailed
  | .writes missing synced closed =>
      let s ← get
      let written := serialized.take (serialized.length - missing)
      if s.log.length + written.length > maxFileSize then throw .writeFailed
      set (s.setFile eventsName (some (s.log ++ written)))
      if m.fsyncEvents && !synced || !closed then throw .writeFailed

/-- The payload that a call keeps, with its canonical bytes. -/
def LabService.safePayload (m : LabService) (kind : Str) (payload : Value) :
    Except ServiceError (Items × Bytes) :=
  match payload with
  | .dict _ => do
      match ← redactPayload payload with
      | .dict redacted =>
          let incoming ← canonicalJson (.dict redacted)
          if incoming.length > m.maxEventPayloadBytes then
            throw (.payloadTooLarge incoming.length m.maxEventPayloadBytes)
          let safe ← minimizePersistedPayload kind redacted
          let bytes ← canonicalJson (.dict safe)
          return (safe, bytes)
      | _ => throw (.valueError (str "Redacted event payload must be a mapping"))
  | _ => throw (.valueError (str "Event payload must be a mapping"))

/-- The event that a call makes of a session, with its line. -/
def LabService.nextEvent (m : LabService) (kind : Str) (payload : Value) (source : Str)
    (now : String) (s : Session) : Except ServiceError (EvidenceEvent × Bytes) := do
  let (safe, bytes) ← m.safePayload kind payload
  if s.events.length ≥ m.maxEvents then throw (.eventLimitReached m.maxEvents)
  let event : EvidenceEvent :=
    { sequence := s.events.length + 1
      recordedAt := str now
      kind := kind
      source := source
      payloadSha256 := sha256Bytes bytes
      payload := safe }
  let line ← canonicalJson event.asdict
  return (event, line)

/-- `_record(kind, payload, source)` -/
def LabService.record (m : LabService) (kind : Str) (payload : Value) (source : Str)
    (now : String) (a : AppendAnswer) : ServiceM EvidenceEvent := do
  let s ← get
  let (event, line) ← ExceptT.mk (pure (m.nextEvent kind payload source now s))
  m.append (line ++ [10]) a
  modify fun s => { s with events := s.events ++ [event] }
  return event

def notebookContext : Str := str "notebook-context"

/-- `CLIENT_EVENT_KINDS` -/
def clientEventKinds : List Str := [cellExecuted, notebookContext]

/-- `MACHINE_EVENT_KINDS` -/
def machineEventKinds : List Str :=
  [str "reproduction-complete", str "mutation-applied", str "verification-complete",
    str "recovery-complete", str "design-validated"]

/-- The two ways to record: which kinds are allowed, and which source the event names. -/
inductive Recorder where
  /-- `record_client_event` -/
  | client
  /-- `record_machine_event` -/
  | machine
  deriving DecidableEq

def Recorder.name : Recorder → Str
  | .client => str "Client"
  | .machine => str "Machine"

def Recorder.kinds : Recorder → List Str
  | .client => clientEventKinds
  | .machine => machineEventKinds

def Recorder.source : Recorder → Str
  | .client => str "jupyterlab-observer"
  | .machine => str "laboratory-server"

/-- `record_client_event(kind, payload)` and `record_machine_event(kind, payload)` -/
def LabService.recordEvent (m : LabService) (r : Recorder) (kind payload : Value) (now : String)
    (a : AppendAnswer) : ServiceM EvidenceEvent :=
  match kind with
  | .str k =>
      if r.kinds.contains k then m.record k payload r.source now a
      else throw (.kindNotAllowed r.name kind)
  | _ => throw (.kindNotAllowed r.name kind)

/-! ## Stages -/

/-- The characters that `str.isdigit` accepts and `int()` does not, as ranges. -/
def otherDigits : List (ℕ × ℕ) :=
  [(0xB2, 0xB3), (0xB9, 0xB9), (0x1369, 0x1371), (0x19DA, 0x19DA), (0x2070, 0x2070),
    (0x2074, 0x2079), (0x2080, 0x2089), (0x2460, 0x2468), (0x2474, 0x247C), (0x2488, 0x2490),
    (0x24EA, 0x24EA), (0x24F5, 0x24FD), (0x24FF, 0x24FF), (0x2776, 0x277E), (0x2780, 0x2788),
    (0x278A, 0x2792), (0x10A40, 0x10A43), (0x10E60, 0x10E68), (0x11052, 0x1105A),
    (0x1F100, 0x1F10A)]

/-- `str.isdigit` of one character. -/
def isDigitChar (c : ℕ) : Bool :=
  Text.isDigit (Char.ofNat c) || otherDigits.any fun r => r.1 ≤ c && c ≤ r.2

/-- `value.isdigit()` -/
def isDigitText (s : Str) : Bool := s ≠ [] && s.all isDigitChar

/-- `_is_positive_int(value)`, `none` where `int()` raises. -/
def isPositiveInt : Value → Option Bool
  | .int z => some (z > 0)
  | .str s => if isDigitText s then (intOfText s).map (· > 0) else some false
  | _ => some false

/-- The count that an event reports. -/
def EvidenceEvent.markdownCells (e : EvidenceEvent) : Value :=
  (Value.lookup e.payload (str "markdown_cells")).getD (.int 0)

/-- `any(…)` over the events: it stops at the first one with a positive count. -/
def anyExplained : List EvidenceEvent → Option Bool
  | [] => some false
  | e :: events =>
      if e.kind = notebookContext then do
        if ← isPositiveInt e.markdownCells then return true
        anyExplained events
      else anyExplained events

/-- The stage that an event of a kind completes. -/
def stageOfKind : List (Str × String) :=
  [(cellExecuted, "observed"), (str "reproduction-complete", "reproduced"),
    (str "mutation-applied", "modified"), (str "verification-complete", "verified"),
    (str "recovery-complete", "recovered"), (str "design-validated", "designed")]

/-- `_completed_stages()` -/
def completedStages (events : List EvidenceEvent) : Except ServiceError (List String) := do
  let kinds := events.map EvidenceEvent.kind
  let completed := (stageOfKind.filter fun k => kinds.contains k.1).map Prod.snd
  match anyExplained events with
  | some explained => return if explained then "explained" :: completed else completed
  | none => throw (.valueError (str "invalid literal for int()"))

/-- `STAGE_ORDER` with the labels. -/
def stageOrder : List (String × String) :=
  [("observed", "Observed"), ("explained", "Explained"), ("reproduced", "Reproduced"),
    ("modified", "Modified"), ("verified", "Verified"), ("recovered", "Recovered"),
    ("designed", "Designed")]

/-! ## The configuration of signing -/

inductive SigningConfig where
  | disabled
  | enabled (privateKey : PathTarget) (keyId : Str)

def SigningConfig.isEnabled : SigningConfig → Bool
  | .disabled => false
  | .enabled _ _ => true

/-- `signing.get("algorithm")` -/
def SigningConfig.algorithm : SigningConfig → Value
  | .disabled => .none
  | .enabled _ _ => .str (str "ed25519")

/-- `signing.get("key_id")` -/
def SigningConfig.keyId : SigningConfig → Value
  | .disabled => .none
  | .enabled _ keyId => .str keyId

/-- The key that `evidence.signing` names. -/
def LabService.signingKey (m : LabService) (signing : Items) :
    Except ServiceError SigningConfig := do
  match (Value.lookup signing (str "algorithm")).getD (.str (str "ed25519")) with
  | .str algorithm =>
      if algorithm ≠ str "ed25519" then
        throw (.valueError (str "Only Ed25519 evidence signing is supported"))
  | _ => throw (.valueError (str "Only Ed25519 evidence signing is supported"))
  let path ← match Value.lookup signing (str "private_key") with
    | some (.str (c :: path)) => .ok (c :: path)
    | _ => throw (.valueError
        (str "evidence.signing.private_key is required when signing is enabled"))
  match m.path path with
  | none => throw (.runtimeError (str "Could not determine home directory."))
  | some target =>
      if target.isSymlink || target.content.isNone then
        throw (.valueError (str "evidence.signing.private_key is unavailable: " ++ path))
      match (Value.lookup signing (str "key_id")).getD (.str target.name) with
      | .str (c :: keyId) => return .enabled target (c :: keyId)
      | _ => throw (.valueError (str "evidence.signing.key_id must be a non-empty string"))

/-- `_signing_config()` -/
def LabService.signingConfig (m : LabService) : Except ServiceError SigningConfig :=
  match (Value.lookup m.spec.document (str "evidence")).getD (.dict []) with
  | .dict evidence =>
      match (Value.lookup evidence (str "signing")).getD (.dict []) with
      | .none => .ok .disabled
      | .dict signing =>
          match (Value.lookup signing (str "enabled")).getD (.bool false) with
          | .bool true => m.signingKey signing
          | .bool false => .ok .disabled
          | _ => .error (.valueError (str "evidence.signing.enabled must be boolean"))
      | _ => .error (.valueError (str "evidence.signing must be a mapping"))
  | _ => .ok .disabled

/-! ## The state -/

/-- `runtime_identity()` -/
def LabService.runtimeIdentity (m : LabService) : Value :=
  .dict [(str "system", .str (str m.system)), (str "release", .str (str m.release)),
    (str "machine", .str (str m.machine)), (str "is_freebsd", .bool (m.system = "FreeBSD"))]

/-- `state()` -/
def LabService.state (m : LabService) (s : Session) : Except ServiceError Value := do
  let completed ← completedStages s.events
  let stages := stageOrder.map fun stage =>
    Value.dict [(str "id", .str (str stage.1)), (str "label", .str (str stage.2)),
      (str "completed", .bool (completed.contains stage.1))]
  let signing ← m.signingConfig
  return .dict [(str "schema", .str (str "softcloud.lab-state/v1")),
    (str "lab", .dict [(str "id", .str m.spec.id),
      (str "title", (Value.lookup m.spec.document (str "title")).getD (.str m.spec.id)),
      (str "notebook", (Value.lookup m.spec.document (str "notebook")).getD .none)]),
    (str "runtime", m.runtimeIdentity),
    (str "evidence", .dict [(str "session_id", .str (str m.sessionId)),
      (str "events", .int s.events.length), (str "max_events", .int m.maxEvents),
      (str "max_event_payload_bytes", .int m.maxEventPayloadBytes),
      (str "attestation", .str (str "self-recorded")),
      (str "signing_enabled", .bool signing.isEnabled)]),
    (str "stages", .seq false stages)]

/-! ## Exporting -/

/-- How a write of a whole file ends. -/
inductive WriteAnswer where
  | done
  /-- It raises, with the file as it was, or with this content. -/
  | raises (left : Option Bytes)

/-- `path.write_bytes(content)` -/
def writeFile (name : Str) (content : Bytes) (a : WriteAnswer) : ServiceM Unit := do
  let s ← get
  match a with
  | .done =>
      if content.length > maxFileSize then throw .writeFailed
      set (s.setFile name (some content))
  | .raises none => throw .writeFailed
  | .raises (some left) =>
      set (s.setFile name (some left))
      throw .writeFailed

/-- `path.read_bytes()` of a file of the session directory. -/
def readFile (name : Str) : ServiceM Bytes := do
  match (← get).files name with
  | some content => return content
  | none => throw .readFailed

/-- The clock, the content of `lab.yaml` and the writes of an export. -/
structure ExportAnswer where
  exportedAt : String
  generatedAt : String
  /-- `lab.yaml`, if it can be read. -/
  labFile : Option Bytes
  evidence : WriteAnswer
  environment : WriteAnswer
  manifest : WriteAnswer
  /-- Of the signature's temporary file, and its move into place. -/
  signature : WriteAnswer
  moved : Bool
  sums : WriteAnswer

/-- The evidence document. -/
def LabService.evidence (m : LabService) (s : Session) (labFile : Bytes) (exportedAt : String) :
    Value :=
  .dict [(str "schema", .str (str "softcloud.lab-evidence/v1")),
    (str "lab", .dict [(str "id", .str m.spec.id),
      (str "spec_sha256", .str (sha256Bytes labFile))]),
    (str "session", .dict [(str "id", .str (str m.sessionId)),
      (str "started_at", .str (str m.startedAt)), (str "exported_at", .str (str exportedAt)),
      (str "attestation", .str (str "self-recorded"))]),
    (str "runtime", m.runtimeIdentity),
    (str "events", .seq false (s.events.map EvidenceEvent.asdict))]

/-- The environment document. -/
def LabService.environment (m : LabService) : Value :=
  .dict [(str "schema", .str (str "softcloud.lab-environment/v1")),
    (str "runtime", m.runtimeIdentity),
    (str "declared_runtime", (Value.lookup m.spec.document (str "runtime")).getD (.dict [])),
    (str "executor", (Value.lookup m.spec.document (str "executor")).getD (.dict []))]

/-- The entry of an artifact in the manifest. -/
def artifactEntry (content : Bytes) : Value :=
  .dict [(str "sha256", .str (sha256Bytes content)), (str "size", .int content.length)]

/-- The items of the manifest. -/
def LabService.manifestItems (m : LabService) (s : Session) (signing : SigningConfig)
    (artifacts : Items) (generatedAt : String) : Items :=
  [(str "schema", .str (str "softcloud.lab-evidence-manifest/v1")),
    (str "lab_id", .str m.spec.id), (str "session_id", .str (str m.sessionId)),
    (str "event_count", .int s.events.length), (str "attestation", .str (str "self-recorded")),
    (str "generated_at", .str (str generatedAt)), (str "artifacts", .dict artifacts),
    (str "signature", .dict [(str "enabled", .bool signing.isEnabled),
      (str "algorithm", signing.algorithm), (str "key_id", signing.keyId)])]

/-- The manifest. -/
def LabService.manifest (m : LabService) (s : Session) (signing : SigningConfig)
    (artifacts : Items) (generatedAt : String) : Value :=
  .dict (m.manifestItems s signing artifacts generatedAt)

/-- `canonical_json(value) + b"\n"` into a file. -/
def writeDocument (name : Str) (value : Value) (a : WriteAnswer) : ServiceM Unit := do
  let bytes ← ExceptT.mk (pure (canonicalJson value))
  writeFile name (bytes ++ [10]) a

/-- `sign_manifest(manifest_path, private_key, key_id)` -/
def signManifest (E : Ed25519) (privateKey : PathTarget) (keyId : Str) (a : ExportAnswer) :
    ServiceM Unit := do
  match privateKey.content.bind E.loadPrivate with
  | none => throw (.valueError (str "Evidence signing key must be an Ed25519 private key"))
  | some key =>
      let manifest ← readFile manifestName
      let document ← ExceptT.mk (pure (canonicalJson (signatureDocument E key keyId manifest)))
      writeFile temporaryName (document ++ [10]) a.signature
      if !a.moved then throw .writeFailed
      modify fun s =>
        (s.setFile signatureName (some (document ++ [10]))).setFile temporaryName none

/-- The names of the files of an export, in the order in which they are hashed. -/
def hashedNames (signing : SigningConfig) : List Str :=
  [evidenceName, environmentName, eventsName, manifestName]
    ++ if signing.isEnabled then [signatureName] else []

/-- The lines of `SHA256SUMS`, sorted by name. -/
def checksumLines : List Str → ServiceM Bytes
  | [] => return []
  | name :: names => do
      let content ← readFile name
      let rest ← checksumLines names
      return sha256Bytes content ++ str "  " ++ name ++ [10] ++ rest

/-- The content of `lab.yaml`. -/
def readLabFile (a : ExportAnswer) : ServiceM Bytes :=
  match a.labFile with
  | some content => pure content
  | none => throw .readFailed

/-- The entry of a file of the session directory in the manifest. -/
def artifact (name : Str) : ServiceM (Str × Value) := do
  let content ← readFile name
  return (name, artifactEntry content)

/-- The signature, if signing is enabled. -/
def signExport (E : Ed25519) (signing : SigningConfig) (a : ExportAnswer) : ServiceM Unit :=
  match signing with
  | .disabled => pure ()
  | .enabled privateKey keyId => signManifest E privateKey keyId a

/-- `export()` -/
def LabService.export (m : LabService) (E : Ed25519) (a : ExportAnswer) : ServiceM Value := do
  let s ← get
  let signing ← ExceptT.mk (pure m.signingConfig)
  let labFile ← readLabFile a
  writeDocument evidenceName (m.evidence s labFile a.exportedAt) a.evidence
  writeDocument environmentName m.environment a.environment
  let artifacts ← [evidenceName, environmentName, eventsName].mapM artifact
  writeDocument manifestName (m.manifest s signing artifacts a.generatedAt) a.manifest
  signExport E signing a
  let sums ← checksumLines ((hashedNames signing).insertionSort (· ≤ ·))
  writeFile sumsName sums a.sums
  return .dict [(str "session_id", .str (str m.sessionId)), (str "path", .str m.sessionDir),
    (str "files", .seq false ((hashedNames signing ++ [sumsName]).map .str)),
    (str "signed", .bool signing.isEnabled)]

/-! ## Calls -/

/-- A call of a method that changes the session, with the environment's part in it. -/
inductive SessionCall where
  | record (r : Recorder) (kind payload : Value) (now : String) (a : AppendAnswer)
  | exportBundle (a : ExportAnswer)

/-- What a call returns. -/
inductive Returned where
  | event (e : EvidenceEvent)
  | exported (result : Value)

def LabService.call (m : LabService) (E : Ed25519) : SessionCall → ServiceM Returned
  | .record r kind payload now a => Returned.event <$> m.recordEvent r kind payload now a
  | .exportBundle a => Returned.exported <$> m.export E a

/-- The session after a call. -/
def LabService.after (m : LabService) (E : Ed25519) (call : SessionCall) (s : Session) : Session :=
  (m.call E call s).2

/-- The sessions that calls which meet `ok` lead to, one call after the other. -/
inductive LabService.Reaches (m : LabService) (E : Ed25519) (ok : Session → SessionCall → Prop)
    (s₀ : Session) : Session → Prop where
  | start : m.Reaches E ok s₀ s₀
  | call {s : Session} (call : SessionCall) :
      m.Reaches E ok s₀ s → ok s call → m.Reaches E ok s₀ (m.after E call s)

end FreebsdLaboratory
