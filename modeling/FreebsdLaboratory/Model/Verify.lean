import FreebsdLaboratory.Library.Program
import FreebsdLaboratory.Model.LabService

/-!
# Verifying a bundle

`verify_bundle` of `verify.py` and `verify_manifest_signature` of `signing.py`, as programs that ask
the file system: what they read, and in which order, is part of the model.

A path is the list of its components.  `FileTree` answers the questions; symbolic links are never
followed, since the verifier asks `is_symlink` first wherever it asks anything else.
-/

namespace FreebsdLaboratory

open Library Library.Unicode Library.Json

/-! ## Files -/

/-- A path, by its components. -/
abbrev Location := List Str

inductive ReadOp where
  | isSymlink (path : Location)
  | isDir (path : Location)
  | isFile (path : Location)
  | resolve (path : Location)
  /-- `path.read_bytes()` -/
  | readBytes (path : Location)
  /-- `path.stat().st_size` -/
  | size (path : Location)
  deriving DecidableEq

@[reducible] def ReadOp.Resp : ReadOp → Type
  | .isSymlink _ | .isDir _ | .isFile _ => Bool
  | .resolve _ => Location
  | .readBytes _ => Option Bytes
  | .size _ => ℕ

inductive Node where
  | file (content : Bytes)
  | directory
  | symlink
  deriving DecidableEq

/-- A file system. -/
structure FileTree where
  node : Location → Option Node
  resolve : Location → Location

/-- The content of a regular file. -/
def FileTree.content (t : FileTree) (path : Location) : Option Bytes :=
  match t.node path with
  | some (.file content) => some content
  | _ => none

/-- The answers of a file system. -/
def FileTree.answer (t : FileTree) : (o : ReadOp) → o.Resp
  | .isSymlink path => t.node path = some .symlink
  | .isDir path => t.node path = some .directory
  | .isFile path => (t.content path).isSome
  | .resolve path => t.resolve path
  | .readBytes path => t.content path
  | .size path => ((t.content path).getD []).length

/-! ## Checks -/

/-- What the verifier raises. -/
inductive VerifyError where
  /-- `ValueError` with this message. -/
  | valueError (message : Str)
  /-- `ValueError("Invalid artifact path in manifest: ...")`, which ends with `repr(name)`. -/
  | artifactPath (name : Str)
  /-- `ValueError`: the message, and what `json` or the operating system says. -/
  | invalid (message : Str)
  /-- A file that is not UTF-8. -/
  | unicodeDecodeError
  /-- `OSError` of a read. -/
  | readFailed
  deriving DecidableEq

abbrev Verifier (α : Type) := Prog ReadOp.Resp VerifyError α

/-- `if not ok: raise error` -/
def check (ok : Prop) [Decidable ok] (error : VerifyError) : Verifier Unit :=
  if ok then pure () else Prog.raise error

/-- `if not ok: raise ValueError(message)` -/
def require (ok : Prop) [Decidable ok] (message : Str) : Verifier Unit :=
  check ok (.valueError message)

/-- `if path.is_symlink() or not path.is_file(): raise ValueError(message)` -/
def requireFile (path : Location) (message : Str) : Verifier Unit := do
  let link ← Prog.op ReadOp.Resp VerifyError (.isSymlink path)
  require (link = false) message
  let file ← Prog.op ReadOp.Resp VerifyError (.isFile path)
  require (file = true) message

/-- `path.read_bytes()` -/
def readBytes (path : Location) : Verifier Bytes := do
  match ← Prog.op ReadOp.Resp VerifyError (.readBytes path) with
  | some content => pure content
  | none => Prog.raise .readFailed

/-- Line ends, as text files are read. -/
def universalNewlines : Str → Str
  | 13 :: 10 :: s => 10 :: universalNewlines s
  | 13 :: s => 10 :: universalNewlines s
  | c :: s => c :: universalNewlines s
  | [] => []

/-- `json.loads(path.read_text(encoding="utf-8"))`, from the bytes of the file. -/
def parseDocument (content : Bytes) (message : Str) : Except VerifyError Value :=
  match decode content with
  | none => .error .unicodeDecodeError
  | some text =>
      match loads (universalNewlines text) with
      | some value => .ok value
      | none => .error (.invalid message)

/-- The document in a file. -/
def readDocument (path : Location) (message : Str) : Verifier Value := do
  match ← Prog.op ReadOp.Resp VerifyError (.readBytes path) with
  | some content => Prog.ofExcept (parseDocument content message)
  | none => Prog.raise (.invalid message)

/-- The items, if the value is a dictionary. -/
def asDict (value : Option Value) (message : Str) : Verifier Items :=
  match value with
  | some (.dict items) => pure items
  | _ => Prog.raise (.valueError message)

/-- The text, if the value is one. -/
def asText (value : Option Value) (message : Str) : Verifier Str :=
  match value with
  | some (.str text) => pure text
  | _ => Prog.raise (.valueError message)

/-- `value == text` -/
def isText (value : Option Value) (text : Str) : Bool :=
  match value with
  | some (.str t) => t = text
  | _ => false

/-! ## Signatures -/

/-- `load_public_key(path)` -/
def loadPublicKey (E : Ed25519) (path : Location) : Verifier E.PublicKey := do
  requireFile path (str "Evidence verification key must be a regular file")
  let content ← readBytes path
  match E.loadPublic content with
  | some key => pure key
  | none => Prog.raise (.invalid (str "Evidence verification key must be an Ed25519 public key"))

/-- The key inside the signature document. -/
def embeddedKey (E : Ed25519) (document : Items) : Verifier E.PublicKey := do
  let pem ← asText (Value.lookup document (str "public_key_pem"))
    (str "Signature metadata does not contain a public key")
  match if pem.all (· < 128) then E.loadPublic pem else none with
  | some key => pure key
  | none => Prog.raise (.invalid (str "Invalid embedded public key"))

/-- The key that the signature is checked with; its fingerprint has to be the one in the
document. -/
def verificationKey (E : Ed25519) (trusted : Option Location) (document : Items) :
    Verifier E.PublicKey :=
  match trusted with
  | some path => do
      let key ← loadPublicKey E path
      require (isText (Value.lookup document (str "public_key_sha256"))
          (sha256Bytes (E.publicPem key)) = true)
        (str "Signature key does not match the trusted public key")
      return key
  | none => do
      let key ← embeddedKey E document
      require (isText (Value.lookup document (str "public_key_sha256"))
          (sha256Bytes (E.publicPem key)) = true)
        (str "Embedded public-key fingerprint does not match signature metadata")
      return key

/-- `base64.b64decode(text, validate=True)` -/
def decodeSignature (text : Str) : Verifier Bytes :=
  match Base64.decode text with
  | some signature => pure signature
  | none => Prog.raise (.invalid (str "Invalid base64 signature"))

/-- `verify_manifest_signature(manifest_path, signature_path, trusted_public_key)` -/
def verifyManifestSignature (E : Ed25519) (manifestPath signaturePath : Location)
    (trusted : Option Location) : Verifier Items := do
  requireFile manifestPath (str "Manifest path must be a regular file")
  requireFile signaturePath (str "Signature path must be a regular file")
  let document ← readDocument signaturePath (str "Invalid signature JSON")
  let document ← asDict (some document) (str "Signature document must be an object")
  require (isText (Value.lookup document (str "schema")) signatureSchema = true
      ∧ isText (Value.lookup document (str "algorithm")) (str "ed25519") = true)
    (str "Unsupported evidence signature format")
  let manifest ← readBytes manifestPath
  require (isText (Value.lookup document (str "manifest_sha256")) (sha256Bytes manifest) = true)
    (str "Manifest hash does not match signature metadata")
  let key ← verificationKey E trusted document
  let text ← asText (Value.lookup document (str "signature_base64"))
    (str "Signature metadata does not contain a signature")
  let signature ← decodeSignature text
  require (E.verify key signature manifest = true) (str "Manifest signature verification failed")
  return document

/-! ## Bundles -/

/-- The components of a path text. -/
def pathParts (text : Str) : List Str :=
  (text.splitOn 47).filter fun part => part ≠ [] ∧ part ≠ [46]

/-- `Path(text).name` -/
def pathName (text : Str) : Str := (pathParts text).getLast?.getD []

/-- `base / text` -/
def joinPath (base : Location) (text : Str) : Location :=
  if text.head? = some 47 then pathParts text else base ++ pathParts text

/-- The name of an artifact is one component of a path, and no dots. -/
def isArtifactName (name : Str) : Bool :=
  name ≠ [] ∧ name ≠ str "." ∧ name ≠ str ".." ∧ pathName name = name

/-- The size of an artifact, where the manifest gives one. -/
def verifySize (path : Location) (expected : Option Value) (message : Str) : Verifier Unit :=
  match expected with
  | some (.int size) => do
      let actual ← Prog.op ReadOp.Resp VerifyError (.size path)
      require ((actual : ℤ) = size) message
  | _ => pure ()

/-- One round of the loop over the artifacts. -/
def verifyArtifact (bundle : Location) (name : Str) (metadata : Value) : Verifier Unit := do
  check (isArtifactName name = true) (.artifactPath name)
  let metadata ← asDict (some metadata) (str "Invalid artifact metadata for " ++ name)
  let expected ← asText (Value.lookup metadata (str "sha256")) (str "Missing SHA-256 for " ++ name)
  let path := joinPath bundle name
  requireFile path (str "Evidence artifact is missing: " ++ name)
  let content ← readBytes path
  require (sha256Bytes content = expected) (str "Evidence artifact hash mismatch: " ++ name)
  verifySize path (Value.lookup metadata (str "size"))
    (str "Evidence artifact size mismatch: " ++ name)

/-- The loop over the artifacts, and the names it has verified. -/
def verifyArtifacts (bundle : Location) : Items → Verifier (List Str)
  | [] => pure []
  | (name, metadata) :: artifacts => do
      verifyArtifact bundle name metadata
      let names ← verifyArtifacts bundle artifacts
      return name :: names

/-- What `verify_bundle` returns. -/
structure Report where
  manifest : Location
  artifacts : List Str
  signatureVerified : Bool
  keyId : Value
  trustedKeyEnforced : Bool

/-- The document of a signature, if there is one. -/
def verifySignature (E : Ed25519) (bundle : Location) (trusted : Option Location) :
    Verifier (Option Items) := do
  let link ← Prog.op ReadOp.Resp VerifyError (.isSymlink (bundle ++ [signatureName]))
  require (link = false) (str "Evidence signature must not be a symbolic link")
  let file ← Prog.op ReadOp.Resp VerifyError (.isFile (bundle ++ [signatureName]))
  if file then do
    let document ← verifyManifestSignature E (bundle ++ [manifestName])
      (bundle ++ [signatureName]) trusted
    return some document
  else do
    require (trusted = none)
      (str "A trusted public key was supplied but the bundle is unsigned")
    return none

/-- `verify_bundle(bundle, trusted_public_key)` -/
def verifyBundle (E : Ed25519) (rawBundle : Location) (trusted : Option Location) :
    Verifier Report := do
  let link ← Prog.op ReadOp.Resp VerifyError (.isSymlink rawBundle)
  require (link = false) (str "Evidence bundle must not be a symbolic link")
  let bundle ← Prog.op ReadOp.Resp VerifyError (.resolve rawBundle)
  let directory ← Prog.op ReadOp.Resp VerifyError (.isDir bundle)
  require (directory = true) (str "Evidence bundle directory does not exist")
  requireFile (bundle ++ [manifestName]) (str "manifest.json is missing")
  let manifest ← readDocument (bundle ++ [manifestName]) (str "Invalid manifest.json")
  let manifest ← asDict (some manifest) (str "manifest.json must be an object")
  require (isText (Value.lookup manifest (str "schema"))
      (str "softcloud.lab-evidence-manifest/v1") = true)
    (str "Unsupported evidence manifest schema")
  let artifacts ← asDict (Value.lookup manifest (str "artifacts"))
    (str "Evidence manifest does not contain artifact hashes")
  require (artifacts.isEmpty = false) (str "Evidence manifest does not contain artifact hashes")
  let names ← verifyArtifacts bundle artifacts
  let signature ← verifySignature E bundle trusted
  return {
    manifest := bundle ++ [manifestName]
    artifacts := names.insertionSort (· ≤ ·)
    signatureVerified := signature.isSome
    keyId := (signature.bind fun document => Value.lookup document (str "key_id")).getD .none
    trustedKeyEnforced := trusted.isSome }

end FreebsdLaboratory
