import FreebsdLaboratory.Library.AtomicFiles
import FreebsdLaboratory.Library.JsonLine
import FreebsdLaboratory.Model.Runtime
import FreebsdLaboratory.Model.Verify

/-!
# The files of the registry

`_write_registry`, `_delete_registry` and `_load_registry` of `runtime_daemon.py`, system call by
system call.  `Op.writeRegistry` of the daemon's programs is all of this in one step.
-/

namespace FreebsdLaboratory

open Library Library.Unicode Library.Json Library.Files

/-- A name that `validate_name` accepts. -/
abbrev RuntimeName := { name : String // isRuntimeName name = true }

/-- A record as `json.dump` writes it. -/
structure RegistryDocument where
  items : Items
  readable : (Value.dict items).Readable

/-- `_registry_path` -/
def registryPath (name : RuntimeName) : Str := str name.1 ++ str ".json"

/-- The prefix of a temporary file. -/
def temporaryStem (name : RuntimeName) : Str := str "." ++ str name.1 ++ str "."

/-- What a call raises. -/
inductive RegistryError where
  | osError
  | dumpError (e : DumpError)
  | unicodeEncodeError
  | unicodeDecodeError
  | runtimeError

abbrev RegistryProgram (α : Type) :=
  Prog (@FileOp.Resp RuntimeName) RegistryError α

/-- A system call that can fail. -/
def attempted {α : Type} (p : RegistryProgram (Option α)) : RegistryProgram α :=
  p >>= fun r => match r with
    | some a => pure a
    | none => Prog.raise .osError

abbrev fileOp (o : FileOp RuntimeName) : RegistryProgram o.Resp := Prog.op _ _ o

/-- The bytes of a record, the line feed aside. -/
def RegistryDocument.bytes (document : RegistryDocument) : Except RegistryError (List ℕ) :=
  match dumpsLine (.dict document.items) with
  | .error e => .error (.dumpError e)
  | .ok text =>
      match encode text with
      | some bytes => .ok bytes
      | none => .error .unicodeEncodeError

/-- What is done with the stream. -/
def writeStream (file : ℕ) (document : RegistryDocument) : RegistryProgram Unit := do
  let bytes ← Prog.ofExcept document.bytes
  attempted (fileOp (.write file bytes))
  attempted (fileOp (.write file [10]))
  attempted (fileOp (.flush file))
  attempted (fileOp (.fsync file))

/-- The body of the `try` of `_write_registry`. -/
def placeRegistry (name : RuntimeName) (document : RegistryDocument) (temporary : ℕ × Str) :
    RegistryProgram Unit := do
  (writeStream temporary.1 document).finallyDo (attempted (fileOp (.close temporary.1)))
  attempted (fileOp (.chmod temporary.2))
  attempted (fileOp (.replace temporary.2 (registryPath name)))

/-- `_write_registry` -/
def writeRegistryFile (name : RuntimeName) (document : RegistryDocument) :
    RegistryProgram Unit := do
  attempted (fileOp .makeDirectory)
  let temporary ← attempted (fileOp (.mkstemp (temporaryStem name)))
  (placeRegistry name document temporary).finallyDo (attempted (fileOp (.unlink temporary.2)))

/-- `_delete_registry` -/
def deleteRegistryFile (name : RuntimeName) : RegistryProgram Unit :=
  attempted (fileOp (.unlink (registryPath name)))

/-- What `_load_registry` makes of the bytes it reads. -/
def parseRegistry (bytes : Bytes) : Except RegistryError Items :=
  match decode bytes with
  | none => .error .unicodeDecodeError
  | some text =>
      match loads (universalNewlines text) with
      | some (.dict items) => .ok items
      | _ => .error .runtimeError

/-- What the three calls under the path of a record return, one after the other; `none` where a call
raises `OSError`, as `read_text` does where the file has gone since. -/
structure RegistryLooks where
  isSymlink : Option Bool
  isFile : Option Bool
  readText : Option Bytes

/-- `_load_registry`.  Only `read_text` is in the `try`. -/
def loadRegistryFile (looks : RegistryLooks) : Except RegistryError (Option Items) :=
  match looks.isSymlink with
  | none => .error .osError
  | some true => .ok none
  | some false =>
      match looks.isFile with
      | none => .error .osError
      | some false => .ok none
      | some true =>
          match looks.readText with
          | none => .error .runtimeError
          | some bytes => (parseRegistry bytes).map some

/-! ## Callers -/

/-- What `create_jail`, `create_bhyve` and `destroy` do to the registry. -/
inductive RegistryCall where
  | write (document : RegistryDocument)
  | delete

def RegistryCall.program (name : RuntimeName) : RegistryCall → RegistryProgram Unit
  | .write document => writeRegistryFile name document
  | .delete => deleteRegistryFile name

/-- A request: in one life of the daemon, under the lock of its runtime. -/
structure RegistryJob where
  boot : ℕ
  name : RuntimeName
  calls : List RegistryCall

/-- `with self._runtime_lock(name):` around the calls.  The first call that raises is the last: the
`destroy` in the handler of `create_jail` waits for the lock that its own request has. -/
def RegistryJob.program (job : RegistryJob) : RegistryProgram Unit := do
  let _ ← fileOp (.lock job.name)
  (Prog.forEach job.calls (RegistryCall.program job.name)).finallyDo (fileOp (.unlock job.name))

/-- What a file of the registry is to hold. -/
def RegistryCall.text : RegistryCall → Option Bytes
  | .write document => document.bytes.toOption.map (· ++ [10])
  | .delete => none

end FreebsdLaboratory
