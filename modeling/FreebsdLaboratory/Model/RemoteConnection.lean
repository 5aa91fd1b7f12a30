import FreebsdLaboratory.Library.JsonIndent
import FreebsdLaboratory.Model.Commands
import Mathlib.Logic.Function.Basic

/-!
# The Jupyter connection file

`remote_connection.py`: the connection document and the kernel manager are moved to leased loopback
ports before the launch and back to their own ones afterwards.

A file operation either does its work or raises `OSError`, as `fault` says; what raises has had no
effect.
-/

namespace FreebsdLaboratory

open Library Library.Json Library.Unicode

def CONNECTION_PORT_FIELDS : List String :=
  ["shell_port", "iopub_port", "stdin_port", "control_port", "hb_port"]

/-- The fields as keys of a document. -/
def portKeys : List Str := CONNECTION_PORT_FIELDS.map str

/-- The parts of Python's library that are used here only through what is stated about them. -/
structure PythonLibrary where
  /-- `ipaddress.ip_address` takes the text. -/
  ipAddress : String → Bool
  ipAddress_loopback : ipAddress "127.0.0.1" = true
  /-- `str(value)`. -/
  text : Value → Str
  text_str : ∀ s, text (.str s) = s

/-- The kernel manager, by its `connection_file` and its other attributes. -/
structure Parent where
  connectionFile : Option String
  value : Str → Option Value

/-- What stands under the name of a temporary file. -/
inductive TemporaryFile where
  | absent
  | link
  | file (bytes : List ℕ)

/-- The connection file as its path leads to it, and the temporary files next to it. -/
structure ConnectionDirectory where
  isLink : Bool
  file : Option (List ℕ)
  remoteTmp : TemporaryFile
  restoreTmp : TemporaryFile

/-- The kernel manager and its connection file. -/
structure KernelConnection where
  parent : Parent
  directory : ConnectionDirectory

/-- The file operations of `rewrite_connection_file` and `restore_connection_file`. -/
inductive FileStep where
  | isSymlink
  | resolve
  | isFile
  | readText
  | temporaryIsSymlink
  | unlink
  | writeText
  | chmod
  | replace
  deriving DecidableEq

/-- The check of one field in `connection_ports`. -/
def connectionPort (items : List (Str × Value)) (field : String) : Except PyError ℤ :=
  match Value.lookup items (str field) with
  | some (.int value) =>
      if 1 ≤ value ∧ value ≤ 65535 then .ok value
      else .error (.valueError s!"Invalid Jupyter connection port: {field}")
  | _ => .error (.valueError s!"Invalid Jupyter connection port: {field}")

/-- `connection_ports`. -/
def connectionPorts : Value → Except PyError (List ℤ)
  | .dict items => do
      let ports ← CONNECTION_PORT_FIELDS.mapM (connectionPort items)
      if ports.Nodup then return ports
      throw (.valueError "Jupyter connection ports must be unique")
  | _ => .error (.valueError "Connection document must be a dictionary")

/-- A sequence of ports as a caller can pass it: text or bytes, no iterable, or what it yields. -/
inductive PortSequence where
  | text
  | notIterable
  | iterable (values : List Value)

/-- `_validate_port_sequence`. -/
def validatePortSequence : PortSequence → Except PyError (List ℤ)
  | .text | .notIterable => .error (.valueError "Expected 5 Jupyter connection ports")
  | .iterable values =>
      if values.length ≠ CONNECTION_PORT_FIELDS.length then
        .error (.valueError "Expected 5 Jupyter connection ports")
      else connectionPorts (.dict (portKeys.zip values))

/-- What `rewrite_connection_file` returns behind the path. -/
structure Rewritten where
  originalIp : Str
  originalPorts : List ℤ
  tunnelPorts : List ℤ

/-- The loop that sets the ports of a document. -/
def setPorts (ports : List ℤ) (items : List (Str × Value)) : List (Str × Value) :=
  (portKeys.zip ports).foldl (fun items p => Value.insertItem p.1 (.int p.2) items) items

namespace Parent

/-- `setattr(parent, name, value)`. -/
def setattr (parent : Parent) (name : Str) (value : Value) : Parent :=
  { parent with value := Function.update parent.value name (some value) }

/-- The loop that sets the ports of the kernel manager. -/
def setPorts (ports : List ℤ) (parent : Parent) : Parent :=
  (portKeys.zip ports).foldl (fun parent p => parent.setattr p.1 (.int p.2)) parent

end Parent

section Steps

variable (fault : FileStep → Bool)

/-- The connection file behind its path, as text that was parsed. -/
def readConnection (parent : Parent) (directory : ConnectionDirectory) :
    Except PyError (List (Str × Value)) := do
  let some path := parent.connectionFile
    | throw (.runtimeError "Kernel manager connection file is unavailable")
  if path = "" then throw (.runtimeError "Kernel manager connection file is unavailable")
  if fault .isSymlink then throw .osError
  if directory.isLink then
    throw (.runtimeError s!"Connection file must not be a symbolic link: {path}")
  if fault .resolve then throw .osError
  if fault .isFile then throw .osError
  let some bytes := directory.file
    | throw (.runtimeError s!"Connection file is unavailable: {path}")
  if fault .readText then throw (.valueError "Invalid connection file JSON: OSError")
  let some text := decode bytes | throw .unicodeDecodeError
  let some document := loads text
    | throw (.valueError "Invalid connection file JSON: JSONDecodeError")
  match document with
  | .dict items =>
      match Value.lookup items (str "transport") with
      | none => return items
      | some (.str transport) =>
          if transport = str "tcp" then return items
          throw (.valueError "SSH kernel transport requires Jupyter TCP connections")
      | some _ => throw (.valueError "SSH kernel transport requires Jupyter TCP connections")
  | _ => throw (.valueError "SSH kernel transport requires Jupyter TCP connections")

/-- The bytes of a document: `json.dumps(document, indent=2) + "\n"` in UTF-8. -/
def documentBytes (items : List (Str × Value)) : Except PyError (List ℕ) :=
  match dumpsIndent 0 (.dict items) with
  | .error .typeError => .error (.valueError "not JSON serializable")
  | .error .tooManyDigits => .error (.valueError "Exceeds the limit for integer string conversion")
  | .ok text =>
      match encode (text ++ [10]) with
      | some bytes => .ok bytes
      | none => .error .unicodeDecodeError

/-- The document through a temporary file into place: what is under the name of the temporary file
afterwards, and the connection file, if it has been replaced. -/
def replaceFile (temporary : TemporaryFile) (items : List (Str × Value)) :
    Except PyError (List ℕ) × TemporaryFile :=
  let write (temporary : TemporaryFile) : Except PyError (List ℕ) × TemporaryFile :=
    match documentBytes items with
    | .error e => (.error e, temporary)
    | .ok bytes =>
        if fault .writeText then (.error .osError, temporary)
        else if fault .chmod then (.error .osError, .file bytes)
        else if fault .replace then (.error .osError, .file bytes)
        else (.ok bytes, .absent)
  if fault .temporaryIsSymlink then (.error .osError, temporary)
  else match temporary with
    | .link => if fault .unlink then (.error .osError, .link) else write .absent
    | temporary => write temporary

/-- `rewrite_connection_file`. -/
def rewriteConnectionFile (py : PythonLibrary) (bindIp : String) (ports : Option PortSequence)
    (k : KernelConnection) : Except PyError Rewritten × KernelConnection :=
  let checked : Except PyError (List (Str × Value) × Rewritten) := do
    unless py.ipAddress bindIp do throw (.valueError s!"Invalid bind_ip: {bindIp}")
    let items ← readConnection fault k.parent k.directory
    let originalPorts ← connectionPorts (.dict items)
    let tunnelPorts ← match ports with
      | none => .ok originalPorts
      | some ports => validatePortSequence ports
    let ip := (Value.lookup items (str "ip")).getD ((k.parent.value (str "ip")).getD (.str []))
    return (items, ⟨py.text ip, originalPorts, tunnelPorts⟩)
  match checked with
  | .error e => (.error e, k)
  | .ok (items, result) =>
      let items := setPorts result.tunnelPorts
        (Value.insertItem (str "ip") (.str (str bindIp)) items)
      let parent := (k.parent.setattr (str "ip") (.str (str bindIp))).setPorts result.tunnelPorts
      match replaceFile fault k.directory.remoteTmp items with
      | (.error e, remoteTmp) =>
          (.error e, { parent, directory := { k.directory with remoteTmp } })
      | (.ok bytes, remoteTmp) =>
          (.ok result, { parent, directory := { k.directory with remoteTmp, file := some bytes } })

/-- `restore_connection_file`. -/
def restoreConnectionFile (originalIp : Option Str) (originalPorts : List Value)
    (k : KernelConnection) : Except PyError Unit × KernelConnection :=
  let ports := if originalPorts = [] then []
    else match validatePortSequence (.iterable originalPorts) with
      | .ok ports => ports
      | .error _ => []
  let parent := match originalIp with
    | some ip => k.parent.setattr (str "ip") (.str ip)
    | none => k.parent
  let parent := parent.setPorts ports
  let k := { k with parent }
  match parent.connectionFile with
  | none => (.ok (), k)
  | some path =>
      if path = "" then (.ok (), k)
      else if fault .isSymlink then (.error .osError, k)
      else if k.directory.isLink then (.ok (), k)
      else if fault .resolve ∨ fault .isFile then (.error .osError, k)
      else match k.directory.file with
        | none => (.ok (), k)
        | some bytes =>
            if fault .readText then (.ok (), k)
            else match (decode bytes).bind loads with
              | some (.dict items) =>
                  let items := match originalIp with
                    | some ip => Value.insertItem (str "ip") (.str ip) items
                    | none => items
                  match replaceFile fault k.directory.restoreTmp (setPorts ports items) with
                  | (.error _, restoreTmp) =>
                      (.ok (), { k with directory := { k.directory with restoreTmp } })
                  | (.ok bytes, restoreTmp) =>
                      (.ok (), { k with
                        directory := { k.directory with restoreTmp, file := some bytes } })
              | _ => (.ok (), k)

end Steps

end FreebsdLaboratory
