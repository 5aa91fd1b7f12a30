import Mathlib.Data.Rat.Defs

/-!
# Commands, errors and JSON values

The vocabulary the other modules share: the external commands `runtime_daemon.py` runs, one
constructor for each argument list in the source; the exceptions its functions raise; and the JSON
values it reads from requests and from registry records.
-/

namespace FreebsdLaboratory

/-- The external commands of the daemon.  Constants of the configuration (the bridge, the template
snapshot, the path of `vm`) are not repeated in them; `Command.argv` puts them back. -/
inductive Command where
  | ifconfigBridge
  | ifconfigBridgeCreate
  | ifconfigBridgeInet
  | ifconfigBridgeUp
  | ifconfigBridgeAddm (epairHost : String)
  | ifconfigBridgePrivate (epairHost : String)
  | ifconfigUp (interface : String)
  | ifconfigShow (interface : String)
  | ifconfigEpairCreate
  | ifconfigDestroy (interface : String)
  | arpDelete (address : String)
  | zfsCloneTemplate (jailRoot dataset : String)
  | zfsClone (snapshot dataset : String)
  | zfsDestroy (dataset : String)
  | zfsDestroyRecursive (dataset : String)
  | zfsListSnapshot (snapshot : String)
  | zfsListDataset (dataset : String)
  | zfsListChildren
  | pwUsershow (jailRoot : String)
  | jailCreate (name jailRoot epairGuest : String)
  | jailRemove (name : String)
  | jexecStart (name epairGuest address : String)
  | jlsName (name : String)
  | jlsAll
  | vmSwitchInfo
  | vmSwitchCreate
  | vmSwitchPrivate
  | vmInfo (name : String)
  | vmList
  | vmCreate (template : String) (image : Option String) (publicKey netconfig name : String)
  | vmStart (name : String)
  | vmPoweroff (name : String)
  | vmDestroy (name : String)
  | vmSet (name assignment : String)
  | mdconfigAttach
  | mdconfigDetach (unit : String)
  | mdconfigQuery (unit : String)
  | dd (source mdUnit : String)
  deriving DecidableEq

/-- The exceptions the daemon's functions raise.  The first three carry the source's text; the next
three are `_run`'s, whose text names the command; the rest come from the standard library. -/
inductive PyError where
  | valueError (message : String)
  | permissionError (message : String)
  | runtimeError (message : String)
  | commandTimedOut (command : Command)
  | unableToExecute (command : Command)
  | commandFailed (command : Command) (detail : String)
  | osError
  | overflowError
  | indexError
  | unicodeDecodeError
  | unicodeEncodeError
  deriving DecidableEq

/-- A field of a request, as far as `isinstance` can tell it apart.  `compound` is an array, an
object or a number that is not finite; a string has no lone surrogate. -/
inductive Json where
  | null
  | bool (b : Bool)
  | int (z : ℤ)
  | float (q : ℚ)
  | str (s : String)
  | compound
  deriving DecidableEq

/-- A field of a registry record, as far as `isinstance` and `==` with a string or an integer can
tell it apart.  `surrogate` is a string with a lone surrogate: it equals no text of the daemon's,
and no command can have it as an argument.  The ones that `os.fsencode` takes for bytes, U+DC80 to
U+DCFF, stand in `str` for some other character. -/
inductive RecordValue where
  | null
  | bool (b : Bool)
  | int (z : ℤ)
  | float (q : ℚ)
  | str (s : String)
  | surrogate
  | compound
  deriving DecidableEq

namespace RecordValue

/-- The integer, where `isinstance(value, int) and not isinstance(value, bool)`. -/
def asInt : RecordValue → Option ℤ
  | int z => some z
  | _ => none

/-- The string, where `isinstance(value, str)` and there is no lone surrogate in it. -/
def asStr : RecordValue → Option String
  | str s => some s
  | _ => none

/-- `value == z` for an integer `z`: Python compares booleans and floats by their value. -/
def eqInt : RecordValue → ℤ → Bool
  | bool b, z => (if b then 1 else 0) == z
  | int n, z => n == z
  | float q, z => q == (z : ℚ)
  | _, _ => false

/-- `value == s` for a string `s`. -/
def eqStr : RecordValue → String → Bool
  | str t, s => t == s
  | _, _ => false

/-- `bool(value)`.  An array or object counts as true; an empty one is not told apart. -/
def truthy : RecordValue → Bool
  | null => false
  | bool b => b
  | int z => z != 0
  | float q => q != 0
  | str s => s != ""
  | surrogate | compound => true

@[simp] theorem asInt_eq_some {v : RecordValue} {z : ℤ} : v.asInt = some z ↔ v = int z := by
  cases v <;> simp [asInt]

@[simp] theorem asStr_eq_some {v : RecordValue} {s : String} : v.asStr = some s ↔ v = str s := by
  cases v <;> simp [asStr]

@[simp] theorem eqStr_iff {v : RecordValue} {s : String} : v.eqStr s = true ↔ v = str s := by
  cases v <;> simp [eqStr]

end RecordValue

end FreebsdLaboratory
