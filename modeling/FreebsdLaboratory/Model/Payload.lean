import FreebsdLaboratory.Library.JsonRoundTrip
import FreebsdLaboratory.Library.Sha256
import FreebsdLaboratory.Library.Text

/-!
# Event payloads

What `service.py` does to a payload before it is kept: `redactPayload` replaces what stands under
sensitive keys, `canonicalJson` is the byte form that is measured, hashed and persisted, and
`minimizePersistedPayload` exchanges the source of a cell for its hash.

Payloads are the values of `Library.Json`.  A dictionary carries the texts `str(key)` of its keys;
two keys with one text are two items until `redactPayload` merges them.
-/

namespace FreebsdLaboratory

open Library Library.Unicode Library.Json

abbrev Bytes := List ℕ

/-- The items of a dictionary. -/
abbrev Items := List (Str × Value)

/-- What the methods of `LabService` raise. -/
inductive ServiceError where
  /-- `{caller} event kind is not allowed: {kind}` -/
  | kindNotAllowed (caller : Str) (kind : Value)
  /-- `ValueError` with this message. -/
  | valueError (message : Str)
  /-- `RuntimeError` with this message. -/
  | runtimeError (message : Str)
  /-- `EvidencePayloadTooLarge`: `Event payload is {size} bytes; limit is {limit}` -/
  | payloadTooLarge (size limit : ℕ)
  /-- `EvidenceEventLimitReached`: `Evidence session reached its {limit}-event limit` -/
  | eventLimitReached (limit : ℕ)
  /-- What `json.dumps` raises. -/
  | dump (error : DumpError)
  /-- A lone surrogate has no UTF-8. -/
  | unicodeEncodeError
  /-- `OSError` of a read. -/
  | readFailed
  /-- `OSError` of an append or of a write. -/
  | writeFailed

/-- `canonical_json(value)`. -/
def canonicalJson (value : Value) : Except ServiceError Bytes :=
  match dumps value with
  | .error e => .error (.dump e)
  | .ok text =>
      match encode text with
      | some bytes => .ok bytes
      | none => .error .unicodeEncodeError

/-- `sha256_bytes(value)`. -/
def sha256Bytes (value : Bytes) : Str := Sha256.hexDigestBytes value

/-- `int(value)` of a text, `none` where it raises. -/
def intOfText (s : Str) : Option ℤ := Text.parseInt (String.ofList (s.map Char.ofNat))

/-! ## Sensitive keys -/

/-- A character as `re.IGNORECASE` sees it, next to the letters of the pattern: the dotted capital
and the dotless small `i`, the Kelvin sign and the long `s` count as letters too. -/
def foldCase (c : ℕ) : ℕ :=
  if 65 ≤ c ∧ c ≤ 90 then c + 32
  else if c = 0x130 ∨ c = 0x131 then 105
  else if c = 0x212A then 107
  else if c = 0x17F then 115
  else c

def sensitiveWords : List Str :=
  ["authorization", "cookie", "credential", "password", "passwd", "secret", "token", "apikey",
    "api_key", "api-key", "privatekey", "private_key", "private-key"].map str

/-- `[_-]` -/
def isSeparator (c : ℕ) : Bool := c == 95 || c == 45

/-- `(?:$|[_-])`; `$` is also in front of a line feed that ends the text. -/
def wordEnds (s : Str) : Bool :=
  match s with
  | [] => true
  | c :: rest => isSeparator c || c == 10 && rest.isEmpty

/-- A sensitive word starts here. -/
def wordStarts (s : Str) : Bool :=
  sensitiveWords.any fun w => w.isPrefixOf (s.map foldCase) && wordEnds (s.drop w.length)

/-- A sensitive word starts behind a separator. -/
def wordFollows : Str → Bool
  | [] => false
  | c :: s => isSeparator c && wordStarts s || wordFollows s

/-- `SENSITIVE_KEY_RE.search(key)` -/
def isSensitiveKey (key : Str) : Bool := wordStarts key || wordFollows key

/-- `REDACTED_VALUE` -/
def redactedValue : Value := .str (str "[REDACTED]")

/-! ## Redaction -/

/-- `f"{type(item).__module__}.{type(item).__qualname__}"` -/
def typeName : Value → Str
  | .none => str "builtins.NoneType"
  | .bool _ => str "builtins.bool"
  | .int _ => str "builtins.int"
  | .float _ => str "builtins.float"
  | .str _ => str "builtins.str"
  | .seq tuple _ => str (if tuple then "builtins.tuple" else "builtins.list")
  | .set frozen _ => str (if frozen then "builtins.frozenset" else "builtins.set")
  | .dict _ => str "builtins.dict"
  | .object name => name

/-- A redacted element of a set under its sort key. -/
structure SetEntry where
  typeName : Str
  text : Bytes
  redacted : Value

/-- The order of the sort keys. -/
def SetEntry.Le (a b : SetEntry) : Prop :=
  a.typeName < b.typeName ∨ a.typeName = b.typeName ∧ a.text ≤ b.text

instance : DecidableRel SetEntry.Le := fun a b =>
  inferInstanceAs (Decidable (a.typeName < b.typeName ∨ a.typeName = b.typeName ∧ a.text ≤ b.text))

/-- A dictionary from its items, one after the other. -/
def ofItems (items : Items) : Items :=
  items.foldl (fun d item => Value.insertItem item.1 item.2 d) []

mutual

/-- `redact_payload(value)`. -/
def redactPayload : Value → Except ServiceError Value
  | .dict items => do
      let redacted ← redactItems items
      return .dict (ofItems redacted)
  | .seq _ xs => do
      let redacted ← redactAll xs
      return .seq false redacted
  | .set _ xs => do
      let entries ← redactSet xs
      return .seq false ((entries.insertionSort SetEntry.Le).map SetEntry.redacted)
  | v => .ok v

def redactItems : Items → Except ServiceError Items
  | [] => .ok []
  | (key, item) :: items => do
      let redacted ← (if isSensitiveKey key then .ok redactedValue else redactPayload item :
        Except ServiceError Value)
      let rest ← redactItems items
      return (key, redacted) :: rest

def redactAll : List Value → Except ServiceError (List Value)
  | [] => .ok []
  | x :: xs => do
      let redacted ← redactPayload x
      let rest ← redactAll xs
      return redacted :: rest

def redactSet : List Value → Except ServiceError (List SetEntry)
  | [] => .ok []
  | x :: xs => do
      let redacted ← redactPayload x
      let text ← canonicalJson redacted
      let rest ← redactSet xs
      return ⟨typeName x, text, redacted⟩ :: rest

end

/-! ## Minimisation -/

/-- `d.pop(key, …)`: what is left of the items. -/
def eraseItem (key : Str) (items : Items) : Items := items.filter fun item => item.1 ≠ key

/-- The texts of the parts, if all are texts. -/
def joinParts : List Value → Option Str
  | [] => some []
  | .str s :: parts => (joinParts parts).map (s ++ ·)
  | _ :: _ => none

/-- The text of the source of a cell. -/
def sourceText : Value → Except ServiceError Str
  | .seq false parts =>
      match joinParts parts with
      | some text => .ok text
      | none => .error (.valueError (str "Cell source list must contain only strings"))
  | .str text => .ok text
  | _ => .error (.valueError (str "Cell source must be a string or string list"))

def cellExecuted : Str := str "cell-executed"

/-- `minimize_persisted_payload(kind, payload)`. -/
def minimizePersistedPayload (kind : Str) (payload : Items) : Except ServiceError Items :=
  if kind ≠ cellExecuted then .ok payload
  else
    match Value.lookup payload (str "cell") with
    | some (.dict cell) => do
        let source := (Value.lookup cell (str "source")).getD (.str [])
        let cell := eraseItem (str "source") cell
        let text ← sourceText source
        match encode text with
        | some bytes =>
            let cell := Value.insertItem (str "source_sha256") (.str (sha256Bytes bytes)) cell
            let cell := Value.insertItem (str "source_bytes") (.int bytes.length) cell
            return Value.insertItem (str "cell") (.dict cell) payload
        | none => .error .unicodeEncodeError
    | _ => .error (.valueError (str "cell-executed payload requires a cell object"))

end FreebsdLaboratory
