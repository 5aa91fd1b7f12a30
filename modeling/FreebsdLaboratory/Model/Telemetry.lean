import FreebsdLaboratory.Model.Payload
import Mathlib.Data.List.Infix

/-!
# What is sent to Sentry

`_before_send` of `telemetry.py` and what it is made of: the values under sensitive keys are
replaced, and so are credentials inside texts, as `_INLINE_SECRET_RE` finds them.

`pieces` is the scan of `re.sub`: from the left, a match of the expression is taken where one
begins, and the scan goes on behind it.
-/

namespace FreebsdLaboratory

open Library.Unicode

namespace Telemetry

/-! ## Credentials in texts -/

/-- `authorization|password|passwd|token|secret|api[_-]?key` -/
def inlineKeys : List Str :=
  ["authorization", "password", "passwd", "token", "secret", "apikey", "api_key", "api-key"].map str

/-- `\s` -/
def isBlank (c : ℕ) : Bool :=
  [9, 10, 11, 12, 13, 28, 29, 30, 31, 32, 133, 160, 5760, 8192, 8193, 8194, 8195, 8196, 8197, 8198,
    8199, 8200, 8201, 8202, 8232, 8233, 8239, 8287, 12288].contains c

/-- `[^\s,;]` -/
def isValueChar (c : ℕ) : Bool := !isBlank c && c != 44 && c != 59

/-- The key with which the text begins, in lower case. -/
def inlineKey (s : Str) : Option Str :=
  inlineKeys.find? fun key => key.isPrefixOf (s.map foldCase)

/-- `_INLINE_SECRET_RE.match(text)`: the first two groups, and what stands behind the match. -/
def inlineMatch (s : Str) : Option (Str × Str) :=
  match inlineKey s with
  | none => none
  | some key =>
      match s.drop key.length with
      | [] => none
      | sep :: rest =>
          if sep = 61 ∨ sep = 58 then
            let value := (rest.dropWhile isBlank).takeWhile isValueChar
            if value = [] then none
            else some (s.take key.length ++ sep :: rest.takeWhile isBlank,
              (rest.dropWhile isBlank).dropWhile isValueChar)
          else none

/-- A piece of a text that was scanned. -/
inductive Piece where
  | char (c : ℕ)
  /-- A match, by its first two groups. -/
  | credential (head : Str)
  deriving DecidableEq

def pieces : ℕ → Str → List Piece
  | 0, _ => []
  | _, [] => []
  | n + 1, c :: s =>
      match inlineMatch (c :: s) with
      | some (head, rest) => .credential head :: pieces n rest
      | none => .char c :: pieces n s

/-- The scan of a text. -/
def scan (s : Str) : List Piece := pieces s.length s

def filtered : Str := str "[Filtered]"

/-- What is put in the place of the piece: `\1\2[Filtered]` for a match. -/
def Piece.text : Piece → Str
  | .char c => [c]
  | .credential head => head ++ filtered

/-- `_INLINE_SECRET_RE.sub(r"\1\2[Filtered]", value)` -/
def redactText (s : Str) : Str := (scan s).flatMap Piece.text

/-! ## Events -/

/-- A value of an event; a mapping by the texts `str(key)` of its keys. -/
inductive EventValue where
  | text (s : Str)
  | mapping (items : List (Str × EventValue))
  | list (xs : List EventValue)
  | tuple (xs : List EventValue)
  /-- Anything else. -/
  | other (name : Str)

/-- `_SENSITIVE_KEY_PARTS` -/
def sensitiveKeyParts : List Str :=
  ["authorization", "cookie", "password", "passwd", "secret", "token", "api_key", "apikey",
    "private_key"].map str

/-- `_is_sensitive_key(key)`; `lower` is `str.lower`. -/
def isSensitiveEventKey (lower : Str → Str) (key : Str) : Bool :=
  let normalized := (lower key).map fun c => if c = 45 then 95 else c
  sensitiveKeyParts.any fun part => decide (part <:+: normalized)

mutual

/-- `_redact(value)` -/
def redactEvent (lower : Str → Str) : EventValue → EventValue
  | .text s => .text (redactText s)
  | .mapping items => .mapping (redactEventItems lower items)
  | .list xs => .list (redactEvents lower xs)
  | .tuple xs => .tuple (redactEvents lower xs)
  | .other name => .other name

def redactEvents (lower : Str → Str) : List EventValue → List EventValue
  | [] => []
  | x :: xs => redactEvent lower x :: redactEvents lower xs

def redactEventItems (lower : Str → Str) : List (Str × EventValue) → List (Str × EventValue)
  | [] => []
  | (key, item) :: items =>
      (key, if isSensitiveEventKey lower key = true then .text filtered else redactEvent lower item)
        :: redactEventItems lower items

end

/-- `_before_send(event, hint)`, where the event is a mapping. -/
def beforeSend (lower : Str → Str) (items : List (Str × EventValue)) : List (Str × EventValue) :=
  redactEventItems lower items

end Telemetry

end FreebsdLaboratory
