import Mathlib.Data.List.Lex
import Mathlib.Data.List.Sort
import Mathlib.Data.Nat.Digits.Defs
import FreebsdLaboratory.Library.Unicode

/-!
# Python values and JSON text

`Value` is what Python's `json` module meets: the values it writes, and those it refuses.  `dumps`
is `json.dumps` with `sort_keys=True`, `separators=(",", ":")` and `ensure_ascii=False`; `loads` is
`json.loads`.

A float is kept as the literal that denotes it.  There is no recursion limit.
-/

namespace Library.Json

open Unicode

/-! ## Number tokens -/

def isDigit (n : ℕ) : Bool := 48 ≤ n && n ≤ 57

/-- The characters of a number: a sign, digits, a point, an exponent. -/
def isNumberChar (n : ℕ) : Bool := isDigit n || [43, 45, 46, 69, 101].contains n

/-- `-?(0|[1-9]\d*)` on all of the text. -/
def isIntToken (t : Str) : Bool :=
  let digits := if t.head? = some 45 then t.tail else t
  digits ≠ [] && digits.all isDigit && (digits.length == 1 || digits.head? ≠ some 48)

/-- `([eE][-+]?\d+)` on all of the text. -/
def isExponent : Str → Bool
  | e :: t =>
      let digits := if t.head? = some 43 || t.head? = some 45 then t.tail else t
      (e == 69 || e == 101) && digits ≠ [] && digits.all isDigit
  | [] => false

/-- `(\.\d+)?([eE][-+]?\d+)?` on all of a text that is not empty. -/
def isFraction : Str → Bool
  | 46 :: t =>
      let digits := t.takeWhile isDigit
      let rest := t.drop digits.length
      digits ≠ [] && (rest = [] || isExponent rest)
  | t => isExponent t

/-- A number with a fraction or an exponent. -/
def isFloatToken (t : Str) : Bool :=
  let whole := (if t.head? = some 45 then t.tail else t).takeWhile isDigit
  let sign := if t.head? = some 45 then [45] else []
  isIntToken (sign ++ whole) && t.all isNumberChar && t.any ([46, 69, 101].contains ·)
    && isFraction (t.drop (sign ++ whole).length)

/-- The literal of a float: a number with a fraction or an exponent, or one of three constants. -/
def isFloatLiteral (t : Str) : Bool :=
  isFloatToken t || [str "NaN", str "Infinity", str "-Infinity"].contains t

abbrev FloatLiteral := { t : Str // isFloatLiteral t = true }

/-! ## Values -/

inductive Value where
  | none
  | bool (b : Bool)
  | int (z : ℤ)
  /-- A float, by its literal. -/
  | float (literal : FloatLiteral)
  | str (s : Str)
  /-- A list or a tuple. -/
  | seq (tuple : Bool) (xs : List Value)
  /-- A set or a frozen set, in the order in which it is iterated over. -/
  | set (frozen : Bool) (xs : List Value)
  /-- A dictionary by the text of its keys, in the order of insertion. -/
  | dict (items : List (Str × Value))
  /-- Any other object, by the name of its type. -/
  | object (typeName : Str)

/-- What makes `json.dumps` raise. -/
inductive DumpError where
  | typeError
  /-- An integer of more than 4300 digits. -/
  | tooManyDigits
  deriving DecidableEq

namespace Value

/-- `value.get(key)` of a dictionary; `none` where the key is absent. -/
def lookup (items : List (Str × Value)) (key : Str) : Option Value := List.lookup key items

/-- `d[key] = value`: an old entry keeps its place. -/
def insertItem (key : Str) (value : Value) : List (Str × Value) → List (Str × Value)
  | [] => [(key, value)]
  | (k, v) :: items =>
      if k = key then (key, value) :: items else (k, v) :: insertItem key value items

end Value

/-! ## Writing -/

/-- The digits of a number. -/
def decimal (n : ℕ) : Str := (Nat.toDigits 10 n).map Char.toNat

def maxIntDigits : ℕ := 4300

/-- The text of an integer. -/
def intText (z : ℤ) : Except DumpError Str :=
  let digits := decimal z.natAbs
  if digits.length ≤ maxIntDigits then .ok (if z < 0 then 45 :: digits else digits)
  else .error .tooManyDigits

def hexDigit (n : ℕ) : ℕ := if n < 10 then 48 + n else 87 + n

/-- A character inside a string. -/
def escape (n : ℕ) : Str :=
  if n = 34 then [92, 34]
  else if n = 92 then [92, 92]
  else if n = 8 then [92, 98]
  else if n = 9 then [92, 116]
  else if n = 10 then [92, 110]
  else if n = 12 then [92, 102]
  else if n = 13 then [92, 114]
  else if n < 32 then [92, 117, 48, 48, hexDigit (n / 16), hexDigit (n % 16)]
  else [n]

/-- A string with its quotes. -/
def quote (s : Str) : Str := 34 :: s.flatMap escape ++ [34]

/-- The items of a dictionary, sorted by key. -/
def sortItems {α : Type} (items : List (Str × α)) : List (Str × α) :=
  items.insertionSort fun a b => a.1 ≤ b.1

/-- Texts after an opening bracket: with commas between them, and the closing bracket. -/
def joinTexts (close : ℕ) : List Str → Str
  | [] => [close]
  | [t] => t ++ [close]
  | t :: ts => t ++ 44 :: joinTexts close ts

/-- The text of an item. -/
def itemText (item : Str × Except DumpError Str) : Except DumpError Str :=
  item.2.map fun t => quote item.1 ++ 58 :: t

mutual

/-- `json.dumps(value, sort_keys=True, separators=(",", ":"), ensure_ascii=False)`. -/
def dumps : Value → Except DumpError Str
  | .none => .ok (str "null")
  | .bool b => .ok (str (if b then "true" else "false"))
  | .int z => intText z
  | .float literal => .ok literal.1
  | .str s => .ok (quote s)
  | .seq _ xs => ((dumpsAll xs).mapM id).map fun ts => 91 :: joinTexts 93 ts
  | .set _ _ | .object _ => .error .typeError
  | .dict items =>
      ((sortItems (dumpsItems items)).mapM itemText).map fun ts => 123 :: joinTexts 125 ts

def dumpsAll : List Value → List (Except DumpError Str)
  | [] => []
  | x :: xs => dumps x :: dumpsAll xs

def dumpsItems : List (Str × Value) → List (Str × Except DumpError Str)
  | [] => []
  | (k, v) :: items => (k, dumps v) :: dumpsItems items

end

/-! ## Reading -/

def isWhite (n : ℕ) : Bool := [32, 9, 10, 13].contains n

def skipWhite (s : Str) : Str := s.dropWhile isWhite

def hexValue (n : ℕ) : Option ℕ :=
  if 48 ≤ n ∧ n ≤ 57 then some (n - 48)
  else if 97 ≤ n ∧ n ≤ 102 then some (n - 87)
  else if 65 ≤ n ∧ n ≤ 70 then some (n - 55)
  else none

/-- Four hexadecimal digits. -/
def hex4 (a b c d : ℕ) : Option ℕ := do
  return ((← hexValue a) * 16 + (← hexValue b)) * 256 + (← hexValue c) * 16 + (← hexValue d)

/-- A high surrogate joins with a low one behind it. -/
def joinSurrogate (n : ℕ) : Str → Str
  | m :: s =>
      if 0xD800 ≤ n ∧ n < 0xDC00 ∧ 0xDC00 ≤ m ∧ m < 0xE000 then
        (0x10000 + (n - 0xD800) * 1024 + (m - 0xDC00)) :: s
      else n :: m :: s
  | [] => [n]

/-- The character behind a backslash. -/
def unescape (n : ℕ) : Option ℕ :=
  if n = 34 ∨ n = 92 ∨ n = 47 then some n
  else if n = 98 then some 8
  else if n = 102 then some 12
  else if n = 110 then some 10
  else if n = 114 then some 13
  else if n = 116 then some 9
  else none

/-- A string after its opening quote, and what follows the closing one. -/
def readString : Str → Option (Str × Str)
  | [] => none
  | 34 :: rest => some ([], rest)
  | 92 :: 117 :: a :: b :: c :: d :: rest => do
      let n ← hex4 a b c d
      let (s, rest) ← readString rest
      return (joinSurrogate n s, rest)
  | 92 :: e :: rest => do
      let n ← unescape e
      let (s, rest) ← readString rest
      return (n :: s, rest)
  | n :: rest => do
      if n < 32 ∨ n = 92 then failure
      let (s, rest) ← readString rest
      return (n :: s, rest)

/-- The value of a run of digits. -/
def ofDecimal (digits : Str) : ℕ := digits.foldl (fun n d => 10 * n + (d - 48)) 0

/-- A number from its token. -/
def readNumber (t : Str) : Option Value :=
  if h : isFloatToken t = true then some (.float ⟨t, by simp [isFloatLiteral, h]⟩)
  else if isIntToken t then
    if t.head? = some 45 then
      if t.tail.length ≤ maxIntDigits then some (.int (-(ofDecimal t.tail : ℤ))) else none
    else if t.length ≤ maxIntDigits then some (.int (ofDecimal t)) else none
  else none

/-- The constants of JSON and of Python's extension of it. -/
def constants : List (Str × Value) :=
  [(str "null", .none), (str "true", .bool true), (str "false", .bool false),
    (str "NaN", .float ⟨str "NaN", by decide⟩),
    (str "Infinity", .float ⟨str "Infinity", by decide⟩),
    (str "-Infinity", .float ⟨str "-Infinity", by decide⟩)]

/-- A constant at the start of the text. -/
def readConstant (s : Str) : Option (Value × Str) :=
  (constants.find? fun c => c.1.isPrefixOf s).map fun c => (c.2, s.drop c.1.length)

mutual

/-- A value at the start of the text. -/
def readValue : ℕ → Str → Option (Value × Str)
  | 0, _ => none
  | fuel + 1, s =>
      match s with
      | 34 :: rest => (readString rest).map fun (t, rest) => (.str t, rest)
      | 91 :: rest =>
          let rest := skipWhite rest
          match rest with
          | 93 :: rest => some (.seq false [], rest)
          | _ => (readElements fuel rest).map fun (xs, rest) => (.seq false xs, rest)
      | 123 :: rest =>
          let rest := skipWhite rest
          match rest with
          | 125 :: rest => some (.dict [], rest)
          | _ => (readItems fuel [] rest).map fun (items, rest) => (.dict items, rest)
      | _ =>
          match readConstant s with
          | some found => some found
          | none =>
              let token := s.takeWhile isNumberChar
              (readNumber token).map fun v => (v, s.drop token.length)

/-- The elements of a list after its opening bracket. -/
def readElements : ℕ → Str → Option (List Value × Str)
  | 0, _ => none
  | fuel + 1, s => do
      let (v, rest) ← readValue fuel s
      match skipWhite rest with
      | 93 :: rest => return ([v], rest)
      | 44 :: rest =>
          let (vs, rest) ← readElements fuel (skipWhite rest)
          return (v :: vs, rest)
      | _ => failure

/-- The items of a dictionary after its opening brace; a later value replaces an earlier one. -/
def readItems : ℕ → List (Str × Value) → Str → Option (List (Str × Value) × Str)
  | 0, _, _ => none
  | fuel + 1, items, s => do
      match s with
      | 34 :: s =>
          let (key, rest) ← readString s
          match skipWhite rest with
          | 58 :: rest =>
              let (v, rest) ← readValue fuel (skipWhite rest)
              let items := Value.insertItem key v items
              match skipWhite rest with
              | 125 :: rest => return (items, rest)
              | 44 :: rest => readItems fuel items (skipWhite rest)
              | _ => failure
          | _ => failure
      | _ => failure

end

/-- `json.loads(text)`, `none` where it raises. -/
def loads (s : Str) : Option Value :=
  match readValue (s.length + 1) (skipWhite s) with
  | some (v, rest) => if skipWhite rest = [] then some v else none
  | none => none

end Library.Json
