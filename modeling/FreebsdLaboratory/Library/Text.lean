import Mathlib.Data.List.DropRight
import Mathlib.Data.List.Infix

/-!
# Text as Python scans it

The string operations of Python that a program uses to read what a command printed: stripping,
splitting at white space or into lines, `int()`, and the character classes behind `\s` and `\d`.
They are defined on the list of characters and wrapped for `String`, so that they evaluate.

The lemmas say what the operations do to text that was put together from words without white
space, which is the only kind of text a reader can take apart again.
-/

namespace Library.Text

/-! ## Character classes -/

/-- `str.isspace` of one character; also `\s`. -/
def isSpace (c : Char) : Bool :=
  [9, 10, 11, 12, 13, 28, 29, 30, 31, 32, 133, 160, 5760, 8192, 8193, 8194, 8195, 8196, 8197, 8198,
    8199, 8200, 8201, 8202, 8232, 8233, 8239, 8287, 12288].contains c.toNat

/-- The characters at which `str.splitlines` ends a line. -/
def isLineBreak (c : Char) : Bool :=
  [10, 11, 12, 13, 28, 29, 30, 133, 8232, 8233].contains c.toNat

/-- The first digit of every run of ten decimal digits in Unicode (category `Nd`). -/
def zeroDigits : List ℕ :=
  [0x30, 0x660, 0x6F0, 0x7C0, 0x966, 0x9E6, 0xA66, 0xAE6, 0xB66, 0xBE6, 0xC66, 0xCE6, 0xD66, 0xDE6,
    0xE50, 0xED0, 0xF20, 0x1040, 0x1090, 0x17E0, 0x1810, 0x1946, 0x19D0, 0x1A80, 0x1A90, 0x1B50,
    0x1BB0, 0x1C40, 0x1C50, 0xA620, 0xA8D0, 0xA900, 0xA9D0, 0xA9F0, 0xAA50, 0xABF0, 0xFF10, 0x104A0,
    0x10D30, 0x11066, 0x110F0, 0x11136, 0x111D0, 0x112F0, 0x11450, 0x114D0, 0x11650, 0x116C0,
    0x11730, 0x118E0, 0x11950, 0x11C50, 0x11D50, 0x11DA0, 0x11F50, 0x16A60, 0x16AC0, 0x16B50,
    0x1D7CE, 0x1D7D8, 0x1D7E2, 0x1D7EC, 0x1D7F6, 0x1E140, 0x1E2F0, 0x1E4F0, 0x1E950, 0x1FBF0]

/-- The value of a decimal digit of any script. -/
def digitValue (c : Char) : Option ℕ :=
  (zeroDigits.find? fun z => z ≤ c.toNat && c.toNat < z + 10).map (c.toNat - ·)

/-- `\d` of one character. -/
def isDigit (c : Char) : Bool := (digitValue c).isSome

/-! ## Stripping, splitting, searching -/

/-- `str.strip()` on characters. -/
def stripChars (cs : List Char) : List Char := (cs.dropWhile isSpace).rdropWhile isSpace

def strip (s : String) : String := String.ofList (stripChars s.toList)

/-- `str.rstrip(c)`. -/
def rstripChar (c : Char) (s : String) : String := String.ofList (s.toList.rdropWhile (· == c))

/-- `str.lstrip(c)`. -/
def lstripChar (c : Char) (s : String) : String := String.ofList (s.toList.dropWhile (· == c))

/-- `str.split()`: the words between runs of white space. -/
def splitWords (cs : List Char) : List (List Char) := (cs.splitOnP isSpace).filter (· ≠ [])

def split (s : String) : List String := (splitWords s.toList).map String.ofList

/-- `str.split(c)` at every occurrence of one character. -/
def splitAt (c : Char) (s : String) : List String := (s.toList.splitOn c).map String.ofList

/-- A carriage return followed by a line feed counts as one line break. -/
def joinCrLf : List Char → List Char
  | '\r' :: '\n' :: cs => '\n' :: joinCrLf cs
  | c :: cs => c :: joinCrLf cs
  | [] => []

/-- `str.splitlines()`. -/
def splitLines (s : String) : List String :=
  let parts := (joinCrLf s.toList).splitOnP isLineBreak
  (if parts.getLast? = some [] then parts.dropLast else parts).map String.ofList

/-- `text in s`. -/
def contains (text s : String) : Bool := s.toList.tails.any (text.toList.isPrefixOf ·)

def startsWith (text s : String) : Bool := text.toList.isPrefixOf s.toList

def endsWith (text s : String) : Bool := text.toList.isSuffixOf s.toList

/-- `s.rsplit(c, 1)[-1]`: what follows the last occurrence of a character, or everything. -/
def afterLast (c : Char) (s : String) : String := String.ofList (s.toList.rtakeWhile (· ≠ c))

/-! ## Integers -/

/-- A run of digits with single underscores inside; `seen` says whether the last one was a digit,
`n` counts digits. -/
def digitsValue : List Char → (seen : Bool) → (n value : ℕ) → Option (ℕ × ℕ)
  | [], seen, n, value => if seen then some (n, value) else none
  | c :: cs, seen, n, value =>
      if c = '_' then if seen then digitsValue cs false n value else none
      else match digitValue c with
        | some d => digitsValue cs true (n + 1) (10 * value + d)
        | none => none

/-- White space around a number: `int()` does not strip the separators U+001C to U+001F. -/
def isNumberSpace (c : Char) : Bool := isSpace c && !(28 ≤ c.toNat && c.toNat ≤ 31)

/-- What `int()` reads of a text. -/
def stripNumber (cs : List Char) : List Char :=
  (cs.dropWhile isNumberSpace).rdropWhile isNumberSpace

/-- The digit limit of `int()` on text. -/
def maxIntDigits : ℕ := 4300

/-- `int(s)`, `none` where it raises `ValueError`. -/
def parseInt (s : String) : Option ℤ :=
  let unsigned (cs : List Char) : Option ℤ :=
    match digitsValue cs false 0 0 with
    | some (n, v) => if n ≤ maxIntDigits then some v else none
    | none => none
  match stripNumber s.toList with
  | '-' :: cs => (unsigned cs).map (- ·)
  | '+' :: cs => unsigned cs
  | cs => unsigned cs

/-- `re.fullmatch(pre ++ "\\d+" ++ post, s)`: the digits between two fixed texts. -/
def matchDigits (pre post s : String) : Option (List Char) :=
  let middle := (s.toList.drop pre.length).take (s.length - pre.length - post.length)
  if s.toList = pre.toList ++ middle ++ post.toList ∧ middle ≠ [] ∧ middle.all isDigit
  then some middle else none

/-! ## Words -/

/-- Text without white space is what is left when white space around it is stripped. -/
theorem stripChars_append {cs t : List Char} (hcs : ∀ c ∈ cs, isSpace c = false)
    (ht : ∀ c ∈ t, isSpace c = true) : stripChars (cs ++ t) = cs := by
  have hleft : (cs ++ t).dropWhile isSpace = cs ++ t ∨ cs = [] := by
    cases cs with
    | nil => exact .inr rfl
    | cons c cs =>
        have hc : isSpace c = false := hcs c (by simp)
        exact .inl (by simp [hc])
  have hright : cs.rdropWhile isSpace = cs := by
    cases cs using List.reverseRecOn with
    | nil => rfl
    | append_singleton cs c => simp [hcs c (by simp)]
  unfold stripChars
  rcases hleft with hleft | rfl
  · rw [hleft, List.rdropWhile, List.reverse_append,
      List.dropWhile_append_of_pos fun c hc => ht c (List.mem_reverse.mp hc)]
    exact hright
  · rw [List.nil_append, List.dropWhile_eq_nil_iff.mpr ht]
    rfl

/-! ## Numbers and lines -/

/-- A text without white space is read as it is. -/
theorem stripNumber_eq_self {cs : List Char} (h : ∀ c ∈ cs, isSpace c = false) :
    stripNumber cs = cs := by
  have hplain : ∀ c ∈ cs, isNumberSpace c = false := fun c hc => by
    rw [isNumberSpace, h c hc, Bool.false_and]
  have hleft : cs.dropWhile isNumberSpace = cs := by
    cases cs with
    | nil => rfl
    | cons c cs => rw [List.dropWhile_cons_of_neg (by simp [hplain c (by simp)])]
  have hright : cs.rdropWhile isNumberSpace = cs := by
    cases cs using List.reverseRecOn with
    | nil => rfl
    | append_singleton cs c => simp [hplain c (by simp)]
  rw [stripNumber, hleft, hright]

theorem toNat_ofNat_of_lt {n : ℕ} (h : n < 128) : (Char.ofNat n).toNat = n := by
  have hvalid : n.isValidChar := .inl (by omega)
  rw [Char.ofNat, dif_pos hvalid]
  rfl

theorem isDigit_of_isDigit {c : Char} (h : c.isDigit = true) : isDigit c = true := by
  have hrange : 48 ≤ c.toNat ∧ c.toNat < 48 + 10 := by
    simp only [Char.isDigit, Bool.and_eq_true, decide_eq_true_eq] at h
    obtain ⟨hlow, hhigh⟩ := h
    have hlow : 48 ≤ c.toNat := hlow
    have hhigh : c.toNat ≤ 57 := hhigh
    omega
  simp [isDigit, digitValue, zeroDigits, hrange]

/-- The decimal digits of a number. -/
theorem isDigit_of_mem_toDigits {n : ℕ} {c : Char} (h : c ∈ Nat.toDigits 10 n) :
    c.isDigit = true :=
  Nat.isDigit_of_mem_toDigits (by decide) (by decide) h

theorem matchDigits_append {pre post : String} {digits : List Char} (hne : digits ≠ [])
    (hdigits : ∀ c ∈ digits, isDigit c = true) :
    matchDigits pre post (pre ++ String.ofList digits ++ post) = some digits := by
  have hmiddle : ((pre ++ String.ofList digits ++ post).toList.drop pre.length).take
      ((pre ++ String.ofList digits ++ post).length - pre.length - post.length) = digits := by
    have hlen : pre.length + digits.length + post.length - pre.length - post.length
        = digits.length := by omega
    have hpre : pre.length = pre.toList.length := String.length_toList.symm
    simp only [String.toList_append, String.toList_ofList, String.length_append,
      String.length_ofList, List.append_assoc, hlen]
    rw [hpre, List.drop_left, List.take_left]
  simp only [matchDigits, hmiddle]
  rw [if_pos]
  exact ⟨by simp, hne, List.all_eq_true.mpr hdigits⟩

theorem joinCrLf_of_no_break {cs : List Char} (h : ∀ c ∈ cs, isLineBreak c = false) :
    joinCrLf cs = cs := by
  induction cs using joinCrLf.induct with
  | case1 cs ih => exact absurd (h '\r' (by simp)) (by decide)
  | case2 c cs hne ih => rw [joinCrLf, ih fun d hd => h d (List.mem_cons_of_mem c hd)]; exact hne
  | case3 => rfl

/-- Text without line breaks is one line. -/
theorem splitLines_of_no_break {s : String} (hne : s ≠ "")
    (h : ∀ c ∈ s.toList, isLineBreak c = false) : splitLines s = [s] := by
  have hnil : s.toList ≠ [] := by simpa using hne
  simp [splitLines, joinCrLf_of_no_break h, List.splitOnP_eq_singleton h, hnil]

/-- **Terminated lines come apart at their terminators**, with nothing behind the last one. -/
theorem splitOn_flatMap_lines {α : Type} [DecidableEq α] {sep : α} {lines : List (List α)}
    (h : ∀ line ∈ lines, sep ∉ line) :
    (lines.flatMap (· ++ [sep])).splitOn sep = lines ++ [[]] := by
  induction lines with
  | nil => rfl
  | cons line lines ih =>
      rw [List.forall_mem_cons] at h
      have hfirst : ∀ x ∈ line, (x == sep) = false := by
        intro x hx
        rw [beq_eq_false_iff_ne]
        rintro rfl
        exact h.1 hx
      rw [List.flatMap_cons, List.append_assoc, List.singleton_append, List.splitOn,
        List.splitOnP_append_cons_of_forall_mem hfirst _ (by simp), ← List.splitOn, ih h.2]
      rfl

/-! ## Slash-separated paths -/

/-- `path` is `parent` or lies below it. -/
def isBelow (parent path : String) : Bool :=
  path == parent || startsWith (parent ++ "/") path

/-- `isBelow` on characters. -/
def Below (parent path : List Char) : Prop := path = parent ∨ parent ++ ['/'] <+: path

theorem isBelow_iff {parent path : String} :
    isBelow parent path = true ↔ Below parent.toList path.toList := by
  simp [isBelow, Below, startsWith, String.toList_inj]

theorem Below.prefix_of {p d : List Char} (h : Below p d) : p <+: d := by
  rcases h with rfl | h
  · exact List.prefix_rfl
  · exact (List.prefix_append p _).trans h

theorem Below.trans {p q d : List Char} (hp : Below p q) (hq : Below q d) : Below p d := by
  rcases hq with rfl | hq
  · exact hp
  · rcases hp with rfl | hp
    · exact .inr hq
    · exact .inr (hp.trans ((List.prefix_append q _).trans hq))

/-- Of two paths above the same path, one is above the other. -/
theorem Below.comparable {p q d : List Char} (hp : Below p d) (hq : Below q d) :
    Below p q ∨ Below q p := by
  rcases hp with rfl | hp
  · exact .inr hq
  rcases hq with rfl | hq
  · exact .inl (.inr hp)
  have hcmp : ∀ {p q : List Char}, p ++ ['/'] <+: q ++ ['/'] → Below p q := by
    intro p q h
    rcases List.prefix_concat_iff.mp h with h | h
    · exact .inl (List.append_cancel_right h).symm
    · exact .inr h
  exact (List.prefix_or_prefix_of_prefix hp hq).imp hcmp hcmp

/-- Where two paths with a last component agree, one parent continues the other only by a component
of the other. -/
theorem append_slash_cases {p q s t : List Char} (h : p ++ '/' :: s = q ++ '/' :: t) :
    p = q ∧ s = t ∨ (∃ u, q = p ++ '/' :: u ∧ s = u ++ '/' :: t)
      ∨ ∃ u, p = q ++ '/' :: u ∧ t = u ++ '/' :: s := by
  rcases List.append_eq_append_iff.mp h with ⟨x, hq, hs⟩ | ⟨x, hp, ht⟩
  · cases x with
    | nil => exact .inl ⟨by simpa using hq.symm, by simpa using hs⟩
    | cons y u =>
        obtain ⟨rfl, hs'⟩ : '/' = y ∧ s = u ++ '/' :: t := by simpa using hs
        exact .inr (.inl ⟨u, hq, hs'⟩)
  · cases x with
    | nil => exact .inl ⟨by simpa using hp, by simpa using ht.symm⟩
    | cons y u =>
        obtain ⟨rfl, ht'⟩ : '/' = y ∧ t = u ++ '/' :: s := by simpa using ht
        exact .inr (.inr ⟨u, hp, ht'⟩)

/-- Above a path with a last component, there is only that path itself and what is above its
parent. -/
theorem Below.of_last {p q n : List Char} (hn : '/' ∉ n) (h : Below p (q ++ '/' :: n)) :
    p = q ++ '/' :: n ∨ Below p q := by
  rcases h with h | ⟨t, ht⟩
  · exact .inl h.symm
  have ht : p ++ '/' :: t = q ++ '/' :: n := by simpa using ht
  rcases append_slash_cases ht with ⟨rfl, -⟩ | ⟨u, rfl, -⟩ | ⟨u, -, rfl⟩
  · exact .inr (.inl rfl)
  · exact .inr (.inr ⟨u, by simp⟩)
  · simp at hn

/-- The last component of a path is determined by it. -/
theorem last_unique {p q n k : List Char} (hn : '/' ∉ n) (hk : '/' ∉ k)
    (h : p ++ '/' :: n = q ++ '/' :: k) : n = k := by
  rcases append_slash_cases h with ⟨-, h⟩ | ⟨u, -, rfl⟩ | ⟨u, -, rfl⟩
  · exact h
  · simp at hn
  · simp at hk

end Library.Text
