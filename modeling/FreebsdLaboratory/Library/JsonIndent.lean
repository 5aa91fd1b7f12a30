import FreebsdLaboratory.Library.JsonWritable

/-!
# JSON with indentation

`dumpsIndent` is `json.dumps(value, indent=2)`: items in the order of insertion, ASCII only.  Here a
value reads back as it is (`loads_dumpsIndent`), as long as it is one that text can stand for:
`Value.Readable`.  Those are the values `loads` returns (`readable_of_loads`).
-/

namespace Library.Json

open Unicode Value

variable {s t rest : Str} {n : ℕ} {v : Value}

/-! ## Writing -/

def isHigh (n : ℕ) : Bool := 0xD800 ≤ n && n < 0xDC00

def isLow (n : ℕ) : Bool := 0xDC00 ≤ n && n < 0xE000

/-- `\uXXXX`. -/
def unicodeEscape (n : ℕ) : Str :=
  [92, 117, hexDigit (n / 4096), hexDigit (n / 256 % 16), hexDigit (n / 16 % 16), hexDigit (n % 16)]

/-- A character inside a string with `ensure_ascii`. -/
def escapeAscii (n : ℕ) : Str :=
  if n = 34 then [92, 34]
  else if n = 92 then [92, 92]
  else if n = 8 then [92, 98]
  else if n = 9 then [92, 116]
  else if n = 10 then [92, 110]
  else if n = 12 then [92, 102]
  else if n = 13 then [92, 114]
  else if 32 ≤ n ∧ n < 127 then [n]
  else if n < 0x10000 then unicodeEscape n
  else unicodeEscape (0xD800 + (n - 0x10000) / 1024) ++ unicodeEscape
    (0xDC00 + (n - 0x10000) % 1024)

/-- A string with its quotes. -/
def quoteAscii (s : Str) : Str := 34 :: s.flatMap escapeAscii ++ [34]

/-- A line break and the indentation behind it. -/
def newline (level : ℕ) : Str := 10 :: List.replicate (2 * level) 32

/-- Texts behind the first one: each on its own line, and the closing bracket on the last. -/
def joinLines (level close : ℕ) : List Str → Str
  | [] => newline level ++ [close]
  | t :: ts => 44 :: (newline (level + 1) ++ (t ++ joinLines level close ts))

/-- Texts after an opening bracket. -/
def joinIndented (level close : ℕ) : List Str → Str
  | [] => [close]
  | t :: ts => newline (level + 1) ++ (t ++ joinLines level close ts)

/-- The text of an item. -/
def itemLine (item : Str × Except DumpError Str) : Except DumpError Str :=
  item.2.map fun t => quoteAscii item.1 ++ 58 :: 32 :: t

mutual

/-- `json.dumps(value, indent=2)` inside `level` brackets. -/
def dumpsIndent (level : ℕ) : Value → Except DumpError Str
  | .none => .ok (str "null")
  | .bool b => .ok (str (if b then "true" else "false"))
  | .int z => intText z
  | .float literal => .ok literal.1
  | .str s => .ok (quoteAscii s)
  | .seq _ xs =>
      ((dumpsIndentAll (level + 1) xs).mapM id).map fun ts => 91 :: joinIndented level 93 ts
  | .set _ _ | .object _ => .error .typeError
  | .dict items =>
      ((dumpsIndentItems (level + 1) items).mapM itemLine).map fun ts =>
        123 :: joinIndented level 125 ts

def dumpsIndentAll (level : ℕ) : List Value → List (Except DumpError Str)
  | [] => []
  | x :: xs => dumpsIndent level x :: dumpsIndentAll level xs

def dumpsIndentItems (level : ℕ) : List (Str × Value) → List (Str × Except DumpError Str)
  | [] => []
  | (k, v) :: items => (k, dumpsIndent level v) :: dumpsIndentItems level items

end

/-! ## Values that text can stand for -/

/-- Code points, and no high surrogate in front of a low one. -/
structure Unpaired (s : Str) : Prop where
  lt : ∀ c ∈ s, c < 0x110000
  chain : s.IsChain fun a b => ¬ (isHigh a = true ∧ isLow b = true)

lemma unpaired_nil : Unpaired [] := ⟨by simp, List.isChain_nil⟩

lemma unpaired_cons (hn : n < 0x110000) (hs : Unpaired s)
    (h : ∀ m ∈ s.head?, ¬ (isHigh n = true ∧ isLow m = true)) : Unpaired (n :: s) := by
  constructor
  · intro c hc
    rcases List.mem_cons.mp hc with rfl | hc
    · exact hn
    · exact hs.lt c hc
  · exact List.isChain_cons.mpr ⟨h, hs.chain⟩

lemma Unpaired.tail (h : Unpaired (n :: s)) : Unpaired s :=
  ⟨fun c hc => h.lt c (by simp [hc]), (List.isChain_cons.mp h.chain).2⟩

/-! ## Strings read back -/

lemma hex4_unicodeEscape (hn : n < 0x10000) :
    hex4 (hexDigit (n / 4096)) (hexDigit (n / 256 % 16)) (hexDigit (n / 16 % 16))
      (hexDigit (n % 16))
      = some n := by
  have hval : (n / 4096 * 16 + n / 256 % 16) * 256 + n / 16 % 16 * 16 + n % 16 = n := by omega
  simp [hex4, hexValue_hexDigit _ (show n / 4096 < 16 by omega),
    hexValue_hexDigit _ (show n / 256 % 16 < 16 by omega),
    hexValue_hexDigit _ (show n / 16 % 16 < 16 by omega),
    hexValue_hexDigit _ (show n % 16 < 16 by omega), hval]

lemma readString_unicodeEscape (hn : n < 0x10000) (s : Str) :
    readString (unicodeEscape n ++ s)
      = (readString s).map fun r => (joinSurrogate n r.1, r.2) := by
  rw [unicodeEscape, List.cons_append, List.cons_append, List.cons_append, List.cons_append,
    List.cons_append, List.cons_append, List.nil_append, readString, hex4_unicodeEscape hn]
  cases readString s <;> rfl

lemma joinSurrogate_of_not (h : ∀ m ∈ s.head?, ¬ (isHigh n = true ∧ isLow m = true)) :
    joinSurrogate n s = n :: s := by
  cases s with
  | nil => rfl
  | cons m s =>
      have hm := h m (by simp)
      simp only [isHigh, isLow, Bool.and_eq_true, decide_eq_true_eq] at hm
      rw [joinSurrogate, if_neg (by omega)]

/-- An escaped character is read as the character. -/
lemma readString_escapeAscii (hn : n < 0x110000)
    (h : ∀ m ∈ t.head?, ¬ (isHigh n = true ∧ isLow m = true))
    (hread : readString s = some (t, rest)) :
    readString (escapeAscii n ++ s) = some (n :: t, rest) := by
  have hshort : ∀ m, escape m = escapeAscii m →
    readString (escapeAscii m ++ s) = some (m :: t, rest) := by
    intro m hm
    rw [← hm, readString_escape, hread]
    rfl
  have hjoin := joinSurrogate_of_not h
  by_cases hplain : n = 34 ∨ n = 92 ∨ n = 8 ∨ n = 9 ∨ n = 10 ∨ n = 12 ∨ n = 13 ∨ 32 ≤ n ∧ n < 127
  · refine hshort n ?_
    have h32 : ¬ (n = 34 ∨ n = 92 ∨ n = 8 ∨ n = 9 ∨ n = 10 ∨ n = 12 ∨ n = 13) → ¬ n < 32 := by omega
    unfold escape escapeAscii
    split_ifs <;> first | rfl | omega
  · have hesc : escapeAscii n = if n < 0x10000 then unicodeEscape n
        else unicodeEscape (0xD800 + (n - 0x10000) / 1024)
          ++ unicodeEscape (0xDC00 + (n - 0x10000) % 1024) := by
      unfold escapeAscii
      simp only [not_or] at hplain
      obtain ⟨h1, h2, h3, h4, h5, h6, h7, h8⟩ := hplain
      rw [if_neg h1, if_neg h2, if_neg h3, if_neg h4, if_neg h5, if_neg h6, if_neg h7, if_neg h8]
    rw [hesc]
    by_cases hbmp : n < 0x10000
    · rw [if_pos hbmp, readString_unicodeEscape hbmp, hread, Option.map_some, hjoin]
    · -- a pair of escapes that the reader joins again
      have hlow : joinSurrogate (0xDC00 + (n - 0x10000) % 1024) t
          = (0xDC00 + (n - 0x10000) % 1024) :: t := by
        refine joinSurrogate_of_not ?_
        intro m _ hm
        simp only [isHigh, Bool.and_eq_true, decide_eq_true_eq] at hm
        omega
      have hvalue : 0x10000 + (0xD800 + (n - 0x10000) / 1024 - 0xD800) * 1024
          + (0xDC00 + (n - 0x10000) % 1024 - 0xDC00) = n := by omega
      rw [if_neg hbmp, List.append_assoc, readString_unicodeEscape (by omega),
        readString_unicodeEscape (by omega), hread, Option.map_some, Option.map_some, hlow,
        joinSurrogate, if_pos (by omega), hvalue]

/-- **A quoted string reads back.** -/
theorem readString_quoteAscii (hs : Unpaired s) (rest : Str) :
    readString (s.flatMap escapeAscii ++ 34 :: rest) = some (s, rest) := by
  induction s with
  | nil => rfl
  | cons n s ih =>
      rw [List.flatMap_cons, List.append_assoc]
      exact readString_escapeAscii (hs.lt n (by simp)) (List.isChain_cons.mp hs.chain).1
        (ih hs.tail)

lemma reads_quoteAscii (hs : Unpaired s) : Reads (quoteAscii s) (.str s) := by
  refine ⟨⟨34, _, rfl, by decide, by decide⟩, fun fuel rest hfuel _ => ?_⟩
  cases fuel with
  | zero => simp [quoteAscii] at hfuel
  | succ fuel =>
      rw [quoteAscii, List.cons_append, List.cons_append, List.append_assoc, List.singleton_append,
        readValue, readString_quoteAscii hs]
      rfl

/-! ## Lists and dictionaries read back -/

lemma skipWhite_newline (level : ℕ) (s : Str) : skipWhite (newline level ++ s) = skipWhite s := by
  rw [newline, skipWhite, skipWhite, List.cons_append, List.dropWhile_cons_of_pos (by decide),
    List.dropWhile_append_of_pos]
  intro c hc
  obtain ⟨-, rfl⟩ := List.mem_replicate.mp hc
  decide

lemma stops_newline (level : ℕ) (s : Str) : Stops (newline level ++ s) :=
  stops_cons (by decide) _

lemma stops_joinLines (level close : ℕ) (ts : List Str) (s : Str) :
    Stops (joinLines level close ts ++ s) := by
  cases ts with
  | nil => rw [joinLines, List.append_assoc]; exact stops_newline _ _
  | cons t ts => exact stops_cons (by decide) _

/-- The elements of a list are read line by line. -/
lemma readElements_joinLines (level : ℕ) {t : Str} {ts : List Str} {vs : List Value}
    (h : List.Forall₂ Reads (t :: ts) (v :: vs)) (fuel : ℕ) (rest : Str)
    (hfuel : (t ++ joinLines level 93 ts).length ≤ fuel) :
    readElements fuel (t ++ joinLines level 93 ts ++ rest) = some (v :: vs, rest) := by
  induction ts generalizing t v vs fuel with
  | nil =>
      obtain ⟨hread, htail⟩ := List.forall₂_cons.mp h
      obtain rfl := List.forall₂_nil_left_iff.mp htail
      cases fuel with
      | zero => simp [joinLines] at hfuel
      | succ fuel =>
          have hv := hread.reads fuel (joinLines level 93 [] ++ rest)
            (by simp [joinLines] at hfuel; omega) (stops_joinLines _ _ _ _)
          have hskip : skipWhite (joinLines level 93 [] ++ rest) = 93 :: rest := by
            rw [joinLines, List.append_assoc, skipWhite_newline]
            exact skipWhite_of_starts (by decide) _
          rw [List.append_assoc, readElements, hv]
          simp only [Option.bind_eq_bind, Option.bind_some, hskip]
          rfl
  | cons u ts ih =>
      obtain ⟨hread, htail⟩ := List.forall₂_cons.mp h
      cases htail with
      | @cons _ w _ ws hu hus =>
          cases fuel with
          | zero => simp [joinLines] at hfuel
          | succ fuel =>
              have hlen : t.length ≤ fuel ∧ (u ++ joinLines level 93 ts).length ≤ fuel := by
                simp only [joinLines, List.length_append, List.length_cons] at hfuel ⊢
                omega
              have hv := hread.reads fuel (joinLines level 93 (u :: ts) ++ rest) hlen.1
                (stops_joinLines _ _ _ _)
              have hskip : skipWhite (joinLines level 93 (u :: ts) ++ rest)
                  = 44 :: (newline (level + 1) ++ (u ++ joinLines level 93 ts ++ rest)) := by
                rw [joinLines, List.cons_append, skipWhite_of_starts (by decide)]
                simp
              have hnext : skipWhite (newline (level + 1) ++ (u ++ joinLines level 93 ts ++ rest))
                  = u ++ joinLines level 93 ts ++ rest := by
                rw [skipWhite_newline, List.append_assoc, hu.skipWhite]
              rw [List.append_assoc, readElements, hv]
              simp only [Option.bind_eq_bind, Option.bind_some, hskip, hnext,
                ih (.cons hu hus) fuel hlen.2]
              rfl

/-- The text stands for the item of a dictionary with `ensure_ascii`. -/
def ReadsLine (t : Str) (item : Str × Value) : Prop :=
  ∃ u, t = quoteAscii item.1 ++ 58 :: 32 :: u ∧ Unpaired item.1 ∧ Reads u item.2

lemma ReadsLine.skipWhite {item : Str × Value} (h : ReadsLine t item) (rest : Str) :
    skipWhite (t ++ rest) = t ++ rest := by
  obtain ⟨u, rfl, -⟩ := h
  exact skipWhite_of_starts (by decide) _

/-- What `readItems` does behind an item. -/
def behindItem (fuel : ℕ) (items : List (Str × Value)) (s : Str) :
    Option (List (Str × Value) × Str) :=
  match skipWhite s with
  | 125 :: rest => some (items, rest)
  | 44 :: rest => readItems fuel items (skipWhite rest)
  | _ => none

lemma behindItem_close {fuel : ℕ} {items : List (Str × Value)} {s rest : Str}
    (h : skipWhite s = 125 :: rest) : behindItem fuel items s = some (items, rest) := by
  simp only [behindItem, h]

lemma behindItem_comma {fuel : ℕ} {items : List (Str × Value)} {s rest : Str}
    (h : skipWhite s = 44 :: rest) :
    behindItem fuel items s = readItems fuel items (skipWhite rest) := by
  simp only [behindItem, h]

/-- One item is read up to what stands behind it. -/
lemma readItems_line {item : Str × Value} (h : ReadsLine t item) (fuel : ℕ) (s : Str)
    (before : List (Str × Value)) (hfuel : t.length ≤ fuel) (hs : Stops s) :
    readItems (fuel + 1) before (t ++ s)
      = behindItem fuel (insertItem item.1 item.2 before) s := by
  obtain ⟨key, v⟩ := item
  obtain ⟨u, rfl, hkey, hread⟩ := h
  have htext : quoteAscii key ++ 58 :: 32 :: u ++ s
      = 34 :: (key.flatMap escapeAscii ++ 34 :: (58 :: 32 :: (u ++ s))) := by
    simp [quoteAscii]
  have hcolon : skipWhite (58 :: 32 :: (u ++ s)) = 58 :: 32 :: (u ++ s) :=
    skipWhite_of_starts (by decide) _
  have hblank : skipWhite (32 :: (u ++ s)) = u ++ s := by
    rw [Json.skipWhite, List.dropWhile_cons_of_pos (by decide)]
    exact hread.skipWhite s
  have hv := hread.reads fuel s
    (by simp only [List.length_append, List.length_cons] at hfuel; omega) hs
  rw [htext, readItems]
  simp only [Option.bind_eq_bind, readString_quoteAscii hkey, Option.bind_some, hcolon, hblank, hv]
  rfl

/-- The items of a dictionary are read line by line, and their keys are new. -/
lemma readItems_joinLines (level : ℕ) {ts : List Str} {item : Str × Value}
    {items : List (Str × Value)} (h : List.Forall₂ ReadsLine (t :: ts) (item :: items)) (fuel : ℕ)
    (rest : Str) (hfuel : (t ++ joinLines level 125 ts).length ≤ fuel)
    (before : List (Str × Value)) (hnodup : ((before ++ item :: items).map Prod.fst).Nodup) :
    readItems fuel before (t ++ joinLines level 125 ts ++ rest)
      = some (before ++ item :: items, rest) := by
  induction ts generalizing t item items fuel before with
  | nil =>
      obtain ⟨hread, htail⟩ := List.forall₂_cons.mp h
      obtain rfl := List.forall₂_nil_left_iff.mp htail
      have hkey : item.1 ∉ before.map Prod.fst := by
        rw [List.map_append, List.map_cons, List.nodup_append] at hnodup
        intro hmem
        exact hnodup.2.2 item.1 hmem item.1 (by simp) rfl
      cases fuel with
      | zero => simp [joinLines] at hfuel
      | succ fuel =>
          have hskip : skipWhite (joinLines level 125 [] ++ rest) = 125 :: rest := by
            rw [joinLines, List.append_assoc, skipWhite_newline]
            exact skipWhite_of_starts (by decide) _
          rw [List.append_assoc, readItems_line hread fuel _ before
            (by simp [joinLines] at hfuel; omega) (stops_joinLines _ _ _ _)]
          rw [behindItem_close hskip, insertItem_of_notMem hkey]
  | cons u ts ih =>
      obtain ⟨hread, htail⟩ := List.forall₂_cons.mp h
      have hkey : item.1 ∉ before.map Prod.fst := by
        rw [List.map_append, List.map_cons, List.nodup_append] at hnodup
        intro hmem
        exact hnodup.2.2 item.1 hmem item.1 (by simp) rfl
      cases htail with
      | @cons _ next _ items hu hus =>
          have hbefore : before ++ item :: next :: items = (before ++ [item]) ++ next :: items := by
            simp
          cases fuel with
          | zero => simp [joinLines] at hfuel
          | succ fuel =>
              have hlen : t.length ≤ fuel ∧ (u ++ joinLines level 125 ts).length ≤ fuel := by
                simp only [joinLines, List.length_append, List.length_cons] at hfuel ⊢
                omega
              have hskip : skipWhite (joinLines level 125 (u :: ts) ++ rest)
                  = 44 :: (newline (level + 1) ++ (u ++ joinLines level 125 ts ++ rest)) := by
                rw [joinLines, List.cons_append, skipWhite_of_starts (by decide)]
                simp
              have hnext : skipWhite (newline (level + 1) ++ (u ++ joinLines level 125 ts ++ rest))
                  = u ++ joinLines level 125 ts ++ rest := by
                rw [skipWhite_newline, List.append_assoc, hu.skipWhite]
              rw [List.append_assoc, readItems_line hread fuel _ before hlen.1
                (stops_joinLines _ _ _ _)]
              rw [behindItem_comma hskip, hnext, insertItem_of_notMem hkey, hbefore]
              exact ih (.cons hu hus) fuel hlen.2 (before ++ [item])
                (by rw [← hbefore]; exact hnodup)

namespace Value

mutual

/-- A value that text can stand for: no tuples, sets or other objects, keys once each, strings
without a surrogate pair in two, and integers that `int()` reads. -/
def Readable : Value → Prop
  | .none | .bool _ | .float _ => True
  | .int z => (decimal z.natAbs).length ≤ maxIntDigits
  | .str s => Unpaired s
  | .seq tuple xs => tuple = false ∧ ReadableAll xs
  | .dict items => (items.map Prod.fst).Nodup ∧ ReadableItems items
  | .set _ _ | .object _ => False

def ReadableAll : List Value → Prop
  | [] => True
  | x :: xs => x.Readable ∧ ReadableAll xs

def ReadableItems : List (Str × Value) → Prop
  | [] => True
  | (k, v) :: items => Unpaired k ∧ v.Readable ∧ ReadableItems items

end

lemma readableItems_iff {items : List (Str × Value)} :
    ReadableItems items ↔ ∀ item ∈ items, Unpaired item.1 ∧ item.2.Readable := by
  induction items with
  | nil => simp [ReadableItems]
  | cons item items ih => rw [ReadableItems, ih, List.forall_mem_cons, and_assoc]

end Value

lemma reads_seq_indent (level : ℕ) {ts : List Str} {vs : List Value}
    (h : List.Forall₂ Reads ts vs) :
    Reads (91 :: joinIndented level 93 ts) (.seq false vs) := by
  refine ⟨⟨91, _, rfl, by decide, by decide⟩, fun fuel rest hfuel _ => ?_⟩
  cases fuel with
  | zero => simp at hfuel
  | succ fuel =>
      cases h with
      | nil =>
          have hskip : skipWhite (93 :: rest) = 93 :: rest := skipWhite_of_starts (by decide) _
          simp only [joinIndented, List.cons_append, List.nil_append, readValue, hskip]
      | @cons t v ts vs hread htail =>
          have helements := readElements_joinLines level (.cons hread htail) fuel rest (by
            simp only [joinIndented, List.length_cons, List.length_append] at hfuel ⊢
            omega)
          have hskip : skipWhite (joinIndented level 93 (t :: ts) ++ rest)
              = t ++ joinLines level 93 ts ++ rest := by
            rw [joinIndented, List.append_assoc, skipWhite_newline, List.append_assoc,
              hread.skipWhite]
          obtain ⟨c, s, rfl, -, hc⟩ := hread.starts
          rw [List.cons_append, readValue]
          dsimp only
          rw [hskip]
          rw [List.cons_append, List.cons_append] at helements ⊢
          split
          · simp_all
          · rw [helements]
            rfl

lemma reads_dict_indent (level : ℕ) {ts : List Str} {items : List (Str × Value)}
    (h : List.Forall₂ ReadsLine ts items) (hnodup : (items.map Prod.fst).Nodup) :
    Reads (123 :: joinIndented level 125 ts) (.dict items) := by
  refine ⟨⟨123, _, rfl, by decide, by decide⟩, fun fuel rest hfuel _ => ?_⟩
  cases fuel with
  | zero => simp at hfuel
  | succ fuel =>
      cases h with
      | nil =>
          have hskip : skipWhite (125 :: rest) = 125 :: rest := skipWhite_of_starts (by decide) _
          simp only [joinIndented, List.cons_append, List.nil_append, readValue, hskip]
      | @cons t item ts items hitem htail =>
          have hitems := readItems_joinLines level (.cons hitem htail) fuel rest (by
            simp only [joinIndented, List.length_cons, List.length_append] at hfuel ⊢
            omega) [] (by simpa using hnodup)
          have hskip : skipWhite (joinIndented level 125 (t :: ts) ++ rest)
              = t ++ joinLines level 125 ts ++ rest := by
            rw [joinIndented, List.append_assoc, skipWhite_newline, List.append_assoc,
              hitem.skipWhite]
          have hopen : ∃ s, t ++ joinLines level 125 ts ++ rest = 34 :: s := by
            obtain ⟨u, rfl, -⟩ := hitem
            exact ⟨_, rfl⟩
          obtain ⟨s, hs⟩ := hopen
          rw [hs] at hitems hskip
          rw [List.cons_append, readValue]
          dsimp only
          rw [hskip, hitems]
          rfl

mutual

/-- **A readable value is written, and reads back as it is**, wherever the text stands. -/
theorem reads_dumpsIndent : ∀ (v : Value) (level : ℕ), v.Readable →
    ∃ t, dumpsIndent level v = .ok t ∧ Reads t v
  | .none, _, _ => ⟨_, rfl, reads_constant (c := (str "null", .none)) (by simp [constants])⟩
  | .bool false, _, _ =>
      ⟨_, rfl, reads_constant (c := (str "false", .bool false)) (by simp [constants])⟩
  | .bool true, _, _ =>
      ⟨_, rfl, reads_constant (c := (str "true", .bool true)) (by simp [constants])⟩
  | .int z, _, h => by
      have htext : ∃ t, intText z = .ok t := ⟨_, if_pos h⟩
      obtain ⟨t, ht⟩ := htext
      exact ⟨t, ht, reads_int ht⟩
  | .float literal, _, _ => ⟨_, rfl, reads_float literal⟩
  | .str s, _, h => ⟨_, rfl, reads_quoteAscii h⟩
  | .seq tuple xs, level, h => by
      obtain ⟨rfl, hxs⟩ := h
      obtain ⟨ts, hts, hreads⟩ := reads_dumpsIndentAll xs (level + 1) hxs
      exact ⟨91 :: joinIndented level 93 ts, by rw [dumpsIndent, hts]; rfl,
        reads_seq_indent level hreads⟩
  | .dict items, level, h => by
      obtain ⟨ts, hts, hreads⟩ := reads_dumpsIndentItems items (level + 1) h.2
      exact ⟨123 :: joinIndented level 125 ts, by rw [dumpsIndent, hts]; rfl,
        reads_dict_indent level hreads h.1⟩

theorem reads_dumpsIndentAll : ∀ (xs : List Value) (level : ℕ), ReadableAll xs →
    ∃ ts, (dumpsIndentAll level xs).mapM id = .ok ts ∧ List.Forall₂ Reads ts xs
  | [], _, _ => ⟨[], rfl, .nil⟩
  | x :: xs, level, h => by
      obtain ⟨t, ht, hread⟩ := reads_dumpsIndent x level h.1
      obtain ⟨ts, hts, hreads⟩ := reads_dumpsIndentAll xs level h.2
      refine ⟨t :: ts, ?_, .cons hread hreads⟩
      rw [dumpsIndentAll, List.mapM_cons, id, ht, hts]
      rfl

theorem reads_dumpsIndentItems : ∀ (items : List (Str × Value)) (level : ℕ), ReadableItems items →
    ∃ ts, (dumpsIndentItems level items).mapM itemLine = .ok ts ∧ List.Forall₂ ReadsLine ts items
  | [], _, _ => ⟨[], rfl, .nil⟩
  | (k, v) :: items, level, h => by
      obtain ⟨t, ht, hread⟩ := reads_dumpsIndent v level h.2.1
      obtain ⟨ts, hts, hreads⟩ := reads_dumpsIndentItems items level h.2.2
      refine ⟨(quoteAscii k ++ 58 :: 32 :: t) :: ts, ?_, .cons ⟨t, rfl, h.1, hread⟩ hreads⟩
      rw [dumpsIndentItems, List.mapM_cons, itemLine, ht, hts]
      rfl

end

/-- **A readable value loads from its text**, also with white space behind it. -/
theorem loads_dumpsIndent (hv : v.Readable) (hrest : ∀ c ∈ rest, isWhite c = true) :
    ∃ t, dumpsIndent 0 v = .ok t ∧ loads (t ++ rest) = some v := by
  obtain ⟨t, ht, hread⟩ := reads_dumpsIndent v 0 hv
  refine ⟨t, ht, ?_⟩
  have hvalue := hread.reads ((t ++ rest).length + 1) rest
    (by rw [List.length_append]; omega) (stops_of_white hrest)
  have hend : skipWhite rest = [] := List.dropWhile_eq_nil_iff.mpr hrest
  rw [loads, hread.skipWhite, hvalue]
  simp [hend]

/-! ## The text is ASCII -/

lemma hexDigit_lt (h : n < 16) : hexDigit n < 128 := by
  unfold hexDigit
  split_ifs <;> omega

lemma unicodeEscape_lt (h : n < 0x10000) : ∀ c ∈ unicodeEscape n, c < 128 := by
  simp only [unicodeEscape, List.forall_mem_cons, List.not_mem_nil, false_imp_iff, implies_true,
    and_true]
  exact ⟨by omega, by omega, hexDigit_lt (by omega), hexDigit_lt (by omega), hexDigit_lt (by omega),
    hexDigit_lt (by omega)⟩

lemma encodable_quoteAscii (hs : ∀ c ∈ s, c < 0x110000) : Encodable (quoteAscii s) := by
  refine encodable_of_lt ?_
  intro c hc
  rw [quoteAscii, List.cons_append, List.mem_cons, List.mem_append, List.mem_singleton,
    List.mem_flatMap] at hc
  obtain rfl | ⟨n, hn, hc⟩ | rfl := hc
  · omega
  · have hlt := hs n hn
    unfold escapeAscii at hc
    split_ifs at hc with h1 h2 h3 h4 h5 h6 h7 h8 h9
    case pos => simp at hc; omega
    case pos => simp at hc; omega
    case pos => simp at hc; omega
    case pos => simp at hc; omega
    case pos => simp at hc; omega
    case pos => simp at hc; omega
    case pos => simp at hc; omega
    case pos => simp at hc; omega
    case pos => exact unicodeEscape_lt h9 c hc
    case neg =>
      rcases List.mem_append.mp hc with hc | hc
      · exact unicodeEscape_lt (by omega) c hc
      · exact unicodeEscape_lt (by omega) c hc
  · omega

lemma newline_lt (level : ℕ) : ∀ c ∈ newline level, c < 128 := by
  intro c hc
  rcases List.mem_cons.mp hc with rfl | hc
  · omega
  · obtain ⟨-, rfl⟩ := List.mem_replicate.mp hc
    omega

lemma encodable_joinLines {level close : ℕ} (hclose : close < 128) {ts : List Str}
    (h : ∀ t ∈ ts, Encodable t) : Encodable (joinLines level close ts) := by
  have hnewline : ∀ level, Encodable (newline level) := fun level =>
    encodable_of_lt (newline_lt level)
  have hend : Encodable [close] := encodable_of_lt (by simpa using hclose)
  induction ts with
  | nil => exact encodable_append.mpr ⟨hnewline _, hend⟩
  | cons t ts ih =>
      rw [List.forall_mem_cons] at h
      rw [joinLines, encodable_cons, encodable_append, encodable_append]
      exact ⟨by decide, hnewline _, h.1, ih h.2⟩

lemma encodable_joinIndented {level close : ℕ} (hclose : close < 128) {ts : List Str}
    (h : ∀ t ∈ ts, Encodable t) : Encodable (joinIndented level close ts) := by
  cases ts with
  | nil => exact encodable_of_lt (by simpa [joinIndented] using hclose)
  | cons t ts =>
      rw [List.forall_mem_cons] at h
      rw [joinIndented, encodable_append, encodable_append]
      exact ⟨encodable_of_lt (newline_lt _), h.1, encodable_joinLines hclose h.2⟩

mutual

/-- **The text of a readable value can be encoded.** -/
theorem encodable_dumpsIndent : ∀ (v : Value) (level : ℕ) {t : Str}, v.Readable →
    dumpsIndent level v = .ok t → Encodable t
  | .none, _, t, _, h => by
      cases h
      exact encodable_str _
  | .bool b, _, t, _, h => by
      cases h
      exact encodable_str _
  | .int z, _, t, hv, h => by
      have hlength : (decimal z.natAbs).length ≤ maxIntDigits := hv
      rw [dumpsIndent, intText, if_pos hlength] at h
      cases h
      split
      · exact encodable_cons.mpr ⟨by decide, encodable_decimal _⟩
      · exact encodable_decimal _
  | .float literal, _, t, _, h => by
      cases h
      exact encodable_literal literal
  | .str s, _, t, hv, h => by
      cases h
      exact encodable_quoteAscii hv.lt
  | .seq tuple xs, level, t, hv, h => by
      rw [dumpsIndent] at h
      cases hts : (dumpsIndentAll (level + 1) xs).mapM id with
      | error e => simp [hts, Except.map] at h
      | ok ts =>
          obtain rfl : 91 :: joinIndented level 93 ts = t := by simpa [hts, Except.map] using h
          exact encodable_cons.mpr ⟨by decide, encodable_joinIndented (by decide)
            (encodable_dumpsIndentAll xs (level + 1) hv.2 hts)⟩
  | .dict items, level, t, hv, h => by
      rw [dumpsIndent] at h
      cases hts : (dumpsIndentItems (level + 1) items).mapM itemLine with
      | error e => simp [hts, Except.map] at h
      | ok ts =>
          obtain rfl : 123 :: joinIndented level 125 ts = t := by simpa [hts, Except.map] using h
          exact encodable_cons.mpr ⟨by decide, encodable_joinIndented (by decide)
            (encodable_dumpsIndentItems items (level + 1) hv.2 hts)⟩

theorem encodable_dumpsIndentAll : ∀ (xs : List Value) (level : ℕ) {ts : List Str}, ReadableAll xs →
    (dumpsIndentAll level xs).mapM id = .ok ts → ∀ t ∈ ts, Encodable t
  | [], _, ts, _, h => by
      cases h
      simp
  | x :: xs, level, ts, hv, h => by
      rw [dumpsIndentAll, List.mapM_cons, id] at h
      cases hx : dumpsIndent level x with
      | error e => simp [hx, bind, Except.bind] at h
      | ok t =>
          cases hxs : (dumpsIndentAll level xs).mapM id with
          | error e => simp [hx, hxs, bind, Except.bind] at h
          | ok ts' =>
              obtain rfl : t :: ts' = ts := by
                simpa [hx, hxs, bind, Except.bind, pure, Except.pure] using h
              exact List.forall_mem_cons.mpr ⟨encodable_dumpsIndent x level hv.1 hx,
                encodable_dumpsIndentAll xs level hv.2 hxs⟩

theorem encodable_dumpsIndentItems : ∀ (items : List (Str × Value)) (level : ℕ) {ts : List Str},
    ReadableItems items → (dumpsIndentItems level items).mapM itemLine = .ok ts →
      ∀ t ∈ ts, Encodable t
  | [], _, ts, _, h => by
      cases h
      simp
  | (k, v) :: items, level, ts, hv, h => by
      rw [dumpsIndentItems, List.mapM_cons, itemLine] at h
      cases hx : dumpsIndent level v with
      | error e => simp [hx, Except.map, bind, Except.bind] at h
      | ok t =>
          cases hxs : (dumpsIndentItems level items).mapM itemLine with
          | error e => simp [hx, hxs, Except.map, bind, Except.bind] at h
          | ok ts' =>
              obtain rfl : (quoteAscii k ++ 58 :: 32 :: t) :: ts' = ts := by
                simpa [hx, hxs, Except.map, bind, Except.bind, pure, Except.pure] using h
              refine List.forall_mem_cons.mpr
                ⟨?_, encodable_dumpsIndentItems items level hv.2.2 hxs⟩
              rw [encodable_append, encodable_cons, encodable_cons]
              exact ⟨encodable_quoteAscii hv.1.lt, by decide, by decide,
                encodable_dumpsIndent v level hv.2.1 hx⟩

end

/-! ## What is read is readable -/

lemma Encodable.of_suffix {u : Str} (h : Encodable s) (hu : u <:+ s) : Encodable u :=
  fun c hc => h c (hu.subset hc)

lemma isScalar_lt (h : isScalar n = true) : n < 0x110000 := by
  simp only [isScalar, Bool.and_eq_true, decide_eq_true_eq] at h
  exact h.1

lemma not_isHigh_of_isScalar (h : isScalar n = true) : isHigh n = false := by
  simp only [isScalar, isSurrogate, Bool.and_eq_true, decide_eq_true_eq, Bool.not_eq_true',
    Bool.and_eq_false_iff, decide_eq_false_iff_not] at h
  simp only [isHigh, Bool.and_eq_false_iff, decide_eq_false_iff_not]
  omega

lemma hexValue_lt {m : ℕ} (h : hexValue n = some m) : m < 16 := by
  unfold hexValue at h
  split_ifs at h <;> simp at h <;> omega

lemma hex4_lt {a b c d m : ℕ} (h : hex4 a b c d = some m) : m < 0x10000 := by
  simp only [hex4, Option.bind_eq_bind, Option.bind_eq_some_iff, Option.pure_def,
    Option.some.injEq] at h
  obtain ⟨w, hw, x, hx, y, hy, z, hz, rfl⟩ := h
  have hw := hexValue_lt hw
  have hx := hexValue_lt hx
  have hy := hexValue_lt hy
  have hz := hexValue_lt hz
  omega

lemma unpaired_joinSurrogate (hn : n < 0x10000) (hs : Unpaired s) :
    Unpaired (joinSurrogate n s) := by
  cases s with
  | nil => exact unpaired_cons (by omega) hs (by simp)
  | cons m s =>
      rw [joinSurrogate]
      split_ifs with hpair
      · refine unpaired_cons (by omega) hs.tail ?_
        intro k _ hk
        simp only [isHigh, Bool.and_eq_true, decide_eq_true_eq] at hk
        omega
      · refine unpaired_cons (by omega) hs ?_
        intro k hk hboth
        obtain rfl : m = k := by simpa using hk
        simp only [isHigh, isLow, Bool.and_eq_true, decide_eq_true_eq] at hboth
        omega

lemma unescape_lt {m : ℕ} (h : unescape n = some m) : m < 0x80 := by
  unfold unescape at h
  split_ifs at h <;> simp at h <;> omega

lemma unpaired_cons_of_not_high (hn : n < 0x110000) (hhigh : isHigh n = false) (hs : Unpaired s) :
    Unpaired (n :: s) :=
  unpaired_cons hn hs fun _ _ h => by simp [hhigh] at h

/-- A string is read without a surrogate pair in two, and up to a suffix of the text. -/
lemma readString_unpaired (hs : Encodable s) (h : readString s = some (t, rest)) :
    Unpaired t ∧ rest <:+ s := by
  induction s using readString.induct generalizing t with
  | case1 => simp [readString] at h
  | case2 s =>
      rw [readString] at h
      cases h
      exact ⟨unpaired_nil, List.suffix_cons _ _⟩
  | case3 a b c d s ih =>
      rw [readString] at h
      simp only [Option.bind_eq_bind, Option.bind_eq_some_iff, Option.pure_def,
        Option.some.injEq] at h
      obtain ⟨m, hm, ⟨u, rest'⟩, hread, h⟩ := h
      cases h
      have hsuffix : s <:+ 92 :: 117 :: a :: b :: c :: d :: s := ⟨[92, 117, a, b, c, d], rfl⟩
      obtain ⟨hu, hrest⟩ := ih (hs.of_suffix hsuffix) hread
      exact ⟨unpaired_joinSurrogate (hex4_lt hm) hu, hrest.trans hsuffix⟩
  | case4 e s hne ih =>
      rw [readString.eq_4 _ _ hne] at h
      simp only [Option.bind_eq_bind, Option.bind_eq_some_iff, Option.pure_def,
        Option.some.injEq] at h
      obtain ⟨m, hm, ⟨u, rest'⟩, hread, h⟩ := h
      cases h
      have hsuffix : s <:+ 92 :: e :: s := ⟨[92, e], rfl⟩
      obtain ⟨hu, hrest⟩ := ih (hs.of_suffix hsuffix) hread
      have hlt := unescape_lt hm
      refine ⟨unpaired_cons_of_not_high (by omega) ?_ hu, hrest.trans hsuffix⟩
      simp only [isHigh, Bool.and_eq_false_iff, decide_eq_false_iff_not]
      omega
  | case5 m s h1 h2 h3 hcontrol =>
      rw [readString.eq_5 _ _ h1 h2 h3] at h
      simp [hcontrol] at h
  | case6 m s h1 h2 h3 hcontrol ih =>
      rw [readString.eq_5 _ _ h1 h2 h3] at h
      have hsuffix : s <:+ m :: s := List.suffix_cons _ _
      simp only [hcontrol, if_false, Option.bind_eq_bind, Option.bind_eq_some_iff, Option.pure_def,
        Option.some.injEq] at h
      obtain ⟨⟨u, rest'⟩, hread, h⟩ := h
      cases h
      obtain ⟨hu, hrest⟩ := ih (hs.of_suffix hsuffix) hread
      have hm := hs m (by simp)
      exact ⟨unpaired_cons_of_not_high (isScalar_lt hm) (not_isHigh_of_isScalar hm) hu,
        hrest.trans hsuffix⟩

lemma skipWhite_suffix (s : Str) : skipWhite s <:+ s := List.dropWhile_suffix _

/-- A run of digits is no shorter than the digits of its value. -/
lemma length_decimal_ofDecimal_le {digits : Str} (hne : digits ≠ [])
    (hdigits : ∀ d ∈ digits, isDigit d = true) :
    (decimal (ofDecimal digits)).length ≤ digits.length := by
  have hlt : ∀ (ds : Str) (start : ℕ), (∀ d ∈ ds, isDigit d = true) →
      ds.foldl (fun n d => 10 * n + (d - 48)) start < (start + 1) * 10 ^ ds.length := by
    intro ds
    induction ds with
    | nil => simp
    | cons d ds ih =>
        intro start h
        have hd : 48 ≤ d ∧ d ≤ 57 := by
          simpa [isDigit] using h d (by simp)
        have hstep := ih (10 * start + (d - 48)) fun e he => h e (by simp [he])
        rw [List.foldl_cons, List.length_cons, pow_succ]
        calc _ < (10 * start + (d - 48) + 1) * 10 ^ ds.length := hstep
          _ ≤ ((start + 1) * 10) * 10 ^ ds.length := Nat.mul_le_mul_right _ (by omega)
          _ = (start + 1) * (10 ^ ds.length * 10) := by ring
  have hbound := hlt digits 0 hdigits
  rw [decimal, List.length_map]
  simp only [Nat.zero_add, one_mul] at hbound
  exact (Nat.length_toDigits_le_iff (by decide) (List.length_pos_of_ne_nil hne)).mpr hbound

/-- A number token stands for a readable value. -/
lemma readable_of_readNumber (h : readNumber t = some v) : v.Readable := by
  unfold readNumber at h
  split_ifs at h with hfloat hint hneg hlen hlen
  · cases h
    trivial
  · cases h
    simp only [isIntToken, hneg, if_true, Bool.and_eq_true, decide_eq_true_eq,
      List.all_eq_true] at hint
    have hdecimal := length_decimal_ofDecimal_le hint.1.1 hint.1.2
    simp only [Readable, Int.natAbs_neg, Int.natAbs_natCast]
    omega
  · cases h
    simp only [isIntToken, hneg, if_false, Bool.and_eq_true, decide_eq_true_eq,
      List.all_eq_true] at hint
    have hdecimal := length_decimal_ofDecimal_le hint.1.1 hint.1.2
    simp only [Readable, Int.natAbs_natCast]
    omega

lemma readable_constant {c : Str × Value} (hc : c ∈ constants) : c.2.Readable := by
  simp only [constants, List.mem_cons, List.not_mem_nil, or_false] at hc
  rcases hc with rfl | rfl | rfl | rfl | rfl | rfl <;> trivial

lemma readableItems_insertItem {items : List (Str × Value)} {key : Str}
    (h : ReadableItems items) (hkey : Unpaired key) (hv : v.Readable) :
    ReadableItems (insertItem key v items) := by
  rw [readableItems_iff] at h ⊢
  intro item hitem
  rcases mem_insertItem hitem with rfl | hitem
  · exact ⟨hkey, hv⟩
  · exact h item hitem

/-- What is read with some fuel is readable and ends in a suffix of the text. -/
structure ReadsReadable (fuel : ℕ) : Prop where
  value : ∀ {s v rest}, Encodable s → readValue fuel s = some (v, rest) → v.Readable ∧ rest <:+ s
  elements : ∀ {s vs rest}, Encodable s → readElements fuel s = some (vs, rest) →
    ReadableAll vs ∧ rest <:+ s
  items : ∀ {s before items rest}, Encodable s → ReadableItems before →
    (before.map Prod.fst).Nodup → readItems fuel before s = some (items, rest) →
      (items.map Prod.fst).Nodup ∧ ReadableItems items ∧ rest <:+ s

theorem readsReadable (fuel : ℕ) : ReadsReadable fuel := by
  induction fuel with
  | zero => constructor <;> intros <;> simp_all [readValue, readElements, readItems]
  | succ fuel ih =>
      constructor
      · intro s v rest hs h
        rw [readValue.eq_def] at h
        dsimp only at h
        split at h
        · next s' =>
            rw [Option.map_eq_some_iff] at h
            obtain ⟨⟨t, rest'⟩, hread, h⟩ := h
            cases h
            have hsuffix : s' <:+ 34 :: s' := List.suffix_cons _ _
            obtain ⟨ht, hrest⟩ := readString_unpaired (hs.of_suffix hsuffix) hread
            exact ⟨ht, hrest.trans hsuffix⟩
        · next s' =>
            have hsuffix : skipWhite s' <:+ 91 :: s' :=
              (skipWhite_suffix s').trans (List.suffix_cons _ _)
            split at h
            · next rest' heq =>
                cases h
                exact ⟨⟨rfl, trivial⟩, (List.suffix_cons 93 _).trans (heq ▸ hsuffix)⟩
            · rw [Option.map_eq_some_iff] at h
              obtain ⟨⟨xs, rest'⟩, hread, h⟩ := h
              cases h
              obtain ⟨hxs, hrest⟩ := ih.elements (hs.of_suffix hsuffix) hread
              exact ⟨⟨rfl, hxs⟩, hrest.trans hsuffix⟩
        · next s' =>
            have hsuffix : skipWhite s' <:+ 123 :: s' :=
              (skipWhite_suffix s').trans (List.suffix_cons _ _)
            split at h
            · next rest' heq =>
                cases h
                exact ⟨⟨List.nodup_nil, trivial⟩, (List.suffix_cons 125 _).trans (heq ▸ hsuffix)⟩
            · rw [Option.map_eq_some_iff] at h
              obtain ⟨⟨items, rest'⟩, hread, h⟩ := h
              cases h
              obtain ⟨hnodup, hitems, hrest⟩ :=
                ih.items (hs.of_suffix hsuffix) (show ReadableItems [] from trivial) List.nodup_nil
                  hread
              exact ⟨⟨hnodup, hitems⟩, hrest.trans hsuffix⟩
        · split at h
          · next found heq =>
              cases h
              rw [readConstant, Option.map_eq_some_iff] at heq
              obtain ⟨c, hc, heq⟩ := heq
              cases heq
              exact ⟨readable_constant (List.mem_of_find?_eq_some hc), List.drop_suffix _ _⟩
          · rw [Option.map_eq_some_iff] at h
            obtain ⟨v', hread, h⟩ := h
            cases h
            exact ⟨readable_of_readNumber hread, List.drop_suffix _ _⟩
      · intro s vs rest hs h
        rw [readElements] at h
        simp only [Option.bind_eq_bind, Option.bind_eq_some_iff] at h
        obtain ⟨⟨v, rest'⟩, hread, h⟩ := h
        obtain ⟨hv, hrest'⟩ := ih.value hs hread
        have hsuffix := (skipWhite_suffix rest').trans hrest'
        split at h
        · next rest'' heq =>
            cases h
            exact ⟨⟨hv, trivial⟩, (List.suffix_cons 93 _).trans (heq ▸ hsuffix)⟩
        · next rest'' heq =>
            rw [Option.bind_eq_some_iff] at h
            obtain ⟨⟨vs', rest₃⟩, hread', h⟩ := h
            cases h
            have hnext : skipWhite rest'' <:+ s :=
              (skipWhite_suffix _).trans ((List.suffix_cons 44 _).trans (heq ▸ hsuffix))
            obtain ⟨hvs, hrest⟩ := ih.elements (hs.of_suffix hnext) hread'
            exact ⟨⟨hv, hvs⟩, hrest.trans hnext⟩
        · cases h
      · intro s before items rest hs hbefore hnodup h
        rw [readItems.eq_def] at h
        dsimp only at h
        split at h
        · next s' =>
            simp only [Option.bind_eq_bind, Option.bind_eq_some_iff] at h
            obtain ⟨⟨key, rest₁⟩, hkey, h⟩ := h
            have hs' : s' <:+ 34 :: s' := List.suffix_cons _ _
            obtain ⟨hunpaired, hrest₁⟩ := readString_unpaired (hs.of_suffix hs') hkey
            have hsuffix₁ := (skipWhite_suffix rest₁).trans (hrest₁.trans hs')
            split at h
            · next rest₂ heq₂ =>
                rw [Option.bind_eq_some_iff] at h
                obtain ⟨⟨v, rest₃⟩, hread, h⟩ := h
                have hsuffix₂ : skipWhite rest₂ <:+ 34 :: s' :=
                  (skipWhite_suffix _).trans ((List.suffix_cons 58 _).trans (heq₂ ▸ hsuffix₁))
                obtain ⟨hv, hrest₃⟩ := ih.value (hs.of_suffix hsuffix₂) hread
                have hsuffix₃ := (skipWhite_suffix rest₃).trans (hrest₃.trans hsuffix₂)
                have hitems := readableItems_insertItem hbefore hunpaired hv
                have hkeys : ((insertItem key v before).map Prod.fst).Nodup :=
                  nodup_insertItem hnodup
                split at h
                · next rest₄ heq₄ =>
                    cases h
                    exact ⟨hkeys, hitems, (List.suffix_cons 125 _).trans (heq₄ ▸ hsuffix₃)⟩
                · next rest₄ heq₄ =>
                    have hnext : skipWhite rest₄ <:+ 34 :: s' :=
                      (skipWhite_suffix _).trans ((List.suffix_cons 44 _).trans (heq₄ ▸ hsuffix₃))
                    obtain ⟨h1, h2, h3⟩ := ih.items (hs.of_suffix hnext) hitems hkeys h
                    exact ⟨h1, h2, h3.trans hnext⟩
                · cases h
            · cases h
        · cases h

/-- **What `loads` returns is readable.** -/
theorem readable_of_loads (hs : Encodable s) (h : loads s = some v) : v.Readable := by
  rw [loads] at h
  split at h
  · next v' rest' hread =>
      split_ifs at h
      cases h
      exact ((readsReadable _).value (hs.of_suffix (skipWhite_suffix s)) hread).1
  · cases h

end Library.Json
