import Mathlib.Data.List.Basic
import Mathlib.Tactic.Common

/-!
# Strings of code points and their UTF-8

A Python string is a list of code points, some of which may be lone surrogates; UTF-8 has no
encoding for those.  `encode` and `decode` are the strict codec on lists of bytes.

`decode_encode` is what a reader of a file relies on; `mem_encode_of_lt` says that a byte below 128
stands for itself, so that a text without line feeds is one line of a file.
-/

namespace Library.Unicode

/-- A string, by its code points. -/
abbrev Str := List ℕ

/-- Texts are compared by their code points. -/
instance instLawfulBEqStr : LawfulBEq Str := inferInstance

/-- The code points of a text that has no lone surrogates. -/
def str (s : String) : Str := s.toList.map Char.toNat

def isSurrogate (n : ℕ) : Bool := 0xD800 ≤ n && n < 0xE000

/-- UTF-8 has an encoding for the code point. -/
def isScalar (n : ℕ) : Bool := n < 0x110000 && !isSurrogate n

/-- The bytes of one code point. -/
def encodeChar (n : ℕ) : List ℕ :=
  if n < 0x80 then [n]
  else if n < 0x800 then [0xC0 + n / 64, 0x80 + n % 64]
  else if n < 0x10000 then [0xE0 + n / 4096, 0x80 + n / 64 % 64, 0x80 + n % 64]
  else [0xF0 + n / 262144, 0x80 + n / 4096 % 64, 0x80 + n / 64 % 64, 0x80 + n % 64]

/-- `s.encode("utf-8")`, `none` where it raises. -/
def encode (s : Str) : Option (List ℕ) :=
  if s.all isScalar then some (s.flatMap encodeChar) else none

def isTail (b : ℕ) : Bool := 0x80 ≤ b && b < 0xC0

/-- `bs.decode("utf-8")`, `none` where it raises. -/
def decode : List ℕ → Option Str
  | [] => some []
  | a :: as =>
      if a < 0x80 then (decode as).map (a :: ·)
      else match as with
        | [] => none
        | b :: bs =>
            if 0xC2 ≤ a ∧ a < 0xE0 then
              if isTail b then (decode bs).map (((a - 0xC0) * 64 + (b - 0x80)) :: ·) else none
            else match bs with
              | [] => none
              | c :: cs =>
                  if 0xE0 ≤ a ∧ a < 0xF0 then
                    let n := (a - 0xE0) * 4096 + (b - 0x80) * 64 + (c - 0x80)
                    if isTail b ∧ isTail c ∧ 0x800 ≤ n ∧ isScalar n then
                      (decode cs).map (n :: ·)
                    else none
                  else match cs with
                    | [] => none
                    | d :: ds =>
                        let n := (a - 0xF0) * 262144 + (b - 0x80) * 4096 + (c - 0x80) * 64
                          + (d - 0x80)
                        if 0xF0 ≤ a ∧ isTail b ∧ isTail c ∧ isTail d ∧ 0x10000 ≤ n
                            ∧ n < 0x110000 then
                          (decode ds).map (n :: ·)
                        else none

theorem decode_encodeChar {n : ℕ} (h : isScalar n = true) (bs : List ℕ) :
    decode (encodeChar n ++ bs) = (decode bs).map (n :: ·) := by
  have hscalar : n < 0x110000 := by
    simp only [isScalar, Bool.and_eq_true, decide_eq_true_eq] at h
    exact h.1
  unfold encodeChar
  split_ifs with h1 h2 h3
  · rw [List.singleton_append, decode.eq_def]
    exact if_pos h1
  · have hlead : ¬ 0xC0 + n / 64 < 0x80 ∧ 0xC2 ≤ 0xC0 + n / 64 ∧ 0xC0 + n / 64 < 0xE0 := by omega
    have htail : isTail (0x80 + n % 64) = true := by simp [isTail]; omega
    have hn : (0xC0 + n / 64 - 0xC0) * 64 + (0x80 + n % 64 - 0x80) = n := by omega
    rw [decode.eq_def]
    simp only [List.cons_append, List.nil_append, hlead, htail, hn, if_false, if_true,
      and_self]
  · have hlead : ¬ 0xE0 + n / 4096 < 0x80 ∧ ¬ (0xC2 ≤ 0xE0 + n / 4096 ∧ 0xE0 + n / 4096 < 0xE0)
        ∧ 0xE0 ≤ 0xE0 + n / 4096 ∧ 0xE0 + n / 4096 < 0xF0 := by omega
    have htail : isTail (0x80 + n / 64 % 64) = true := by simp [isTail]; omega
    have htail' : isTail (0x80 + n % 64) = true := by simp [isTail]; omega
    have hn : (0xE0 + n / 4096 - 0xE0) * 4096 + (0x80 + n / 64 % 64 - 0x80) * 64
        + (0x80 + n % 64 - 0x80) = n := by omega
    have hlow : 0x800 ≤ n := by omega
    rw [decode.eq_def]
    simp only [List.cons_append, List.nil_append, hlead, htail, htail', hn, h, hlow, if_false,
      if_true, and_self]
  · have hlead : ¬ 0xF0 + n / 262144 < 0x80
        ∧ ¬ (0xC2 ≤ 0xF0 + n / 262144 ∧ 0xF0 + n / 262144 < 0xE0)
        ∧ ¬ (0xE0 ≤ 0xF0 + n / 262144 ∧ 0xF0 + n / 262144 < 0xF0)
        ∧ 0xF0 ≤ 0xF0 + n / 262144 := by omega
    have htail : isTail (0x80 + n / 4096 % 64) = true := by simp [isTail]; omega
    have htail' : isTail (0x80 + n / 64 % 64) = true := by simp [isTail]; omega
    have htail'' : isTail (0x80 + n % 64) = true := by simp [isTail]; omega
    have hn : (0xF0 + n / 262144 - 0xF0) * 262144 + (0x80 + n / 4096 % 64 - 0x80) * 4096
        + (0x80 + n / 64 % 64 - 0x80) * 64 + (0x80 + n % 64 - 0x80) = n := by omega
    have hlow : 0x10000 ≤ n := by omega
    rw [decode.eq_def]
    simp only [List.cons_append, List.nil_append, hlead, htail, htail', htail'', hn, hlow,
      hscalar, if_false, if_true, and_self]

/-- **What was encoded is what is decoded.** -/
theorem decode_encode {s : Str} {bs : List ℕ} (h : encode s = some bs) : decode bs = some s := by
  unfold encode at h
  split_ifs at h with hs
  obtain rfl := Option.some.inj h
  clear h
  induction s with
  | nil => rfl
  | cons n s ih =>
      simp only [List.all_cons, Bool.and_eq_true] at hs
      rw [List.flatMap_cons, decode_encodeChar hs.1, ih hs.2]
      rfl

theorem encode_append {s t : Str} {bs cs : List ℕ} (hs : encode s = some bs)
    (ht : encode t = some cs) : encode (s ++ t) = some (bs ++ cs) := by
  unfold encode at hs ht ⊢
  split_ifs at hs ht with h h'
  obtain rfl := Option.some.inj hs
  obtain rfl := Option.some.inj ht
  rw [List.all_append, h, h', Bool.and_self, if_pos rfl, List.flatMap_append]

/-- A byte below 128 stands for itself. -/
theorem mem_encodeChar_of_lt {n b : ℕ} (hb : b < 0x80) : b ∈ encodeChar n ↔ b = n := by
  unfold encodeChar
  split_ifs with h1 h2 h3
  · simp
  all_goals
    simp only [List.mem_cons, List.not_mem_nil, or_false]
    omega

theorem mem_encode_of_lt {s : Str} {bs : List ℕ} {b : ℕ} (h : encode s = some bs) (hb : b < 0x80) :
    b ∈ bs ↔ b ∈ s := by
  unfold encode at h
  split_ifs at h
  obtain rfl := Option.some.inj h
  simp [List.mem_flatMap, mem_encodeChar_of_lt hb]

/-- UTF-8 is made of bytes. -/
lemma encode_lt {t : Str} {bs : List ℕ} (h : encode t = some bs) : ∀ b ∈ bs, b < 256 := by
  unfold encode at h
  split_ifs at h with hall
  obtain rfl := Option.some.inj h
  intro b hb
  obtain ⟨c, hc, hb⟩ := List.mem_flatMap.mp hb
  have hscalar := List.all_eq_true.mp hall c hc
  simp only [isScalar, Bool.and_eq_true, decide_eq_true_eq] at hscalar
  unfold encodeChar at hb
  split_ifs at hb <;> simp only [List.mem_cons, List.not_mem_nil, or_false] at hb <;> omega

end Library.Unicode
