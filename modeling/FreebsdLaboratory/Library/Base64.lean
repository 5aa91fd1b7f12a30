import Mathlib.Tactic

/-!
# Base64

`base64.b64encode` and `base64.b64decode(…, validate=True)` on lists of bytes and code points.
-/

namespace Library.Base64

/-- The digit of a value below 64. -/
def digit (n : ℕ) : ℕ :=
  if n < 26 then 65 + n
  else if n < 52 then 71 + n
  else if n < 62 then n - 4
  else if n = 62 then 43
  else 47

/-- The value of a digit. -/
def value (c : ℕ) : Option ℕ :=
  if 65 ≤ c ∧ c ≤ 90 then some (c - 65)
  else if 97 ≤ c ∧ c ≤ 122 then some (c - 71)
  else if 48 ≤ c ∧ c ≤ 57 then some (c + 4)
  else if c = 43 then some 62
  else if c = 47 then some 63
  else none

def encode : List ℕ → List ℕ
  | [] => []
  | [a] => [digit (a / 4), digit (a % 4 * 16), 61, 61]
  | [a, b] => [digit (a / 4), digit (a % 4 * 16 + b / 16), digit (b % 16 * 4), 61]
  | a :: b :: c :: rest =>
      digit (a / 4) :: digit (a % 4 * 16 + b / 16) :: digit (b % 16 * 4 + c / 64)
        :: digit (c % 64) :: encode rest

/-- Four digits at a time, the last group with its padding; `none` where it raises. -/
def decode : List ℕ → Option (List ℕ)
  | [] => some []
  | a :: b :: c :: d :: rest => do
      let a ← value a
      let b ← value b
      if d = 61 ∧ rest = [] then
        if c = 61 then return [(a * 4 + b / 16) % 256]
        let c ← value c
        return [(a * 4 + b / 16) % 256, (b % 16 * 16 + c / 4) % 256]
      let c ← value c
      let d ← value d
      let rest ← decode rest
      return (a * 4 + b / 16) % 256 :: (b % 16 * 16 + c / 4) % 256 :: (c % 4 * 64 + d) % 256 :: rest
  | _ => none

lemma value_digit : ∀ n < 64, value (digit n) = some n := by decide

lemma digit_ne : ∀ n < 64, digit n ≠ 61 := by decide

lemma digit_lt (n : ℕ) : digit n < 128 := by
  unfold digit
  split_ifs <;> omega

/-- The text is ASCII. -/
lemma encode_lt : ∀ bs : List ℕ, ∀ c ∈ encode bs, c < 128
  | [] => by simp [encode]
  | [a] => by simp [encode, digit_lt]
  | [a, b] => by simp [encode, digit_lt]
  | a :: b :: c :: rest => by
      simp only [encode, List.forall_mem_cons, digit_lt, true_and]
      exact encode_lt rest

/-- **What was encoded is what is decoded.** -/
theorem decode_encode : ∀ bs : List ℕ, (∀ b ∈ bs, b < 256) → decode (encode bs) = some bs
  | [], _ => rfl
  | [a], h => by
      have ha : a < 256 := h a (by simp)
      simp only [encode, decode, value_digit _ (show a / 4 < 64 by omega),
        value_digit _ (show a % 4 * 16 < 64 by omega), Option.bind_eq_bind, Option.bind_some,
        and_self, if_true, Option.pure_def, Option.some.injEq, List.cons.injEq, and_true]
      omega
  | [a, b], h => by
      have ha : a < 256 := h a (by simp)
      have hb : b < 256 := h b (by simp)
      have hpad : ¬ digit (b % 16 * 4) = 61 := digit_ne _ (by omega)
      simp only [encode, decode, value_digit _ (show a / 4 < 64 by omega),
        value_digit _ (show a % 4 * 16 + b / 16 < 64 by omega),
        value_digit _ (show b % 16 * 4 < 64 by omega), Option.bind_eq_bind, Option.bind_some,
        hpad, and_self, if_true, if_false, Option.pure_def, Option.some.injEq, List.cons.injEq,
        and_true]
      omega
  | a :: b :: c :: rest, h => by
      have ha : a < 256 := h a (by simp)
      have hb : b < 256 := h b (by simp)
      have hc : c < 256 := h c (by simp)
      have hpad : ¬ digit (c % 64) = 61 := digit_ne _ (by omega)
      have ih := decode_encode rest fun d hd => h d (by simp [hd])
      simp only [encode, decode, value_digit _ (show a / 4 < 64 by omega),
        value_digit _ (show a % 4 * 16 + b / 16 < 64 by omega),
        value_digit _ (show b % 16 * 4 + c / 64 < 64 by omega),
        value_digit _ (show c % 64 < 64 by omega), ih, Option.bind_eq_bind, Option.bind_some,
        hpad, false_and, if_false, Option.pure_def, Option.some.injEq, List.cons.injEq, and_true]
      omega

lemma value_eq_some {c n : ℕ} : value c = some n ↔ n < 64 ∧ c = digit n := by
  constructor
  · intro h
    unfold value at h
    unfold digit
    split_ifs at h <;> cases h <;> refine ⟨by omega, ?_⟩ <;> split_ifs <;> omega
  · rintro ⟨hn, rfl⟩
    exact value_digit n hn

/-- **Bytes in groups of three have one text.** -/
theorem decode_eq_some {cs bs : List ℕ} (h3 : bs.length % 3 = 0) :
    decode cs = some bs ↔ (∀ b ∈ bs, b < 256) ∧ cs = encode bs := by
  constructor
  · intro h
    induction cs using decode.induct generalizing bs with
    | case1 =>
        cases h
        exact ⟨by simp, rfl⟩
    | case2 a b c d rest ih =>
        simp only [decode, Option.bind_eq_bind, Option.bind_eq_some_iff, value_eq_some] at h
        obtain ⟨x, ⟨hx, rfl⟩, y, ⟨hy, rfl⟩, h⟩ := h
        -- a group with padding has one or two bytes
        split_ifs at h with hpad hone
        · cases h
          simp at h3
        · simp only [Option.bind_eq_some_iff] at h
          obtain ⟨z, -, h⟩ := h
          cases h
          simp at h3
        · simp only [Option.bind_eq_some_iff, value_eq_some] at h
          obtain ⟨z, ⟨hz, rfl⟩, u, ⟨hu, rfl⟩, bs', hbs, h⟩ := h
          cases h
          obtain ⟨hlt, hrest⟩ := ih (by simp at h3; omega) hbs
          refine ⟨?_, ?_⟩
          · simp only [List.forall_mem_cons]
            exact ⟨by omega, by omega, by omega, hlt⟩
          · have e1 : (x * 4 + y / 16) % 256 / 4 = x := by omega
            have e2 : (x * 4 + y / 16) % 256 % 4 * 16 + (y % 16 * 16 + z / 4) % 256 / 16
              = y := by omega
            have e3 : (y % 16 * 16 + z / 4) % 256 % 16 * 4 + (z % 4 * 64 + u) % 256 / 64
              = z := by omega
            have e4 : (z % 4 * 64 + u) % 256 % 64 = u := by omega
            rw [encode, e1, e2, e3, e4, ← hrest]
    | case3 => simp [decode] at h
  · rintro ⟨hlt, rfl⟩
    exact decode_encode bs hlt

end Library.Base64
