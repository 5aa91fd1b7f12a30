import Mathlib.Data.List.TakeWhile
import Mathlib.Tactic
import FreebsdLaboratory.Library.Json

/-!
# Written JSON reads back

**`loads_dumps`** says that a text that was written reads back as the value in normal form: tuples
have become lists, and the items of a dictionary stand in the order of their keys.  `dumps_normal`
says that the normal form is written as the same text, so that a hash of the text is a hash of what
is read back from it.

The proof goes through `Reads`: what it means for a text to stand for a value wherever it occurs.  A
text reads so whatever follows it, as long as that does not go on a number, and with any fuel that
its length allows.
-/

namespace Library.Json

open Unicode

variable {s t rest : Str} {n : ℕ} {v : Value}

/-! ## Strings read back -/

lemma hexValue_hexDigit : ∀ n < 16, hexValue (hexDigit n) = some n := by decide

lemma joinSurrogate_of_lt (h : n < 0xD800) (s : Str) : joinSurrogate n s = n :: s := by
  cases s with
  | nil => rfl
  | cons m s => rw [joinSurrogate, if_neg (by omega)]

/-- An escaped character is read as the character. -/
lemma readString_escape (n : ℕ) (s : Str) :
    readString (escape n ++ s) = (readString s).map fun r => (n :: r.1, r.2) := by
  have hplain : ∀ m, ((readString s).bind fun r => some (m :: r.1, r.2))
      = (readString s).map fun r => (m :: r.1, r.2) := by
    intro m
    cases readString s <;> rfl
  unfold escape
  split_ifs with h1 h2 h3 h4 h5 h6 h7 h8
  · subst h1; simpa [readString, unescape] using hplain 34
  · subst h2; simpa [readString, unescape] using hplain 92
  · subst h3; simpa [readString, unescape] using hplain 8
  · subst h4; simpa [readString, unescape] using hplain 9
  · subst h5; simpa [readString, unescape] using hplain 10
  · subst h6; simpa [readString, unescape] using hplain 12
  · subst h7; simpa [readString, unescape] using hplain 13
  · have hhex : hex4 48 48 (hexDigit (n / 16)) (hexDigit (n % 16)) = some n := by
      have h0 : hexValue 48 = some 0 := by decide
      have hval : n / 16 * 16 + n % 16 = n := by omega
      simp [hex4, h0, hexValue_hexDigit _ (show n / 16 < 16 by omega),
        hexValue_hexDigit _ (show n % 16 < 16 by omega), hval]
    have hjoin : ∀ s, joinSurrogate n s = n :: s := joinSurrogate_of_lt (by omega)
    rw [List.cons_append, List.cons_append, List.cons_append, List.cons_append, List.cons_append,
      List.cons_append, List.nil_append, readString, hhex]
    simpa [hjoin] using hplain n
  · rw [List.singleton_append, readString.eq_def]
    split
    · simp_all
    · simp_all
    · simp_all
    · simp_all
    · rename_i m r hm1 hm2 hm3 heq
      obtain ⟨rfl, rfl⟩ := List.cons.inj heq
      rw [if_neg (by omega)]
      simpa using hplain n

/-- **A quoted string reads back.** -/
theorem readString_quote (s rest : Str) :
    readString (s.flatMap escape ++ 34 :: rest) = some (s, rest) := by
  induction s with
  | nil => rfl
  | cons n s ih => rw [List.flatMap_cons, List.append_assoc, readString_escape, ih]; rfl

/-! ## Numbers read back -/

lemma isDigit_toNat {c : Char} (h : c.isDigit = true) : isDigit c.toNat = true := by
  simp only [Char.isDigit, Bool.and_eq_true, decide_eq_true_eq] at h
  have hlow : 48 ≤ c.toNat := h.1
  have hhigh : c.toNat ≤ 57 := h.2
  simp [isDigit, hlow, hhigh]

lemma isDigit_of_mem_decimal {d : ℕ} (h : d ∈ decimal n) : isDigit d = true := by
  obtain ⟨c, hc, rfl⟩ := List.mem_map.mp h
  exact isDigit_toNat (Nat.isDigit_of_mem_toDigits (by decide) (by decide) hc)

lemma decimal_ne_nil : decimal n ≠ [] := by
  simp [decimal, Nat.toDigits_ne_nil]

lemma ofDecimal_decimal (n : ℕ) : ofDecimal (decimal n) = n := by
  rw [ofDecimal, decimal, List.foldl_map]
  exact Nat.ofDigitChars_ten_toDigits

/-- A number has no leading zero, unless it is zero. -/
lemma decimal_canonical (n : ℕ) : (decimal n).length = 1 ∨ (decimal n).head? ≠ some 48 := by
  induction n using Nat.strongRecOn with
  | ind n ih =>
      by_cases hn : n < 10
      · exact .inl (by simp [decimal, Nat.toDigits_of_lt_base hn])
      · have hstep : decimal n = decimal (n / 10) ++ decimal (n % 10) := by
          rw [decimal, Nat.toDigits_of_base_le (by decide) (by omega), List.map_append, decimal,
            decimal, Nat.toDigits_of_lt_base (n := n % 10) (by omega)]
        refine .inr ?_
        rw [hstep, List.head?_append_of_ne_nil _ decimal_ne_nil]
        rcases ih (n / 10) (by omega) with hone | hhead
        · have hsmall : n / 10 < 10 := by
            by_contra hlarge
            have hlen := Nat.length_toDigits_pos (b := 10) (n := n / 10 / 10)
            rw [decimal, List.length_map, Nat.toDigits_of_base_le (by decide) (by omega),
              List.length_append] at hone
            simp at hone
          have hdigit : ∀ k < 10, 0 < k → (decimal k).head? ≠ some 48 := by decide
          exact hdigit _ hsmall (by omega)
        · exact hhead

lemma isIntToken_decimal : isIntToken (decimal n) = true := by
  have hne := decimal_ne_nil (n := n)
  have hall : (decimal n).all isDigit = true :=
    List.all_eq_true.mpr fun d hd => isDigit_of_mem_decimal hd
  have hsign : (decimal n).head? ≠ some 45 := by
    intro h
    have := isDigit_of_mem_decimal (List.mem_of_mem_head? h)
    simp [isDigit] at this
  have hcanonical := decimal_canonical n
  simp only [isIntToken, hsign, if_false, hall]
  simp [hne, hcanonical]

lemma isIntToken_neg : isIntToken (45 :: decimal n) = true := by
  have hne := decimal_ne_nil (n := n)
  have hall : (decimal n).all isDigit = true :=
    List.all_eq_true.mpr fun d hd => isDigit_of_mem_decimal hd
  have hcanonical := decimal_canonical n
  simp only [isIntToken, List.head?_cons, if_true, List.tail_cons, hall]
  simp [hne, hcanonical]

/-- Digits are no float. -/
lemma not_isFloatToken (h : ∀ d ∈ t, isDigit d = true ∨ d = 45) : isFloatToken t = false := by
  have hpoint : t.any ([46, 69, 101].contains ·) = false := by
    rw [List.any_eq_false]
    intro d hd
    rcases h d hd with hdigit | rfl
    · simp only [isDigit, Bool.and_eq_true, decide_eq_true_eq] at hdigit
      simp only [List.contains_eq_mem, List.mem_cons, List.not_mem_nil, or_false, decide_eq_true_eq]
      omega
    · decide
  simp only [isFloatToken, hpoint, Bool.and_false, Bool.false_and]

lemma readNumber_intText {z : ℤ} (h : intText z = .ok t) : readNumber t = some (.int z) := by
  unfold intText at h
  dsimp only at h
  split_ifs at h with hlen hneg
  · obtain rfl := Except.ok.inj h
    have hfloat : isFloatToken (45 :: decimal z.natAbs) = false := by
      refine not_isFloatToken fun d hd => ?_
      rcases List.mem_cons.mp hd with rfl | hd
      · exact .inr rfl
      · exact .inl (isDigit_of_mem_decimal hd)
    rw [readNumber, dif_neg (by simp [hfloat])]
    simp only [isIntToken_neg, List.head?_cons, List.tail_cons, hlen, if_true, ofDecimal_decimal,
      Option.some.injEq, Value.int.injEq]
    omega
  · obtain rfl := Except.ok.inj h
    have hsign : (decimal z.natAbs).head? ≠ some 45 := by
      intro h
      have := isDigit_of_mem_decimal (List.mem_of_mem_head? h)
      simp [isDigit] at this
    have hfloat : isFloatToken (decimal z.natAbs) = false :=
      not_isFloatToken fun d hd => .inl (isDigit_of_mem_decimal hd)
    rw [readNumber, dif_neg (by simp [hfloat])]
    simp only [isIntToken_decimal, hsign, hlen, if_true, if_false, ofDecimal_decimal,
      Option.some.injEq, Value.int.injEq]
    omega

/-- Nothing follows, or something that a number cannot go on with. -/
def Stops (rest : Str) : Prop := ∀ c ∈ rest.head?, isNumberChar c = false

/-- A number starts with a digit, or with a sign and a digit. -/
def StartsNumber (t : Str) : Prop :=
  ∃ c s, t = c :: s ∧ (isDigit c = true ∨ c = 45 ∧ ∃ d s', s = d :: s' ∧ isDigit d = true)

lemma startsNumber_of_isIntToken (h : isIntToken t = true) (rest : Str) :
    StartsNumber (t ++ rest) := by
  simp only [isIntToken, Bool.and_eq_true, decide_eq_true_eq, List.all_eq_true] at h
  obtain ⟨⟨hne, hall⟩, -⟩ := h
  cases t with
  | nil => simp at hne
  | cons c s =>
      by_cases hc : c = 45
      · subst hc
        simp only [List.head?_cons, if_true, List.tail_cons] at hne hall
        cases s with
        | nil => simp at hne
        | cons d s =>
            exact ⟨45, d :: (s ++ rest), rfl, .inr ⟨rfl, d, s ++ rest, rfl, hall d (by simp)⟩⟩
      · have hhead : ¬ (c :: s).head? = some 45 := by simpa using hc
        rw [if_neg hhead] at hall
        exact ⟨c, s ++ rest, rfl, .inl (hall c (by simp))⟩

lemma readConstant_of_startsNumber (h : StartsNumber t) : readConstant t = none := by
  obtain ⟨c, s, rfl, hc⟩ := h
  have hconstants : constants.map (fun c => c.1)
      = [[110, 117, 108, 108], [116, 114, 117, 101], [102, 97, 108, 115, 101], [78, 97, 78],
        [73, 110, 102, 105, 110, 105, 116, 121],
        [45, 73, 110, 102, 105, 110, 105, 116, 121]] := by decide
  rw [readConstant, Option.map_eq_none_iff, List.find?_eq_none]
  intro k hk
  have hk' : k.1 ∈ constants.map (fun c => c.1) := List.mem_map.mpr ⟨k, hk, rfl⟩
  rw [hconstants] at hk'
  have hrange : ∀ d, isDigit d = true → 48 ≤ d ∧ d ≤ 57 := by simp [isDigit]
  simp only [List.mem_cons, List.not_mem_nil, or_false] at hk'
  rcases hc with hc | ⟨rfl, d, s', rfl, hd⟩
  · have := hrange c hc
    rcases hk' with h | h | h | h | h | h <;> rw [h] <;> simp [List.isPrefixOf] <;> omega
  · have := hrange d hd
    rcases hk' with h | h | h | h | h | h <;> rw [h] <;> simp [List.isPrefixOf]; omega

/-! ## Texts that stand for a value -/

/-- The text stands for the value, whatever follows. -/
structure Reads (t : Str) (v : Value) : Prop where
  /-- It starts a value: with no blank, and not with a closing bracket. -/
  starts : ∃ c s, t = c :: s ∧ isWhite c = false ∧ c ≠ 93
  reads : ∀ fuel rest, t.length ≤ fuel → Stops rest → readValue fuel (t ++ rest) = some (v, rest)

lemma takeWhile_token (h : ∀ d ∈ t, isNumberChar d = true) (hrest : Stops rest) :
    (t ++ rest).takeWhile isNumberChar = t := by
  rw [List.takeWhile_append_of_pos h]
  cases rest with
  | nil => simp
  | cons c s =>
      have hstop : isNumberChar c = false := hrest c rfl
      rw [List.takeWhile_cons_of_neg (by simp [hstop]), List.append_nil]

/-- A token that is read as a number stands for it. -/
lemma reads_of_readNumber (hchars : ∀ d ∈ t, isNumberChar d = true)
    (hstart : ∀ rest, StartsNumber (t ++ rest)) (h : readNumber t = some v) : Reads t v := by
  obtain ⟨c, s, ht, hc⟩ := hstart []
  rw [List.append_nil] at ht
  have hrange : isDigit c = true ∨ c = 45 := hc.imp_right And.left
  have hcode : 48 ≤ c ∧ c ≤ 57 ∨ c = 45 := by
    simpa only [isDigit, Bool.and_eq_true, decide_eq_true_eq] using hrange
  refine ⟨⟨c, s, ht, ?_, by omega⟩, fun fuel rest hfuel hrest => ?_⟩
  · simp only [isWhite, List.contains_eq_mem, List.mem_cons, List.not_mem_nil, or_false,
      decide_eq_false_iff_not]
    omega
  · cases fuel with
    | zero => simp [ht] at hfuel
    | succ fuel =>
        have hconstant : readConstant (t ++ rest) = none :=
          readConstant_of_startsNumber (hstart rest)
        have htoken := takeWhile_token hchars hrest
        rw [readValue.eq_def]
        dsimp only
        split
        · simp_all
        · simp_all
        · simp_all
        · rw [hconstant, htoken, h]
          simp

lemma startsNumber_of_isFloatToken (h : isFloatToken t = true) (rest : Str) :
    StartsNumber (t ++ rest) := by
  have hint : isIntToken ((if t.head? = some 45 then [45] else [])
      ++ (if t.head? = some 45 then t.tail else t).takeWhile isDigit) = true := by
    simp only [isFloatToken, Bool.and_eq_true] at h
    exact h.1.1.1
  have hsplit : ∃ tail, t = ((if t.head? = some 45 then [45] else [])
      ++ (if t.head? = some 45 then t.tail else t).takeWhile isDigit) ++ tail := by
    by_cases hsign : t.head? = some 45
    · obtain ⟨s, rfl⟩ : ∃ s, t = 45 :: s := by
        cases t with
        | nil => simp at hsign
        | cons c s => exact ⟨s, by simpa using hsign⟩
      refine ⟨s.dropWhile isDigit, ?_⟩
      simp [List.takeWhile_append_dropWhile]
    · refine ⟨t.dropWhile isDigit, ?_⟩
      simp [hsign, List.takeWhile_append_dropWhile]
  obtain ⟨tail, ht⟩ := hsplit
  rw [ht, List.append_assoc]
  exact startsNumber_of_isIntToken hint _

/-- A constant is found, whatever follows. -/
lemma readConstant_of_mem {c : Str × Value} (hc : c ∈ constants) (rest : Str) :
    readConstant (c.1 ++ rest) = some (c.2, rest) := by
  have hconstants : constants = [([110, 117, 108, 108], .none), ([116, 114, 117, 101], .bool true),
      ([102, 97, 108, 115, 101], .bool false),
      ([78, 97, 78], .float ⟨[78, 97, 78], by decide⟩),
      ([73, 110, 102, 105, 110, 105, 116, 121],
        .float ⟨[73, 110, 102, 105, 110, 105, 116, 121], by decide⟩),
      ([45, 73, 110, 102, 105, 110, 105, 116, 121],
        .float ⟨[45, 73, 110, 102, 105, 110, 105, 116, 121], by decide⟩)] := rfl
  rw [readConstant]
  rw [hconstants] at hc ⊢
  simp only [List.mem_cons, List.not_mem_nil, or_false] at hc
  rcases hc with rfl | rfl | rfl | rfl | rfl | rfl <;> simp [List.isPrefixOf]

lemma reads_constant {c : Str × Value} (hc : c ∈ constants) : Reads c.1 c.2 := by
  have hstart : ∃ d s, c.1 = d :: s ∧ isWhite d = false ∧ d ≠ 93 ∧ d ≠ 34 ∧ d ≠ 91 ∧ d ≠ 123 := by
    fin_cases hc <;> exact ⟨_, _, rfl, by decide⟩
  obtain ⟨d, s, hd, hwhite, h93, h34, h91, h123⟩ := hstart
  refine ⟨⟨d, s, hd, hwhite, h93⟩, fun fuel rest hfuel _ => ?_⟩
  cases fuel with
  | zero => simp [hd] at hfuel
  | succ fuel =>
      have hconstant := readConstant_of_mem hc rest
      rw [readValue.eq_def]
      dsimp only
      split
      · simp_all
      · simp_all
      · simp_all
      · rw [hconstant]

/-- A literal is a number, or a constant. -/
lemma float_cases (l : FloatLiteral) :
    isFloatToken l.1 = true ∨ (l.1, Value.float l) ∈ constants := by
  obtain ⟨t, ht⟩ := l
  simp only [isFloatLiteral, Bool.or_eq_true, List.contains_eq_mem, List.mem_cons, List.not_mem_nil,
    or_false, decide_eq_true_eq] at ht
  rcases ht with ht | rfl | rfl | rfl
  · exact .inl ht
  all_goals exact .inr (by simp [constants])

lemma reads_float (l : FloatLiteral) : Reads l.1 (.float l) := by
  rcases float_cases l with h | h
  · have hchars : ∀ d ∈ l.1, isNumberChar d = true := by
      simp only [isFloatToken, Bool.and_eq_true, List.all_eq_true] at h
      exact h.1.1.2
    exact reads_of_readNumber hchars (startsNumber_of_isFloatToken h)
      (by rw [readNumber, dif_pos h])
  · exact reads_constant h

lemma reads_int {z : ℤ} (h : intText z = .ok t) : Reads t (.int z) := by
  have hdigits : ∀ d ∈ decimal z.natAbs, isNumberChar d = true := fun d hd => by
    rw [isNumberChar, isDigit_of_mem_decimal hd, Bool.true_or]
  have hread := readNumber_intText h
  unfold intText at h
  dsimp only at h
  split_ifs at h with hlen hneg
  · obtain rfl := Except.ok.inj h
    refine reads_of_readNumber (fun d hd => ?_) (startsNumber_of_isIntToken isIntToken_neg) hread
    rcases List.mem_cons.mp hd with rfl | hd
    · decide
    · exact hdigits d hd
  · obtain rfl := Except.ok.inj h
    exact reads_of_readNumber hdigits (startsNumber_of_isIntToken isIntToken_decimal) hread

lemma reads_quote (s : Str) : Reads (quote s) (.str s) := by
  refine ⟨⟨34, _, rfl, by decide, by decide⟩, fun fuel rest hfuel _ => ?_⟩
  cases fuel with
  | zero => simp [quote] at hfuel
  | succ fuel =>
      rw [quote, List.cons_append, List.cons_append, List.append_assoc, List.singleton_append,
        readValue, readString_quote]
      rfl

/-! ## Lists and dictionaries -/

lemma skipWhite_of_starts {c : ℕ} (hc : isWhite c = false) (s : Str) :
    skipWhite (c :: s) = c :: s := by
  rw [skipWhite, List.dropWhile_cons_of_neg (by simp [hc])]

lemma Reads.skipWhite (h : Reads t v) (rest : Str) : skipWhite (t ++ rest) = t ++ rest := by
  obtain ⟨c, s, rfl, hc, -⟩ := h.starts
  exact skipWhite_of_starts hc _

lemma Reads.length_pos (h : Reads t v) : 0 < t.length := by
  obtain ⟨c, s, rfl, -⟩ := h.starts
  exact Nat.succ_pos _

lemma joinTexts_cons {close : ℕ} (t : Str) {ts : List Str} (h : ts ≠ []) :
    joinTexts close (t :: ts) = t ++ 44 :: joinTexts close ts := by
  cases ts with
  | nil => exact absurd rfl h
  | cons u us => rfl

lemma stops_cons {c : ℕ} (hc : isNumberChar c = false) (s : Str) : Stops (c :: s) := by
  intro d hd
  obtain rfl : c = d := by simpa using hd
  exact hc

lemma length_joinTexts_pos (close : ℕ) (t : Str) (ts : List Str) :
    0 < (joinTexts close (t :: ts)).length := by
  cases ts <;> simp [joinTexts]

/-- Joined texts start with the first of them. -/
lemma skipWhite_joinTexts {close : ℕ} {t : Str} (h : ∀ s : Str, skipWhite (t ++ s) = t ++ s)
    (ts : List Str) (rest : Str) :
    skipWhite (joinTexts close (t :: ts) ++ rest) = joinTexts close (t :: ts) ++ rest := by
  cases ts with
  | nil => rw [joinTexts, List.append_assoc, h]
  | cons u us => rw [joinTexts_cons t (by simp), List.append_assoc, h]

/-- The elements of a list are read one after the other. -/
lemma readElements_joinTexts {ts : List Str} {vs : List Value} (h : List.Forall₂ Reads ts vs)
    (hne : ts ≠ []) (fuel : ℕ) (rest : Str) (hfuel : (joinTexts 93 ts).length ≤ fuel) :
    readElements fuel (joinTexts 93 ts ++ rest) = some (vs, rest) := by
  induction h generalizing fuel with
  | nil => exact absurd rfl hne
  | @cons t v ts vs hread htail ih =>
      have hpos := hread.length_pos
      cases fuel with
      | zero => exact absurd (length_joinTexts_pos _ _ ts) (Nat.not_lt.mpr hfuel)
      | succ fuel =>
          by_cases hts : ts = []
          · subst hts
            obtain rfl := List.forall₂_nil_left_iff.mp htail
            have hlen : t.length ≤ fuel := by
              simp only [joinTexts, List.length_append, List.length_singleton] at hfuel
              omega
            have hv := hread.reads fuel (93 :: rest) hlen (stops_cons (by decide) rest)
            rw [joinTexts, List.append_assoc, List.singleton_append, readElements, hv]
            rfl
          · rw [joinTexts_cons t hts] at hfuel ⊢
            have hlen : t.length ≤ fuel ∧ (joinTexts 93 ts).length ≤ fuel := by
              simp only [List.length_append, List.length_cons] at hfuel
              omega
            have hv := hread.reads fuel (44 :: (joinTexts 93 ts ++ rest)) hlen.1
              (stops_cons (by decide) _)
            have hskip : skipWhite (joinTexts 93 ts ++ rest) = joinTexts 93 ts ++ rest := by
              cases htail with
              | nil => exact absurd rfl hts
              | cons hu _ => exact skipWhite_joinTexts hu.skipWhite _ rest
            rw [List.append_assoc, List.cons_append, readElements, hv]
            simp only [Option.bind_eq_bind, Option.bind_some,
              skipWhite_of_starts (show isWhite 44 = false by decide), hskip,
              ih hts fuel hlen.2]
            rfl

lemma insertItem_of_notMem {key : Str} {items : List (Str × Value)}
    (h : key ∉ items.map Prod.fst) : Value.insertItem key v items = items ++ [(key, v)] := by
  induction items with
  | nil => rfl
  | cons item items ih =>
      simp only [List.map_cons, List.mem_cons, not_or] at h
      rw [Value.insertItem, if_neg (Ne.symm h.1), ih h.2, List.cons_append]

/-- The text stands for the item of a dictionary. -/
def ReadsItem (t : Str) (item : Str × Value) : Prop :=
  ∃ u, t = quote item.1 ++ 58 :: u ∧ Reads u item.2

/-- The items of a dictionary are read one after the other, and their keys are new. -/
lemma readItems_joinTexts {ts : List Str} {items : List (Str × Value)}
    (h : List.Forall₂ ReadsItem ts items) (hne : ts ≠ []) (fuel : ℕ) (rest : Str)
    (hfuel : (joinTexts 125 ts).length ≤ fuel) (before : List (Str × Value))
    (hnodup : ((before ++ items).map Prod.fst).Nodup) :
    readItems fuel before (joinTexts 125 ts ++ rest) = some (before ++ items, rest) := by
  induction h generalizing fuel before with
  | nil => exact absurd rfl hne
  | @cons t item ts items hitem htail ih =>
      obtain ⟨key, v⟩ := item
      obtain ⟨u, rfl, hread⟩ := hitem
      have hkey : key ∉ before.map Prod.fst := by
        rw [List.map_append, List.map_cons, List.nodup_append] at hnodup
        intro hmem
        exact hnodup.2.2 key hmem key (by simp) rfl
      have hbefore : before ++ (key, v) :: items = (before ++ [(key, v)]) ++ items := by simp
      have hcolon : ∀ s : Str, skipWhite (58 :: s) = 58 :: s :=
        skipWhite_of_starts (by decide)
      cases fuel with
      | zero => exact absurd (length_joinTexts_pos _ _ ts) (Nat.not_lt.mpr hfuel)
      | succ fuel =>
          by_cases hts : ts = []
          · subst hts
            obtain rfl := List.forall₂_nil_left_iff.mp htail
            have hlen : u.length ≤ fuel := by
              simp only [joinTexts, List.length_append, List.length_cons, List.length_nil] at hfuel
              omega
            have hv := hread.reads fuel (125 :: rest) hlen (stops_cons (by decide) rest)
            have htext : joinTexts 125 [quote key ++ 58 :: u] ++ rest
                = 34 :: (key.flatMap escape ++ 34 :: (58 :: (u ++ 125 :: rest))) := by
              simp [joinTexts, quote]
            rw [htext, readItems]
            simp only [Option.bind_eq_bind, readString_quote, Option.bind_some, hcolon,
              hread.skipWhite, hv, skipWhite_of_starts (show isWhite 125 = false by decide),
              insertItem_of_notMem hkey]
            rfl
          · rw [joinTexts_cons _ hts] at hfuel ⊢
            have hlen : u.length ≤ fuel ∧ (joinTexts 125 ts).length ≤ fuel := by
              simp only [List.length_append, List.length_cons] at hfuel
              omega
            have hv := hread.reads fuel (44 :: (joinTexts 125 ts ++ rest)) hlen.1
              (stops_cons (by decide) _)
            have hskip : skipWhite (joinTexts 125 ts ++ rest) = joinTexts 125 ts ++ rest := by
              cases htail with
              | nil => exact absurd rfl hts
              | cons hu _ =>
                  obtain ⟨u', rfl, -⟩ := hu
                  exact skipWhite_joinTexts (fun s => skipWhite_of_starts (by decide) _) _ rest
            have htext : quote key ++ 58 :: u ++ 44 :: joinTexts 125 ts ++ rest
                = 34 :: (key.flatMap
                  escape ++ 34 :: (58 :: (u ++ 44 :: (joinTexts 125 ts ++ rest))))
                := by simp [quote]
            rw [htext, readItems, hbefore]
            simp only [Option.bind_eq_bind, readString_quote, Option.bind_some, hcolon,
              hread.skipWhite, hv, skipWhite_of_starts (show isWhite 44 = false by decide),
              insertItem_of_notMem hkey, hskip]
            exact ih hts fuel hlen.2 (before ++ [(key, v)]) (by rw [← hbefore]; exact hnodup)

/-! ## Sorting by key -/

section Sorting

variable {α β : Type}

lemma sortItems_perm (items : List (Str × α)) : (sortItems items).Perm items :=
  List.perm_insertionSort _ items

lemma sortItems_sorted (items : List (Str × α)) :
    (sortItems items).Pairwise fun a b => a.1 ≤ b.1 :=
  List.pairwise_insertionSort _ items

@[simp] lemma sortItems_sortItems (items : List (Str × α)) :
    sortItems (sortItems items) = sortItems items :=
  (sortItems_sorted items).insertionSort_eq

/-- Sorting by key keeps a relation between values under equal keys. -/
lemma forall₂_sortItems {R : Str × α → Str × β → Prop} (hkeys : ∀ a b, R a b → a.1 = b.1)
    {as : List (Str × α)} {bs : List (Str × β)} (h : List.Forall₂ R as bs) :
    List.Forall₂ R (sortItems as) (sortItems bs) := by
  have hinsert : ∀ a b, R a b → ∀ {as bs}, List.Forall₂ R as bs →
      List.Forall₂ R (as.orderedInsert (fun x y => x.1 ≤ y.1) a)
        (bs.orderedInsert (fun x y => x.1 ≤ y.1) b) := by
    intro a b hab as bs h
    induction h with
    | nil => exact .cons hab .nil
    | @cons a' b' as bs hab' htail ih =>
        rw [List.orderedInsert_cons, List.orderedInsert_cons, hkeys a b hab, hkeys a' b' hab']
        split_ifs
        · exact .cons hab (.cons hab' htail)
        · exact .cons hab' ih
  induction h with
  | nil => exact .nil
  | cons hab _ ih => exact hinsert _ _ hab ih

end Sorting

/-- A `mapM` that succeeds takes every element to its result. -/
lemma forall₂_of_mapM {ε α β : Type} {f : α → Except ε β} {as : List α} {bs : List β}
    (h : as.mapM f = .ok bs) : List.Forall₂ (fun b a => f a = .ok b) bs as := by
  induction as generalizing bs with
  | nil =>
      obtain rfl := Except.ok.inj h
      exact .nil
  | cons a as ih =>
      rw [List.mapM_cons] at h
      cases ha : f a with
      | error e => simp [ha, bind, Except.bind] at h
      | ok b =>
          cases has : as.mapM f with
          | error e => simp [ha, has, bind, Except.bind] at h
          | ok bs' =>
              obtain rfl : b :: bs' = bs := by
                simpa [ha, has, bind, Except.bind, pure, Except.pure] using h
              exact .cons ha (ih has)

lemma forall₂_trans {α β γ : Type} {R : α → β → Prop} {S : β → γ → Prop} {T : α → γ → Prop}
    (h : ∀ a b c, R a b → S b c → T a c) {as : List α} {bs : List β} {cs : List γ}
    (hR : List.Forall₂ R as bs) (hS : List.Forall₂ S bs cs) : List.Forall₂ T as cs := by
  induction hR generalizing cs with
  | nil =>
      cases hS
      exact .nil
  | cons hab _ ih =>
      cases hS with
      | cons hbc hbcs => exact .cons (h _ _ _ hab hbc) (ih hbcs)

/-! ## The round trip -/

namespace Value

mutual

/-- No dictionary has two items under one key. -/
def WellFormed : Value → Prop
  | .seq _ xs | .set _ xs => WellFormedAll xs
  | .dict items => (items.map Prod.fst).Nodup ∧ WellFormedItems items
  | .none | .bool _ | .int _ | .float _ | .str _ | .object _ => True

def WellFormedAll : List Value → Prop
  | [] => True
  | x :: xs => x.WellFormed ∧ WellFormedAll xs

def WellFormedItems : List (Str × Value) → Prop
  | [] => True
  | (_, v) :: items => v.WellFormed ∧ WellFormedItems items

end

mutual

/-- The value as it reads back: lists for tuples, and the items of a dictionary by key. -/
def normal : Value → Value
  | .seq _ xs => .seq false (normalAll xs)
  | .dict items => .dict (sortItems (normalItems items))
  | v => v

def normalAll : List Value → List Value
  | [] => []
  | x :: xs => x.normal :: normalAll xs

def normalItems : List (Str × Value) → List (Str × Value)
  | [] => []
  | (k, v) :: items => (k, v.normal) :: normalItems items

end

lemma normalItems_keys (items : List (Str × Value)) :
    (normalItems items).map Prod.fst = items.map Prod.fst := by
  induction items with
  | nil => rfl
  | cons item items ih => rw [normalItems, List.map_cons, List.map_cons, ih]

end Value

open Value

lemma reads_seq {ts : List Str} {vs : List Value} (h : List.Forall₂ Reads ts vs) :
    Reads (91 :: joinTexts 93 ts) (.seq false vs) := by
  refine ⟨⟨91, _, rfl, by decide, by decide⟩, fun fuel rest hfuel _ => ?_⟩
  cases fuel with
  | zero => simp at hfuel
  | succ fuel =>
      cases h with
      | nil =>
          have hskip : skipWhite (93 :: rest) = 93 :: rest := skipWhite_of_starts (by decide) _
          simp only [joinTexts, List.cons_append, List.nil_append, readValue, hskip]
      | @cons t v ts vs hread htail =>
          have hskip : skipWhite (joinTexts 93 (t :: ts) ++ rest) = joinTexts 93 (t :: ts) ++ rest
            := by
            by_cases hts : ts = []
            · subst hts
              rw [joinTexts, List.append_assoc, hread.skipWhite]
            · rw [joinTexts_cons t hts, List.append_assoc, hread.skipWhite]
          have hopen : ∃ c s, joinTexts 93 (t :: ts) ++ rest = c :: s ∧ c ≠ 93 := by
            obtain ⟨c, s, rfl, -, hc⟩ := hread.starts
            by_cases hts : ts = []
            · subst hts
              exact ⟨c, _, rfl, hc⟩
            · rw [joinTexts_cons _ hts]
              exact ⟨c, _, rfl, hc⟩
          have helements := readElements_joinTexts (.cons hread htail) (by simp) fuel rest
            (by simpa using hfuel)
          obtain ⟨c, s, hcs, hc⟩ := hopen
          rw [hcs] at helements hskip
          rw [List.cons_append, hcs, readValue]
          dsimp only
          rw [hskip]
          split
          · simp_all
          · rw [helements]
            rfl

lemma reads_dict {ts : List Str} {items : List (Str × Value)} (h : List.Forall₂ ReadsItem ts items)
    (hnodup : (items.map Prod.fst).Nodup) : Reads (123 :: joinTexts 125 ts) (.dict items) := by
  refine ⟨⟨123, _, rfl, by decide, by decide⟩, fun fuel rest hfuel _ => ?_⟩
  cases fuel with
  | zero => simp at hfuel
  | succ fuel =>
      cases h with
      | nil =>
          have hskip : skipWhite (125 :: rest) = 125 :: rest := skipWhite_of_starts (by decide) _
          simp only [joinTexts, List.cons_append, List.nil_append, readValue, hskip]
      | @cons t item ts items hitem htail =>
          have hopen : ∃ s, joinTexts 125 (t :: ts) ++ rest = 34 :: s := by
            obtain ⟨u, rfl, -⟩ := hitem
            by_cases hts : ts = []
            · subst hts
              exact ⟨_, rfl⟩
            · rw [joinTexts_cons _ hts]
              exact ⟨_, rfl⟩
          have hitems := readItems_joinTexts (.cons hitem htail) (by simp) fuel rest
            (by simpa using hfuel) [] (by simpa using hnodup)
          obtain ⟨s, hs⟩ := hopen
          have hskip : skipWhite (34 :: s) = 34 :: s := skipWhite_of_starts (by decide) _
          rw [hs] at hitems
          rw [List.cons_append, hs, readValue]
          dsimp only
          rw [hskip, hitems]
          rfl

/-- An item of a dictionary that was written, next to the item as it reads back. -/
def ReadsBack (written : Str × Except DumpError Str) (item : Str × Value) : Prop :=
  written.1 = item.1 ∧ ∀ t, written.2 = .ok t → Reads t item.2

lemma readsItem_of_itemText (t : Str) (written : Str × Except DumpError Str) (item : Str × Value)
    (h : itemText written = .ok t) (hback : ReadsBack written item) : ReadsItem t item := by
  obtain ⟨key, text⟩ := written
  obtain ⟨hkey, hreads⟩ := hback
  cases text with
  | error e => simp [itemText, Except.map] at h
  | ok u =>
      obtain rfl : quote key ++ 58 :: u = t := by simpa [itemText, Except.map] using h
      exact ⟨u, by rw [← hkey], hreads u rfl⟩

mutual

/-- **A written value reads back as its normal form**, wherever the text stands. -/
theorem reads_dumps : ∀ (v : Value) {t : Str}, v.WellFormed → dumps v = .ok t → Reads t v.normal
  | .none, t, _, h => by
      obtain rfl := Except.ok.inj h
      exact reads_constant (c := (str "null", .none)) (by simp [constants])
  | .bool b, t, _, h => by
      obtain rfl := Except.ok.inj h
      cases b with
      | false => exact reads_constant (c := (str "false", .bool false)) (by simp [constants])
      | true => exact reads_constant (c := (str "true", .bool true)) (by simp [constants])
  | .int z, t, _, h => reads_int h
  | .float literal, t, _, h => by
      obtain rfl := Except.ok.inj h
      exact reads_float literal
  | .str s, t, _, h => by
      obtain rfl := Except.ok.inj h
      exact reads_quote s
  | .seq tuple xs, t, hv, h => by
      rw [dumps] at h
      cases hts : (dumpsAll xs).mapM id with
      | error e => simp [hts, Except.map] at h
      | ok ts =>
          obtain rfl : 91 :: joinTexts 93 ts = t := by simpa [hts, Except.map] using h
          exact reads_seq (reads_dumpsAll xs hv (forall₂_of_mapM hts))
  | .set frozen xs, t, _, h => by simp [dumps] at h
  | .dict items, t, hv, h => by
      rw [dumps] at h
      cases hts : (sortItems (dumpsItems items)).mapM itemText with
      | error e => simp [hts, Except.map] at h
      | ok ts =>
          obtain rfl : 123 :: joinTexts 125 ts = t := by simpa [hts, Except.map] using h
          have hsorted : List.Forall₂ ReadsBack (sortItems (dumpsItems items))
              (sortItems (normalItems items)) :=
            forall₂_sortItems (fun _ _ hab => hab.1) (reads_dumpsItems items hv.2)
          have hitems : List.Forall₂ ReadsItem ts (sortItems (normalItems items)) :=
            forall₂_trans readsItem_of_itemText (forall₂_of_mapM hts) hsorted
          refine reads_dict hitems ?_
          rw [((sortItems_perm _).map Prod.fst).nodup_iff, normalItems_keys]
          exact hv.1
  | .object typeName, t, _, h => by simp [dumps] at h

theorem reads_dumpsAll : ∀ (xs : List Value) {ts : List Str}, WellFormedAll xs →
    List.Forall₂ (fun t d => id d = .ok t) ts (dumpsAll xs) → List.Forall₂ Reads ts (normalAll xs)
  | [], ts, _, h => by
      cases h
      exact .nil
  | x :: xs, ts, hv, h => by
      cases h with
      | cons ht hts => exact .cons (reads_dumps x hv.1 ht) (reads_dumpsAll xs hv.2 hts)

theorem reads_dumpsItems : ∀ (items : List (Str × Value)), WellFormedItems items →
    List.Forall₂ ReadsBack (dumpsItems items) (normalItems items)
  | [], _ => .nil
  | (_, v) :: items, hv =>
      .cons ⟨rfl, fun _ ht => reads_dumps v hv.1 ht⟩ (reads_dumpsItems items hv.2)

end

lemma stops_of_white (h : ∀ c ∈ rest, isWhite c = true) : Stops rest := by
  intro c hc
  have hwhite := h c (List.mem_of_mem_head? hc)
  simp only [isWhite, List.contains_eq_mem, List.mem_cons, List.not_mem_nil, or_false,
    decide_eq_true_eq] at hwhite
  rcases hwhite with rfl | rfl | rfl | rfl <;> decide

/-- **A written text loads as the normal form of its value**, also with white space behind it. -/
theorem loads_dumps (hv : v.WellFormed) (h : dumps v = .ok t)
    (hrest : ∀ c ∈ rest, isWhite c = true) : loads (t ++ rest) = some v.normal := by
  have hread := reads_dumps v hv h
  have hvalue := hread.reads ((t ++ rest).length + 1) rest
    (by rw [List.length_append]; omega) (stops_of_white hrest)
  have hend : skipWhite rest = [] := List.dropWhile_eq_nil_iff.mpr hrest
  rw [loads, hread.skipWhite, hvalue]
  simp [hend]

lemma dumpsItems_eq_map (items : List (Str × Value)) :
    dumpsItems items = items.map fun item => (item.1, dumps item.2) := by
  induction items with
  | nil => rfl
  | cons item items ih => rw [dumpsItems, List.map_cons, ih]

lemma sortItems_dumpsItems (items : List (Str × Value)) :
    sortItems (dumpsItems items) = dumpsItems (sortItems items) := by
  rw [dumpsItems_eq_map, dumpsItems_eq_map, sortItems, sortItems]
  exact (List.map_insertionSort (fun a b : Str × Value => a.1 ≤ b.1)
    (fun a b : Str × Except DumpError Str => a.1 ≤ b.1) _ items fun _ _ _ _ => Iff.rfl).symm

mutual

/-- **The normal form is written as the same text.** -/
theorem dumps_normal : ∀ v : Value, dumps v.normal = dumps v
  | .none | .bool _ | .int _ | .float _ | .str _ | .set _ _ | .object _ => rfl
  | .seq tuple xs => by rw [normal, dumps, dumps, dumpsAll_normal xs]
  | .dict items => by
      rw [normal, dumps, dumps, sortItems_dumpsItems, sortItems_sortItems, ← sortItems_dumpsItems,
        dumpsItems_normal items]

theorem dumpsAll_normal : ∀ xs : List Value, dumpsAll (normalAll xs) = dumpsAll xs
  | [] => rfl
  | x :: xs => by rw [normalAll, dumpsAll, dumpsAll, dumps_normal x, dumpsAll_normal xs]

theorem dumpsItems_normal :
    ∀ items : List (Str × Value), dumpsItems (normalItems items) = dumpsItems items
  | [] => rfl
  | (k, v) :: items => by
      rw [normalItems, dumpsItems, dumpsItems, dumps_normal v, dumpsItems_normal items]

end

/-! ## One line -/

lemma not_control_of_mem_escape {c : ℕ} (h : c ∈ escape n) : 32 ≤ c := by
  have hhex : ∀ k, 32 ≤ hexDigit k := fun k => by
    unfold hexDigit
    split <;> omega
  unfold escape at h
  split_ifs at h <;>
    simp only [List.mem_cons, List.not_mem_nil, or_false] at h
  all_goals first
    | omega
    | rcases h with h | h | h | h | h | h <;> first | omega | exact h ▸ hhex _

lemma not_control_of_mem_quote {c : ℕ} (h : c ∈ quote s) : 32 ≤ c := by
  simp only [quote, List.mem_cons, List.mem_append, List.mem_flatMap, List.not_mem_nil,
    or_false] at h
  rcases h with (rfl | ⟨m, -, hm⟩) | rfl
  · decide
  · exact not_control_of_mem_escape hm
  · decide

lemma not_control_of_isDigit {d : ℕ} (h : isDigit d = true) : 32 ≤ d := by
  simp only [isDigit, Bool.and_eq_true, decide_eq_true_eq] at h
  omega

lemma not_control_of_isNumberChar {d : ℕ} (h : isNumberChar d = true) : 32 ≤ d := by
  simp only [isNumberChar, Bool.or_eq_true, List.contains_eq_mem, List.mem_cons, List.not_mem_nil,
    or_false, decide_eq_true_eq] at h
  rcases h with h | h
  · exact not_control_of_isDigit h
  · omega

lemma mem_joinTexts {close c : ℕ} {ts : List Str} (h : c ∈ joinTexts close ts) :
    c = close ∨ c = 44 ∨ ∃ t ∈ ts, c ∈ t := by
  induction ts with
  | nil => exact .inl (by simpa [joinTexts] using h)
  | cons t ts ih =>
      by_cases hts : ts = []
      · subst hts
        rw [joinTexts, List.mem_append, List.mem_singleton] at h
        rcases h with h | h
        · exact .inr (.inr ⟨t, by simp, h⟩)
        · exact .inl h
      · rw [joinTexts_cons t hts, List.mem_append, List.mem_cons] at h
        rcases h with h | h | h
        · exact .inr (.inr ⟨t, by simp, h⟩)
        · exact .inr (.inl h)
        · rcases ih h with h | h | ⟨u, hu, h⟩
          · exact .inl h
          · exact .inr (.inl h)
          · exact .inr (.inr ⟨u, by simp [hu], h⟩)

/-- The text of a value has no control characters. -/
def NoControl (text : Except DumpError Str) : Prop := ∀ t, text = .ok t → ∀ c ∈ t, 32 ≤ c

lemma exists_of_forall₂_left {α β : Type} {R : α → β → Prop} {as : List α} {bs : List β} {a : α}
    (h : List.Forall₂ R as bs) (ha : a ∈ as) : ∃ b ∈ bs, R a b := by
  induction h with
  | nil => simp at ha
  | cons hab _ ih =>
      rcases List.mem_cons.mp ha with rfl | ha
      · exact ⟨_, by simp, hab⟩
      · obtain ⟨b, hb, h⟩ := ih ha
        exact ⟨b, by simp [hb], h⟩

mutual

/-- **A written text has no control characters**: it is one line. -/
theorem noControl_dumps : ∀ v : Value, v.WellFormed → NoControl (dumps v)
  | .none, _, t, h, c, hc => by
      obtain rfl := Except.ok.inj h
      revert c
      decide
  | .bool b, _, t, h, c, hc => by
      obtain rfl := Except.ok.inj h
      revert c
      cases b <;> decide
  | .int z, _, t, h, c, hc => by
      rw [dumps, intText] at h
      split_ifs at h
      · obtain rfl := Except.ok.inj h
        rcases List.mem_cons.mp hc with rfl | hc
        · decide
        · exact not_control_of_isDigit (isDigit_of_mem_decimal hc)
      · obtain rfl := Except.ok.inj h
        exact not_control_of_isDigit (isDigit_of_mem_decimal hc)
  | .float literal, _, t, h, c, hc => by
      obtain rfl := Except.ok.inj h
      rcases float_cases literal with hv | hv
      · simp only [isFloatToken, Bool.and_eq_true, List.all_eq_true] at hv
        exact not_control_of_isNumberChar (hv.1.1.2 c hc)
      · have hconstants : ∀ k ∈ constants, ∀ c ∈ k.1, 32 ≤ c := by
          have htexts : ∀ k ∈ constants.map Prod.fst, ∀ c ∈ k, 32 ≤ c := by decide
          exact fun k hk => htexts k.1 (List.mem_map_of_mem hk)
        exact hconstants _ hv c hc
  | .str s, _, t, h, c, hc => by
      obtain rfl := Except.ok.inj h
      exact not_control_of_mem_quote hc
  | .seq tuple xs, hv, t, h, c, hc => by
      rw [dumps] at h
      cases hts : (dumpsAll xs).mapM id with
      | error e => simp [hts, Except.map] at h
      | ok ts =>
          obtain rfl : 91 :: joinTexts 93 ts = t := by simpa [hts, Except.map] using h
          rcases List.mem_cons.mp hc with rfl | hc
          · decide
          · rcases mem_joinTexts hc with rfl | rfl | ⟨u, hu, hc⟩
            · decide
            · decide
            · obtain ⟨d, hd, hdu⟩ := exists_of_forall₂_left (forall₂_of_mapM hts) hu
              exact noControl_dumpsAll xs hv d hd u hdu c hc
  | .set _ _, _, t, h, _, _ => by simp [dumps] at h
  | .dict items, hv, t, h, c, hc => by
      rw [dumps] at h
      cases hts : (sortItems (dumpsItems items)).mapM itemText with
      | error e => simp [hts, Except.map] at h
      | ok ts =>
          obtain rfl : 123 :: joinTexts 125 ts = t := by simpa [hts, Except.map] using h
          rcases List.mem_cons.mp hc with rfl | hc
          · decide
          · rcases mem_joinTexts hc with rfl | rfl | ⟨u, hu, hc⟩
            · decide
            · decide
            · obtain ⟨⟨key, text⟩, hd, hdu⟩ := exists_of_forall₂_left (forall₂_of_mapM hts) hu
              cases text with
              | error e => simp [itemText, Except.map] at hdu
              | ok w =>
                  obtain rfl : quote key ++ 58 :: w = u := by
                    simpa [itemText, Except.map] using hdu
                  rw [List.mem_append, List.mem_cons] at hc
                  rcases hc with hc | rfl | hc
                  · exact not_control_of_mem_quote hc
                  · decide
                  · exact noControl_dumpsItems items hv.2 _ ((sortItems_perm _).mem_iff.mp hd) w
                      rfl c hc
  | .object _, _, t, h, _, _ => by simp [dumps] at h

theorem noControl_dumpsAll : ∀ xs : List Value, WellFormedAll xs →
    ∀ text ∈ dumpsAll xs, NoControl text
  | [], _, text, h => by simp [dumpsAll] at h
  | x :: xs, hv, text, h => by
      rcases List.mem_cons.mp h with rfl | h
      · exact noControl_dumps x hv.1
      · exact noControl_dumpsAll xs hv.2 text h

theorem noControl_dumpsItems : ∀ items : List (Str × Value), WellFormedItems items →
    ∀ item ∈ dumpsItems items, NoControl item.2
  | [], _, item, h => by simp [dumpsItems] at h
  | (_, v) :: items, hv, item, h => by
      rcases List.mem_cons.mp h with rfl | h
      · exact noControl_dumps v hv.1
      · exact noControl_dumpsItems items hv.2 item h

end

end Library.Json
