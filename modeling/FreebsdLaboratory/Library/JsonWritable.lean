import FreebsdLaboratory.Library.JsonItems

/-!
# What can be written

`dumps` refuses sets, objects and integers of too many digits, and UTF-8 refuses lone surrogates.  A
value without any of these is `Writable`; **`writable_iff`** says that exactly these have a JSON
text with an encoding.
-/

namespace Library.Json

open Unicode

variable {t s : Str} {v : Value}

/-- Every code point has an encoding. -/
def Encodable (t : Str) : Prop := ∀ c ∈ t, isScalar c = true

lemma encode_eq_some_iff {bs : List ℕ} :
    encode t = some bs ↔ Encodable t ∧ bs = t.flatMap encodeChar := by
  unfold encode Encodable
  rw [← List.all_eq_true]
  split_ifs with h
  · simp [h, eq_comm]
  · simp [h]

lemma encodable_append {u : Str} : Encodable (t ++ u) ↔ Encodable t ∧ Encodable u := by
  simp only [Encodable, List.mem_append, or_imp, forall_and]

lemma encodable_cons {c : ℕ} : Encodable (c :: t) ↔ isScalar c = true ∧ Encodable t :=
  List.forall_mem_cons

lemma encodable_nil : Encodable [] := by simp [Encodable]

lemma encodable_of_lt (h : ∀ c ∈ t, c < 128) : Encodable t := by
  intro c hc
  have := h c hc
  simp only [isScalar, isSurrogate, Bool.and_eq_true, decide_eq_true_eq, Bool.not_eq_true',
    Bool.and_eq_false_iff, decide_eq_false_iff_not]
  omega

/-- Texts without lone surrogates are encodable. -/
lemma encodable_str (s : String) : Encodable (str s) := by
  intro c hc
  obtain ⟨d, -, rfl⟩ := List.mem_map.mp hc
  have hvalid := d.valid
  simp only [isScalar, isSurrogate, Bool.and_eq_true, decide_eq_true_eq, Bool.not_eq_true',
    Bool.and_eq_false_iff, decide_eq_false_iff_not]
  rcases hvalid with h | h
  · have : d.toNat < 0xD800 := h
    omega
  · have : 0xDFFF < d.toNat ∧ d.toNat < 0x110000 := h
    omega

mutual

/-- No set, no object, no overlong integer, and no lone surrogate. -/
def Value.Writable : Value → Prop
  | .int z => (decimal z.natAbs).length ≤ maxIntDigits
  | .str s => Encodable s
  | .seq _ xs => Value.WritableAll xs
  | .dict items => Value.WritableItems items
  | .set _ _ | .object _ => False
  | .none | .bool _ | .float _ => True

def Value.WritableAll : List Value → Prop
  | [] => True
  | x :: xs => x.Writable ∧ Value.WritableAll xs

def Value.WritableItems : List (Str × Value) → Prop
  | [] => True
  | (k, v) :: items => (Encodable k ∧ v.Writable) ∧ Value.WritableItems items

end

/-! ## Parts of texts -/

lemma encodable_escape {n : ℕ} : Encodable (escape n) ↔ isScalar n = true := by
  by_cases hn : n < 128
  · have hescape : ∀ n < 128, ∀ c ∈ escape n, c < 128 := by decide
    have hsingle : Encodable [n] := encodable_of_lt (by simpa using hn)
    simp only [encodable_of_lt (hescape n hn), hsingle n (by simp)]
  · have hplain : escape n = [n] := by
      unfold escape
      split_ifs <;> first | omega | rfl
    simp [hplain, Encodable]

lemma encodable_quote : Encodable (quote s) ↔ Encodable s := by
  have hbody : Encodable (s.flatMap escape) ↔ Encodable s := by
    induction s with
    | nil => simp [Encodable]
    | cons c s ih => rw [List.flatMap_cons, encodable_append, encodable_escape, encodable_cons, ih]
  have hquote : Encodable [34] := encodable_of_lt (by simp)
  rw [quote, List.cons_append, encodable_cons, encodable_append, hbody]
  simp only [hquote, and_true, show isScalar 34 = true by decide, true_and]

lemma encodable_joinTexts {close : ℕ} (hclose : close < 128) {ts : List Str} :
    Encodable (joinTexts close ts) ↔ ∀ u ∈ ts, Encodable u := by
  have hend : Encodable [close] := encodable_of_lt (by simpa using hclose)
  induction ts with
  | nil => simpa [joinTexts] using hend
  | cons u us ih =>
      by_cases hus : us = []
      · subst hus
        rw [joinTexts, encodable_append]
        simp [hend]
      · have hcomma : isScalar 44 = true := by decide
        rw [joinTexts_cons u hus, encodable_append, encodable_cons, List.forall_mem_cons]
        exact and_congr_right fun _ => (and_iff_right hcomma).trans ih

lemma encodable_decimal (n : ℕ) : Encodable (decimal n) := by
  refine encodable_of_lt fun c hc => ?_
  have hdigit := isDigit_of_mem_decimal hc
  simp only [isDigit, Bool.and_eq_true, decide_eq_true_eq] at hdigit
  omega

lemma encodable_literal (l : FloatLiteral) : Encodable l.1 := by
  refine encodable_of_lt fun c hc => ?_
  rcases float_cases l with h | h
  · simp only [isFloatToken, Bool.and_eq_true, List.all_eq_true] at h
    have hnumber := h.1.1.2 c hc
    simp only [isNumberChar, isDigit, Bool.or_eq_true, Bool.and_eq_true, decide_eq_true_eq,
      List.contains_eq_mem, List.mem_cons, List.not_mem_nil, or_false] at hnumber
    omega
  · have htexts : ∀ k ∈ constants.map Prod.fst, ∀ c ∈ k, c < 128 := by decide
    exact htexts _ (List.mem_map_of_mem (f := Prod.fst) h) c hc

/-! ## Values -/

/-- The text is there and has an encoding. -/
def HasText (text : Except DumpError Str) : Prop := ∃ t, text = .ok t ∧ Encodable t

/-- A `mapM` succeeds with encodable texts exactly when it does on every element. -/
lemma mapM_hasText {α : Type} {f : α → Except DumpError Str} {as : List α} :
    (∃ ts, as.mapM f = .ok ts ∧ ∀ t ∈ ts, Encodable t) ↔ ∀ a ∈ as, HasText (f a) := by
  induction as with
  | nil => simp [pure, Except.pure]
  | cons a as ih =>
      rw [List.forall_mem_cons, ← ih, List.mapM_cons]
      constructor
      · rintro ⟨ts, hts, hall⟩
        cases ha : f a with
        | error e => simp [ha, bind, Except.bind] at hts
        | ok t =>
            cases has : as.mapM f with
            | error e => simp [ha, has, bind, Except.bind] at hts
            | ok ts' =>
                obtain rfl : t :: ts' = ts := by
                  simpa [ha, has, bind, Except.bind, pure, Except.pure] using hts
                rw [List.forall_mem_cons] at hall
                exact ⟨⟨t, rfl, hall.1⟩, ts', rfl, hall.2⟩
      · rintro ⟨⟨t, ht, hencodable⟩, ts, hts, hall⟩
        exact ⟨t :: ts, by simp [ht, hts, bind, Except.bind, pure, Except.pure],
          List.forall_mem_cons.mpr ⟨hencodable, hall⟩⟩

lemma hasText_itemText {key : Str} {text : Except DumpError Str} :
    HasText (itemText (key, text)) ↔ Encodable key ∧ HasText text := by
  cases text with
  | error e => simp [HasText, itemText, Except.map]
  | ok t =>
      have hcolon : isScalar 58 = true := by decide
      simp [HasText, itemText, Except.map, encodable_append, encodable_cons,
        encodable_quote, hcolon]

mutual

/-- **Exactly the writable values have a text with an encoding.** -/
theorem writable_iff : ∀ v : Value, HasText (dumps v) ↔ v.Writable
  | .none => by
      simp only [Value.Writable, iff_true]
      exact ⟨_, rfl, encodable_str _⟩
  | .bool b => by
      simp only [Value.Writable, iff_true]
      exact ⟨_, rfl, encodable_str _⟩
  | .int z => by
      rw [dumps, Value.Writable, intText]
      have hencodable := encodable_decimal z.natAbs
      split_ifs with hlen hneg
      · simp [HasText, encodable_cons, hencodable, hlen, show isScalar 45 = true by decide]
      · simp [HasText, hencodable, hlen]
      · simp [HasText, hlen]
  | .float literal => by
      simp only [Value.Writable, iff_true]
      exact ⟨_, rfl, encodable_literal literal⟩
  | .str s => by
      simp [dumps, HasText, Value.Writable, encodable_quote]
  | .seq tuple xs => by
      rw [dumps, Value.Writable, ← writable_iffAll xs, ← mapM_hasText (f := id)]
      cases (dumpsAll xs).mapM id with
      | error e => simp [HasText, Except.map]
      | ok ts =>
          simp [HasText, Except.map, encodable_cons, encodable_joinTexts (show 93 < 128 by decide),
            show isScalar 91 = true by decide]
  | .set _ _ => by simp [dumps, HasText, Value.Writable]
  | .object _ => by simp [dumps, HasText, Value.Writable]
  | .dict items => by
      have hsorted : (∀ d ∈ sortItems (dumpsItems items), HasText (itemText d))
          ↔ ∀ d ∈ dumpsItems items, HasText (itemText d) :=
        forall_congr' fun d => by rw [(sortItems_perm _).mem_iff]
      rw [dumps, Value.Writable, ← writable_iffItems items, ← hsorted, ← mapM_hasText]
      cases (sortItems (dumpsItems items)).mapM itemText with
      | error e => simp [HasText, Except.map]
      | ok ts =>
          simp [HasText, Except.map, encodable_cons, encodable_joinTexts (show 125 < 128 by decide),
            show isScalar 123 = true by decide]

theorem writable_iffAll : ∀ xs : List Value,
    (∀ text ∈ dumpsAll xs, HasText (id text)) ↔ Value.WritableAll xs
  | [] => by simp [dumpsAll, Value.WritableAll]
  | x :: xs => by
      rw [dumpsAll, Value.WritableAll, List.forall_mem_cons, writable_iffAll xs]
      exact and_congr_left fun _ => writable_iff x

theorem writable_iffItems : ∀ items : List (Str × Value),
    (∀ item ∈ dumpsItems items, HasText (itemText item)) ↔ Value.WritableItems items
  | [] => by simp [dumpsItems, Value.WritableItems]
  | (k, v) :: items => by
      rw [dumpsItems, Value.WritableItems, List.forall_mem_cons, writable_iffItems items,
        hasText_itemText, writable_iff v]

end

end Library.Json
