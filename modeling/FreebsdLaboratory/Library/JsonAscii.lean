import FreebsdLaboratory.Library.JsonIndent

/-!
# JSON in ASCII

`json.dumps` leaves `ensure_ascii` on unless it is told otherwise.  What `dumpsIndent` writes has no
control characters but the line feeds between its lines, so that reading it in text mode changes
nothing.
-/

namespace Library.Json

open Library.Unicode Value

variable {n : ℕ} {s t : Str}

/-! ## The characters of a document -/

/-- A line feed, or no control character. -/
def Printed (t : Str) : Prop := ∀ c ∈ t, c = 10 ∨ 32 ≤ c

lemma printed_append {u : Str} : Printed (t ++ u) ↔ Printed t ∧ Printed u := by
  simp only [Printed, List.mem_append, or_imp, forall_and]

lemma printed_cons {c : ℕ} : Printed (c :: t) ↔ (c = 10 ∨ 32 ≤ c) ∧ Printed t :=
  List.forall_mem_cons

lemma printed_nil : Printed [] := by simp [Printed]

lemma hexDigit_ge (n : ℕ) : 32 ≤ hexDigit n := by
  unfold hexDigit
  split <;> omega

lemma printed_unicodeEscape (n : ℕ) : Printed (unicodeEscape n) := by
  simp only [unicodeEscape, printed_cons]
  exact ⟨by omega, by omega, .inr (hexDigit_ge _), .inr (hexDigit_ge _), .inr (hexDigit_ge _),
    .inr (hexDigit_ge _), printed_nil⟩

lemma printed_escapeAscii (n : ℕ) : Printed (escapeAscii n) := by
  unfold escapeAscii
  split_ifs with h1 h2 h3 h4 h5 h6 h7 h8 h9
  case pos => simp [Printed]
  case pos => simp [Printed]
  case pos => simp [Printed]
  case pos => simp [Printed]
  case pos => simp [Printed]
  case pos => simp [Printed]
  case pos => simp [Printed]
  case pos => simp [Printed, h8.1]
  case pos => exact printed_unicodeEscape n
  case neg => exact printed_append.mpr ⟨printed_unicodeEscape _, printed_unicodeEscape _⟩

lemma printed_quoteAscii (s : Str) : Printed (quoteAscii s) := by
  rw [quoteAscii, List.cons_append, printed_cons, printed_append]
  refine ⟨by omega, ?_, by simp [Printed]⟩
  intro c hc
  obtain ⟨m, -, hm⟩ := List.mem_flatMap.mp hc
  exact printed_escapeAscii m c hm

lemma printed_decimal (n : ℕ) : Printed (decimal n) :=
  fun _ hc => .inr (not_control_of_isDigit (isDigit_of_mem_decimal hc))

lemma printed_intText {z : ℤ} (h : intText z = .ok t) : Printed t := by
  rw [intText] at h
  split_ifs at h
  · obtain rfl := Except.ok.inj h
    exact printed_cons.mpr ⟨by omega, printed_decimal _⟩
  · obtain rfl := Except.ok.inj h
    exact printed_decimal _

lemma printed_literal (l : FloatLiteral) : Printed l.1 := by
  intro c hc
  rcases float_cases l with h | h
  · simp only [isFloatToken, Bool.and_eq_true, List.all_eq_true] at h
    exact .inr (not_control_of_isNumberChar (h.1.1.2 c hc))
  · have htexts : ∀ k ∈ constants.map Prod.fst, ∀ c ∈ k, c = 10 ∨ 32 ≤ c := by decide
    exact htexts _ (List.mem_map_of_mem (f := Prod.fst) h) c hc

lemma printed_newline (level : ℕ) : Printed (newline level) := by
  rw [newline, printed_cons]
  refine ⟨.inl rfl, fun c hc => ?_⟩
  obtain ⟨-, rfl⟩ := List.mem_replicate.mp hc
  exact .inr le_rfl

lemma printed_joinLines {level close : ℕ} (hclose : 32 ≤ close) {ts : List Str}
    (h : ∀ t ∈ ts, Printed t) : Printed (joinLines level close ts) := by
  induction ts with
  | nil => exact printed_append.mpr ⟨printed_newline _, by simpa [Printed] using .inr hclose⟩
  | cons t ts ih =>
      rw [List.forall_mem_cons] at h
      rw [joinLines, printed_cons, printed_append, printed_append]
      exact ⟨by omega, printed_newline _, h.1, ih h.2⟩

lemma printed_joinIndented {level close : ℕ} (hclose : 32 ≤ close) {ts : List Str}
    (h : ∀ t ∈ ts, Printed t) : Printed (joinIndented level close ts) := by
  cases ts with
  | nil => simpa [joinIndented, Printed] using .inr hclose
  | cons t ts =>
      rw [List.forall_mem_cons] at h
      rw [joinIndented, printed_append, printed_append]
      exact ⟨printed_newline _, h.1, printed_joinLines hclose h.2⟩

mutual

/-- **A document has line feeds and printing characters.** -/
theorem printed_dumpsIndent : ∀ (v : Value) (level : ℕ) {t : Str}, dumpsIndent level v = .ok t →
    Printed t
  | .none, _, t, h => by
      cases h
      exact fun c hc => .inr (by revert c; decide)
  | .bool b, _, t, h => by
      cases h
      exact fun c hc => .inr (by revert c; cases b <;> decide)
  | .int z, _, t, h => printed_intText h
  | .float literal, _, t, h => by
      cases h
      exact printed_literal literal
  | .str s, _, t, h => by
      cases h
      exact printed_quoteAscii s
  | .set _ _, _, t, h => by cases h
  | .object _, _, t, h => by cases h
  | .seq tuple xs, level, t, h => by
      rw [dumpsIndent] at h
      cases hts : (dumpsIndentAll (level + 1) xs).mapM id with
      | error e => simp [hts, Except.map] at h
      | ok ts =>
          obtain rfl : 91 :: joinIndented level 93 ts = t := by simpa [hts, Except.map] using h
          exact printed_cons.mpr ⟨by omega, printed_joinIndented (by omega)
            (printed_dumpsIndentAll xs (level + 1) hts)⟩
  | .dict items, level, t, h => by
      rw [dumpsIndent] at h
      cases hts : (dumpsIndentItems (level + 1) items).mapM itemLine with
      | error e => simp [hts, Except.map] at h
      | ok ts =>
          obtain rfl : 123 :: joinIndented level 125 ts = t := by simpa [hts, Except.map] using h
          exact printed_cons.mpr ⟨by omega, printed_joinIndented (by omega)
            (printed_dumpsIndentItems items (level + 1) hts)⟩

theorem printed_dumpsIndentAll : ∀ (xs : List Value) (level : ℕ) {ts : List Str},
    (dumpsIndentAll level xs).mapM id = .ok ts → ∀ t ∈ ts, Printed t
  | [], _, ts, h => by
      cases h
      simp
  | x :: xs, level, ts, h => by
      rw [dumpsIndentAll, List.mapM_cons, id] at h
      cases hx : dumpsIndent level x with
      | error e => simp [hx, bind, Except.bind] at h
      | ok t =>
          cases hxs : (dumpsIndentAll level xs).mapM id with
          | error e => simp [hx, hxs, bind, Except.bind] at h
          | ok ts' =>
              obtain rfl : t :: ts' = ts := by
                simpa [hx, hxs, bind, Except.bind, pure, Except.pure] using h
              exact List.forall_mem_cons.mpr ⟨printed_dumpsIndent x level hx,
                printed_dumpsIndentAll xs level hxs⟩

theorem printed_dumpsIndentItems : ∀ (items : List (Str × Value)) (level : ℕ) {ts : List Str},
    (dumpsIndentItems level items).mapM itemLine = .ok ts → ∀ t ∈ ts, Printed t
  | [], _, ts, h => by
      cases h
      simp
  | (k, v) :: items, level, ts, h => by
      rw [dumpsIndentItems, List.mapM_cons, itemLine] at h
      cases hx : dumpsIndent level v with
      | error e => simp [hx, Except.map, bind, Except.bind] at h
      | ok t =>
          cases hxs : (dumpsIndentItems level items).mapM itemLine with
          | error e => simp [hx, hxs, Except.map, bind, Except.bind] at h
          | ok ts' =>
              obtain rfl : (quoteAscii k ++ 58 :: 32 :: t) :: ts' = ts := by
                simpa [hx, hxs, Except.map, bind, Except.bind, pure, Except.pure] using h
              refine List.forall_mem_cons.mpr ⟨?_, printed_dumpsIndentItems items level hxs⟩
              rw [printed_append, printed_cons, printed_cons]
              exact ⟨printed_quoteAscii k, by omega, by omega, printed_dumpsIndent v level hx⟩

end

end Library.Json
