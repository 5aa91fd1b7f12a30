import FreebsdLaboratory.Library.JsonIndent

/-!
# JSON on one line

`dumpsLine` is `json.dumps(value, sort_keys=True, separators=(",", ":"))`: what a protocol of lines
sends.  A readable value is written, its text is one line of printing ASCII, and what the other side
loads is the value with the items of its dictionaries by key (`line_dumpsLine`, `loads_dumpsLine`).
-/

namespace Library.Json

open Library.Unicode Value

variable {n : ℕ} {s t rest : Str} {v : Value}

/-! ## Writing -/

/-- The text of an item. -/
def lineItem (item : Str × Except DumpError Str) : Except DumpError Str :=
  item.2.map fun t => quoteAscii item.1 ++ 58 :: t

mutual

/-- `json.dumps(value, sort_keys=True, separators=(",", ":"))`. -/
def dumpsLine : Value → Except DumpError Str
  | .none => .ok (str "null")
  | .bool b => .ok (str (if b then "true" else "false"))
  | .int z => intText z
  | .float literal => .ok literal.1
  | .str s => .ok (quoteAscii s)
  | .seq _ xs => ((dumpsLineAll xs).mapM id).map fun ts => 91 :: joinTexts 93 ts
  | .set _ _ | .object _ => .error .typeError
  | .dict items =>
      ((sortItems (dumpsLineItems items)).mapM lineItem).map fun ts => 123 :: joinTexts 125 ts

def dumpsLineAll : List Value → List (Except DumpError Str)
  | [] => []
  | x :: xs => dumpsLine x :: dumpsLineAll xs

def dumpsLineItems : List (Str × Value) → List (Str × Except DumpError Str)
  | [] => []
  | (k, v) :: items => (k, dumpsLine v) :: dumpsLineItems items

end

/-! ## Printing ASCII -/

/-- Characters from the blank to the tilde. -/
def Printing (t : Str) : Prop := ∀ c ∈ t, 32 ≤ c ∧ c < 127

lemma printing_append {u : Str} : Printing (t ++ u) ↔ Printing t ∧ Printing u :=
  List.forall_mem_append

lemma printing_cons {c : ℕ} : Printing (c :: t) ↔ (32 ≤ c ∧ c < 127) ∧ Printing t :=
  List.forall_mem_cons

lemma printing_nil : Printing [] := by simp [Printing]

lemma printing_hexDigit (h : n < 16) : 32 ≤ hexDigit n ∧ hexDigit n < 127 := by
  unfold hexDigit
  split <;> omega

lemma printing_unicodeEscape (h : n < 0x10000) : Printing (unicodeEscape n) := by
  simp only [unicodeEscape, printing_cons]
  exact ⟨by omega, by omega, printing_hexDigit (by omega), printing_hexDigit (by omega),
    printing_hexDigit (by omega), printing_hexDigit (by omega), printing_nil⟩

lemma printing_escapeAscii (h : n < 0x110000) : Printing (escapeAscii n) := by
  unfold escapeAscii
  split_ifs with h1 h2 h3 h4 h5 h6 h7 h8 h9
  case pos => simp [Printing]
  case pos => simp [Printing]
  case pos => simp [Printing]
  case pos => simp [Printing]
  case pos => simp [Printing]
  case pos => simp [Printing]
  case pos => simp [Printing]
  case pos => simpa [Printing] using h8
  case pos => exact printing_unicodeEscape h9
  case neg =>
    exact printing_append.mpr ⟨printing_unicodeEscape (by omega), printing_unicodeEscape (by omega)⟩

lemma printing_quoteAscii (hs : ∀ c ∈ s, c < 0x110000) : Printing (quoteAscii s) := by
  rw [quoteAscii, List.cons_append, printing_cons, printing_append]
  refine ⟨by omega, ?_, by simp [Printing]⟩
  intro c hc
  obtain ⟨m, hm, hc⟩ := List.mem_flatMap.mp hc
  exact printing_escapeAscii (hs m hm) c hc

lemma printing_of_isNumberChar {c : ℕ} (h : isNumberChar c = true) : 32 ≤ c ∧ c < 127 := by
  simp only [isNumberChar, isDigit, Bool.or_eq_true, Bool.and_eq_true, decide_eq_true_eq,
    List.contains_eq_mem, List.mem_cons, List.not_mem_nil, or_false] at h
  omega

lemma printing_decimal (n : ℕ) : Printing (decimal n) :=
  fun _ hc => printing_of_isNumberChar (by simp [isNumberChar, isDigit_of_mem_decimal hc])

lemma printing_intText {z : ℤ} (h : intText z = .ok t) : Printing t := by
  rw [intText] at h
  split_ifs at h
  · obtain rfl := Except.ok.inj h
    exact printing_cons.mpr ⟨by omega, printing_decimal _⟩
  · obtain rfl := Except.ok.inj h
    exact printing_decimal _

lemma printing_literal (l : FloatLiteral) : Printing l.1 := by
  intro c hc
  rcases float_cases l with h | h
  · simp only [isFloatToken, Bool.and_eq_true, List.all_eq_true] at h
    exact printing_of_isNumberChar (h.1.1.2 c hc)
  · have htexts : ∀ k ∈ constants.map Prod.fst, ∀ c ∈ k, 32 ≤ c ∧ c < 127 := by decide
    exact htexts _ (List.mem_map_of_mem (f := Prod.fst) h) c hc

lemma printing_joinTexts {close : ℕ} (hclose : 32 ≤ close ∧ close < 127) {ts : List Str}
    (h : ∀ t ∈ ts, Printing t) : Printing (joinTexts close ts) := by
  intro c hc
  rcases mem_joinTexts hc with rfl | rfl | ⟨t, ht, hct⟩
  · exact hclose
  · omega
  · exact h t ht c hct

/-- The bytes of a text in ASCII are its code points, and stand for it. -/
lemma encode_ascii (h : ∀ c ∈ t, c < 128) : encode t = some t := by
  have hscalar : ∀ c ∈ t, isScalar c = true := encodable_of_lt h
  have hchars : ∀ c ∈ t, encodeChar c = [c] := by
    intro c hc
    exact if_pos (h c hc)
  rw [encode, if_pos (List.all_eq_true.mpr hscalar), List.flatMap_congr hchars,
    List.flatMap_singleton']

lemma Printing.lt (h : Printing t) : ∀ c ∈ t, c < 128 := by
  intro c hc
  have hlt := (h c hc).2
  omega

/-! ## The items of a dictionary -/

/-- The text stands for the item of a dictionary. -/
def ReadsOn (t : Str) (item : Str × Value) : Prop :=
  ∃ u, t = quoteAscii item.1 ++ 58 :: u ∧ Unpaired item.1 ∧ Reads u item.2

lemma ReadsOn.skipWhite {item : Str × Value} (h : ReadsOn t item) (rest : Str) :
    skipWhite (t ++ rest) = t ++ rest := by
  obtain ⟨u, rfl, -⟩ := h
  exact skipWhite_of_starts (by decide) _

/-- One item is read up to what stands behind it. -/
lemma readItems_on {item : Str × Value} (h : ReadsOn t item) (fuel : ℕ) (s : Str)
    (before : List (Str × Value)) (hfuel : t.length ≤ fuel) (hs : Stops s) :
    readItems (fuel + 1) before (t ++ s)
      = behindItem fuel (insertItem item.1 item.2 before) s := by
  obtain ⟨key, v⟩ := item
  obtain ⟨u, rfl, hkey, hread⟩ := h
  have htext : quoteAscii key ++ 58 :: u ++ s
      = 34 :: (key.flatMap escapeAscii ++ 34 :: (58 :: (u ++ s))) := by
    simp [quoteAscii]
  have hcolon : skipWhite (58 :: (u ++ s)) = 58 :: (u ++ s) :=
    skipWhite_of_starts (by decide) _
  have hv := hread.reads fuel s
    (by simp only [List.length_append, List.length_cons] at hfuel; omega) hs
  rw [htext, readItems]
  simp only [Option.bind_eq_bind, readString_quoteAscii hkey, Option.bind_some, hcolon,
    hread.skipWhite, hv]
  rfl

/-- The items of a dictionary are read one after the other, and their keys are new. -/
lemma readItems_joined {ts : List Str} {items : List (Str × Value)}
    (h : List.Forall₂ ReadsOn ts items) (hne : ts ≠ []) (fuel : ℕ) (rest : Str)
    (hfuel : (joinTexts 125 ts).length ≤ fuel) (before : List (Str × Value))
    (hnodup : ((before ++ items).map Prod.fst).Nodup) :
    readItems fuel before (joinTexts 125 ts ++ rest) = some (before ++ items, rest) := by
  induction h generalizing fuel before with
  | nil => exact absurd rfl hne
  | @cons t item ts items hitem htail ih =>
      have hkey : item.1 ∉ before.map Prod.fst := by
        rw [List.map_append, List.map_cons, List.nodup_append] at hnodup
        intro hmem
        exact hnodup.2.2 item.1 hmem item.1 (by simp) rfl
      have hbefore : before ++ item :: items = (before ++ [item]) ++ items := by simp
      cases fuel with
      | zero => exact absurd (length_joinTexts_pos _ _ ts) (Nat.not_lt.mpr hfuel)
      | succ fuel =>
          by_cases hts : ts = []
          · subst hts
            obtain rfl := List.forall₂_nil_left_iff.mp htail
            have hlen : t.length ≤ fuel := by
              simp only [joinTexts, List.length_append, List.length_singleton] at hfuel
              omega
            rw [joinTexts, List.append_assoc, List.singleton_append,
              readItems_on hitem fuel _ before hlen (stops_cons (by decide) rest)]
            rw [behindItem_close (skipWhite_of_starts (by decide) _), insertItem_of_notMem hkey]
          · rw [joinTexts_cons t hts] at hfuel ⊢
            have hlen : t.length ≤ fuel ∧ (joinTexts 125 ts).length ≤ fuel := by
              simp only [List.length_append, List.length_cons] at hfuel
              omega
            have hskip : skipWhite (joinTexts 125 ts ++ rest) = joinTexts 125 ts ++ rest := by
              cases htail with
              | nil => exact absurd rfl hts
              | cons hu _ => exact skipWhite_joinTexts hu.skipWhite _ rest
            rw [List.append_assoc, List.cons_append,
              readItems_on hitem fuel _ before hlen.1 (stops_cons (by decide) _)]
            rw [behindItem_comma (skipWhite_of_starts (by decide) _), hskip,
              insertItem_of_notMem hkey, hbefore]
            exact ih hts fuel hlen.2 (before ++ [item]) (by rw [← hbefore]; exact hnodup)

lemma reads_dict_line {ts : List Str} {items : List (Str × Value)}
    (h : List.Forall₂ ReadsOn ts items) (hnodup : (items.map Prod.fst).Nodup) :
    Reads (123 :: joinTexts 125 ts) (.dict items) := by
  refine ⟨⟨123, _, rfl, by decide, by decide⟩, fun fuel rest hfuel _ => ?_⟩
  cases fuel with
  | zero => simp at hfuel
  | succ fuel =>
      cases h with
      | nil =>
          have hskip : skipWhite (125 :: rest) = 125 :: rest := skipWhite_of_starts (by decide) _
          simp only [joinTexts, List.cons_append, List.nil_append, readValue, hskip]
      | @cons t item ts items hitem htail =>
          have hopen : ∃ s, joinTexts 125 (t :: ts) ++ rest = 34 :: s := by
            obtain ⟨u, rfl, -⟩ := hitem
            by_cases hts : ts = []
            · subst hts
              exact ⟨_, rfl⟩
            · rw [joinTexts_cons _ hts]
              exact ⟨_, rfl⟩
          have hitems := readItems_joined (.cons hitem htail) (by simp) fuel rest
            (by simpa using hfuel) [] (by simpa using hnodup)
          obtain ⟨s, hs⟩ := hopen
          have hskip : skipWhite (34 :: s) = 34 :: s := skipWhite_of_starts (by decide) _
          rw [hs] at hitems
          rw [List.cons_append, hs, readValue]
          dsimp only
          rw [hskip, hitems]
          rfl

/-! ## The round trip -/

/-- What a readable value is written as: one line, and the other side reads it. -/
structure Line (t : Str) (v : Value) : Prop where
  printing : Printing t
  reads : Reads t v

/-- An item of a dictionary that was written, next to the item as it reads back. -/
def LineItem (written : Str × Except DumpError Str) (item : Str × Value) : Prop :=
  written.1 = item.1 ∧ Unpaired item.1 ∧ ∃ t, written.2 = .ok t ∧ Line t item.2

/-- Items that are all written have one text each. -/
lemma mapM_lineItem {written : List (Str × Except DumpError Str)} {items : List (Str × Value)}
    (h : List.Forall₂ LineItem written items) :
    ∃ ts, written.mapM lineItem = .ok ts ∧ List.Forall₂ ReadsOn ts items
      ∧ ∀ t ∈ ts, Printing t := by
  induction h with
  | nil => exact ⟨[], rfl, .nil, by simp⟩
  | @cons w item written items hitem _ ih =>
      obtain ⟨ts, hts, hreads, hprinting⟩ := ih
      obtain ⟨key, text⟩ := w
      obtain ⟨rfl, hkey, t, rfl, hline⟩ := hitem
      refine ⟨(quoteAscii item.1 ++ 58 :: t) :: ts, ?_, .cons ⟨t, rfl, hkey, hline.reads⟩ hreads,
        List.forall_mem_cons.mpr ⟨?_, hprinting⟩⟩
      · rw [List.mapM_cons, hts]
        rfl
      · rw [printing_append, printing_cons]
        exact ⟨printing_quoteAscii hkey.lt, by omega, hline.printing⟩

/-- A text without brackets or quotes. -/
lemma line_constant {c : Str × Value} (h : c ∈ constants) : Line c.1 c.2 := by
  refine ⟨?_, reads_constant h⟩
  have htexts : ∀ k ∈ constants.map Prod.fst, ∀ c ∈ k, 32 ≤ c ∧ c < 127 := by decide
  exact htexts _ (List.mem_map_of_mem (f := Prod.fst) h)

mutual

/-- **A readable value is written on one line and reads back as its normal form.** -/
theorem line_dumpsLine : ∀ v : Value, v.Readable → ∃ t, dumpsLine v = .ok t ∧ Line t v.normal
  | .none, _ => ⟨_, rfl, line_constant (c := (str "null", .none)) (by simp [constants])⟩
  | .bool false, _ =>
      ⟨_, rfl, line_constant (c := (str "false", .bool false)) (by simp [constants])⟩
  | .bool true, _ => ⟨_, rfl, line_constant (c := (str "true", .bool true)) (by simp [constants])⟩
  | .int z, h => by
      obtain ⟨t, ht⟩ : ∃ t, intText z = .ok t := ⟨_, if_pos h⟩
      exact ⟨t, ht, printing_intText ht, reads_int ht⟩
  | .float literal, _ => ⟨_, rfl, printing_literal literal, reads_float literal⟩
  | .str s, h => ⟨_, rfl, printing_quoteAscii h.lt, reads_quoteAscii h⟩
  | .seq tuple xs, h => by
      obtain ⟨ts, hts, hlines⟩ := lines_dumpsLineAll xs h.2
      refine ⟨91 :: joinTexts 93 ts, by rw [dumpsLine, hts]; rfl, ?_, ?_⟩
      · exact printing_cons.mpr ⟨by omega, printing_joinTexts (by omega) hlines.1⟩
      · exact reads_seq hlines.2
  | .dict items, h => by
      have hsorted : List.Forall₂ LineItem (sortItems (dumpsLineItems items))
          (sortItems (normalItems items)) :=
        forall₂_sortItems (fun _ _ hab => hab.1) (lines_dumpsLineItems items h.2)
      obtain ⟨ts, hts, hreads, hprinting⟩ := mapM_lineItem hsorted
      refine ⟨123 :: joinTexts 125 ts, by rw [dumpsLine, hts]; rfl, ?_, ?_⟩
      · exact printing_cons.mpr ⟨by omega, printing_joinTexts (by omega) hprinting⟩
      · refine reads_dict_line hreads ?_
        rw [((sortItems_perm _).map Prod.fst).nodup_iff, normalItems_keys]
        exact h.1

theorem lines_dumpsLineAll : ∀ xs : List Value, ReadableAll xs →
    ∃ ts, (dumpsLineAll xs).mapM id = .ok ts ∧ (∀ t ∈ ts, Printing t)
      ∧ List.Forall₂ Reads ts (normalAll xs)
  | [], _ => ⟨[], rfl, by simp, .nil⟩
  | x :: xs, h => by
      obtain ⟨t, ht, hline⟩ := line_dumpsLine x h.1
      obtain ⟨ts, hts, hlines⟩ := lines_dumpsLineAll xs h.2
      refine ⟨t :: ts, ?_, List.forall_mem_cons.mpr ⟨hline.printing, hlines.1⟩,
        .cons hline.reads hlines.2⟩
      rw [dumpsLineAll, List.mapM_cons, id, ht, hts]
      rfl

theorem lines_dumpsLineItems : ∀ items : List (Str × Value), ReadableItems items →
    List.Forall₂ LineItem (dumpsLineItems items) (normalItems items)
  | [], _ => .nil
  | (_, v) :: items, h =>
      .cons ⟨rfl, h.1, line_dumpsLine v h.2.1⟩ (lines_dumpsLineItems items h.2.2)

end

/-- **A readable value loads from its line as its normal form**, also with white space behind it. -/
theorem loads_dumpsLine (hv : v.Readable) :
    ∃ t, dumpsLine v = .ok t ∧ Printing t
      ∧ ∀ rest, (∀ c ∈ rest, isWhite c = true) → loads (t ++ rest) = some v.normal := by
  obtain ⟨t, ht, hline⟩ := line_dumpsLine v hv
  refine ⟨t, ht, hline.printing, fun rest hrest => ?_⟩
  have hvalue := hline.reads.reads ((t ++ rest).length + 1) rest
    (by rw [List.length_append]; omega) (stops_of_white hrest)
  have hend : skipWhite rest = [] := List.dropWhile_eq_nil_iff.mpr hrest
  rw [loads, hline.reads.skipWhite, hvalue]
  simp [hend]

end Library.Json
