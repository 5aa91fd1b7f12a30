import FreebsdLaboratory.Model.Telemetry
import Mathlib.Tactic

/-!
# Filtered events

An event is sent with its credentials filtered.  A text with places for secrets is a list of
segments, each of which ends in front of a secret, and a tail.  The scan takes a secret away exactly
where a match of the expression reaches from the segment into the secret (`Covered`); behind the
secret it starts anew.  So what is sent does not depend on the secrets exactly if that is so at each
place.

Which places these are can be read off the text in front (`Guarded`): those directly behind a
separator, and those behind white space and an odd number of words in a row that end with a key and
its separator, as each such word hides the next one (`covered_iff`).  So a place behind
`Authorization: Bearer ` is none of them, nor is one behind `token=password: `.
-/

namespace FreebsdLaboratory

open Library.Unicode

namespace Telemetry

variable {s t v w head rest pre post key : Str} {c x : ℕ}

/-! ## Matches -/

/-- The first two groups of a match: a key, a separator and blanks. -/
def IsHead (head : Str) : Prop :=
  ∃ key sep blanks, head = key ++ sep :: blanks ∧ key.map foldCase ∈ inlineKeys
    ∧ (sep = 61 ∨ sep = 58) ∧ ∀ c ∈ blanks, isBlank c = true

/-- A secret: neither white space nor a comma nor a semicolon is in it. -/
def IsSecret (v : Str) : Prop := v ≠ [] ∧ ∀ c ∈ v, isValueChar c = true

/-- A secret in front ends here. -/
def EndsSecret (rest : Str) : Prop := ∀ c ∈ rest.head?, isValueChar c = false

lemma not_blank_of_isValueChar (h : isValueChar c = true) : isBlank c = false := by
  simp only [isValueChar, Bool.and_eq_true, Bool.not_eq_true'] at h
  exact h.1.1

lemma isValueChar_of_isBlank (h : isBlank c = true) : isValueChar c = false := by
  simp [isValueChar, h]

/-- Characters of keys are no separators, and values can have them. -/
lemma key_char (hkey : key.map foldCase ∈ inlineKeys) (hc : c ∈ key) :
    c ≠ 61 ∧ c ≠ 58 ∧ isValueChar c = true := by
  have hletters : ∀ k ∈ inlineKeys, ∀ d ∈ k, d = 45 ∨ d = 95 ∨ (97 ≤ d ∧ d ≤ 122) := by decide
  have hfold := hletters _ hkey (foldCase c) (List.mem_map_of_mem hc)
  have hcode : c = 45 ∨ c = 95 ∨ (65 ≤ c ∧ c ≤ 90) ∨ (97 ≤ c ∧ c ≤ 122) ∨ c = 304 ∨ c = 305
      ∨ c = 8490 ∨ c = 383 := by
    unfold foldCase at hfold
    split_ifs at hfold <;> omega
  refine ⟨by omega, by omega, ?_⟩
  have hblank : isBlank c = false := by
    rw [isBlank, Bool.eq_false_iff]
    intro hmem
    rw [List.contains_iff_mem] at hmem
    simp only [List.mem_cons, List.not_mem_nil, or_false] at hmem
    omega
  have hcomma : c ≠ 44 := by omega
  have hsemicolon : c ≠ 59 := by omega
  simp [isValueChar, hblank, hcomma, hsemicolon]

/-- No key is the beginning of another. -/
lemma key_unique {k k' : Str} (hk : k ∈ inlineKeys) (hk' : k' ∈ inlineKeys) (h : k <+: t)
    (h' : k' <+: t) : k' = k := by
  have hkeys : ∀ k ∈ inlineKeys, ∀ k' ∈ inlineKeys, k.isPrefixOf k' = true → k' = k := by decide
  rcases List.prefix_or_prefix_of_prefix h h' with hprefix | hprefix
  · exact hkeys k hk k' hk' (List.isPrefixOf_iff_prefix.mpr hprefix)
  · exact (hkeys k' hk' k hk (List.isPrefixOf_iff_prefix.mpr hprefix)).symm

lemma inlineKey_append (hkey : key.map foldCase ∈ inlineKeys) (rest : Str) :
    inlineKey (key ++ rest) = some (key.map foldCase) := by
  have hbegins : (key.map foldCase).isPrefixOf ((key ++ rest).map foldCase) = true := by
    rw [List.isPrefixOf_iff_prefix, List.map_append]
    exact List.prefix_append _ _
  cases hfind : inlineKey (key ++ rest) with
  | none =>
      rw [inlineKey, List.find?_eq_none] at hfind
      exact absurd hbegins (hfind _ hkey)
  | some k =>
      rw [inlineKey] at hfind
      have hmem := List.mem_of_find?_eq_some hfind
      have hk := List.find?_some hfind
      rw [List.isPrefixOf_iff_prefix] at hk hbegins
      rw [key_unique hkey hmem hbegins hk]

/-- A text is taken apart where a predicate fails. -/
lemma span_append {p : ℕ → Bool} {a b : Str} (ha : ∀ x ∈ a, p x = true)
    (hb : ∀ x ∈ b.head?, p x = false) : (a ++ b).takeWhile p = a ∧ (a ++ b).dropWhile p = b := by
  induction a with
  | nil =>
      cases b with
      | nil => simp
      | cons x b =>
          have hx : p x = false := hb x (by simp)
          simp [hx]
  | cons x a ih =>
      rw [List.forall_mem_cons] at ha
      obtain ⟨htake, hdrop⟩ := ih ha.2
      simp [ha.1, htake, hdrop]

lemma endsSecret_dropWhile (s : Str) : EndsSecret (s.dropWhile isValueChar) := by
  intro c hc
  induction s with
  | nil => simp at hc
  | cons x s ih =>
      by_cases hx : isValueChar x = true
      · rw [List.dropWhile_cons_of_pos hx] at hc
        exact ih hc
      · rw [List.dropWhile_cons_of_neg hx] at hc
        simp only [List.head?_cons, Option.mem_def, Option.some.injEq] at hc
        rw [← hc]
        simpa using hx

/-- **A match of the expression**: a head, a secret, and a rest that ends the secret. -/
theorem inlineMatch_iff : inlineMatch s = some (head, rest)
    ↔ ∃ v, s = head ++ (v ++ rest) ∧ IsHead head ∧ IsSecret v ∧ EndsSecret rest := by
  constructor
  · intro h
    unfold inlineMatch at h
    cases hkey : inlineKey s with
    | none => simp [hkey] at h
    | some k =>
        simp only [hkey] at h
        have hmem := List.mem_of_find?_eq_some hkey
        have hbegins := List.find?_some hkey
        rw [List.isPrefixOf_iff_prefix] at hbegins
        have hfold : (s.take k.length).map foldCase = k := by
          rw [List.map_take]
          exact (List.prefix_iff_eq_take.mp hbegins).symm
        cases hdrop : s.drop k.length with
        | nil => simp [hdrop] at h
        | cons sep behind =>
            simp only [hdrop] at h
            split_ifs at h with hsep hvalue
            obtain ⟨rfl, rfl⟩ := Prod.mk.inj (Option.some.inj h)
            refine ⟨(behind.dropWhile isBlank).takeWhile isValueChar, ?_, ?_, ⟨hvalue, ?_⟩,
              endsSecret_dropWhile _⟩
            · rw [List.takeWhile_append_dropWhile, List.append_assoc, List.cons_append,
                List.takeWhile_append_dropWhile, ← hdrop, List.take_append_drop]
            · exact ⟨_, sep, _, rfl, by rw [hfold]; exact hmem, hsep,
                fun c hc => List.mem_takeWhile_imp hc⟩
            · exact fun c hc => List.mem_takeWhile_imp hc
  · rintro ⟨v, rfl, ⟨key, sep, blanks, rfl, hkey, hsep, hblanks⟩, ⟨hne, hvalue⟩, hends⟩
    have hfirst : ∀ x ∈ (v ++ rest).head?, isBlank x = false := by
      intro x hx
      cases v with
      | nil => exact absurd rfl hne
      | cons y v =>
          simp only [List.cons_append, List.head?_cons, Option.mem_def, Option.some.injEq] at hx
          rw [← hx]
          exact not_blank_of_isValueChar (hvalue y (by simp))
    obtain ⟨htake, hdrop⟩ := span_append hblanks hfirst
    obtain ⟨htake', hdrop'⟩ := span_append hvalue hends
    have hassoc : key ++ sep :: blanks ++ (v ++ rest)
      = key ++ (sep :: (blanks ++ (v ++ rest))) := by
      simp
    unfold inlineMatch
    rw [hassoc, inlineKey_append hkey]
    simp only [List.length_map, List.drop_left', List.take_left', hsep, if_true,
      htake, hdrop, htake', hdrop', hne, if_false]

/-! ## The scan -/

lemma length_of_match (h : inlineMatch s = some (head, rest)) : rest.length < s.length := by
  obtain ⟨v, rfl, -, hv, -⟩ := inlineMatch_iff.mp h
  have hpos := List.length_pos_of_ne_nil hv.1
  simp only [List.length_append]
  omega

lemma pieces_of_le {n : ℕ} (h : s.length ≤ n) : pieces n s = scan s := by
  have hall : ∀ n (s : Str), s.length ≤ n → ∀ m, s.length ≤ m → pieces n s = pieces m s := by
    intro n
    induction n with
    | zero =>
        intro s hs m _
        rw [List.length_eq_zero_iff.mp (Nat.le_zero.mp hs)]
        cases m <;> rfl
    | succ n ih =>
        intro s hs m hm
        cases s with
        | nil => cases m <;> rfl
        | cons c s =>
            cases m with
            | zero => simp at hm
            | succ m =>
                rw [pieces, pieces]
                simp only [List.length_cons] at hs hm
                cases hmatch : inlineMatch (c :: s) with
                | none => rw [ih s (by omega) m (by omega)]
                | some found =>
                    obtain ⟨head, rest⟩ := found
                    have hrest := length_of_match hmatch
                    simp only [List.length_cons] at hrest
                    dsimp only
                    rw [ih rest (by omega) m (by omega)]
  exact hall n s h _ le_rfl

lemma inlineMatch_nil : inlineMatch [] = none := by decide

lemma scan_of_match (h : inlineMatch s = some (head, rest)) :
    scan s = .credential head :: scan rest := by
  cases s with
  | nil =>
      rw [inlineMatch_nil] at h
      cases h
  | cons c s =>
      have hrest := length_of_match h
      rw [scan, List.length_cons, pieces, h]
      dsimp only
      rw [pieces_of_le (by simpa using hrest)]

lemma scan_of_none (h : inlineMatch (c :: s) = none) : scan (c :: s) = .char c :: scan s := by
  rw [scan, List.length_cons, pieces, h]
  rfl

/-- No match begins with white space or punctuation. -/
lemma inlineMatch_of_not_value (hc : isValueChar c = false) (s : Str) :
    inlineMatch (c :: s) = none := by
  cases hmatch : inlineMatch (c :: s) with
  | none => rfl
  | some found =>
      obtain ⟨head, others⟩ := found
      obtain ⟨w, heq, ⟨key, sep, blanks, rfl, hkey, -⟩, -⟩ := inlineMatch_iff.mp hmatch
      have hne : ∀ k ∈ inlineKeys, k ≠ [] := by decide
      cases key with
      | nil => exact absurd rfl (hne _ hkey)
      | cons a key =>
          simp only [List.cons_append, List.cons.injEq] at heq
          have ha := (key_char hkey (show a ∈ a :: key by simp)).2.2
          rw [← heq.1, hc] at ha
          cases ha

/-- Induction along the scan. -/
lemma scan_induction {P : Str → Prop} (nil : P [])
    (hit : ∀ s head rest, inlineMatch s = some (head, rest) → P rest → P s)
    (miss : ∀ c s, inlineMatch (c :: s) = none → P s → P (c :: s)) (s : Str) : P s := by
  induction hn : s.length using Nat.strong_induction_on generalizing s with
  | _ n ih =>
      cases s with
      | nil => exact nil
      | cons c s =>
          cases hmatch : inlineMatch (c :: s) with
          | none => exact miss c s hmatch (ih s.length (by simp at hn; omega) s rfl)
          | some found =>
              obtain ⟨head, rest⟩ := found
              have hrest := length_of_match hmatch
              exact hit _ head rest hmatch (ih rest.length (by omega) rest rfl)

/-! ## A place for a secret -/

/-- The text ends with a separator, white space or punctuation, if it is not empty. -/
def EndsBetween (pre : Str) : Prop := ∀ c ∈ pre.getLast?, c = 61 ∨ c = 58 ∨ isValueChar c = false

/-- Of a text and a secret behind it, the last match of the scan takes the secret as its value. -/
def Covered (pre : Str) : Prop := ∃ head, (scan (pre ++ [120])).getLast? = some (.credential head)

lemma isValueChar_placeholder : isValueChar 120 = true := by decide

/-- What stands in a head behind a separator or white space is white space. -/
lemma blank_of_head (hhead : IsHead (pre ++ t)) (hne : pre ≠ []) (hpre : EndsBetween pre)
    (hc : c ∈ t) :
    isBlank c = true := by
  obtain ⟨key, sep, blanks, heq, hkey, -, hblanks⟩ := hhead
  obtain ⟨init, last, rfl⟩ := List.eq_nil_or_concat pre |>.resolve_left hne
  have hlast : last = 61 ∨ last = 58 ∨ isValueChar last = false := hpre last (by simp)
  have hnot : last ∉ key := by
    intro hmem
    obtain ⟨hequals, hcolon, hvalue⟩ := key_char hkey hmem
    rcases hlast with h | h | h
    · exact hequals h
    · exact hcolon h
    · rw [hvalue] at h
      cases h
  rcases List.append_eq_append_iff.mp heq with ⟨more, hkey', -⟩ | ⟨more, hpre', hmore⟩
  · exact absurd (by rw [hkey']; simp) hnot
  · cases more with
    | nil =>
        rw [List.append_nil] at hpre'
        exact absurd (by rw [← hpre']; simp) hnot
    | cons first more =>
        rw [List.cons_append, List.cons.injEq] at hmore
        exact hblanks c (by rw [hmore.2]; simp [hc])

/-- A head with a value behind it is a match. -/
lemma match_of_head (hhead : IsHead head) (hx : isValueChar x = true) (t : Str) :
    inlineMatch (head ++ x :: t) = some (head, (x :: t).dropWhile isValueChar) := by
  refine inlineMatch_iff.mpr ⟨(x :: t).takeWhile isValueChar, ?_, hhead, ⟨?_, ?_⟩, ?_⟩
  · rw [List.takeWhile_append_dropWhile]
  · rw [List.takeWhile_cons_of_pos hx]
    simp
  · exact fun c hc => List.mem_takeWhile_imp hc
  · exact endsSecret_dropWhile _

/-- **Where no match begins with a placeholder, none begins with a secret.** -/
lemma match_none_of_place (hne : pre ≠ []) (hpre : EndsBetween pre)
    (hnone : inlineMatch (pre ++ [120]) = none) (hx : isValueChar x = true) (t : Str) :
    inlineMatch (pre ++ x :: t) = none := by
  cases hmatch : inlineMatch (pre ++ x :: t) with
  | none => rfl
  | some found =>
      obtain ⟨head, rest⟩ := found
      obtain ⟨w, heq, hhead, hw, -⟩ := inlineMatch_iff.mp hmatch
      rcases List.append_eq_append_iff.mp heq with ⟨more, rfl, hmore⟩ | ⟨more, rfl, hmore⟩
      · cases more with
        | nil =>
            rw [List.append_nil] at hhead
            rw [match_of_head hhead isValueChar_placeholder] at hnone
            cases hnone
        | cons first more =>
            rw [List.cons_append, List.cons.injEq] at hmore
            have hblank := blank_of_head hhead hne hpre (List.mem_cons_self (a := first))
            rw [← hmore.1, not_blank_of_isValueChar hx] at hblank
            cases hblank
      · cases more with
        | nil =>
            rw [List.append_nil, match_of_head hhead isValueChar_placeholder] at hnone
            cases hnone
        | cons first more =>
            obtain ⟨y, w, rfl⟩ := List.exists_cons_of_ne_nil hw.1
            rw [List.cons_append, List.cons_append, List.cons.injEq] at hmore
            have hfirst : isValueChar first = true := by
              rw [← hmore.1]
              exact hw.2 y (by simp)
            rw [List.append_assoc, List.cons_append, match_of_head hhead hfirst] at hnone
            cases hnone

lemma scan_ne_nil (hne : s ≠ []) : scan s ≠ [] := by
  obtain ⟨c, s, rfl⟩ := List.exists_cons_of_ne_nil hne
  cases hmatch : inlineMatch (c :: s) with
  | none => simp [scan_of_none hmatch]
  | some found => simp [scan_of_match hmatch]

lemma getLast?_cons_scan (piece : Piece) (hne : s ≠ []) :
    (piece :: scan s).getLast? = (scan s).getLast? := by
  obtain ⟨first, others, h⟩ := List.exists_cons_of_ne_nil (scan_ne_nil hne)
  rw [h, List.getLast?_cons_cons]

lemma EndsBetween.of_append {a b : Str} (h : EndsBetween (a ++ b)) (hne : b ≠ []) :
    EndsBetween b := by
  intro c hc
  refine h c ?_
  rw [List.getLast?_append_of_ne_nil _ hne]
  exact hc

/-- What the scan makes of a text with a place for a secret at its end. -/
def Leaves (pre : Str) : Prop :=
  (Covered pre ∧ ∃ out, ∀ v post, IsSecret v → EndsSecret post →
    scan (pre ++ (v ++ post)) = out ++ scan post)
  ∨ (¬ Covered pre ∧ ∃ out, ∀ x t, isValueChar x = true →
    scan (pre ++ x :: t) = out ++ scan (x :: t))

/-- One more piece in front. -/
lemma Leaves.cons {pre' : Str} (h : Leaves pre') (piece : Piece)
    (hscan : ∀ x t, isValueChar x = true → scan (pre ++ x :: t) = piece :: scan (pre' ++ x :: t)) :
    Leaves pre := by
  have hcovered : Covered pre ↔ Covered pre' := by
    unfold Covered
    rw [hscan 120 [] isValueChar_placeholder, getLast?_cons_scan piece (by simp)]
  rcases h with ⟨hpre', out, hout⟩ | ⟨hpre', out, hout⟩
  · refine .inl ⟨hcovered.mpr hpre', piece :: out, fun v post hv hpost => ?_⟩
    obtain ⟨x, v, rfl⟩ := List.exists_cons_of_ne_nil hv.1
    have hx : isValueChar x = true := hv.2 x (by simp)
    rw [List.cons_append, hscan x _ hx, ← List.cons_append, hout _ _ hv hpost]
    rfl
  · refine .inr ⟨mt hcovered.mp hpre', piece :: out, fun x t hx => ?_⟩
    rw [hscan x _ hx, hout x t hx]
    rfl

/-- A single value character in front of the end of a secret begins no match. -/
lemma inlineMatch_single (x : ℕ) (hpost : EndsSecret post) :
    inlineMatch (x :: post) = none := by
  cases hmatch : inlineMatch (x :: post) with
  | none => rfl
  | some found =>
      obtain ⟨head, rest⟩ := found
      obtain ⟨w, heq, ⟨key, sep, blanks, rfl, hkey, -⟩, -⟩ := inlineMatch_iff.mp hmatch
      have hlong : ∀ k ∈ inlineKeys, 2 ≤ k.length := by decide
      have hlength := hlong _ hkey
      rw [List.length_map] at hlength
      match key, hkey, heq, hlength with
      | a :: b :: key, hkey, heq, _ =>
          simp only [List.cons_append, List.cons.injEq] at heq
          have hb := (key_char hkey (show b ∈ a :: b :: key by simp)).2.2
          rw [hpost b (by rw [heq.2]; simp)] at hb
          cases hb

/-- **The scan at a place for a secret**: the secret disappears in a match, or it is left as it
is. -/
theorem leaves (hpre : EndsBetween pre) : Leaves pre := by
  induction hn : pre.length using Nat.strong_induction_on generalizing pre with
  | _ n ih =>
      cases pre with
      | nil =>
          refine .inr ⟨?_, [], fun x t hx => rfl⟩
          rintro ⟨head, h⟩
          have hscan : scan ([] ++ [120]) = [.char 120] := by decide
          rw [hscan] at h
          cases h
      | cons c p =>
          have hne : c :: p ≠ [] := by simp
          cases hmatch : inlineMatch (c :: p ++ [120]) with
          | none =>
              have hp : EndsBetween p := by
                by_cases hp : p = []
                · simp [hp, EndsBetween]
                · exact EndsBetween.of_append (a := [c]) hpre hp
              refine Leaves.cons (ih p.length (by simp at hn; omega) hp rfl) (.char c) ?_
              intro x t hx
              exact scan_of_none (match_none_of_place hne hpre hmatch hx t)
          | some found =>
              obtain ⟨head, rest⟩ := found
              obtain ⟨w, heq, hhead, hw, hrest⟩ := inlineMatch_iff.mp hmatch
              rcases List.eq_nil_or_concat rest with rfl | ⟨rest, y, rfl⟩
              · -- the match takes the placeholder
                obtain ⟨w', z, rfl⟩ := List.eq_nil_or_concat w |>.resolve_left hw.1
                have hsplit : c :: p = head ++ w' ∧ [120] = [z] := by
                  refine List.append_inj' ?_ rfl
                  simpa using heq
                refine .inl ⟨⟨head, ?_⟩, [.credential head], fun v post hv hpost => ?_⟩
                · rw [scan_of_match hmatch]
                  rfl
                · refine scan_of_match (inlineMatch_iff.mpr ⟨w' ++ v, ?_, hhead, ⟨?_, ?_⟩, hpost⟩)
                  · rw [hsplit.1]
                    simp
                  · simp [hv.1]
                  · intro d hd
                    rcases List.mem_append.mp hd with hd | hd
                    · exact hw.2 d (by simp [hd])
                    · exact hv.2 d hd
              · -- the match ends in front of the place
                have hsplit : c :: p = head ++ (w ++ rest) ∧ [120] = [y] := by
                  refine List.append_inj' ?_ rfl
                  simpa using heq
                have hy : y = 120 := (List.cons.inj hsplit.2).1.symm
                have hnonempty : rest ≠ [] := by
                  rintro rfl
                  have hvalue := hrest y (by simp)
                  rw [hy, isValueChar_placeholder] at hvalue
                  cases hvalue
                have hends : ∀ t, EndsSecret (rest ++ t) := by
                  intro t d hd
                  obtain ⟨first, others, rfl⟩ := List.exists_cons_of_ne_nil hnonempty
                  exact hrest d (by simpa using hd)
                have hlength : rest.length < n := by
                  have hlengths := congrArg List.length hsplit.1
                  have hpos := List.length_pos_of_ne_nil hw.1
                  simp only [List.length_append] at hlengths
                  omega
                have hbetween : EndsBetween rest := by
                  rw [hsplit.1, ← List.append_assoc] at hpre
                  exact hpre.of_append hnonempty
                refine Leaves.cons (ih rest.length hlength hbetween rfl) (.credential head) ?_
                intro x t hx
                refine scan_of_match (inlineMatch_iff.mpr ⟨w, ?_, hhead, hw, hends _⟩)
                rw [hsplit.1]
                simp

/-- **Behind a key and its separator a secret is covered**, whatever the text in front. -/
theorem covered_of_separator {sep : ℕ} (front : Str) (hkey : key.map foldCase ∈ inlineKeys)
    (hsep : sep = 61 ∨ sep = 58) : Covered (front ++ (key ++ [sep])) := by
  have hhead : IsHead (key ++ [sep]) := ⟨key, sep, [], rfl, hkey, hsep, by simp⟩
  have hvalue : ∀ c ∈ key ++ [sep, 120], isValueChar c = true := by
    intro c hc
    rcases List.mem_append.mp hc with hc | hc
    · exact (key_char hkey hc).2.2
    · simp only [List.mem_cons, List.not_mem_nil, or_false] at hc
      rcases hsep with rfl | rfl <;> rcases hc with rfl | rfl <;> decide
  have hlast : ∀ front : Str, ∃ head,
      (scan (front ++ (key ++ [sep, 120]))).getLast? = some (.credential head) := by
    intro front
    induction hn : front.length using Nat.strong_induction_on generalizing front with
    | _ n ih =>
        cases hmatch : inlineMatch (front ++ (key ++ [sep, 120])) with
        | none =>
            cases front with
            | nil =>
                have hfound := match_of_head hhead isValueChar_placeholder []
                rw [List.append_assoc, List.singleton_append] at hfound
                rw [List.nil_append, hfound] at hmatch
                cases hmatch
            | cons c front =>
                obtain ⟨head, hrest⟩ := ih front.length (by simp at hn; omega) front rfl
                have hscan : scan (c :: front ++ (key ++ [sep, 120]))
                    = .char c :: scan (front ++ (key ++ [sep, 120])) := scan_of_none hmatch
                refine ⟨head, ?_⟩
                rw [hscan, getLast?_cons_scan _ (by simp)]
                exact hrest
        | some found =>
            obtain ⟨head, rest⟩ := found
            obtain ⟨w, heq, -, hw, hends⟩ := inlineMatch_iff.mp hmatch
            rw [scan_of_match hmatch]
            by_cases hrest : rest = []
            · rw [hrest]
              exact ⟨head, rfl⟩
            · -- the match ends at white space or punctuation, so in front of the key
              have hsplit : front ++ (key ++ [sep, 120]) = (head ++ w) ++ rest := by
                rw [heq, List.append_assoc]
              rcases List.append_eq_append_iff.mp
                hsplit with ⟨more, -, hmore⟩ | ⟨more, hfront, hmore⟩
              · obtain ⟨first, others, rfl⟩ := List.exists_cons_of_ne_nil hrest
                have hfirst := hvalue first (by rw [hmore]; simp)
                rw [hends first rfl] at hfirst
                cases hfirst
              · have hpos := List.length_pos_of_ne_nil hw.1
                have hlength : more.length < n := by
                  rw [← hn, hfront]
                  simp only [List.length_append]
                  omega
                obtain ⟨inner, hinner⟩ := ih more.length hlength more rfl
                refine ⟨inner, ?_⟩
                rw [getLast?_cons_scan _ hrest, hmore]
                exact hinner
  obtain ⟨head, h⟩ := hlast front
  refine ⟨head, ?_⟩
  rw [List.append_assoc, List.append_assoc, List.singleton_append]
  exact h

/-! ## Which places are covered -/

/-- No word goes on behind the text. -/
def EndsWord (front : Str) : Prop := ∀ c ∈ front.getLast?, isValueChar c = false

/-- A word that ends with a key and its separator, and has no other key with a separator in it. -/
structure IsKeyWord (word : Str) : Prop where
  chars : ∀ c ∈ word, isValueChar c = true
  ends : ∃ front key sep, word = front ++ (key ++ [sep]) ∧ key.map foldCase ∈ inlineKeys
    ∧ (sep = 61 ∨ sep = 58)
  single : ∀ front key sep c more, word = front ++ (key ++ sep :: c :: more) →
    key.map foldCase ∈ inlineKeys → ¬ (sep = 61 ∨ sep = 58)

/-- White space. -/
def IsGap (gap : Str) : Prop := gap ≠ [] ∧ ∀ c ∈ gap, isBlank c = true

/-- The text ends with so many words of keys in a row, each with white space behind it. -/
inductive EndsInRow : Str → ℕ → Prop where
  | zero {s : Str} (h : ∀ front word gap, s = front ++ (word ++ gap) → EndsWord front →
      IsKeyWord word → ¬ IsGap gap) : EndsInRow s 0
  | succ {front word gap : Str} {n : ℕ} (hfront : EndsWord front) (hword : IsKeyWord word)
      (hgap : IsGap gap) (h : EndsInRow front n) : EndsInRow (front ++ (word ++ gap)) (n + 1)

/-- The place behind the text is directly behind a separator, or behind an odd number of words of
keys: of words in a row, each second one stands where the secret of the one before it would. -/
def Guarded (p : Str) : Prop :=
  (∃ front sep, p = front ++ [sep] ∧ (sep = 61 ∨ sep = 58)) ∨ ∃ n, EndsInRow p n ∧ n % 2 = 1

section Rows

variable {front word gap : Str}

lemma isValueChar_separator {sep : ℕ} (h : sep = 61 ∨ sep = 58) : isValueChar sep = true := by
  rcases h with rfl | rfl <;> decide

lemma IsKeyWord.ne_nil (h : IsKeyWord word) : word ≠ [] := by
  obtain ⟨front, key, sep, rfl, -⟩ := h.ends
  simp

/-- A key and its separator. -/
lemma isKeyWord_of_key {sep : ℕ} (hkey : key.map foldCase ∈ inlineKeys)
    (hsep : sep = 61 ∨ sep = 58) :
    IsKeyWord (key ++ [sep]) where
  chars c hc := by
    rcases List.mem_append.mp hc with hc | hc
    · exact (key_char hkey hc).2.2
    · rw [List.mem_singleton.mp hc]
      exact isValueChar_separator hsep
  ends := ⟨[], key, sep, rfl, hkey, hsep⟩
  single front key' sep' c more heq _ hsep' := by
    -- the separator would be in the key
    have hmem : sep' ∈ key := by
      have hdrop := congrArg List.dropLast heq
      rw [List.dropLast_concat, ← List.append_assoc, List.dropLast_append_of_ne_nil
        (by simp)] at hdrop
      rw [hdrop]
      simp
    obtain ⟨hequals, hcolon, -⟩ := key_char hkey hmem
    exact hsep'.elim hequals hcolon

/-- In front of a word that does not begin with a key and its separator, a character changes
nothing. -/
lemma isKeyWord_cons (hc : isValueChar c = true)
    (hnot : ∀ key sep more, c :: word = key ++ sep :: more → key.map foldCase ∈ inlineKeys →
      ¬ (sep = 61 ∨ sep = 58)) : IsKeyWord (c :: word) ↔ IsKeyWord word := by
  constructor
  · intro h
    refine ⟨fun d hd => h.chars d (by simp [hd]), ?_, fun front key sep d more heq => ?_⟩
    · obtain ⟨front, key, sep, heq, hkey, hsep⟩ := h.ends
      cases front with
      | nil => exact absurd hsep (hnot key sep [] heq hkey)
      | cons d front => exact ⟨front, key, sep, (List.cons.inj heq).2, hkey, hsep⟩
    · exact h.single (c :: front) key sep d more (by rw [heq]; rfl)
  · intro h
    refine ⟨?_, ?_, fun front key sep d more heq hkey => ?_⟩
    · rw [List.forall_mem_cons]
      exact ⟨hc, h.chars⟩
    · obtain ⟨front, key, sep, heq, hkey, hsep⟩ := h.ends
      exact ⟨c :: front, key, sep, by rw [heq]; rfl, hkey, hsep⟩
    · cases front with
      | nil => exact hnot key sep (d :: more) heq hkey
      | cons d' front => exact h.single front key sep d more (List.cons.inj heq).2 hkey

/-- White space is scanned character by character. -/
lemma scan_gap (hgap : ∀ c ∈ gap, isBlank c = true) (t : Str) :
    scan (gap ++ t) = gap.map .char ++ scan t := by
  induction gap with
  | nil => rfl
  | cons c gap ih =>
      rw [List.forall_mem_cons] at hgap
      have hnone := inlineMatch_of_not_value (isValueChar_of_isBlank hgap.1) (gap ++ t)
      rw [List.cons_append, scan_of_none hnone, ih hgap.2]
      rfl

/-- Behind white space alone, a place is not covered. -/
lemma getLast?_scan_gap (pieces : List Piece) (hgap : ∀ c ∈ gap, isBlank c = true) :
    (pieces ++ scan (gap ++ [120])).getLast? = some (.char 120) := by
  have hscan : scan [120] = [.char 120] := by decide
  rw [scan_gap hgap, hscan, ← List.append_assoc, List.getLast?_concat]

/-- **Behind a word and white space a place is covered** exactly if the word is one of a key. -/
lemma covered_word (hword : ∀ c ∈ word, isValueChar c = true) (hgap : IsGap gap) :
    Covered (word ++ gap) ↔ IsKeyWord word := by
  induction word with
  | nil =>
      refine iff_of_false ?_ fun h => h.ne_nil rfl
      rintro ⟨head, h⟩
      rw [List.nil_append, ← List.nil_append (scan _), getLast?_scan_gap [] hgap.2] at h
      cases h
  | cons c word ih =>
      rw [List.forall_mem_cons] at hword
      by_cases hbegins : ∃ key sep more, c :: word = key ++ sep :: more ∧
          key.map foldCase ∈ inlineKeys ∧ (sep = 61 ∨ sep = 58)
      · obtain ⟨key, sep, more, heq, hkey, hsep⟩ := hbegins
        rw [heq]
        cases more with
        | nil =>
            refine iff_of_true ⟨key ++ sep :: gap, ?_⟩ (isKeyWord_of_key hkey hsep)
            have hmatch := match_of_head ⟨key, sep, gap, rfl, hkey, hsep, hgap.2⟩
              isValueChar_placeholder []
            have hassoc : key ++ [sep] ++ gap ++ [120] = key ++ sep :: gap ++ [120] := by simp
            rw [hassoc, scan_of_match hmatch]
            rfl
        | cons d more =>
            refine iff_of_false ?_ fun h => h.single [] key sep d more rfl hkey hsep
            have hmore : ∀ x ∈ d :: more, isValueChar x = true := by
              intro x hx
              have hmem : x ∈ c :: word := by
                rw [heq]
                simp only [List.mem_append, List.mem_cons] at hx ⊢
                tauto
              rcases List.mem_cons.mp hmem with rfl | hmem
              · exact hword.1
              · exact hword.2 x hmem
            have hends : EndsSecret (gap ++ [120]) := by
              obtain ⟨first, others, hcons⟩ := List.exists_cons_of_ne_nil hgap.1
              intro x hx
              have hfirst : first = x := by simpa [hcons] using hx
              exact isValueChar_of_isBlank (hgap.2 x (by simp [hcons, hfirst]))
            have hmatch :=
              match_of_head ⟨key, sep, [], rfl, hkey, hsep, by simp⟩ (hmore d (by simp))
              (more ++ (gap ++ [120]))
            have hdrop := (span_append hmore hends).2
            rw [List.cons_append] at hdrop
            rw [hdrop] at hmatch
            have hassoc : key ++ sep :: d :: more ++ gap ++ [120]
                = key ++ [sep] ++ d :: (more ++ (gap ++ [120])) := by simp
            rintro ⟨head, h⟩
            rw [hassoc, scan_of_match hmatch, ← List.singleton_append,
              getLast?_scan_gap _ hgap.2] at h
            cases h
      · have hnot : ∀ key sep more, c :: word = key ++ sep :: more →
            key.map foldCase ∈ inlineKeys → ¬ (sep = 61 ∨ sep = 58) :=
          fun key sep more heq hkey hsep => hbegins ⟨key, sep, more, heq, hkey, hsep⟩
        have hnone : inlineMatch (c :: (word ++ gap ++ [120])) = none := by
          cases hmatch : inlineMatch (c :: (word ++ gap ++ [120])) with
          | none => rfl
          | some found =>
              obtain ⟨head, rest⟩ := found
              obtain ⟨w, heq, ⟨key, sep, blanks, rfl, hkey, hsep, -⟩, -⟩ :=
                inlineMatch_iff.mp hmatch
              obtain ⟨first, others, hcons⟩ := List.exists_cons_of_ne_nil hgap.1
              have hfirst := isValueChar_of_isBlank (hgap.2 first (by simp [hcons]))
              have hsplit : c :: word ++ (gap ++ [120])
                = key ++ (sep :: (blanks ++ (w ++ rest))) := by
                simpa using heq
              -- the key and its separator are in front of the white space
              rcases List.append_eq_append_iff.mp
                hsplit with ⟨more, hmore, hgap'⟩ | ⟨more, hmore, hsep'⟩
              · cases more with
                | nil =>
                    rw [hcons] at hgap'
                    have hsame : first = sep := (List.cons.inj hgap').1
                    rw [hsame, isValueChar_separator hsep] at hfirst
                    cases hfirst
                | cons d more =>
                    rw [hcons] at hgap'
                    have hsame : first = d := (List.cons.inj hgap').1
                    have hd := (key_char hkey (show d ∈ key by rw [hmore]; simp)).2.2
                    rw [hsame, hd] at hfirst
                    cases hfirst
              · cases more with
                | nil =>
                    rw [hcons] at hsep'
                    have hsame : sep = first := (List.cons.inj hsep').1
                    rw [← hsame, isValueChar_separator hsep] at hfirst
                    cases hfirst
                | cons d more =>
                    obtain rfl : sep = d := (List.cons.inj hsep').1
                    exact absurd hsep (hnot key sep more hmore hkey)
        have hcovered : Covered (c :: word ++ gap) ↔ Covered (word ++ gap) := by
          unfold Covered
          have hscan : scan (c :: word ++ gap ++ [120]) = .char c :: scan (word ++ gap ++ [120]) :=
            scan_of_none hnone
          rw [hscan, getLast?_cons_scan _ (by simp)]
        rw [hcovered, ih hword.2, isKeyWord_cons hword.1 hnot]

/-- A word hides the one behind it. -/
lemma covered_append (hfront : EndsWord front) (hne : word ≠ [])
    (hword : ∀ c ∈ word, isValueChar c = true) (hgap : IsGap gap) :
    Covered (front ++ (word ++ gap)) ↔ IsKeyWord word ∧ ¬ Covered front := by
  have hends : EndsSecret (gap ++ [120]) := by
    obtain ⟨first, others, hcons⟩ := List.exists_cons_of_ne_nil hgap.1
    intro x hx
    have hfirst : first = x := by simpa [hcons] using hx
    exact isValueChar_of_isBlank (hgap.2 x (by simp [hcons, hfirst]))
  have hbetween : EndsBetween front := fun c hc => .inr (.inr (hfront c hc))
  rcases leaves hbetween with
    ⟨hcovered, out, hout⟩ | ⟨hopen, out, hout⟩
  · refine iff_of_false ?_ fun h => h.2 hcovered
    rintro ⟨head, h⟩
    have hassoc : front ++ (word ++ gap) ++ [120] = front ++ (word ++ (gap ++ [120])) := by simp
    rw [hassoc, hout word _ ⟨hne, hword⟩ hends, getLast?_scan_gap _ hgap.2] at h
    cases h
  · obtain ⟨x, word, rfl⟩ := List.exists_cons_of_ne_nil hne
    have hassoc : front ++ (x :: word ++ gap) ++ [120]
      = front ++ x :: (word ++ gap ++ [120]) := by simp
    have hscan : scan (front ++ (x :: word ++ gap) ++ [120])
      = out ++ scan (x :: word ++ gap ++ [120]) := by
      rw [hassoc, hout x _ (hword x (by simp))]
      rfl
    have hlast : Covered (front ++ (x :: word ++ gap)) ↔ Covered (x :: word ++ gap) := by
      unfold Covered
      rw [hscan, List.getLast?_append_of_ne_nil _ (scan_ne_nil (by simp))]
    rw [hlast, covered_word hword hgap]
    exact ⟨fun h => ⟨h, hopen⟩, fun h => h.1⟩

/-- A text whose scan ends with a match ends with a head and a secret. -/
lemma ends_of_scan (h : (scan s).getLast? = some (.credential head)) :
    ∃ front head v, s = front ++ (head ++ v) ∧ IsHead head ∧ IsSecret v := by
  induction s using scan_induction with
  | nil => cases h
  | hit s head' rest hmatch ih =>
      obtain ⟨v, heq, hhead, hv, -⟩ := inlineMatch_iff.mp hmatch
      by_cases hrest : rest = []
      · exact ⟨[], head', v, by rw [heq, hrest]; simp, hhead, hv⟩
      · rw [scan_of_match hmatch, getLast?_cons_scan _ hrest] at h
        obtain ⟨front, head, u, hsplit, hhead, hu⟩ := ih h
        exact ⟨head' ++ (v ++ front), head, u, by rw [heq, hsplit]; simp, hhead, hu⟩
  | miss c s hnone ih =>
      rw [scan_of_none hnone] at h
      by_cases hs : s = []
      · rw [hs] at h
        cases h
      · rw [getLast?_cons_scan _ hs] at h
        obtain ⟨front, head, u, hsplit, hhead, hu⟩ := ih h
        exact ⟨c :: front, head, u, by rw [hsplit]; rfl, hhead, hu⟩

/-- A covered place that is not directly behind a word is behind a word of a key, which is not
hidden. -/
lemma row_of_covered {p : Str} (h : Covered p) (hends : EndsWord p) : ∃ front word gap,
    p = front ++ (word ++ gap) ∧ EndsWord front ∧ IsKeyWord word ∧ IsGap gap ∧ ¬ Covered front := by
  obtain ⟨last, hlast⟩ := h
  obtain ⟨before, head, v, hsplit, ⟨key, sep, blanks, rfl, hkey, hsep, hblanks⟩, hv⟩ :=
    ends_of_scan hlast
  obtain ⟨v, z, rfl⟩ := List.eq_nil_or_concat v |>.resolve_left hv.1
  obtain ⟨rfl, -⟩ : p = before ++ (key ++ sep :: blanks ++ v) ∧ [120] = [z] := by
    refine List.append_inj' ?_ rfl
    simpa using hsplit
  obtain rfl : v = [] := by
    rcases List.eq_nil_or_concat v with rfl | ⟨v, last, rfl⟩
    · rfl
    · have hassoc : before ++ (key ++ sep :: blanks ++ v.concat last)
          = before ++ (key ++ sep :: blanks ++ v) ++ [last] := by simp
      have hvalue := hends last (by rw [hassoc, List.getLast?_concat]; rfl)
      rw [hv.2 last (by simp)] at hvalue
      cases hvalue
  have hgap : IsGap blanks := by
    refine ⟨?_, hblanks⟩
    rintro rfl
    have hvalue := hends sep (by simp)
    rw [isValueChar_separator hsep] at hvalue
    cases hvalue
  -- the whole word that ends with the key
  have hwhole : (before ++ (key ++ [sep])).rdropWhile isValueChar
      ++ (before ++ (key ++ [sep])).rtakeWhile isValueChar = before ++ (key ++ [sep]) :=
    List.rdropWhile_append_rtakeWhile
  have hfront : EndsWord ((before ++ (key ++ [sep])).rdropWhile isValueChar) := by
    intro c hc
    have hne : (before ++ (key ++ [sep])).rdropWhile isValueChar ≠ [] := by
      intro hnil
      rw [hnil] at hc
      cases hc
    have hlast := List.rdropWhile_last_not isValueChar _ hne
    rw [List.getLast?_eq_getLast_of_ne_nil hne] at hc
    rw [Option.some.inj hc] at hlast
    simpa using hlast
  have hne : (before ++ (key ++ [sep])).rtakeWhile isValueChar ≠ [] := by
    rw [Ne, List.rtakeWhile_eq_nil_iff]
    intro hnot
    refine hnot (by simp) ?_
    simpa using isValueChar_separator hsep
  have heq : before ++ (key ++ sep :: blanks ++ [])
      = (before ++ (key ++ [sep])).rdropWhile isValueChar
        ++ ((before ++ (key ++ [sep])).rtakeWhile isValueChar ++ blanks) := by
    rw [← List.append_assoc (List.rdropWhile _ _), hwhole]
    simp
  have hcovered : Covered (before ++ (key ++ sep :: blanks ++ [])) := ⟨_, hlast⟩
  rw [heq, covered_append hfront hne (fun c hc => List.mem_rtakeWhile_imp hc) hgap] at hcovered
  exact ⟨_, _, blanks, heq, hfront, hcovered.1, hgap, hcovered.2⟩

/-- **Behind words of keys in a row a place is covered** exactly if they are odd in number. -/
theorem covered_iff_row {p : Str} {n : ℕ} (hrow : EndsInRow p n) (hends : EndsWord p) :
    Covered p ↔ n % 2 = 1 := by
  induction hrow with
  | zero h =>
      refine iff_of_false (fun hcovered => ?_) (by simp)
      obtain ⟨front, word, gap, heq, hfront, hword, hgap, -⟩ := row_of_covered hcovered hends
      exact h front word gap heq hfront hword hgap
  | succ hfront hword hgap _ ih =>
      rw [covered_append hfront hword.ne_nil hword.chars hgap, ih hfront]
      constructor
      · rintro ⟨-, hodd⟩
        omega
      · intro hodd
        exact ⟨hword, by omega⟩

/-- Each text ends with some number of them. -/
lemma exists_row (p : Str) : ∃ n, EndsInRow p n := by
  induction hn : p.length using Nat.strong_induction_on generalizing p with
  | _ n ih =>
      by_cases hrow : ∃ front word gap, p = front ++ (word ++ gap) ∧ EndsWord front ∧ IsKeyWord word
          ∧ IsGap gap
      · obtain ⟨front, word, gap, rfl, hfront, hword, hgap⟩ := hrow
        have hpos := List.length_pos_of_ne_nil hgap.1
        obtain ⟨k, hk⟩ := ih front.length (by simp only [List.length_append] at hn; omega) front rfl
        exact ⟨k + 1, .succ hfront hword hgap hk⟩
      · refine ⟨0, .zero fun front word gap heq hfront hword hgap => hrow ?_⟩
        exact ⟨front, word, gap, heq, hfront, hword, hgap⟩

end Rows

/-! ## Texts with places for secrets -/

/-- `Authorization: <scheme> `, in front of the credential. -/
def IsAuthorization (head : Str) : Prop :=
  ∃ key sep blanks scheme gap, head = key ++ sep :: (blanks ++ scheme ++ gap)
    ∧ key.map foldCase = str "authorization" ∧ (sep = 61 ∨ sep = 58)
    ∧ (∀ c ∈ blanks, isBlank c = true) ∧ IsSecret scheme ∧ gap ≠ [] ∧ ∀ c ∈ gap, isBlank c = true

/-- The text ends in front of a secret. -/
def EndsInHead (p : Str) : Prop :=
  ∃ front head, p = front ++ head ∧ (IsHead head ∨ IsAuthorization head)

/-- The segments end in front of secrets, and the secrets end where the next segment begins. -/
def Places : List Str → Str → Prop
  | [], _ => True
  | p :: segments, tail => EndsInHead p ∧ EndsSecret (segments.headD tail) ∧ Places segments tail

/-- The text with secrets in the places. -/
def fill : List Str → List Str → Str → Str
  | p :: segments, v :: secrets, tail => p ++ (v ++ fill segments secrets tail)
  | _, _, tail => tail

/-- One secret for each place. -/
def Secrets (segments secrets : List Str) : Prop :=
  secrets.length = segments.length ∧ ∀ v ∈ secrets, IsSecret v

lemma EndsInHead.endsBetween {p : Str} (h : EndsInHead p) : EndsBetween p := by
  obtain ⟨front, head, rfl, hhead⟩ := h
  intro c hc
  rcases hhead with ⟨key, sep, blanks, rfl, -, hsep, hblanks⟩ | ⟨key, sep, blanks, scheme, gap, rfl,
    -, -, -, -, hne, hgap⟩
  · rcases List.eq_nil_or_concat blanks with rfl | ⟨blanks, last, rfl⟩
    · have hlast : sep = c := by simpa using hc
      rcases hsep with h | h
      · exact .inl (hlast ▸ h)
      · exact .inr (.inl (hlast ▸ h))
    · have hlast : last = c := by
        have hend : front ++ (key ++ sep :: blanks.concat last)
            = (front ++ (key ++ sep :: blanks)) ++ [last] := by simp
        rw [hend, List.getLast?_concat] at hc
        exact Option.some.inj hc
      exact .inr (.inr (isValueChar_of_isBlank (hblanks c (by simp [hlast]))))
  · obtain ⟨gap, last, rfl⟩ := List.eq_nil_or_concat gap |>.resolve_left hne
    have hlast : last = c := by
      have hend : front ++ (key ++ sep :: (blanks ++ scheme ++ gap.concat last))
          = (front ++ (key ++ sep :: (blanks ++ scheme ++ gap))) ++ [last] := by simp
      rw [hend, List.getLast?_concat] at hc
      exact Option.some.inj hc
    exact .inr (.inr (isValueChar_of_isBlank (hgap c (by simp [hlast]))))

lemma EndsInHead.ne_nil {p : Str} (h : EndsInHead p) : p ≠ [] := by
  obtain ⟨front, head, rfl, hhead⟩ := h
  rcases hhead with ⟨key, sep, blanks, rfl, -⟩ | ⟨key, sep, blanks, scheme, gap, rfl, -⟩
  · simp
  · simp

/-- **Which places are covered** can be read off the text in front. -/
theorem covered_iff {p : Str} (h : EndsInHead p) : Covered p ↔ Guarded p := by
  obtain ⟨front, head, rfl, hhead⟩ := h
  by_cases hdirect : ∃ front' sep, front ++ head = front' ++ [sep] ∧ (sep = 61 ∨ sep = 58)
  · refine iff_of_true ?_ (.inl hdirect)
    obtain ⟨front', sep', heq, hsep'⟩ := hdirect
    have hlast : (front ++ head).getLast? = some sep' := by rw [heq, List.getLast?_concat]
    rcases hhead with ⟨key, sep, blanks, rfl, hkey, hsep, hblanks⟩ | ⟨key, sep, blanks, scheme, gap,
      rfl, -, -, -, -, hne, hgap⟩
    · rcases List.eq_nil_or_concat blanks with rfl | ⟨blanks, last, rfl⟩
      · exact covered_of_separator front hkey hsep
      · have hend : front ++ (key ++ sep :: blanks.concat last)
            = (front ++ (key ++ sep :: blanks)) ++ [last] := by simp
        rw [hend, List.getLast?_concat, Option.some.injEq] at hlast
        have hblank := isValueChar_of_isBlank (hblanks last (by simp))
        rw [hlast, isValueChar_separator hsep'] at hblank
        cases hblank
    · obtain ⟨gap, last, rfl⟩ := List.eq_nil_or_concat gap |>.resolve_left hne
      have hend : front ++ (key ++ sep :: (blanks ++ scheme ++ gap.concat last))
          = (front ++ (key ++ sep :: (blanks ++ scheme ++ gap))) ++ [last] := by simp
      rw [hend, List.getLast?_concat, Option.some.injEq] at hlast
      have hblank := isValueChar_of_isBlank (hgap last (by simp))
      rw [hlast, isValueChar_separator hsep'] at hblank
      cases hblank
  · have hends : EndsWord (front ++ head) := by
      intro c hc
      rcases EndsInHead.endsBetween ⟨front, head, rfl, hhead⟩ c hc with hsep | hsep | hvalue
      · exact absurd ⟨_, c, (List.dropLast_append_getLast? c hc).symm, .inl hsep⟩ hdirect
      · exact absurd ⟨_, c, (List.dropLast_append_getLast? c hc).symm, .inr hsep⟩ hdirect
      · exact hvalue
    constructor
    · intro hcovered
      obtain ⟨n, hn⟩ := exists_row (front ++ head)
      exact .inr ⟨n, hn, (covered_iff_row hn hends).mp hcovered⟩
    · rintro (h | ⟨n, hn, hodd⟩)
      · exact absurd h hdirect
      · exact (covered_iff_row hn hends).mpr hodd

lemma secrets_cons {segments secrets : List Str} {p : Str} (hv : IsSecret v)
    (h : Secrets segments secrets) : Secrets (p :: segments) (v :: secrets) := by
  refine ⟨by simp [h.1], fun u hu => ?_⟩
  rcases List.mem_cons.mp hu with rfl | hu
  · exact hv
  · exact h.2 u hu

lemma secrets_uncons {segments secrets : List Str} {p : Str} (h : Secrets (p :: segments) secrets) :
    ∃ v others, secrets = v :: others ∧ IsSecret v ∧ Secrets segments others := by
  cases secrets with
  | nil => cases h.1
  | cons v others =>
      exact ⟨v, others, rfl, h.2 v (by simp), by simpa using h.1, fun u hu => h.2 u (by simp [hu])⟩

lemma isSecret_single (hx : isValueChar x = true) : IsSecret [x] := by
  refine ⟨by simp, fun c hc => ?_⟩
  rw [List.mem_singleton.mp hc]
  exact hx

lemma exists_secrets (segments : List Str) : ∃ secrets, Secrets segments secrets := by
  induction segments with
  | nil => exact ⟨[], rfl, by simp⟩
  | cons p segments ih =>
      obtain ⟨secrets, h⟩ := ih
      exact ⟨_, secrets_cons (isSecret_single isValueChar_placeholder) h⟩

lemma Places.endsInHead {segments : List Str} {p tail : Str} (h : Places segments tail)
    (hp : p ∈ segments) : EndsInHead p := by
  induction segments with
  | nil => cases hp
  | cons q segments ih =>
      rcases List.mem_cons.mp hp with rfl | hp
      · exact h.1
      · exact ih h.2.2 hp

/-- Behind a secret the text goes on with the next segment. -/
lemma Places.endsSecret {segments secrets : List Str} {p tail : Str}
    (h : Places (p :: segments) tail) (hsecrets : Secrets segments secrets) :
    EndsSecret (fill segments secrets tail) := by
  cases segments with
  | nil => exact h.2.1
  | cons q segments =>
      obtain ⟨v, others, rfl, -, -⟩ := secrets_uncons hsecrets
      obtain ⟨first, rest, hq⟩ := List.exists_cons_of_ne_nil h.2.2.1.ne_nil
      intro c hc
      refine h.2.1 c ?_
      simp only [List.headD_cons, fill, hq, List.cons_append, List.head?_cons] at hc ⊢
      exact hc

/-- The secrets of a text do not show exactly if each place is covered. -/
lemma fill_iff_covered {segments : List Str} {tail : Str} (hplaces : Places segments tail) :
    (∀ secrets secrets', Secrets segments secrets → Secrets segments secrets' →
      redactText (fill segments secrets tail) = redactText (fill segments secrets' tail))
    ↔ ∀ p ∈ segments, Covered p := by
  induction segments with
  | nil => simp [fill]
  | cons p segments ih =>
      rw [List.forall_mem_cons, ← ih hplaces.2.2]
      rcases leaves hplaces.1.endsBetween with ⟨hcovered, out, hout⟩ | ⟨hopen, out, hout⟩
      · have htext : ∀ {v secrets}, IsSecret v → Secrets segments secrets →
            redactText (fill (p :: segments) (v :: secrets) tail)
              = out.flatMap Piece.text ++ redactText (fill segments secrets tail) := by
          intro v secrets hv hsecrets
          rw [redactText, fill, hout _ _ hv (hplaces.endsSecret hsecrets), List.flatMap_append]
          rfl
        constructor
        · intro h
          refine ⟨hcovered, fun secrets secrets' hs hs' => ?_⟩
          have hx := isSecret_single isValueChar_placeholder
          have hfull := h _ _ (secrets_cons hx hs) (secrets_cons hx hs')
          rw [htext hx hs, htext hx hs'] at hfull
          exact List.append_cancel_left hfull
        · rintro ⟨-, h⟩ secrets secrets' hs hs'
          obtain ⟨v, secrets, rfl, hv, hs⟩ := secrets_uncons hs
          obtain ⟨v', secrets', rfl, hv', hs'⟩ := secrets_uncons hs'
          rw [htext hv hs, htext hv' hs', h _ _ hs hs']
      · -- two letters in the place are two texts
        constructor
        · intro h
          obtain ⟨secrets, hs⟩ := exists_secrets segments
          have ha : isValueChar 97 = true := by decide
          have hb : isValueChar 98 = true := by decide
          have hfull :=
            h _ _ (secrets_cons (isSecret_single ha) hs) (secrets_cons (isSecret_single hb) hs)
          have hends := hplaces.endsSecret hs
          simp only [redactText, fill, List.singleton_append] at hfull
          rw [hout 97 _ ha, hout 98 _ hb, scan_of_none (inlineMatch_single 97 hends),
            scan_of_none (inlineMatch_single 98 hends), List.flatMap_append, List.flatMap_append,
            List.flatMap_cons, List.flatMap_cons] at hfull
          have hletters := List.append_cancel_left hfull
          simp [Piece.text] at hletters
        · rintro ⟨hcovered, -⟩
          exact absurd hcovered hopen

/-- **The secrets of a text do not show exactly if** each place is guarded. -/
theorem fill_iff {segments : List Str} {tail : Str} (hplaces : Places segments tail) :
    (∀ secrets secrets', Secrets segments secrets → Secrets segments secrets' →
      redactText (fill segments secrets tail) = redactText (fill segments secrets' tail))
    ↔ ∀ p ∈ segments, Guarded p := by
  rw [fill_iff_covered hplaces]
  exact forall₂_congr fun p hp => covered_iff (hplaces.endsInHead hp)

/-! ## Filtering twice -/

lemma isSecret_filtered : IsSecret filtered := ⟨by decide, by decide⟩

lemma redactText_of_match (h : inlineMatch s = some (head, rest)) :
    redactText s = head ++ (filtered ++ redactText rest) := by
  rw [redactText, scan_of_match h, List.flatMap_cons, Piece.text, List.append_assoc]
  rfl

lemma redactText_of_none (h : inlineMatch (c :: s) = none) : redactText (c :: s)
    = c :: redactText s := by
  rw [redactText, scan_of_none h, List.flatMap_cons]
  rfl

/-- What ends a secret is left in its place. -/
lemma endsSecret_redactText (h : EndsSecret rest) : EndsSecret (redactText rest) := by
  cases rest with
  | nil => exact h
  | cons c rest =>
      have hc : isValueChar c = false := h c rfl
      rw [redactText_of_none (inlineMatch_of_not_value hc rest)]
      intro d hd
      have hcd : c = d := by simpa using hd
      rw [← hcd]
      exact hc

/-- A text stays as it is, or up to the value of its first match. -/
lemma redactText_cases (s : Str) : redactText s = s ∨ ∃ front head v rest, s
    = front ++ (head ++ (v ++ rest))
    ∧ IsHead head ∧ IsSecret v ∧ EndsSecret rest
    ∧ redactText s = front ++ (head ++ (filtered ++ redactText rest)) := by
  induction s using scan_induction with
  | nil => exact .inl rfl
  | hit s head rest hmatch _ =>
      obtain ⟨v, heq, hhead, hv, hrest⟩ := inlineMatch_iff.mp hmatch
      exact .inr ⟨[], head, v, rest, heq, hhead, hv, hrest, redactText_of_match hmatch⟩
  | miss c s hnone ih =>
      rw [redactText_of_none hnone]
      rcases ih with h | ⟨front, head, v, rest, heq, hhead, hv, hrest, h⟩
      · exact .inl (by rw [h])
      · exact .inr ⟨c :: front, head, v, rest, by rw [heq]; rfl, hhead, hv, hrest, by rw [h]; rfl⟩

/-- A head ends with its separator and blanks, so nothing but blanks can follow it in a longer
head. -/
lemma IsHead.endsBetween (h : IsHead head) : EndsBetween head :=
  EndsInHead.endsBetween ⟨[], head, rfl, .inl h⟩

lemma IsHead.ne_nil (h : IsHead head) : head ≠ [] := EndsInHead.ne_nil ⟨[], head, rfl, .inl h⟩

/-- **Where no match begins, none begins in the filtered text.** -/
lemma match_none_of_redactText (hnone : inlineMatch (c :: s) = none) :
    inlineMatch (c :: redactText s) = none := by
  rcases redactText_cases s with h | ⟨front, first, v, rest, rfl, hfirst, hv, -, h⟩
  · rw [h]
    exact hnone
  · cases hmatch : inlineMatch (c :: redactText (front ++ (first ++ (v ++ rest)))) with
    | none => rfl
    | some found =>
        obtain ⟨head, others⟩ := found
        obtain ⟨w, heq, hhead, hw, -⟩ := inlineMatch_iff.mp hmatch
        obtain ⟨x, v, rfl⟩ := List.exists_cons_of_ne_nil hv.1
        have hx : isValueChar x = true := hv.2 x (by simp)
        have hfull : (c :: front ++ first) ++ (filtered ++ redactText rest)
          = head ++ (w ++ others) := by
          rw [← heq, h]
          simp
        have hs : c :: (front ++ (first ++ (x :: v ++ rest)))
          = (c :: front ++ first) ++ x :: (v ++ rest) := by
          simp
        rw [hs] at hnone
        rcases List.append_eq_append_iff.mp hfull with ⟨more, rfl, hmore⟩ | ⟨more, hsplit, hmore⟩
        · cases more with
          | nil =>
              rw [List.append_nil] at hhead
              rw [match_of_head hhead hx] at hnone
              cases hnone
          | cons y more =>
              have hbetween : EndsBetween (c :: front ++ first) := by
                intro d hd
                refine hfirst.endsBetween d ?_
                rwa [List.getLast?_append_of_ne_nil _ hfirst.ne_nil] at hd
              have hblank := blank_of_head hhead (by simp) hbetween (List.mem_cons_self (a := y))
              have hy : y = 91 := by
                have hhead := congrArg List.head? hmore
                have hbracket : filtered = 91 :: str "Filtered]" := by decide
                rw [hbracket] at hhead
                simpa using hhead.symm
              rw [hy] at hblank
              exact absurd hblank (by decide)
        · cases more with
          | nil =>
              rw [List.append_nil] at hsplit
              rw [hsplit, match_of_head hhead hx] at hnone
              cases hnone
          | cons y more =>
              obtain ⟨z, w, rfl⟩ := List.exists_cons_of_ne_nil hw.1
              rw [List.cons_append, List.cons_append, List.cons.injEq] at hmore
              have hy : isValueChar y = true := by
                rw [← hmore.1]
                exact hw.2 z (by simp)
              rw [hsplit, List.append_assoc, List.cons_append, match_of_head hhead hy] at hnone
              cases hnone

/-- **A filtered text stays as it is.** -/
theorem redactText_redactText (s : Str) : redactText (redactText s) = redactText s := by
  induction s using scan_induction with
  | nil => rfl
  | hit s head rest hmatch ih =>
      obtain ⟨v, -, hhead, -, hrest⟩ := inlineMatch_iff.mp hmatch
      have hagain : inlineMatch (head ++ (filtered ++ redactText rest))
          = some (head, redactText rest) :=
        inlineMatch_iff.mpr ⟨filtered, rfl, hhead, isSecret_filtered, endsSecret_redactText hrest⟩
      rw [redactText_of_match hmatch, redactText_of_match hagain, ih]
  | miss c s hnone ih =>
      rw [redactText_of_none hnone, redactText_of_none (match_none_of_redactText hnone), ih]

mutual

/-- A filtered value stays as it is. -/
theorem redactEvent_redactEvent (lower : Str → Str) :
    ∀ e : EventValue, redactEvent lower (redactEvent lower e) = redactEvent lower e
  | .text s => by rw [redactEvent, redactEvent, redactText_redactText]
  | .mapping items => by rw [redactEvent, redactEvent, redactEventItems_redactEventItems]
  | .list xs => by rw [redactEvent, redactEvent, redactEvents_redactEvents]
  | .tuple xs => by rw [redactEvent, redactEvent, redactEvents_redactEvents]
  | .other name => by rw [redactEvent, redactEvent]

theorem redactEvents_redactEvents (lower : Str → Str) :
    ∀ xs : List EventValue, redactEvents lower (redactEvents lower xs) = redactEvents lower xs
  | [] => rfl
  | x :: xs => by
      rw [redactEvents, redactEvents, redactEvent_redactEvent lower x,
        redactEvents_redactEvents lower xs]

theorem redactEventItems_redactEventItems (lower : Str → Str) :
    ∀ items : List (Str × EventValue),
      redactEventItems lower (redactEventItems lower items) = redactEventItems lower items
  | [] => rfl
  | (key, item) :: items => by
      rw [redactEventItems, redactEventItems, redactEventItems_redactEventItems lower items]
      split_ifs
      · rfl
      · rw [redactEvent_redactEvent lower item]

end

/-! ## Events with places for secrets -/

/-- An event whose texts have places for secrets. -/
inductive EventTemplate where
  | text (segments : List Str) (tail : Str)
  | mapping (items : List (Str × EventTemplate))
  | list (xs : List EventTemplate)
  | tuple (xs : List EventTemplate)
  | other (name : Str)

mutual

/-- The places of the texts are places. -/
def WellPlaced : EventTemplate → Prop
  | .text segments tail => Places segments tail
  | .mapping items => WellPlacedItems items
  | .list xs | .tuple xs => WellPlacedAll xs
  | .other _ => True

def WellPlacedAll : List EventTemplate → Prop
  | [] => True
  | x :: xs => WellPlaced x ∧ WellPlacedAll xs

def WellPlacedItems : List (Str × EventTemplate) → Prop
  | [] => True
  | (_, x) :: items => WellPlaced x ∧ WellPlacedItems items

end

mutual

/-- The event has a secret in each place, and any value under a sensitive key. -/
def Fills (lower : Str → Str) : EventTemplate → EventValue → Prop
  | .text segments tail, e =>
      ∃ secrets, Secrets segments secrets ∧ e = .text (fill segments secrets tail)
  | .mapping items, e => ∃ items', e = .mapping items' ∧ FillsItems lower items items'
  | .list xs, e => ∃ es, e = .list es ∧ FillsAll lower xs es
  | .tuple xs, e => ∃ es, e = .tuple es ∧ FillsAll lower xs es
  | .other name, e => e = .other name

def FillsAll (lower : Str → Str) : List EventTemplate → List EventValue → Prop
  | [], es => es = []
  | x :: xs, es => ∃ e es', es = e :: es' ∧ Fills lower x e ∧ FillsAll lower xs es'

def FillsItems (lower : Str → Str) : List (Str × EventTemplate) → List (Str × EventValue) → Prop
  | [], items' => items' = []
  | (key, x) :: items, items' => ∃ e rest, items' = (key, e) :: rest
      ∧ (isSensitiveEventKey lower key = true ∨ Fills lower x e) ∧ FillsItems lower items rest

end

mutual

/-- Each place is guarded, in the texts that do not stand under a sensitive key. -/
def AllGuarded (lower : Str → Str) : EventTemplate → Prop
  | .text segments _ => ∀ p ∈ segments, Guarded p
  | .mapping items => AllGuardedItems lower items
  | .list xs | .tuple xs => AllGuardedAll lower xs
  | .other _ => True

def AllGuardedAll (lower : Str → Str) : List EventTemplate → Prop
  | [] => True
  | x :: xs => AllGuarded lower x ∧ AllGuardedAll lower xs

def AllGuardedItems (lower : Str → Str) : List (Str × EventTemplate) → Prop
  | [] => True
  | (key, x) :: items => (isSensitiveEventKey lower key = true ∨ AllGuarded lower x)
      ∧ AllGuardedItems lower items

end

mutual

lemma exists_fills (lower : Str → Str) : ∀ x : EventTemplate, ∃ e, Fills lower x e
  | .text segments tail => by
      obtain ⟨secrets, h⟩ := exists_secrets segments
      exact ⟨_, secrets, h, rfl⟩
  | .mapping items => by
      obtain ⟨items', h⟩ := exists_fillsItems lower items
      exact ⟨_, items', rfl, h⟩
  | .list xs => by
      obtain ⟨es, h⟩ := exists_fillsAll lower xs
      exact ⟨_, es, rfl, h⟩
  | .tuple xs => by
      obtain ⟨es, h⟩ := exists_fillsAll lower xs
      exact ⟨_, es, rfl, h⟩
  | .other name => ⟨_, rfl⟩

lemma exists_fillsAll (lower : Str → Str) : ∀ xs : List EventTemplate, ∃ es, FillsAll lower xs es
  | [] => ⟨[], rfl⟩
  | x :: xs => by
      obtain ⟨e, he⟩ := exists_fills lower x
      obtain ⟨es, hes⟩ := exists_fillsAll lower xs
      exact ⟨_, e, es, rfl, he, hes⟩

lemma exists_fillsItems (lower : Str → Str) :
    ∀ items : List (Str × EventTemplate), ∃ items', FillsItems lower items items'
  | [] => ⟨[], rfl⟩
  | (key, x) :: items => by
      obtain ⟨e, he⟩ := exists_fills lower x
      obtain ⟨rest, hrest⟩ := exists_fillsItems lower items
      exact ⟨_, e, rest, rfl, .inr he, hrest⟩

end

/-- A container is filtered by filtering what is in it. -/
lemma forall_wrapped_iff {α : Type} {lower : Str → Str} {wrap : α → EventValue} {F : α → Prop}
    {r : α → α} (hinjective : Function.Injective wrap)
    (hredact : ∀ a, redactEvent lower (wrap a) = wrap (r a)) :
    (∀ e e', (∃ a, e = wrap a ∧ F a) → (∃ a, e' = wrap a ∧ F a) →
      redactEvent lower e = redactEvent lower e') ↔ ∀ a a', F a → F a' → r a = r a' := by
  constructor
  · intro h a a' ha ha'
    have heq := h _ _ ⟨a, rfl, ha⟩ ⟨a', rfl, ha'⟩
    rw [hredact, hredact] at heq
    exact hinjective heq
  · rintro h e e' ⟨a, rfl, ha⟩ ⟨a', rfl, ha'⟩
    rw [hredact, hredact, h a a' ha ha']

mutual

/-- What is left of a value does not depend on the secrets exactly if each place is guarded. -/
theorem redactEvent_iff (lower : Str → Str) : ∀ x : EventTemplate, WellPlaced x →
    ((∀ e e', Fills lower x e → Fills lower x e' → redactEvent lower e = redactEvent lower e')
      ↔ AllGuarded lower x)
  | .text segments tail, hplaced => by
      rw [AllGuarded, ← fill_iff hplaced]
      constructor
      · intro h secrets secrets' hs hs'
        have heq := h _ _ ⟨secrets, hs, rfl⟩ ⟨secrets', hs', rfl⟩
        rw [redactEvent, redactEvent, EventValue.text.injEq] at heq
        exact heq
      · rintro h e e' ⟨secrets, hs, rfl⟩ ⟨secrets', hs', rfl⟩
        rw [redactEvent, redactEvent, h _ _ hs hs']
  | .mapping items, hplaced => by
      rw [AllGuarded, ← redactEventItems_iff lower items hplaced]
      exact forall_wrapped_iff (fun _ _ => EventValue.mapping.inj) fun items => by rw [redactEvent]
  | .list xs, hplaced => by
      rw [AllGuarded, ← redactEvents_iff lower xs hplaced]
      exact forall_wrapped_iff (fun _ _ => EventValue.list.inj) fun es => by rw [redactEvent]
  | .tuple xs, hplaced => by
      rw [AllGuarded, ← redactEvents_iff lower xs hplaced]
      exact forall_wrapped_iff (fun _ _ => EventValue.tuple.inj) fun es => by rw [redactEvent]
  | .other name, _ => by
      refine ⟨fun _ => trivial, ?_⟩
      rintro - e e' rfl rfl
      rfl

theorem redactEvents_iff (lower : Str → Str) : ∀ xs : List EventTemplate, WellPlacedAll xs →
    ((∀ es es', FillsAll lower xs es → FillsAll lower xs es' →
      redactEvents lower es = redactEvents lower es') ↔ AllGuardedAll lower xs)
  | [], _ => by
      refine ⟨fun _ => trivial, ?_⟩
      rintro - es es' rfl rfl
      rfl
  | x :: xs, hplaced => by
      rw [AllGuardedAll, ← redactEvent_iff lower x hplaced.1, ← redactEvents_iff lower xs hplaced.2]
      constructor
      · intro h
        constructor
        · intro e e' he he'
          obtain ⟨es, hes⟩ := exists_fillsAll lower xs
          have heq := h _ _ ⟨e, es, rfl, he, hes⟩ ⟨e', es, rfl, he', hes⟩
          rw [redactEvents, redactEvents, List.cons.injEq] at heq
          exact heq.1
        · intro es es' hes hes'
          obtain ⟨e, he⟩ := exists_fills lower x
          have heq := h _ _ ⟨e, es, rfl, he, hes⟩ ⟨e, es', rfl, he, hes'⟩
          rw [redactEvents, redactEvents, List.cons.injEq] at heq
          exact heq.2
      · rintro ⟨hx, hxs⟩ es es' ⟨e, rest, rfl, he, hrest⟩ ⟨e', rest', rfl, he', hrest'⟩
        rw [redactEvents, redactEvents, hx _ _ he he', hxs _ _ hrest hrest']

theorem redactEventItems_iff (lower : Str → Str) : ∀ items : List (Str × EventTemplate),
    WellPlacedItems items →
    ((∀ items₁ items₂, FillsItems lower items items₁ → FillsItems lower items items₂ →
      redactEventItems lower items₁ = redactEventItems lower items₂) ↔ AllGuardedItems lower items)
  | [], _ => by
      refine ⟨fun _ => trivial, ?_⟩
      rintro - items₁ items₂ rfl rfl
      rfl
  | (key, x) :: items, hplaced => by
      rw [AllGuardedItems, ← redactEvent_iff lower x hplaced.1,
        ← redactEventItems_iff lower items hplaced.2]
      constructor
      · intro h
        constructor
        · by_cases hkey : isSensitiveEventKey lower key = true
          · exact .inl hkey
          · refine .inr fun e e' he he' => ?_
            obtain ⟨rest, hrest⟩ := exists_fillsItems lower items
            have heq := h _ _ ⟨e, rest, rfl, .inr he, hrest⟩ ⟨e', rest, rfl, .inr he', hrest⟩
            rw [redactEventItems, redactEventItems, if_neg hkey, if_neg hkey, List.cons.injEq,
              Prod.mk.injEq] at heq
            exact heq.1.2
        · intro rest rest' hrest hrest'
          obtain ⟨e, he⟩ := exists_fills lower x
          have heq := h _ _ ⟨e, rest, rfl, .inr he, hrest⟩ ⟨e, rest', rfl, .inr he, hrest'⟩
          rw [redactEventItems, redactEventItems, List.cons.injEq] at heq
          exact heq.2
      · rintro ⟨hx, hitems⟩ items₁ items₂ ⟨e, rest, rfl, he, hrest⟩ ⟨e', rest', rfl, he', hrest'⟩
        rw [redactEventItems, redactEventItems, hitems _ _ hrest hrest']
        by_cases hkey : isSensitiveEventKey lower key = true
        · rw [if_pos hkey, if_pos hkey]
        · rw [if_neg hkey, if_neg hkey, hx.resolve_left hkey _ _ (he.resolve_left hkey)
            (he'.resolve_left hkey)]

end

/-- Events that differ in secrets alone are sent as the same event. -/
def SecretsHidden (lower : Str → Str) (items : List (Str × EventTemplate)) : Prop :=
  ∀ items₁ items₂, FillsItems lower items items₁ → FillsItems lower items items₂ →
    beforeSend lower items₁ = beforeSend lower items₂

/-- **Secrets do not show in what is sent exactly if** each place for one is guarded; and filtering
twice is filtering once. -/
theorem secrets_hidden_iff (lower : Str → Str) {items : List (Str × EventTemplate)}
    (hplaced : WellPlacedItems items) :
    (SecretsHidden lower items ↔ AllGuardedItems lower items)
      ∧ ∀ event, beforeSend lower (beforeSend lower event) = beforeSend lower event :=
  ⟨redactEventItems_iff lower items hplaced, redactEventItems_redactEventItems lower⟩

/-- A password, a token behind white space, and a header under a sensitive key. -/
def passwordEvent : List (Str × EventTemplate) :=
  [(str "message", .text [str "password=", str " Token: "] (str ", retrying")),
    (str "extra", .mapping
      [(str "api_key", .list [.text [str "Authorization: Bearer "] []]),
        (str "attempts", .tuple [.text [str "url=/?secret="] (str ";"), .other (str "2")])])]

lemma passwordEvent_placed : WellPlacedItems passwordEvent := by
  have hplace : ∀ front key sep blanks, key.map foldCase ∈ inlineKeys → (sep = 61 ∨ sep = 58) →
      (∀ c ∈ blanks, isBlank c = true) → EndsInHead (front ++ (key ++ sep :: blanks)) :=
    fun front key sep blanks hkey hsep hblanks =>
      ⟨front, _, rfl, .inl ⟨key, sep, blanks, rfl, hkey, hsep, hblanks⟩⟩
  have hheader : EndsInHead (str "Authorization: Bearer ") :=
    ⟨[], _, rfl, .inr ⟨str "Authorization", 58, [32], str "Bearer", [32], rfl, by decide, .inr rfl,
      by decide, ⟨by decide, by decide⟩, by decide, by decide⟩⟩
  have hpassword := hplace [] (str "password") 61 [] (by decide) (.inl rfl) (by simp)
  have htoken := hplace [32] (str "Token") 58 [32] (by decide) (.inr rfl) (by decide)
  have hsecret := hplace (str "url=/?") (str "secret") 61 [] (by decide) (.inl rfl) (by simp)
  have hends : ∀ c t, isValueChar c = false → EndsSecret (c :: t) := by
    intro c t hc d hd
    obtain rfl : c = d := by simpa using hd
    exact hc
  refine ⟨⟨hpassword, hends 32 (str "Token: ") (by decide), htoken, hends 44 (str " retrying")
    (by decide), trivial⟩, ⟨⟨⟨hheader, ?_, trivial⟩, trivial⟩,
      ⟨⟨hsecret, hends 59 [] (by decide), trivial⟩, trivial, trivial⟩, trivial⟩, trivial⟩
  intro c hc
  cases hc

/-- The two events with other secrets are sent as the same. -/
theorem secrets_hidden_iff_of_password :
    WellPlacedItems passwordEvent ∧ SecretsHidden id passwordEvent := by
  have hblank : EndsInRow [32] 0 := by
    refine .zero fun front word gap heq _ hword hgap => ?_
    have hlength := congrArg List.length heq
    have hone := List.length_pos_of_ne_nil hword.ne_nil
    have hother := List.length_pos_of_ne_nil hgap.1
    simp only [List.length_append, List.length_singleton] at hlength
    omega
  have hfront : EndsWord [32] := by
    intro c hc
    obtain rfl : 32 = c := by simpa using hc
    decide
  have hword : IsKeyWord (str "Token" ++ [58]) := isKeyWord_of_key (by decide) (.inr rfl)
  have hrow : EndsInRow ([32] ++ (str "Token" ++ [58] ++ [32])) 1 :=
    .succ hfront hword ⟨by decide, by decide⟩ hblank
  have hmessage : ∀ p ∈ [str "password=", str " Token: "], Guarded p := by
    rw [List.forall_mem_cons, List.forall_mem_singleton]
    exact ⟨.inl ⟨str "password", 61, rfl, .inl rfl⟩, .inr ⟨1, hrow, rfl⟩⟩
  have hextra : ∀ p ∈ [str "url=/?secret="], Guarded p := by
    rw [List.forall_mem_singleton]
    exact .inl ⟨str "url=/?secret", 61, rfl, .inl rfl⟩
  have hguarded : AllGuardedItems id passwordEvent :=
    ⟨.inr hmessage, .inr ⟨.inl (by decide), .inr ⟨hextra, trivial, trivial⟩, trivial⟩, trivial⟩
  exact ⟨passwordEvent_placed, (secrets_hidden_iff id passwordEvent_placed).1.mpr hguarded⟩

/-- `Authorization: Bearer `, in front of a credential. -/
def bearerEvent : List (Str × EventTemplate) :=
  [(str "message", .text [str "Authorization: Bearer "] [])]

/-- **The credential behind a scheme is sent.** -/
theorem not_secrets_hidden_of_bearer : ¬ SecretsHidden id bearerEvent := by
  intro h
  have hfills : ∀ v, IsSecret v → FillsItems id bearerEvent
      [(str "message", .text (str "Authorization: Bearer " ++ (v ++ [])))] := fun v hv =>
    ⟨_, [], rfl, .inr ⟨[v], ⟨rfl, by simpa using hv⟩, rfl⟩, rfl⟩
  have hsame :=
    h _ _ (hfills (str "one") ⟨by decide, by decide⟩) (hfills (str "two") ⟨by decide, by decide⟩)
  have hone : beforeSend id
    [(str "message", .text (str "Authorization: Bearer " ++ (str "one" ++ [])))]
      = [(str "message", .text (str "Authorization: [Filtered] one"))] := rfl
  have htwo : beforeSend id
    [(str "message", .text (str "Authorization: Bearer " ++ (str "two" ++ [])))]
      = [(str "message", .text (str "Authorization: [Filtered] two"))] := rfl
  rw [hone, htwo] at hsame
  simp only [List.cons.injEq, Prod.mk.injEq, EventValue.text.injEq] at hsame
  exact absurd hsame.1.2 (by decide)

end Telemetry

end FreebsdLaboratory
