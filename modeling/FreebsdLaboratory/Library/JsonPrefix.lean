import FreebsdLaboratory.Library.JsonRoundTrip

/-!
# Texts that are cut short

What the readers have read of a text is read of a longer one as well.  Only a number or a constant
at the end could go on; behind its bracket or its quote a value ends.  So **`loads_append`**: where
both a text that begins with a brace and a longer one can be read, white space is all that has been
added.
-/

namespace Library.Json

open Unicode

variable {s rest x : Str} {v : Value}

/-! ## Tokens -/

lemma skipWhite_append {c : ℕ} (h : skipWhite s = c :: rest) (x : Str) :
    skipWhite (s ++ x) = c :: (rest ++ x) := by
  have hne : (s.dropWhile isWhite).isEmpty = false := by
    change (skipWhite s).isEmpty = false
    rw [h]
    rfl
  rw [skipWhite, List.dropWhile_append, if_neg (by simp [hne]), ← skipWhite, h, List.cons_append]

/-- A string that is read is read of a longer text. -/
lemma readString_append {t : Str} (h : readString s = some (t, rest)) (x : Str) :
    readString (s ++ x) = some (t, rest ++ x) := by
  induction s using readString.induct generalizing t with
  | case1 => cases h
  | case2 s =>
      cases h
      rfl
  | case3 a b c d s ih =>
      rw [readString] at h
      simp only [Option.bind_eq_bind, Option.bind_eq_some_iff, Option.pure_def,
        Option.some.injEq] at h
      obtain ⟨m, hm, ⟨u, rest'⟩, hread, h⟩ := h
      cases h
      simp only [List.cons_append]
      rw [readString, hm, ih hread]
      rfl
  | case4 e s hne ih =>
      rw [readString.eq_4 _ _ hne] at h
      simp only [Option.bind_eq_bind, Option.bind_eq_some_iff, Option.pure_def,
        Option.some.injEq] at h
      obtain ⟨m, hm, ⟨u, rest'⟩, hread, h⟩ := h
      cases h
      -- an escape of one character is none of four digits in the longer text either
      have hu : e ≠ 117 := by
        rintro rfl
        cases hm
      simp only [List.cons_append]
      rw [readString.eq_4 _ _ fun _ _ _ _ _ heq _ => hu heq, hm, ih hread]
      rfl
  | case5 m s h1 h2 h3 hcontrol =>
      rw [readString.eq_5 _ _ h1 h2 h3] at h
      simp [hcontrol] at h
  | case6 m s h1 h2 h3 hcontrol ih =>
      rw [readString.eq_5 _ _ h1 h2 h3] at h
      simp only [hcontrol, if_false, Option.bind_eq_bind, Option.bind_eq_some_iff, Option.pure_def,
        Option.some.injEq] at h
      obtain ⟨⟨u, rest'⟩, hread, h⟩ := h
      cases h
      have hback : m ≠ 92 := fun heq => hcontrol (.inr heq)
      simp only [List.cons_append]
      rw [readString.eq_5 _ _ h1 (fun _ _ _ _ _ heq _ => hback heq) fun _ _ heq _ => hback heq]
      simp only [hcontrol, if_false, ih hread]
      rfl

lemma readConstant_append (h : readConstant s = some (v, rest)) (x : Str) :
    readConstant (s ++ x) = some (v, rest ++ x) := by
  rw [readConstant, Option.map_eq_some_iff] at h
  obtain ⟨c, hc, h⟩ := h
  have hfound : c.1.isPrefixOf s = true := by simpa using List.find?_some hc
  obtain ⟨rest', rfl⟩ := List.isPrefixOf_iff_prefix.mp hfound
  rw [List.drop_left] at h
  cases h
  rw [List.append_assoc, readConstant_of_mem (List.mem_of_find?_eq_some hc)]

lemma startsNumber_of_readNumber {t : Str} (h : readNumber t = some v) (rest : Str) :
    StartsNumber (t ++ rest) := by
  unfold readNumber at h
  split_ifs at h with hfloat hint
  · exact startsNumber_of_isFloatToken hfloat rest
  · exact startsNumber_of_isIntToken hint rest
  · exact startsNumber_of_isIntToken hint rest

/-! ## Values -/

/-- What is read cannot go on: something follows, or it ends with its own bracket or quote. -/
def Closed (s rest : Str) : Prop := rest ≠ [] ∨ ∃ c ∈ s.head?, c = 34 ∨ c = 91 ∨ c = 123

lemma readValue_nil (fuel : ℕ) : readValue fuel [] = none := by
  cases fuel with
  | zero => rfl
  | succ fuel =>
      have hconstant : readConstant [] = none := by decide
      have hnumber : readNumber [] = none := by decide
      rw [readValue.eq_def]
      simp only [hconstant, List.takeWhile_nil, hnumber, Option.map_none]

/-- A value that is a constant or a number. -/
lemma readValue_token {c fuel : ℕ} (hopen : ¬ (c = 34 ∨ c = 91 ∨ c = 123)) (s : Str) :
    readValue (fuel + 1) (c :: s)
      = match readConstant (c :: s) with
        | some found => some found
        | none =>
            let token := (c :: s).takeWhile isNumberChar
            (readNumber token).map fun v => (v, (c :: s).drop token.length) := by
  rw [readValue.eq_def]
  dsimp only
  split
  · next heq => exact absurd (.inl (List.cons.inj heq).1) hopen
  · next heq => exact absurd (.inr (.inl (List.cons.inj heq).1)) hopen
  · next heq => exact absurd (.inr (.inr (List.cons.inj heq).1)) hopen
  · rfl

/-- A constant or a number behind which something follows is read of a longer text. -/
lemma readValue_token_append {c fuel fuel' : ℕ} (hopen : ¬ (c = 34 ∨ c = 91 ∨ c = 123))
    (hrest : rest ≠ []) (h : readValue (fuel + 1) (c :: s) = some (v, rest)) (x : Str) :
    readValue (fuel' + 1) (c :: s ++ x) = some (v, rest ++ x) := by
  rw [readValue_token hopen] at h
  rw [List.cons_append, readValue_token hopen]
  cases hconstant : readConstant (c :: s) with
  | some found =>
      rw [hconstant] at h
      cases h
      have happend := readConstant_append hconstant x
      rw [List.cons_append] at happend
      rw [happend]
  | none =>
      rw [hconstant] at h
      simp only [Option.map_eq_some_iff] at h
      obtain ⟨v, hnumber, h⟩ := h
      cases h
      have hchars : ∀ d ∈ (c :: s).takeWhile isNumberChar, isNumberChar d = true :=
        fun d hd => List.mem_takeWhile_imp hd
      have hdrop : (c :: s).drop ((c :: s).takeWhile isNumberChar).length
          = (c :: s).dropWhile isNumberChar := by
        nth_rewrite 2 [← List.takeWhile_append_dropWhile (p := isNumberChar) (l := c :: s)]
        exact List.drop_left
      rw [hdrop] at hrest ⊢
      -- what follows ends the token, in the longer text too
      obtain ⟨d, rest, hrest'⟩ := List.exists_cons_of_ne_nil hrest
      have hstop : isNumberChar d = false := by
        have hhead := List.head?_dropWhile_not isNumberChar (c :: s)
        rw [hrest'] at hhead
        simpa using hhead
      have hwhole : c :: (s ++ x) = (c :: s).takeWhile isNumberChar ++ (d :: rest ++ x) := by
        rw [← hrest', ← List.append_assoc, List.takeWhile_append_dropWhile, List.cons_append]
      have hnone : readConstant (c :: (s ++ x)) = none := by
        rw [hwhole]
        exact readConstant_of_startsNumber (startsNumber_of_readNumber hnumber _)
      have htoken : (c :: (s ++ x)).takeWhile isNumberChar = (c :: s).takeWhile isNumberChar := by
        rw [hwhole]
        exact takeWhile_token hchars (stops_cons hstop _)
      rw [hnone]
      simp only [htoken, hnumber, Option.map_some]
      rw [hwhole, List.drop_left, hrest']

/-- There is an element to be read. -/
lemma exists_cons_of_readElements {fuel : ℕ} {vs : List Value}
    (h : readElements fuel s = some (vs, rest)) : ∃ c s', s = c :: s' := by
  refine List.exists_cons_of_ne_nil ?_
  rintro rfl
  cases fuel with
  | zero => cases h
  | succ fuel =>
      rw [readElements, readValue_nil] at h
      cases h

/-- There is a key to be read. -/
lemma exists_cons_of_readItems {fuel : ℕ} {before items : List (Str × Value)}
    (h : readItems fuel before s = some (items, rest)) : ∃ s', s = 34 :: s' := by
  cases fuel with
  | zero => cases h
  | succ fuel =>
      rw [readItems.eq_def] at h
      dsimp only at h
      split at h
      · exact ⟨_, rfl⟩
      · cases h

/-- What is read with some fuel is read of a longer text with as much. -/
structure ReadsAhead (fuel : ℕ) : Prop where
  value : ∀ {fuel' s v rest}, fuel ≤ fuel' → Closed s rest → readValue fuel s = some (v, rest) →
    ∀ x, readValue fuel' (s ++ x) = some (v, rest ++ x)
  elements : ∀ {fuel' s vs rest}, fuel ≤ fuel' → readElements fuel s = some (vs, rest) →
    ∀ x, readElements fuel' (s ++ x) = some (vs, rest ++ x)
  items : ∀ {fuel' s before items rest}, fuel ≤ fuel' →
    readItems fuel before s = some (items, rest) →
      ∀ x, readItems fuel' before (s ++ x) = some (items, rest ++ x)

/-- Behind a value in a list or a dictionary something follows. -/
lemma closed_of_skipWhite {c : ℕ} {s' : Str} (h : skipWhite rest = c :: s') : Closed s rest := by
  refine .inl ?_
  rintro rfl
  cases h

theorem readsAhead (fuel : ℕ) : ReadsAhead fuel := by
  induction fuel with
  | zero => exact ⟨fun _ _ => nofun, fun _ => nofun, fun _ => nofun⟩
  | succ fuel ih =>
      constructor
      · intro fuel' s v rest hfuel hclosed h x
        obtain ⟨fuel', rfl⟩ : ∃ n, fuel' = n + 1 := ⟨fuel' - 1, by omega⟩
        have hle : fuel ≤ fuel' := by omega
        cases s with
        | nil => cases (readValue_nil (fuel + 1)).symm.trans h
        | cons c s =>
            by_cases hopen : c = 34 ∨ c = 91 ∨ c = 123
            · rcases hopen with rfl | rfl | rfl
              · rw [readValue, Option.map_eq_some_iff] at h
                obtain ⟨⟨t, rest'⟩, hread, h⟩ := h
                cases h
                rw [List.cons_append, readValue, readString_append hread]
                rfl
              · rw [readValue] at h
                rw [List.cons_append, readValue]
                dsimp only at h ⊢
                split at h
                · next rest' heq =>
                    cases h
                    rw [skipWhite_append heq]
                    rfl
                · next hother =>
                    rw [Option.map_eq_some_iff] at h
                    obtain ⟨⟨xs, rest'⟩, hread, h⟩ := h
                    cases h
                    obtain ⟨c, s', hcons⟩ := exists_cons_of_readElements hread
                    have hne : c ≠ 93 := by
                      rintro rfl
                      exact hother s' hcons
                    rw [hcons] at hread
                    have hahead := ih.elements hle hread x
                    rw [List.cons_append] at hahead
                    rw [skipWhite_append hcons]
                    split
                    · next heq => exact absurd (List.cons.inj heq).1 hne
                    · rw [hahead]
                      rfl
              · rw [readValue] at h
                rw [List.cons_append, readValue]
                dsimp only at h ⊢
                split at h
                · next rest' heq =>
                    cases h
                    rw [skipWhite_append heq]
                    rfl
                · next hother =>
                    rw [Option.map_eq_some_iff] at h
                    obtain ⟨⟨items, rest'⟩, hread, h⟩ := h
                    cases h
                    obtain ⟨s', hcons⟩ := exists_cons_of_readItems hread
                    rw [hcons] at hread
                    have hahead := ih.items hle hread x
                    rw [List.cons_append] at hahead
                    rw [skipWhite_append hcons]
                    simp only [hahead, Option.map_some]
            · refine readValue_token_append hopen ?_ h x
              rcases hclosed with hrest | ⟨d, hd, hd'⟩
              · exact hrest
              · obtain rfl : c = d := Option.some.inj hd
                exact absurd hd' hopen
      · intro fuel' s vs rest hfuel h x
        obtain ⟨fuel', rfl⟩ : ∃ n, fuel' = n + 1 := ⟨fuel' - 1, by omega⟩
        have hle : fuel ≤ fuel' := by omega
        rw [readElements] at h ⊢
        simp only [Option.bind_eq_bind, Option.bind_eq_some_iff] at h
        obtain ⟨⟨v, rest'⟩, hread, h⟩ := h
        split at h
        · next rest'' heq =>
            cases h
            rw [ih.value hle (closed_of_skipWhite heq) hread]
            simp only [Option.bind_eq_bind, Option.bind_some, skipWhite_append heq]
            rfl
        · next rest'' heq =>
            rw [Option.bind_eq_some_iff] at h
            obtain ⟨⟨vs', rest₃⟩, hread', h⟩ := h
            cases h
            obtain ⟨c, s', hcons⟩ := exists_cons_of_readElements hread'
            rw [hcons] at hread'
            rw [ih.value hle (closed_of_skipWhite heq) hread]
            simp only [Option.bind_eq_bind, Option.bind_some, skipWhite_append heq,
              skipWhite_append hcons]
            have hahead := ih.elements hle hread' x
            rw [List.cons_append] at hahead
            rw [hahead]
            rfl
        · cases h
      · intro fuel' s before items rest hfuel h x
        obtain ⟨fuel', rfl⟩ : ∃ n, fuel' = n + 1 := ⟨fuel' - 1, by omega⟩
        have hle : fuel ≤ fuel' := by omega
        obtain ⟨s', rfl⟩ := exists_cons_of_readItems h
        rw [readItems] at h
        rw [List.cons_append, readItems]
        simp only [Option.bind_eq_bind, Option.bind_eq_some_iff] at h
        obtain ⟨⟨key, rest₁⟩, hkey, h⟩ := h
        rw [readString_append hkey]
        simp only [Option.bind_eq_bind, Option.bind_some]
        split at h
        · next rest₂ heq₂ =>
            rw [Option.bind_eq_some_iff] at h
            obtain ⟨⟨v, rest₃⟩, hread, h⟩ := h
            obtain ⟨c₃, s₃, hcons₃⟩ : ∃ c s', skipWhite rest₂ = c :: s' := by
              refine List.exists_cons_of_ne_nil ?_
              intro hnil
              rw [hnil, readValue_nil] at hread
              cases hread
            rw [hcons₃] at hread
            simp only [skipWhite_append heq₂, skipWhite_append hcons₃]
            split at h
            · next rest₄ heq₄ =>
                cases h
                have hahead := ih.value hle (closed_of_skipWhite heq₄) hread x
                rw [List.cons_append] at hahead
                simp only [hahead, Option.bind_some, skipWhite_append heq₄]
                rfl
            · next rest₄ heq₄ =>
                have hahead := ih.value hle (closed_of_skipWhite heq₄) hread x
                rw [List.cons_append] at hahead
                obtain ⟨s₅, hcons₅⟩ := exists_cons_of_readItems h
                rw [hcons₅] at h
                simp only [hahead, Option.bind_some, skipWhite_append heq₄, skipWhite_append hcons₅]
                exact ih.items hle h x
            · cases h
        · cases h

/-- **A text that begins with a brace cannot be cut short**: where it can be read as far as it goes,
only white space is missing. -/
theorem loads_append {w : Value} (hbrace : s.head? = some 123) (h : loads s = some v)
    (hlong : loads (s ++ x) = some w) : v = w ∧ skipWhite x = [] := by
  obtain ⟨s, rfl⟩ : ∃ t, s = 123 :: t := by
    cases s with
    | nil => cases hbrace
    | cons c s => exact ⟨s, by rw [Option.some.inj hbrace]⟩
  have hskip : ∀ t : Str, skipWhite (123 :: t) = 123 :: t := fun t => rfl
  rw [loads, hskip] at h
  rw [loads, List.cons_append, hskip] at hlong
  split at h
  · next v' rest hread =>
      split_ifs at h with hwhite
      obtain rfl := Option.some.inj h
      have hfuel : (123 :: s).length + 1 ≤ (123 :: (s ++ x)).length + 1 := by simp
      have hahead := (readsAhead _).value hfuel (.inr ⟨123, rfl, .inr (.inr rfl)⟩) hread x
      rw [List.cons_append] at hahead
      rw [hahead] at hlong
      simp only at hlong
      split_ifs at hlong with hmore
      refine ⟨Option.some.inj hlong, ?_⟩
      rw [skipWhite, List.dropWhile_append, ← skipWhite, hwhite, List.isEmpty_nil,
        if_pos rfl] at hmore
      exact hmore
  · cases h

end Library.Json
