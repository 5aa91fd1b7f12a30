import FreebsdLaboratory.Library.Text

/-!
# Words of a text

How `str.split()` takes a text apart: a word is read off together with what follows it, which is
nothing or begins with white space.
-/

namespace Library.Text

/-- A word: characters, none of them white space. -/
structure IsWord (w : List Char) : Prop where
  ne_nil : w ≠ []
  no_space : ∀ c ∈ w, isSpace c = false

/-- White space. -/
def Spaces (cs : List Char) : Prop := ∀ c ∈ cs, isSpace c = true

/-- Where a word can end: in front of white space, or at the end of the text. -/
def EndsWord (rest : List Char) : Prop := ∀ c ∈ rest.head?, isSpace c = true

lemma splitWords_cons_space {c : Char} (h : isSpace c = true) (cs : List Char) :
    splitWords (c :: cs) = splitWords cs := by
  have hsplit : (c :: cs).splitOnP isSpace = [] :: cs.splitOnP isSpace :=
    List.splitOnP_append_cons_of_forall_mem (show ∀ d ∈ ([] : List Char), isSpace d = false by simp)
      c h cs
  simp [splitWords, hsplit]

lemma splitWords_spaces {gap : List Char} (h : Spaces gap) (cs : List Char) :
    splitWords (gap ++ cs) = splitWords cs := by
  induction gap with
  | nil => rfl
  | cons c gap ih =>
      rw [List.cons_append, splitWords_cons_space (h c (by simp))]
      exact ih fun d hd => h d (by simp [hd])

/-- **A word in front is the first word.** -/
theorem splitWords_word {w rest : List Char} (hw : IsWord w) (hrest : EndsWord rest) :
    splitWords (w ++ rest) = w :: splitWords rest := by
  cases rest with
  | nil => simp [splitWords, List.splitOnP_eq_singleton hw.no_space, hw.ne_nil]
  | cons c rest =>
      have hc : isSpace c = true := hrest c (by simp)
      rw [splitWords_cons_space hc, splitWords,
        List.splitOnP_append_cons_of_forall_mem hw.no_space c hc rest]
      simp [splitWords, hw.ne_nil]

/-- The first word stands behind white space, and the other words are those of the rest. -/
theorem exists_of_splitWords {cs w : List Char} {ws : List (List Char)}
    (h : splitWords cs = w :: ws) :
    ∃ gap rest, cs = gap ++ w ++ rest ∧ Spaces gap ∧ IsWord w ∧ EndsWord rest
      ∧ splitWords rest = ws := by
  induction cs with
  | nil => simp [splitWords] at h
  | cons c cs ih =>
      by_cases hc : isSpace c = true
      · rw [splitWords_cons_space hc] at h
        obtain ⟨gap, rest, rfl, hgap, hw, hrest, hws⟩ := ih h
        refine ⟨c :: gap, rest, rfl, ?_, hw, hrest, hws⟩
        intro d hd
        rcases List.mem_cons.mp hd with rfl | hd
        · exact hc
        · exact hgap d hd
      · have hword : IsWord ((c :: cs).takeWhile (!isSpace ·)) := by
          constructor
          · simp [hc]
          · intro d hd
            simpa using List.mem_takeWhile_imp hd
        have hrest : EndsWord ((c :: cs).dropWhile (!isSpace ·)) := by
          intro d hd
          have hhead := List.head?_dropWhile_not (!isSpace ·) (c :: cs)
          rw [Option.mem_def.mp hd] at hhead
          simpa using hhead
        have hsplit := splitWords_word hword hrest
        rw [List.takeWhile_append_dropWhile, h, List.cons.injEq] at hsplit
        obtain ⟨rfl, rfl⟩ := hsplit
        exact ⟨[], _, by rw [List.nil_append, List.takeWhile_append_dropWhile], by simp [Spaces],
          hword, hrest, rfl⟩

/-- Stripped text does not begin with white space. -/
theorem head?_stripChars {cs : List Char} : ∀ c ∈ (stripChars cs).head?, isSpace c = false := by
  intro c hc
  have hpre : stripChars cs <+: cs.dropWhile isSpace := List.rdropWhile_prefix isSpace _
  have hhead : (cs.dropWhile isSpace).head? = some c := by
    obtain ⟨t, ht⟩ := hpre
    rw [← ht, List.head?_append, Option.mem_def.mp hc]
    rfl
  have hnot := List.head?_dropWhile_not isSpace cs
  rw [hhead] at hnot
  simpa using hnot

/-- Text that neither begins nor ends with white space is stripped already. -/
theorem stripChars_of_words {w v middle : List Char} (hw : IsWord w) (hv : IsWord v) :
    stripChars (w ++ middle ++ v) = w ++ middle ++ v := by
  have hleft : (w ++ middle ++ v).dropWhile isSpace = w ++ middle ++ v := by
    cases w with
    | nil => exact absurd rfl hw.ne_nil
    | cons c w => simp [hw.no_space c (by simp)]
  rw [stripChars, hleft]
  cases v using List.reverseRecOn with
  | nil => exact absurd rfl hv.ne_nil
  | append_singleton v c => simp [← List.append_assoc, hv.no_space c (by simp)]

end Library.Text
