import FreebsdLaboratory.Properties.EvidenceLog

/-!
# Deriving the stages

`state()` reads the counts that notebook observations report.  A count that is a text goes through
`str.isdigit` and then through `int()`, and the two disagree: a superscript digit is a digit that
`int()` refuses, and so is any text of more than 4300 digits.  Such an event, once accepted, is read
by every later call.
-/

namespace FreebsdLaboratory

open Library Library.Unicode Library.Json

variable {m : LabService} {E : Ed25519} {s : Session} {t : Str} {events : List EvidenceEvent}

/-! ## Texts of digits -/

lemma toNat_ofNat {n : ℕ} (h : n.isValidChar) : (Char.ofNat n).toNat = n := by
  rw [Char.ofNat, dif_pos h]
  rfl

/-- White space, the signs and the underscore. -/
def otherCodes : List ℕ :=
  [9, 10, 11, 12, 13, 28, 29, 30, 31, 32, 133, 160, 5760, 8192, 8193, 8194, 8195, 8196, 8197, 8198,
    8199, 8200, 8201, 8202, 8232, 8233, 8239, 8287, 12288, 45, 43, 95]

/-- A digit is no white space, no sign and no underscore. -/
lemma digit_plain {c : ℕ} (h : isDigitChar c = true) :
    Text.isSpace (Char.ofNat c) = false ∧ Char.ofNat c ≠ '-' ∧ Char.ofNat c ≠ '+'
      ∧ Char.ofNat c ≠ '_' := by
  have hplain : ∀ d : Char, d.toNat ∉ otherCodes → Text.isSpace d = false ∧ d ≠ '-'
    ∧ d ≠ '+' ∧ d ≠ '_' := by
    intro d hd
    refine ⟨?_, ?_, ?_, ?_⟩
    · simp only [Text.isSpace, List.contains_eq_mem, decide_eq_false_iff_not]
      intro hmem
      exact hd (List.mem_append_left [45, 43, 95] hmem)
    all_goals
      rintro rfl
      exact hd (by decide)
  rcases Bool.or_eq_true_iff.mp h with hdecimal | hother
  · refine hplain _ fun hmem => ?_
    simp only [Text.isDigit, Text.digitValue, Option.isSome_map, List.find?_isSome,
      Bool.and_eq_true, decide_eq_true_eq] at hdecimal
    obtain ⟨z, hz, hlow, hhigh⟩ := hdecimal
    have hdisjoint : ∀ z ∈ Text.zeroDigits, ∀ k ∈ otherCodes, ¬ (z ≤ k ∧ k < z + 10) := by
      decide
    exact hdisjoint z hz _ hmem ⟨hlow, hhigh⟩
  · obtain ⟨r, hr, hc⟩ := List.any_eq_true.mp hother
    simp only [Bool.and_eq_true, decide_eq_true_eq] at hc
    have hrange : ∀ r ∈ otherDigits, (r.2 < 0xD800 ∨ 0xE000 ≤ r.1 ∧ r.2 < 0x110000)
        ∧ ∀ k ∈ otherCodes, ¬ (r.1 ≤ k ∧ k ≤ r.2) := by decide
    obtain ⟨hbounds, hdisjoint⟩ := hrange r hr
    have hvalid : c.isValidChar := by
      rcases hbounds with hbounds | hbounds
      · exact .inl (by omega)
      · exact .inr ⟨by omega, by omega⟩
    refine hplain _ fun hmem => ?_
    rw [toNat_ofNat hvalid] at hmem
    exact hdisjoint c hmem hc

/-- A run of digits has a value if every digit is decimal, and then as many digits as characters. -/
lemma digitsValue_digits {cs : List Char} (h : ∀ c ∈ cs, c ≠ '_') (n v : ℕ) :
    (∃ w, Text.digitsValue cs true n v = some (n + cs.length, w)) ∧ cs.all Text.isDigit = true
      ∨ Text.digitsValue cs true n v = none ∧ cs.all Text.isDigit = false := by
  induction cs generalizing n v with
  | nil => exact .inl ⟨⟨v, rfl⟩, rfl⟩
  | cons c cs ih =>
      rw [List.forall_mem_cons] at h
      rw [Text.digitsValue, if_neg h.1, List.all_cons, Text.isDigit]
      cases hd : Text.digitValue c with
      | none => exact .inr ⟨rfl, rfl⟩
      | some d =>
          have hlen : n + (c :: cs).length = n + 1 + cs.length := by
            rw [List.length_cons]
            omega
          rw [hlen]
          simpa using ih h.2 (n + 1) (10 * v + d)

/-- **`int()` refuses a text of digits** that has a digit that is not decimal, or too many. -/
theorem intOfText_eq_none_iff (h : isDigitText t = true) :
    intOfText t = none
      ↔ (∃ c ∈ t, Text.isDigit (Char.ofNat c) = false) ∨ t.length > Text.maxIntDigits := by
  simp only [isDigitText, Bool.and_eq_true, decide_eq_true_eq, List.all_eq_true] at h
  obtain ⟨hne, hdigits⟩ := h
  obtain ⟨c, t, rfl⟩ := List.exists_cons_of_ne_nil hne
  have hplain := fun d hd => digit_plain (hdigits d hd)
  have hstrip : Text.stripNumber ((c :: t).map Char.ofNat) = (c :: t).map Char.ofNat := by
    refine Text.stripNumber_eq_self fun d hd => ?_
    obtain ⟨k, hk, rfl⟩ := List.mem_map.mp hd
    exact (hplain k hk).1
  have hfirst := hplain c (by simp)
  have hrest : ∀ d ∈ t.map Char.ofNat, d ≠ '_' := fun d hd => by
    obtain ⟨k, hk, rfl⟩ := List.mem_map.mp hd
    exact (hplain k (List.mem_cons_of_mem c hk)).2.2.2
  have hall : (∃ d ∈ c :: t, Text.isDigit (Char.ofNat d) = false)
      ↔ ((c :: t).map Char.ofNat).all Text.isDigit = false := by
    rw [List.all_eq_false]
    simp
  have hparse : intOfText (c :: t) = (Text.digitsValue ((c :: t).map Char.ofNat) false 0 0).bind
      fun p => if p.1 ≤ Text.maxIntDigits then some (p.2 : ℤ) else none := by
    unfold intOfText Text.parseInt
    rw [String.toList_ofList, hstrip]
    split
    · rename_i heq
      exact absurd (List.cons.inj heq).1 hfirst.2.1
    · rename_i heq
      exact absurd (List.cons.inj heq).1 hfirst.2.2.1
    · dsimp only
      cases Text.digitsValue ((c :: t).map Char.ofNat) false 0 0 <;> rfl
  rw [hparse, hall, List.map_cons, Text.digitsValue.eq_def]
  simp only [hfirst.2.2.2, if_false, List.all_cons]
  cases hd : Text.digitValue (Char.ofNat c) with
  | none => simp [Text.isDigit, hd]
  | some d =>
      have hlen : (0 + 1 + (t.map Char.ofNat).length) = (c :: t).length := by
        rw [List.length_map, List.length_cons]
        omega
      rcases digitsValue_digits hrest (0 + 1)
        (10 * 0 + d) with ⟨⟨w, hw⟩, hdecimal⟩ | ⟨hnone, hother⟩
      · rw [hlen] at hw
        simp only [hw, Option.bind_some, Text.isDigit, hd, hdecimal,
          Option.isSome_some, Bool.and_self, Bool.true_eq_false, false_or]
        split_ifs with hshort
        · simpa using hshort
        · simpa using hshort
      · simp only [hnone]
        simp [Text.isDigit, hd, hother]

/-! ## Counts -/

/-- A text that `str.isdigit` accepts and `int()` refuses. -/
def Unreadable : Value → Prop
  | .str t => isDigitText t = true
      ∧ ((∃ c ∈ t, Text.isDigit (Char.ofNat c) = false) ∨ t.length > Text.maxIntDigits)
  | _ => False

lemma isPositiveInt_eq_none_iff (v : Value) : isPositiveInt v = none ↔ Unreadable v := by
  cases v with
  | str t =>
      rw [isPositiveInt, Unreadable]
      split_ifs with hdigits
      · rw [Option.map_eq_none_iff, intOfText_eq_none_iff hdigits]
        simp [hdigits]
      · simp [hdigits]
  | _ => simp [isPositiveInt, Unreadable]

/-- The event is an observation with an unreadable count. -/
def EvidenceEvent.Unreadable (e : EvidenceEvent) : Prop :=
  e.kind = notebookContext ∧ FreebsdLaboratory.Unreadable e.markdownCells

/-- The event is an observation with a positive count. -/
def EvidenceEvent.Explains (e : EvidenceEvent) : Prop :=
  e.kind = notebookContext ∧ isPositiveInt e.markdownCells = some true

/-- The derivation gets stuck at an unreadable count with no positive one before it. -/
lemma anyExplained_eq_none_iff : anyExplained events = none ↔
    ∃ before e behind, events = before ++ e :: behind ∧ e.Unreadable
      ∧ ∀ e' ∈ before, ¬ e'.Explains := by
  induction events with
  | nil => simp [anyExplained]
  | cons first events ih =>
      have hcons : (∃ before e behind, first :: events = before ++ e :: behind ∧ e.Unreadable
          ∧ ∀ e' ∈ before, ¬ e'.Explains)
          ↔ first.Unreadable ∨ ¬ first.Explains ∧ anyExplained events = none := by
        rw [ih]
        constructor
        · rintro ⟨_ | ⟨b, before⟩, e, behind, heq, he, hbefore⟩
          · obtain ⟨rfl, -⟩ := List.cons.inj heq
            exact .inl he
          · obtain ⟨rfl, rfl⟩ := List.cons.inj heq
            rw [List.forall_mem_cons] at hbefore
            exact .inr ⟨hbefore.1, before, e, behind, rfl, he, hbefore.2⟩
        · rintro (he | ⟨hfirst, before, e, behind, rfl, he, hbefore⟩)
          · exact ⟨[], first, events, rfl, he, by simp⟩
          · exact ⟨first :: before, e, behind, rfl, he, List.forall_mem_cons.mpr ⟨hfirst, hbefore⟩⟩
      rw [hcons, anyExplained, EvidenceEvent.Unreadable, EvidenceEvent.Explains]
      rw [← isPositiveInt_eq_none_iff]
      by_cases hkind : first.kind = notebookContext
      · cases hcount : isPositiveInt first.markdownCells with
        | none => simp [hkind]
        | some positive => cases positive <;> simp [hkind]
      · simp [hkind]

lemma completedStages_returns_iff :
    (∃ stages, completedStages events = .ok stages) ↔ anyExplained events ≠ none := by
  unfold completedStages
  cases anyExplained events with
  | none => simp [throw, throwThe, MonadExceptOf.throw]
  | some explained => simp [pure, Except.pure]

/-! ## Runs -/

/-- Every unreadable count comes after a positive one. -/
def CountsReadable (events : List EvidenceEvent) : Prop :=
  ∀ before e behind, events = before ++ e :: behind → e.Unreadable → ∃ e' ∈ before, e'.Explains

lemma state_returns_iff {config : SigningConfig} (hsigning : m.signingConfig = .ok config) :
    (∃ v, m.state s = .ok v) ↔ CountsReadable s.events := by
  have hstages : (∃ v, m.state s = .ok v) ↔ ∃ stages, completedStages s.events = .ok stages := by
    unfold LabService.state
    rw [hsigning]
    cases completedStages s.events with
    | error e => simp [bind, Except.bind]
    | ok stages => simp [bind, Except.bind, pure, Except.pure]
  rw [hstages, completedStages_returns_iff, ne_eq, anyExplained_eq_none_iff, CountsReadable]
  push Not
  rfl

/-- The session after calls, one after the other. -/
def LabService.afterAll (m : LabService) (E : Ed25519) (calls : List SessionCall) (s : Session) :
    Session :=
  calls.foldl (fun s call => m.after E call s) s

/-- No event is ever taken back. -/
def Extends (s s' : Session) : Prop := s.events <+: s'.events

lemma Extends.trans (a b c : Session) (h : Extends a b) (h' : Extends b c) : Extends a c :=
  List.IsPrefix.trans h h'

lemma extends_append (bytes : Bytes) (a : AppendAnswer) : Steps Extends (m.append bytes a) := by
  intro s
  unfold LabService.append
  cases a with
  | raises => exact List.prefix_rfl
  | writes missing synced closed =>
      dsimp only
      rw [serviceM_bind, serviceM_get]
      dsimp only
      split_ifs <;> exact List.prefix_rfl

lemma extends_record (kind : Str) (payload : Value) (source : Str) (now : String)
    (a : AppendAnswer) : Steps Extends (m.record kind payload source now a) := by
  intro s
  rw [record_eq]
  cases m.nextEvent kind payload source now s with
  | error e => exact List.prefix_rfl
  | ok next =>
      have happend := extends_append (m := m) (next.2 ++ [10]) a s
      dsimp only
      rcases hrun : m.append (next.2 ++ [10]) a s with ⟨_ | _, s'⟩
      · rwa [hrun] at happend
      · rw [hrun] at happend
        exact List.IsPrefix.trans happend (List.prefix_append _ _)

/-- **The step lemma**: a call only adds events. -/
theorem extends_after (call : SessionCall) (s : Session) : Extends s (m.after E call s) := by
  cases call with
  | record r kind payload now a =>
      rw [(after_record r kind payload now a).2]
      unfold LabService.recordEvent
      split
      · split_ifs
        · exact extends_record _ payload _ now a s
        · exact List.prefix_rfl
      · exact List.prefix_rfl
  | exportBundle a =>
      rw [after_export, Extends, (steps_export a s).1]

/-- **The run lemma**. -/
theorem extends_afterAll (calls : List SessionCall) (s : Session) :
    Extends s (m.afterAll E calls s) := by
  induction calls generalizing s with
  | nil => exact List.prefix_rfl
  | cons call calls ih => exact .trans _ _ _ (extends_after call s) (ih _)

lemma CountsReadable.of_prefix {shorter : List EvidenceEvent} (h : CountsReadable events)
    (hle : shorter <+: events) : CountsReadable shorter := by
  obtain ⟨rest, rfl⟩ := hle
  intro before e behind heq he
  refine h before e (behind ++ rest) ?_ he
  rw [heq, List.append_assoc, List.cons_append]

/-- **`state()` returns after each call of a run if and only if** every unreadable count among the
accepted events comes after a positive one. -/
theorem state_returns_after_each_iff {config : SigningConfig}
    (hsigning : m.signingConfig = .ok config) (calls : List SessionCall) :
    (∀ n, ∃ v, m.state (m.afterAll E (calls.take n) Session.fresh) = .ok v)
      ↔ CountsReadable (m.afterAll E calls Session.fresh).events := by
  constructor
  · intro h
    have hlast := h calls.length
    rw [List.take_length] at hlast
    exact (state_returns_iff hsigning).mp hlast
  · intro h n
    refine (state_returns_iff hsigning).mpr (h.of_prefix ?_)
    have hsplit : m.afterAll E calls Session.fresh
        = m.afterAll E (calls.drop n) (m.afterAll E (calls.take n) Session.fresh) := by
      rw [LabService.afterAll, LabService.afterAll, LabService.afterAll, ← List.foldl_append,
        List.take_append_drop]
    rw [hsplit]
    exact extends_afterAll _ _

/-- An observation with this text as the count of markdown cells. -/
def countObservation (count : Str) : SessionCall :=
  .record .client (.str notebookContext) (.dict [(str "markdown_cells", .str count)])
    "2026-01-01T00:00:01+00:00" (.writes 0 true true)

/-- An observation whose count is a superscript two. -/
def superscriptCount : SessionCall := countObservation [0xB2]

/-- A count in digits, an empty one, and a superscript two behind them. -/
theorem state_returns_after_each_iff_of_counts :
    ((∀ n, ∃ v, plainService.state (plainService.afterAll .single
        ([countObservation (str "12"), countObservation []].take n) Session.fresh) = .ok v)
      ↔ CountsReadable (plainService.afterAll .single
          [countObservation (str "12"), countObservation []] Session.fresh).events)
    ∧ ((∀ n, ∃ v, plainService.state (plainService.afterAll .single
        ([countObservation (str "12"), superscriptCount].take n) Session.fresh) = .ok v)
      ↔ CountsReadable (plainService.afterAll .single
          [countObservation (str "12"), superscriptCount] Session.fresh).events) := by
  have hsigning : plainService.signingConfig = .ok .disabled := rfl
  exact ⟨state_returns_after_each_iff hsigning _, state_returns_after_each_iff hsigning _⟩

/-- The observation is accepted, and `state()` raises from then on. -/
theorem superscript_count_stops_state :
    (plainService.after .single superscriptCount Session.fresh).events.length = 1
      ∧ ¬ ∃ v, plainService.state (plainService.after .single superscriptCount Session.fresh)
        = .ok v := by
  refine ⟨by decide +kernel, ?_⟩
  rintro ⟨v, hv⟩
  have hraises : (plainService.state
      (plainService.after .single superscriptCount Session.fresh)).isOk = false := by
    decide +kernel
  rw [hv] at hraises
  cases hraises

end FreebsdLaboratory
