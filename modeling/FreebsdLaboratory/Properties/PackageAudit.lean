import FreebsdLaboratory.Model.PackageAudit
import Mathlib.Data.List.Dedup
import Mathlib.Tactic

/-!
# What the audit gate excuses

A failed audit is to be excused only for findings of which each is an address of a VuXML page with
an allowlisted id, one for each problem.  The gate compares three counts: the number of the summary,
the lines that its first expression takes, and the distinct ids that its second one takes.  Where
the first takes every `WWW:` line, equal counts leave no room for anything else: an id for each
line, and no id twice.

It does not take a line without white space behind the colon, a summary of no problems agrees with a
text without any line, and a number that is out of range is never found to differ.
-/

namespace FreebsdLaboratory

open Library.Unicode Library.Json

variable {l : Locale} {o : AuditOutput} {line digits id allowed : Str} {auditStatus : ℕ}

/-! ## Words of the allowlist -/

/-- The id is a whole word of the allowlist. -/
def WholeWord (id allowed : Str) : Prop :=
  ∃ before behind, allowed = before ++ id ++ behind ∧ (before = [] ∨ before.getLast? = some 32)
    ∧ (behind = [] ∨ behind.head? = some 32)

/-- **Between blanks a word is found exactly where it is a whole word.** -/
lemma isAllowed_iff : isAllowed allowed id = true ↔ WholeWord id allowed := by
  have hdecide : isAllowed allowed id = true ↔ (32 :: id ++ [32]) <:+: (32 :: allowed ++ [32]) := by
    simp [isAllowed]
  rw [hdecide]
  constructor
  · rintro ⟨s, t, h⟩
    -- the blank in front of the id is the one in front of the allowlist, or one of its own
    have hbefore : ∃ before, (before = [] ∨ before.getLast? = some 32)
        ∧ before ++ id ++ 32 :: t = allowed ++ [32] := by
      cases s with
      | nil => exact ⟨[], .inl rfl, by simpa using h⟩
      | cons c s =>
          refine ⟨s ++ [32], .inr (by simp), ?_⟩
          have htail := congrArg List.tail h
          simpa using htail
    obtain ⟨before, hlast, hbefore⟩ := hbefore
    rcases List.eq_nil_or_concat t with rfl | ⟨behind, c, rfl⟩
    · refine ⟨before, [], ?_, hlast, .inl rfl⟩
      have hcancel : (before ++ id) ++ [32] = allowed ++ [32] := hbefore
      simpa using (List.append_cancel_right hcancel).symm
    · refine ⟨before, 32 :: behind, ?_, hlast, .inr rfl⟩
      have hassoc : (before ++ id ++ 32 :: behind) ++ [c] = allowed ++ [32] := by
        simpa using hbefore
      exact (List.append_inj_left' hassoc rfl).symm
  · rintro ⟨before, behind, rfl, hbefore, hbehind⟩
    have hfront : ∃ s, 32 :: before = s ++ [32] := by
      rcases hbefore with rfl | hlast
      · exact ⟨[], rfl⟩
      · obtain ⟨init, rfl⟩ := List.getLast?_eq_some_iff.mp hlast
        exact ⟨32 :: init, rfl⟩
    have hback : ∃ t, behind ++ [32] = 32 :: t := by
      rcases hbehind with rfl | hhead
      · exact ⟨[], rfl⟩
      · obtain ⟨rest, rfl⟩ := List.head?_eq_some_iff.mp hhead
        exact ⟨rest ++ [32], rfl⟩
    obtain ⟨s, hs⟩ := hfront
    obtain ⟨t, ht⟩ := hback
    refine ⟨s, t, ?_⟩
    calc s ++ (32 :: id ++ [32]) ++ t = (s ++ [32]) ++ id ++ (32 :: t) := by simp
      _ = 32 :: (before ++ id ++ behind) ++ [32] := by rw [← hs, ← ht]; simp

/-! ## Lines -/

lemma isWwwLine_of_isCountedLine (h : isCountedLine l line = true) : isWwwLine l line = true := by
  unfold isCountedLine at h
  unfold isWwwLine
  cases hafter : afterWww l line with
  | none => simp [hafter] at h
  | some rest => rfl

lemma isWwwLine_of_vuxmlId (h : vuxmlId l line = some id) : isWwwLine l line = true := by
  unfold vuxmlId at h
  unfold isWwwLine
  cases hafter : afterWww l line with
  | none => simp [hafter] at h
  | some rest => rfl

lemma vuxmlId_ne_nil (h : vuxmlId l line = some id) : id ≠ [] := by
  unfold vuxmlId at h
  simp only [Option.bind_eq_bind, Option.bind_eq_some_iff] at h
  obtain ⟨_, -, _, -, _, -, _, -, _, -, h⟩ := h
  split_ifs at h with hid
  obtain rfl := Option.some.inj h
  exact hid.1

/-- The lines that begin with `WWW:`. -/
def wwwLines (l : Locale) (o : AuditOutput) : List Str := o.lines.filter (isWwwLine l)

/-- Every `WWW:` line has white space behind the colon. -/
def Spaced (l : Locale) (o : AuditOutput) : Prop :=
  ∀ line ∈ o.lines, isWwwLine l line = true → isCountedLine l line = true

lemma countedLines_sublist : (o.lines.filter (isCountedLine l)).Sublist (wwwLines l o) :=
  List.monotone_filter_right _ fun _ => isWwwLine_of_isCountedLine

/-- **The count of the gate is the number of `WWW:` lines exactly if all of them are spaced.** -/
lemma wwwCount_eq_iff : wwwCount l o = (wwwLines l o).length ↔ Spaced l o := by
  rw [wwwCount, List.countP_eq_length_filter]
  constructor
  · intro h line hline hwww
    have heq := countedLines_sublist.eq_of_length h
    have hmem : line ∈ wwwLines l o := List.mem_filter.mpr ⟨hline, hwww⟩
    rw [← heq] at hmem
    exact (List.mem_filter.mp hmem).2
  · intro h
    have heq : o.lines.filter (isCountedLine l) = wwwLines l o := by
      refine List.filter_congr fun line hline => ?_
      rw [Bool.eq_iff_iff]
      exact ⟨isWwwLine_of_isCountedLine, h line hline⟩
    rw [heq]

/-! ## Ids -/

lemma mem_vuxmlIds : id ∈ vuxmlIds l o ↔ ∃ line ∈ o.lines, vuxmlId l line = some id := by
  simp [vuxmlIds]

lemma vuxmlCount_eq : vuxmlCount l o = (o.lines.filterMap (vuxmlId l)).dedup.length := by
  have hall : ∀ id ∈ vuxmlIds l o, decide (id ≠ []) = true := by
    intro id hid
    obtain ⟨line, -, hline⟩ := mem_vuxmlIds.mp hid
    simpa using vuxmlId_ne_nil hline
  rw [vuxmlCount, List.countP_eq_length.mpr hall, vuxmlIds, List.length_insertionSort]

/-- The ids are those of the `WWW:` lines. -/
lemma filterMap_wwwLines : (wwwLines l o).filterMap (vuxmlId l)
    = o.lines.filterMap (vuxmlId l) := by
  rw [wwwLines, List.filterMap_filter]
  refine List.filterMap_congr fun line _ => ?_
  split_ifs with hwww
  · rfl
  · cases hid : vuxmlId l line with
    | none => rfl
    | some id => exact absurd (isWwwLine_of_vuxmlId hid) hwww

/-- **As many ids as lines leave one for each line, and none of them twice.** -/
lemma ids_of_count (h : vuxmlCount l o = (wwwLines l o).length) :
    ∃ ids : List Str, (wwwLines l o).map (vuxmlId l) = ids.map some ∧ ids.Nodup
      ∧ ∀ id ∈ ids, id ∈ vuxmlIds l o := by
  rw [vuxmlCount_eq, ← filterMap_wwwLines] at h
  have hdedup : ((wwwLines l o).filterMap (vuxmlId l)).dedup.length
      ≤ ((wwwLines l o).filterMap (vuxmlId l)).length := (List.dedup_sublist _).length_le
  have hfilterMap : ((wwwLines l o).filterMap (vuxmlId l)).length ≤ (wwwLines l o).length :=
    List.length_filterMap_le _ _
  have hnodup : ((wwwLines l o).filterMap (vuxmlId l)).Nodup :=
    List.dedup_eq_self.mp ((List.dedup_sublist _).eq_of_length (by omega))
  have hsome : ∀ line ∈ wwwLines l o, (vuxmlId l line).isSome = true :=
    List.filterMap_length_eq_length.mp (by omega)
  have hmap : ∀ lines : List Str, (∀ line ∈ lines, (vuxmlId l line).isSome = true) →
      lines.map (vuxmlId l) = (lines.filterMap (vuxmlId l)).map some := by
    intro lines hlines
    induction lines with
    | nil => rfl
    | cons line lines ih =>
        rw [List.forall_mem_cons] at hlines
        obtain ⟨id, hid⟩ := Option.isSome_iff_exists.mp hlines.1
        rw [List.map_cons, List.filterMap_cons_some hid, List.map_cons, ih hlines.2, hid]
  refine ⟨_, hmap _ hsome, hnodup, fun id hid => ?_⟩
  rw [filterMap_wwwLines] at hid
  obtain ⟨line, hline, h⟩ := List.mem_filterMap.mp hid
  exact mem_vuxmlIds.mpr ⟨line, hline, h⟩

/-! ## The gate -/

/-- An enforced audit that failed is excused. -/
def Excused (l : Locale) (auditStatus : ℕ) (o : AuditOutput) (allowed : Str) : Prop :=
  (pkgAuditRoot l auditStatus o (str "YES") allowed).status = 0

/-- The findings deserve the exception: there is a problem, as many as `WWW:` lines, each of the
lines is the address of a VuXML page, and the ids are distinct words of the allowlist. -/
def Excusable (l : Locale) (o : AuditOutput) (allowed : Str) : Prop :=
  ∃ digits, problemCount l o = some digits ∧ 1 ≤ ofDecimal digits
    ∧ ofDecimal digits = (wwwLines l o).length
    ∧ ∃ ids : List Str, (wwwLines l o).map (vuxmlId l) = ids.map some ∧ ids.Nodup
      ∧ ∀ id ∈ ids, WholeWord id allowed

/-- Some id of the text is not in the allowlist. -/
def Unapproved (l : Locale) (o : AuditOutput) (allowed : Str) : Prop :=
  ∃ line ∈ o.lines, ∃ id, vuxmlId l line = some id ∧ ¬ WholeWord id allowed

lemma testNe_eq_false_iff {count : ℕ} : testNe count digits = false
    ↔ testLimit ≤ ofDecimal digits ∨ count = ofDecimal digits := by
  unfold testNe
  split_ifs with hrange
  · simp only [decide_eq_false_iff_not, not_not, not_le.mpr hrange, false_or]
  · simp only [not_lt.mp hrange, true_or]

/-- **When a failed audit is excused.** -/
lemma excused_iff (hstatus : auditStatus ≠ 0) : Excused l auditStatus o allowed ↔
    allowed ≠ [] ∧ ¬ Unapproved l o allowed ∧ ∃ digits, problemCount l o = some digits
      ∧ (testLimit ≤ ofDecimal digits
        ∨ wwwCount l o = ofDecimal digits ∧ vuxmlCount l o = ofDecimal digits) := by
  have hfind : ((vuxmlIds l o).find? fun id => !isAllowed allowed id) = none
      ↔ ¬ Unapproved l o allowed := by
    rw [List.find?_eq_none]
    constructor
    · rintro h ⟨line, hline, id, hid, hword⟩
      refine h id (mem_vuxmlIds.mpr ⟨line, hline, hid⟩) ?_
      rw [← isAllowed_iff] at hword
      simpa using hword
    · intro h id hid hnot
      obtain ⟨line, hline, hline'⟩ := mem_vuxmlIds.mp hid
      refine h ⟨line, hline, id, hline', fun hword => ?_⟩
      rw [isAllowed_iff.mpr hword] at hnot
      cases hnot
  unfold Excused pkgAuditRoot
  rw [if_neg hstatus, if_neg (by simp)]
  by_cases hallowed : allowed = []
  · simp [hallowed, hstatus]
  · rw [if_neg hallowed]
    unfold reduceFindings
    cases hcount : problemCount l o with
    | none => simp [hstatus]
    | some digits =>
        simp only [hallowed, ne_eq, not_false_eq_true, true_and, Option.some.injEq,
          exists_eq_left']
        by_cases hne : (testNe (wwwCount l o) digits || testNe (vuxmlCount l o) digits) = true
        · rw [if_pos hne]
          constructor
          · intro h
            exact absurd h hstatus
          · rintro ⟨-, h⟩
            rw [Bool.or_eq_true, ← Bool.not_eq_false, ← Bool.not_eq_false, testNe_eq_false_iff,
              testNe_eq_false_iff] at hne
            omega
        · rw [if_neg hne]
          rw [Bool.not_eq_true, Bool.or_eq_false_iff, testNe_eq_false_iff,
            testNe_eq_false_iff] at hne
          cases hsearch : (vuxmlIds l o).find? fun id => !isAllowed allowed id with
          | none =>
              simp only [true_iff]
              exact ⟨hfind.mp hsearch, by omega⟩
          | some id =>
              have hunapproved : ¬ ¬ Unapproved l o allowed := by
                rw [← hfind, hsearch]
                simp
              constructor
              · intro h
                exact absurd h hstatus
              · rintro ⟨h, -⟩
                exact absurd h hunapproved

/-- The number of the summary does not show the difference that the gate looks for, or the findings
are written as the gate expects them. -/
def SummaryFits (l : Locale) (o : AuditOutput) : Prop :=
  ∀ digits, problemCount l o = some digits → ofDecimal digits < testLimit
    ∧ (wwwCount l o ≠ ofDecimal digits ∨ vuxmlCount l o ≠ ofDecimal digits
      ∨ 1 ≤ ofDecimal digits ∧ Spaced l o)

/-- The two gates agree, and what they excuse is excusable. -/
def GateSound (l : Locale) (auditStatus : ℕ) (o : AuditOutput) (allowed : Str) : Prop :=
  pkgAuditRoot l auditStatus o (str "YES") allowed = vmPkgAudit l auditStatus o (str "YES") allowed
    ∧ (Excused l auditStatus o allowed → Excusable l o allowed)

/-- **The gate excuses what it should exactly if** there is no allowlist or it lacks an id of the
text, or the number of the summary is in range and differs from a count, or it is a positive number
in range and each `WWW:` line has white space behind the colon. -/
theorem gate_sound_iff (hstatus : auditStatus ≠ 0) : GateSound l auditStatus o allowed
    ↔ allowed = [] ∨ Unapproved l o allowed ∨ SummaryFits l o := by
  have hagree : pkgAuditRoot l auditStatus o (str "YES") allowed
      = vmPkgAudit l auditStatus o (str "YES") allowed := rfl
  have hlines : (wwwLines l o).length < testLimit :=
    lt_of_le_of_lt (List.length_filter_le _ _) o.length_lt
  simp only [GateSound, hagree, true_and]
  rw [excused_iff hstatus]
  constructor
  · intro h
    by_contra hnot
    simp only [not_or] at hnot
    obtain ⟨hallowed, happroved, hfits⟩ := hnot
    refine hfits fun digits hdigits => ?_
    by_contra hbad
    have hcounts : testLimit ≤ ofDecimal digits
        ∨ wwwCount l o = ofDecimal digits ∧ vuxmlCount l o = ofDecimal digits := by
      by_contra hcounts
      apply hbad
      omega
    obtain ⟨digits', hdigits', hpos, hnumber, -⟩ :=
      h ⟨hallowed, happroved, digits, hdigits, hcounts⟩
    rw [hdigits, Option.some.injEq] at hdigits'
    subst hdigits'
    have hrange : ofDecimal digits < testLimit := hnumber ▸ hlines
    have hwww : wwwCount l o = (wwwLines l o).length := by omega
    exact hbad ⟨hrange, .inr (.inr ⟨hpos, wwwCount_eq_iff.mp hwww⟩)⟩
  · rintro h ⟨hallowed, happroved, digits, hdigits, hcounts⟩
    rcases h with h | h | hfits
    · exact absurd h hallowed
    · exact absurd h happroved
    · obtain ⟨hrange, hfits⟩ := hfits digits hdigits
      have hcounts : wwwCount l o = ofDecimal digits ∧ vuxmlCount l o = ofDecimal digits := by omega
      have hspaced : 1 ≤ ofDecimal digits ∧ Spaced l o := by
        rcases hfits with hwww | hvuxml | hspaced
        · exact absurd hcounts.1 hwww
        · exact absurd hcounts.2 hvuxml
        · exact hspaced
      have hnumber := wwwCount_eq_iff.mpr hspaced.2
      obtain ⟨ids, hids, hnodup, hmem⟩ :=
        ids_of_count (hcounts.2.trans (hcounts.1.symm.trans hnumber))
      refine ⟨digits, hdigits, hspaced.1, hcounts.1.symm.trans hnumber, ids, hids, hnodup, ?_⟩
      intro id hid
      by_contra hword
      obtain ⟨line, hline, hline'⟩ := mem_vuxmlIds.mp (hmem id hid)
      exact happroved ⟨line, hline, id, hline', hword⟩

/-- A finding with its page, and the summary. -/
def oneFinding : AuditOutput where
  lines := [str "    WWW: https://vuxml.FreeBSD.org/freebsd/0b-1.html",
    str "1 problem(s) in 1 package(s) found."]
  length_lt := by decide

theorem gate_sound_iff_of_oneFinding : GateSound .posix 1 oneFinding (str "2c-7 0b-1") := by
  refine (gate_sound_iff (by decide)).mpr (.inr (.inr fun digits hdigits => ?_))
  have hdigits' : problemCount .posix oneFinding = some (str "1") := rfl
  rw [hdigits', Option.some.injEq] at hdigits
  subst hdigits
  exact ⟨by decide, .inr (.inr ⟨by decide, by unfold Spaced; decide⟩)⟩

/-- A summary of no problems. -/
def noFinding : AuditOutput where
  lines := [str "0 problem(s) in 0 package(s) found."]
  length_lt := by decide

/-- A finding with its page, and another one whose address follows the colon at once. -/
def hiddenFinding : AuditOutput where
  lines := [str "WWW: https://vuxml.FreeBSD.org/freebsd/0b-1.html",
    str "WWW:https://example.org/advisory", str "1 problem(s) in 1 package(s) found."]
  length_lt := by decide

set_option maxRecDepth 10000 in
/-- A failed audit without a problem is excused, and so is one with a finding that is no VuXML
page. -/
theorem not_gate_sound_of_hidden : ¬ GateSound .posix 1 noFinding (str "0b-1")
    ∧ ¬ GateSound .posix 1 hiddenFinding (str "0b-1") := by
  constructor
  · rintro ⟨-, hsound⟩
    obtain ⟨digits, hdigits, hpos, -⟩ := hsound rfl
    have hzero : problemCount .posix noFinding = some (str "0") := rfl
    rw [hzero, Option.some.injEq] at hdigits
    subst hdigits
    exact absurd hpos (by decide)
  · rintro ⟨-, hsound⟩
    obtain ⟨digits, hdigits, -, hnumber, -⟩ := hsound rfl
    have hone : problemCount .posix hiddenFinding = some (str "1") := rfl
    rw [hone, Option.some.injEq] at hdigits
    subst hdigits
    exact absurd hnumber (by decide)

end FreebsdLaboratory
