import Mathlib.Tactic.Common
import FreebsdLaboratory.Model.KernelTelemetry

/-!
# The window of reported errors

What an observation depends on is the history of the ids that were recorded, and of it the last 1024
(`Remembers`).  Ids that are no text, or an empty one, are not recorded and do not push others out.
-/

namespace FreebsdLaboratory

open Library Library.Unicode Library.Json

/-! ## The history -/

/-- The id, if it is one that is recorded. -/
def recordable : Value → Option Str
  | .str messageId => if messageId = [] then none else some messageId
  | _ => none

/-- The ids that were recorded, in this order. -/
def recordedIds (messageIds : List Value) (answers : List Bool) : List Str :=
  (messageIds.zip answers).filterMap fun (messageId, first) =>
    if first then recordable messageId else none

lemma recordable_eq_some {messageId : Value} {text : Str} :
    recordable messageId = some text ↔ messageId = .str text ∧ text ≠ [] := by
  cases messageId with
  | str messageId =>
      simp only [recordable, Value.str.injEq]
      split_ifs with hnil
      · simp only [hnil, ne_eq, false_iff, not_and, not_not]
        exact fun h => h.symm
      · simp only [Option.some.injEq, ne_eq, iff_self_and]
        rintro rfl
        exact hnil
  | _ => simp [recordable]

/-- The queue holds the last ids of the history, each once, and the set the same ids. -/
structure Remembers (r : RecentErrors) (history : List Str) : Prop where
  ids : r.recentErrorIds.items = recent maxRecentErrors history
  nodup : r.recentErrorIds.items.Nodup
  set : ∀ messageId, messageId ∈ r.recentErrorIdSet ↔ messageId ∈ r.recentErrorIds.items

namespace RecentErrors

variable {r : RecentErrors} {history : List Str} {messageId : Str}

lemma remembers_fresh : Remembers {} [] where
  ids := by simp [Deque.empty]
  nodup := List.nodup_nil
  set := by simp [Deque.empty]

/-- Giving up the oldest id makes room for one, and changes nothing else. -/
lemma expire_spec (h : Remembers r history) (messageId : Str) :
    r.expire.recentErrorIds.items.length < maxRecentErrors
      ∧ (r.expire.recentErrorIds.append messageId).items = recent maxRecentErrors
        (history ++ [messageId])
      ∧ r.expire.recentErrorIds.items.Sublist r.recentErrorIds.items
      ∧ ∀ other, other ∈ r.expire.recentErrorIdSet ↔ other ∈ r.expire.recentErrorIds.items := by
  have happend : (r.recentErrorIds.append messageId).items
    = recent maxRecentErrors (history ++ [messageId]) := by
    rw [Deque.items_append, h.ids, recent_recent_concat]
  have hle := r.recentErrorIds.length_le
  have hpos : 0 < maxRecentErrors := by decide
  unfold expire
  split_ifs with hfull
  · have hne : r.recentErrorIds.items ≠ [] := by
      intro hnil
      simp [hnil, maxRecentErrors] at hfull
    obtain ⟨oldest, rest, hitems⟩ := List.exists_cons_of_ne_nil hne
    have hnodup := h.nodup
    rw [hitems, List.nodup_cons] at hnodup
    refine ⟨?_, ?_, ?_, ?_⟩
    · simp only [Deque.popleft, List.length_tail]
      omega
    · rw [← happend, ← Deque.append_popleft r.recentErrorIds hne hfull]
    · exact List.tail_sublist _
    · intro other
      simp only [Deque.popleft, Finset.mem_erase, h.set, hitems, List.head_cons, List.tail_cons,
        List.mem_cons]
      constructor
      · rintro ⟨hother, rfl | hrest⟩
        · exact absurd rfl hother
        · exact hrest
      · intro hrest
        refine ⟨?_, .inr hrest⟩
        rintro rfl
        exact hnodup.1 hrest
  · exact ⟨by omega, happend, List.Sublist.refl _, h.set⟩

/-- A new id is recorded. -/
lemma firstObservation_new (h : Remembers r history) (hne : messageId ≠ [])
    (hnew : messageId ∉ recent maxRecentErrors history) :
    (r.firstObservation (.str messageId)).1 = true
      ∧ Remembers (r.firstObservation (.str messageId)).2 (history ++ [messageId]) := by
  have hset : messageId ∉ r.recentErrorIdSet := by
    rw [h.set, h.ids]
    exact hnew
  obtain ⟨hlength, happend, hsublist, hexpired⟩ := expire_spec h messageId
  have hitems : (r.expire.recentErrorIds.append messageId).items
      = r.expire.recentErrorIds.items ++ [messageId] := by
    rw [Deque.items_append]
    exact recent_of_length_le (by rw [List.length_append]; exact hlength)
  have hfresh : messageId ∉ r.expire.recentErrorIds.items := by
    intro hmem
    rw [← h.ids] at hnew
    exact hnew (hsublist.subset hmem)
  simp only [firstObservation, if_neg hne, if_neg hset, true_and]
  refine ⟨happend, ?_, ?_⟩
  · rw [hitems, List.nodup_append]
    refine ⟨hsublist.nodup h.nodup, List.nodup_singleton _, ?_⟩
    rintro other hother _ hsingle rfl
    obtain rfl := List.mem_singleton.mp hsingle
    exact hfresh hother
  · intro other
    rw [Finset.mem_insert, hexpired, hitems, List.mem_append, List.mem_singleton, or_comm]

/-- An id in the window is not observed for the first time, and changes nothing. -/
lemma firstObservation_seen (h : Remembers r history) (hne : messageId ≠ [])
    (hseen : messageId ∈ recent maxRecentErrors history) :
    r.firstObservation (.str messageId) = (false, r) := by
  have hset : messageId ∈ r.recentErrorIdSet := by
    rw [h.set, h.ids]
    exact hseen
  simp only [firstObservation, if_neg hne, if_pos hset]

/-- What is no id is always observed for the first time, and changes nothing. -/
lemma firstObservation_other {value : Value} (h : recordable value = none) :
    r.firstObservation value = (true, r) := by
  cases value with
  | str text =>
      by_cases hnil : text = []
      · simp [firstObservation, hnil]
      · simp [recordable, hnil] at h
  | _ => rfl

/-- One observation. -/
lemma firstObservation_spec (h : Remembers r history) (value : Value) :
    ((r.firstObservation value).1 = false ↔ ∃ text ∈ recent maxRecentErrors history,
      recordable value = some text)
      ∧ Remembers (r.firstObservation value).2
        (history ++ if (r.firstObservation value).1 then (recordable value).toList else []) := by
  cases hrecordable : recordable value with
  | none => simp [firstObservation_other hrecordable, h]
  | some text =>
      obtain ⟨rfl, hne⟩ := recordable_eq_some.mp hrecordable
      by_cases hseen : text ∈ recent maxRecentErrors history
      · simp [firstObservation_seen h hne hseen, h, hseen]
      · obtain ⟨hfirst, hremembers⟩ := firstObservation_new h hne hseen
        simp [hfirst, hremembers, hseen]

/-- One observation after the other. -/
lemma observe_spec (h : Remembers r history) (messageIds : List Value) :
    Remembers (r.observe messageIds).2
      (history ++ recordedIds messageIds (r.observe messageIds).1) := by
  induction messageIds generalizing r history with
  | nil => simpa [observe, recordedIds] using h
  | cons value messageIds ih =>
      have hstep := ih (firstObservation_spec h value).2
      simp only [observe, recordedIds, List.zip_cons_cons, List.filterMap_cons]
      rw [List.append_assoc] at hstep
      cases hfirst : (r.firstObservation value).1 with
      | false => simpa [hfirst, recordedIds] using hstep
      | true => cases hrecordable : recordable value <;>
          simpa [hfirst, hrecordable, recordedIds] using hstep

/-- The id that a message is known by. -/
def messageIdOf (items : List (Str × Value)) : Value :=
  (Value.lookup items (str "msg_id")).getD .none

/-- An error is captured where it is the first one with its id in the window. -/
lemma onError_eq_some (h : Remembers r history) (channel : Option Str) (items : List (Str × Value))
    (content : Value) (values : Value × Value) :
    (r.onError channel (.dict items) content).1 = some values ↔ channel = some (str "iopub")
      ∧ kernelErrorValues (.dict items) content = some values
      ∧ ∀ text ∈ recent maxRecentErrors history, recordable (messageIdOf items) ≠ some text := by
  have hspec := (firstObservation_spec h (messageIdOf items)).1
  have hfirst : (r.firstObservation (messageIdOf items)).1 = true
      ↔ ∀ text ∈ recent maxRecentErrors history, recordable (messageIdOf items) ≠ some text := by
    rw [← Bool.not_eq_false, hspec]
    push Not
    rfl
  rw [← hfirst]
  cases hvalues : kernelErrorValues (.dict items) content with
  | none => simp [onError, hvalues]
  | some captured =>
      by_cases hchannel : channel = some (str "iopub")
      · simp only [onError, hvalues, if_pos hchannel, messageIdOf]
        split_ifs with hobserved <;> simp [hchannel, hobserved]
      · simp [onError, hchannel]

end RecentErrors

/-! ## The window -/

/-- After these answers, an observation is not the first one for the texts in the window, and queue
and set are as they should be. -/
structure KeepsWindow (messageIds : List Value) (answers : List Bool) (r : RecentErrors) :
    Prop where
  answer : ∀ messageId, (r.firstObservation messageId).1 = false ↔ ∃ text, messageId = .str text
    ∧ text ≠ [] ∧ text ∈ recent maxRecentErrors (recordedIds messageIds answers)
  nodup : r.recentErrorIds.items.Nodup
  length_le : r.recentErrorIds.items.length ≤ maxRecentErrors
  set : ∀ messageId, messageId ∈ r.recentErrorIdSet ↔ messageId ∈ r.recentErrorIds.items

/-- **The last ids that were recorded are known, and no others**, after every sequence of
observations. -/
theorem observe_keeps_window (messageIds : List Value) :
    KeepsWindow messageIds (RecentErrors.observe {} messageIds).1
      (RecentErrors.observe {} messageIds).2 := by
  have h := RecentErrors.observe_spec RecentErrors.remembers_fresh messageIds
  rw [List.nil_append] at h
  refine ⟨?_, h.nodup, Deque.length_le _, h.set⟩
  intro messageId
  rw [(RecentErrors.firstObservation_spec h messageId).1]
  constructor
  · rintro ⟨text, hrecent, hrecordable⟩
    obtain ⟨htext, hne⟩ := recordable_eq_some.mp hrecordable
    exact ⟨text, htext, hne, hrecent⟩
  · rintro ⟨text, htext, hne, hrecent⟩
    exact ⟨text, hrecent, recordable_eq_some.mpr ⟨htext, hne⟩⟩

/-- The ids that were observed for the first time, recorded or not. -/
def observedFirst (messageIds : List Value) (answers : List Bool) : List Value :=
  (messageIds.zip answers).filterMap fun (messageId, first) =>
  if first then some messageId else none

/-- Empty ids leave everything as it is. -/
lemma observe_replicate (r : RecentErrors) (n : ℕ) :
    r.observe (List.replicate n (.str [])) = (List.replicate n true, r) := by
  induction n with
  | zero => rfl
  | succ n ih => simp [List.replicate_succ, RecentErrors.observe, RecentErrors.firstObservation, ih]

/-- An id, and then as many empty ones as the queue is long. -/
def emptyIds : List Value := .str [97] :: List.replicate maxRecentErrors (.str [])

/-- An id stays known however many empty ones come after it. -/
theorem window_not_of_all_ids : ¬ ∀ messageIds messageId,
    ((RecentErrors.observe {} messageIds).2.firstObservation messageId).1 = false ↔
      (∃ text, messageId = .str text ∧ text ≠ []) ∧ messageId ∈ recent maxRecentErrors
        (observedFirst messageIds (RecentErrors.observe {} messageIds).1) := by
  intro h
  have hobserve : RecentErrors.observe {} emptyIds = (true :: List.replicate maxRecentErrors true,
      (RecentErrors.firstObservation {} (.str [97])).2) := by
    simp only [emptyIds, RecentErrors.observe, observe_replicate]
    rfl
  have hrecorded : recordedIds emptyIds (true :: List.replicate maxRecentErrors true) = [[97]] := by
    simp [recordedIds, emptyIds, recordable]
  have hwindow := observe_keeps_window emptyIds
  rw [hobserve] at hwindow
  have hknown : ((RecentErrors.observe {} emptyIds).2.firstObservation (.str [97])).1 = false := by
    rw [hobserve, hwindow.answer, hrecorded]
    exact ⟨[97], rfl, by decide, by rw [recent_of_length_le (by decide)]; simp⟩
  have hfirst : observedFirst emptyIds (true :: List.replicate maxRecentErrors true)
      = [.str [97]] ++ List.replicate maxRecentErrors (.str []) := by
    simp [observedFirst, emptyIds]
  have hmem := ((h emptyIds (.str [97])).mp hknown).2
  rw [hobserve, hfirst, recent_append (List.length_replicate ..)] at hmem
  have hempty := List.eq_of_mem_replicate hmem
  simp at hempty

end FreebsdLaboratory
