import FreebsdLaboratory.Properties.Stages

/-!
# The governing rule

The stages that a session has completed are a function of the events that were accepted: they only
grow, they do not depend on the order, and beyond `observed` and `explained` each one stands for a
machine event.  All of this is so as long as the stages can be derived at all, in every order; one
observation whose count `int()` refuses is enough to break it (`trusted_iff`).
-/

namespace FreebsdLaboratory

open Library Library.Unicode Library.Json

variable {m : LabService} {E : Ed25519} {s : Session} {events events' : List EvidenceEvent}
variable {stages : List String} {stage : String} {calls : List SessionCall}

/-! ## Stages of a list of events -/

/-- Where all counts are readable, a positive one is found. -/
lemma anyExplained_of_readable (h : ∀ e ∈ events, ¬ e.Unreadable) :
    ∃ explained, anyExplained events = some explained ∧
      (explained = true ↔ ∃ e ∈ events, e.Explains) := by
  induction events with
  | nil => exact ⟨false, rfl, by simp⟩
  | cons e events ih =>
      obtain ⟨he, hrest⟩ := List.forall_mem_cons.mp h
      obtain ⟨explained, hexplained, hiff⟩ := ih hrest
      by_cases hkind : e.kind = notebookContext
      · cases hcount : isPositiveInt e.markdownCells with
        | none => exact absurd ⟨hkind, (isPositiveInt_eq_none_iff _).mp hcount⟩ he
        | some positive =>
            cases positive with
            | true =>
                refine ⟨true, by simp [anyExplained, hkind, hcount], ?_⟩
                simp only [true_iff]
                exact ⟨e, List.mem_cons_self, hkind, hcount⟩
            | false =>
                refine ⟨explained, by simp [anyExplained, hkind, hcount, hexplained], ?_⟩
                simp [EvidenceEvent.Explains, hcount, hiff]
      · refine ⟨explained, by simp [anyExplained, hkind, hexplained], ?_⟩
        simp [EvidenceEvent.Explains, hkind, hiff]

/-- **The stages that are completed**, where they can be derived. -/
lemma mem_completedStages (h : completedStages events = .ok stages) :
    stage ∈ stages ↔ (∃ kind, (kind, stage) ∈ stageOfKind ∧ kind ∈ events.map EvidenceEvent.kind)
      ∨ stage = "explained" ∧ anyExplained events = some true := by
  unfold completedStages at h
  cases hany : anyExplained events with
  | none =>
      rw [hany] at h
      cases h
  | some explained =>
      rw [hany] at h
      obtain rfl := Except.ok.inj h
      cases explained with
      | false => simp
      | true => simp [or_comm]

/-- **Without unreadable counts** the stages can be derived, and depend on which events there
are. -/
lemma completedStages_of_readable (h : ∀ e ∈ events, ¬ e.Unreadable) :
    ∃ stages, completedStages events = .ok stages ∧ ∀ stage, stage ∈ stages ↔
      (∃ kind, (kind, stage) ∈ stageOfKind ∧ ∃ e ∈ events, e.kind = kind)
        ∨ stage = "explained" ∧ ∃ e ∈ events, e.Explains := by
  obtain ⟨explained, hexplained, hiff⟩ := anyExplained_of_readable h
  have hreturns : anyExplained events ≠ none := by simp [hexplained]
  obtain ⟨stages, hstages⟩ := completedStages_returns_iff.mpr hreturns
  refine ⟨stages, hstages, fun stage => ?_⟩
  rw [mem_completedStages hstages, hexplained, Option.some.injEq, hiff]
  simp only [List.mem_map]

/-! ## Accepted events -/

/-- A call to record an event of this kind was accepted. -/
def LabService.Accepted (m : LabService) (E : Ed25519) (calls : List SessionCall) (r : Recorder)
    (kind : Str) : Prop :=
  ∃ before payload now a behind e, calls = before ++ .record r (.str kind) payload now a :: behind ∧
    (m.recordEvent r (.str kind) payload now a (m.afterAll E before Session.fresh)).1 = .ok e

/-- **What a call does to the events**: nothing, or it is accepted and adds its own. -/
lemma events_after (call : SessionCall) (s : Session) : (m.after E call s).events = s.events ∨
    ∃ r kind payload now a e, call = .record r (.str kind) payload now a ∧ kind ∈ r.kinds ∧
      (m.recordEvent r (.str kind) payload now a s).1 = .ok e ∧ e.kind = kind ∧
      (m.after E call s).events = s.events ++ [e] := by
  cases call with
  | exportBundle a => exact .inl (by rw [after_export, (steps_export a s).1])
  | record r kind payload now a =>
      rw [(after_record r kind payload now a).2]
      cases kind with
      | str kind =>
          unfold LabService.recordEvent
          dsimp only
          split_ifs with hkind
          · rw [record_eq]
            cases hnext : m.nextEvent kind payload r.source now s with
            | error e => exact .inl rfl
            | ok next =>
                obtain ⟨e, line⟩ := next
                have hsame : (m.append (line ++ [10]) a s).2.events = s.events := by
                  cases a with
                  | raises => rfl
                  | writes missing synced closed =>
                      unfold LabService.append
                      dsimp only
                      rw [serviceM_bind, serviceM_get]
                      dsimp only
                      split_ifs <;> rfl
                rcases hrun : m.append (line ++ [10]) a s with ⟨_ | _, s'⟩
                · rw [hrun] at hsame
                  exact .inl (by simpa only [hrun] using hsame)
                · rw [hrun] at hsame
                  have hkind' : e.kind = kind := (nextEvent_spec hnext).2.2.1
                  refine .inr ⟨r, kind, payload, now, a, e, rfl, by simpa using hkind, ?_, hkind',
                    ?_⟩
                  · rw [if_pos hkind, record_eq, hnext]
                    simp only [hrun]
                  · have hsame' : s'.events = s.events := hsame
                    simp only [hrun, hsame']
          · exact .inl rfl
      | _ => exact .inl rfl

lemma afterAll_concat (calls : List SessionCall) (call : SessionCall) (s : Session) :
    m.afterAll E (calls ++ [call]) s = m.after E call (m.afterAll E calls s) := by
  simp [LabService.afterAll]

/-- **Every event of a session was accepted** through an entry point that allows its kind. -/
lemma accepted_of_mem (e : EvidenceEvent)
    (he : e ∈ (m.afterAll E calls Session.fresh).events) :
    ∃ r, e.kind ∈ r.kinds ∧ m.Accepted E calls r e.kind := by
  induction calls using List.reverseRecOn with
  | nil => simp [LabService.afterAll, Session.fresh] at he
  | append_singleton calls call ih =>
      have hbefore : e ∈ (m.afterAll E calls Session.fresh).events →
          ∃ r, e.kind ∈ r.kinds ∧ m.Accepted E (calls ++ [call]) r e.kind := by
        intro he
        obtain ⟨r, hr, before, payload, now, a, behind, e', rfl, haccepted⟩ := ih he
        exact ⟨r, hr, before, payload, now, a, behind ++ [call], e', by simp, haccepted⟩
      rw [afterAll_concat] at he
      rcases events_after (m := m) (E := E) call (m.afterAll E calls Session.fresh) with
        hsame | ⟨r, kind, payload, now, a, e', rfl, hkind, haccepted, rfl, hevents⟩
      · rw [hsame] at he
        exact hbefore he
      · rw [hevents] at he
        rcases List.mem_append.mp he with he | he
        · exact hbefore he
        · obtain rfl := List.mem_singleton.mp he
          exact ⟨r, hkind, calls, payload, now, a, [], e, by simp, haccepted⟩

/-- The two entry points allow different kinds. -/
lemma recorder_of_machine_kind {r : Recorder} {kind : Str} (h : kind ∈ r.kinds)
    (hmachine : kind ∈ machineEventKinds) : r = .machine := by
  cases r with
  | machine => rfl
  | client =>
      have hdisjoint : ∀ kind ∈ clientEventKinds, kind ∉ machineEventKinds := by decide
      exact absurd hmachine (hdisjoint kind h)

/-! ## Runs -/

/-- What an event says about the stages. -/
def EvidenceEvent.content (e : EvidenceEvent) : Str × Items := (e.kind, e.payload)

/-- **The governing rule** for a run: the completed stages can be derived throughout and never
shrink, accepted events in another order complete the same ones, each stage beyond `observed` and
`explained` stands for a machine event that was accepted as one, and a run of browser calls
completes no other. -/
structure LabService.Trusted (m : LabService) (E : Ed25519) (calls : List SessionCall) : Prop where
  grows : ∀ i j, i ≤ j → ∃ stages stages',
    completedStages (m.afterAll E (calls.take i) Session.fresh).events = .ok stages
      ∧ completedStages (m.afterAll E (calls.take j) Session.fresh).events = .ok stages'
      ∧ stages ⊆ stages'
  unordered : ∀ events' : List EvidenceEvent,
    (events'.map EvidenceEvent.content).Perm
      ((m.afterAll E calls Session.fresh).events.map EvidenceEvent.content) →
    ∃ stages stages', completedStages (m.afterAll E calls Session.fresh).events = .ok stages
      ∧ completedStages events' = .ok stages' ∧ ∀ stage, stage ∈ stages ↔ stage ∈ stages'
  machine : ∀ stages kind stage,
    completedStages (m.afterAll E calls Session.fresh).events = .ok stages →
    stage ∈ stages → (kind, stage) ∈ stageOfKind → kind ∈ machineEventKinds →
    m.Accepted E calls .machine kind
  browser : ∀ stages,
    completedStages (m.afterAll E calls Session.fresh).events = .ok stages →
    (∀ r kind payload now a, .record r kind payload now a ∈ calls → r = .client) →
    stages ⊆ ["observed", "explained"]

lemma unreadable_of_content {e e' : EvidenceEvent} (h : e.content = e'.content) :
    e.Unreadable ↔ e'.Unreadable := by
  obtain ⟨hkind, hpayload⟩ := Prod.mk.inj h
  simp [EvidenceEvent.Unreadable, EvidenceEvent.markdownCells, hkind, hpayload]

lemma explains_of_content {e e' : EvidenceEvent} (h : e.content = e'.content) :
    e.Explains ↔ e'.Explains := by
  obtain ⟨hkind, hpayload⟩ := Prod.mk.inj h
  simp [EvidenceEvent.Explains, EvidenceEvent.markdownCells, hkind, hpayload]

/-- A property of the contents holds of an event of both lists or of none. -/
lemma exists_of_contents {P : EvidenceEvent → Prop}
    (hP : ∀ e e' : EvidenceEvent, e.content = e'.content → (P e ↔ P e'))
    (h : (events'.map EvidenceEvent.content) ⊆ (events.map EvidenceEvent.content))
    (he : ∃ e ∈ events', P e) : ∃ e ∈ events, P e := by
  obtain ⟨e, hmem, he⟩ := he
  obtain ⟨e', hmem', hcontent⟩ := List.mem_map.mp (h (List.mem_map_of_mem hmem))
  exact ⟨e', hmem', (hP e' e hcontent).mpr he⟩

/-- **The stages of readable events depend on the contents only**, not on their order. -/
lemma stages_unordered (h : ∀ e ∈ events, ¬ e.Unreadable)
    (hperm : (events'.map EvidenceEvent.content).Perm (events.map EvidenceEvent.content)) :
    ∃ stages stages', completedStages events = .ok stages ∧ completedStages events' = .ok stages'
      ∧ ∀ stage, stage ∈ stages ↔ stage ∈ stages' := by
  have hback := hperm.symm.subset
  have h' : ∀ e ∈ events', ¬ e.Unreadable := by
    intro e he hunreadable
    obtain ⟨e', he', hunreadable'⟩ :=
      exists_of_contents (fun _ _ => unreadable_of_content) hperm.subset ⟨e, he, hunreadable⟩
    exact h e' he' hunreadable'
  obtain ⟨stages, hstages, hmem⟩ := completedStages_of_readable h
  obtain ⟨stages', hstages', hmem'⟩ := completedStages_of_readable h'
  have hkind : ∀ kind, (∃ e ∈ events, e.kind = kind) ↔ ∃ e ∈ events', e.kind = kind := by
    intro kind
    have hP : ∀ e e' : EvidenceEvent, e.content = e'.content →
      (e.kind = kind ↔ e'.kind = kind) := by
      intro e e' hcontent
      rw [(Prod.mk.inj hcontent).1]
    exact ⟨exists_of_contents hP hback, exists_of_contents hP hperm.subset⟩
  have hexplains : (∃ e ∈ events, e.Explains) ↔ ∃ e ∈ events', e.Explains :=
    ⟨exists_of_contents (fun _ _ => explains_of_content) hback,
      exists_of_contents (fun _ _ => explains_of_content) hperm.subset⟩
  refine ⟨stages, stages', hstages, hstages', fun stage => ?_⟩
  simp only [hmem, hmem', hkind, hexplains]

/-- **The stages of readable events grow** with the events. -/
lemma stages_grow (h : ∀ e ∈ events, ¬ e.Unreadable) {shorter : List EvidenceEvent}
    (hle : shorter <+: events) : ∃ stages stages', completedStages shorter = .ok stages
      ∧ completedStages events = .ok stages' ∧ stages ⊆ stages' := by
  have hsubset := hle.subset
  obtain ⟨stages, hstages, hmem⟩ := completedStages_of_readable fun e he => h e (hsubset he)
  obtain ⟨stages', hstages', hmem'⟩ := completedStages_of_readable h
  refine ⟨stages, stages', hstages, hstages', fun stage hstage => (hmem' stage).mpr ?_⟩
  rcases (hmem stage).mp hstage with ⟨kind, hkind, e, he, heq⟩ | ⟨rfl, e, he, hexplains⟩
  · exact .inl ⟨kind, hkind, e, hsubset he, heq⟩
  · exact .inr ⟨rfl, e, hsubset he, hexplains⟩

lemma afterAll_append (before behind : List SessionCall) (s : Session) :
    m.afterAll E (before ++ behind) s = m.afterAll E behind (m.afterAll E before s) := by
  simp [LabService.afterAll]

lemma extends_take {i j : ℕ} (h : i ≤ j) (s : Session) :
    Extends (m.afterAll E (calls.take i) s) (m.afterAll E (calls.take j) s) := by
  have hsplit := List.take_append_drop i (calls.take j)
  rw [List.take_take, Nat.min_eq_left h] at hsplit
  rw [← hsplit, afterAll_append]
  exact extends_afterAll _ _

/-- A machine stage stands for an event that was accepted as one. -/
lemma machine_stage_accepted {kind : Str}
    (hstages : completedStages (m.afterAll E calls Session.fresh).events = .ok stages)
    (hstage : stage ∈ stages) (hkind : (kind, stage) ∈ stageOfKind)
    (hmachine : kind ∈ machineEventKinds) : m.Accepted E calls .machine kind := by
  have hinj : ∀ p ∈ stageOfKind, ∀ q ∈ stageOfKind, p.2 = q.2 → p = q := by decide
  have hother : ∀ p ∈ stageOfKind, p.2 ≠ "explained" := by decide
  rcases (mem_completedStages hstages).mp hstage with ⟨kind', hkind', he⟩ | ⟨heq, -⟩
  · have heq : (kind', stage) = (kind, stage) := hinj _ hkind' _ hkind rfl
    obtain rfl := (Prod.mk.inj heq).1
    obtain ⟨e, hmem, rfl⟩ := List.mem_map.mp he
    obtain ⟨r, hr, haccepted⟩ := accepted_of_mem e hmem
    rwa [recorder_of_machine_kind hr hmachine] at haccepted
  · exact absurd heq (hother _ hkind)

/-- Calls of the browser alone complete at most `observed` and `explained`. -/
lemma browser_stages
    (hstages : completedStages (m.afterAll E calls Session.fresh).events = .ok stages)
    (hbrowser : ∀ r kind payload now a, .record r kind payload now a ∈ calls → r = .client) :
    stages ⊆ ["observed", "explained"] := by
  intro stage hmem
  have hkinds : ∀ p ∈ stageOfKind, p.2 = "observed" ∨ p.1 ∈ machineEventKinds := by decide
  rcases (mem_completedStages hstages).mp hmem with ⟨kind, hkind, -⟩ | ⟨rfl, -⟩
  · rcases hkinds _ hkind with rfl | hmachine
    · simp
    · obtain ⟨before, payload, now, a, behind, e, rfl, -⟩ :=
        machine_stage_accepted hstages hmem hkind hmachine
      have hclient := hbrowser .machine (.str kind) payload now a (by simp)
      cases hclient
  · simp

/-- **The governing rule holds of a run if and only if** no observation was accepted whose count is
a text of digits that `int()` refuses. -/
theorem trusted_iff (m : LabService) (E : Ed25519) (calls : List SessionCall) :
    m.Trusted E calls ↔ ∀ e ∈ (m.afterAll E calls Session.fresh).events, ¬ e.Unreadable := by
  constructor
  · intro h e he hunreadable
    obtain ⟨before, behind, heq⟩ := List.mem_iff_append.mp he
    have hperm : ((e :: (before ++ behind)).map EvidenceEvent.content).Perm
        ((m.afterAll E calls Session.fresh).events.map EvidenceEvent.content) := by
      rw [heq]
      exact List.perm_middle.symm.map _
    obtain ⟨stages, stages', -, hstages', -⟩ := h.unordered _ hperm
    refine completedStages_returns_iff.mp ⟨stages', hstages'⟩ ?_
    exact anyExplained_eq_none_iff.mpr ⟨[], e, before ++ behind, rfl, hunreadable, by simp⟩
  · intro h
    refine ⟨fun i j hij => ?_, fun events' => stages_unordered h, ?_, ?_⟩
    · have hshorter : (m.afterAll E (calls.take j) Session.fresh).events
          <+: (m.afterAll E calls Session.fresh).events := by
        have hall := extends_afterAll (m := m) (E := E) (calls.drop j)
          (m.afterAll E (calls.take j) Session.fresh)
        rwa [← afterAll_append, List.take_append_drop] at hall
      exact stages_grow (fun e he => h e (hshorter.subset he)) (extends_take hij Session.fresh)
    · exact fun stages kind stage => machine_stage_accepted
    · exact fun stages => browser_stages

/-- One observation with a superscript count is accepted, and there are no stages any more. -/
theorem superscript_count_not_trusted : ¬ plainService.Trusted .single [superscriptCount] := by
  intro h
  obtain ⟨-, stages, -, hstages, -⟩ := h.grows 0 1 (Nat.zero_le 1)
  have hraises : (completedStages (plainService.afterAll .single [superscriptCount]
      Session.fresh).events).isOk = false := by
    decide +kernel
  rw [List.take_of_length_le (by simp)] at hstages
  rw [hstages] at hraises
  cases hraises

end FreebsdLaboratory
