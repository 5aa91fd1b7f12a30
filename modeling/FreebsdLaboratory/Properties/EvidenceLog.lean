import FreebsdLaboratory.Evidence.Calls

/-!
# The log and the list of events

`events.jsonl` is meant to be the list of events in memory, line by line, and each line to carry the
hash of its own payload: `LabService.Intact`.  An append that is cut short, or that is written and
then fails to be synced, leaves the two different for good, since nothing takes a written line back.
-/

namespace FreebsdLaboratory

open Library Library.Unicode Library.Json Value

variable {m : LabService} {E : Ed25519} {s s₀ : Session} {e : EvidenceEvent} {line : Bytes}

/-- The hash in a line is that of the canonical JSON of the payload in the line. -/
def HashChecks (line : Bytes) : Prop :=
  ∃ text document payload bytes, decode line = some text ∧ loads text = some (dict document)
    ∧ lookup document (str "payload") = some payload ∧ canonicalJson payload = .ok bytes
    ∧ lookup document (str "payload_sha256") = some (.str (sha256Bytes bytes))

/-- The line is the event, and its hash checks. -/
def LineOf (line : Bytes) (e : EvidenceEvent) : Prop :=
  canonicalJson e.asdict = .ok line ∧ HashChecks line

/-- The file is the list of events, line by line. -/
structure LabService.Intact (m : LabService) (s : Session) : Prop where
  lines : ∃ lines, s.log.splitOn 10 = lines ++ [[]] ∧ List.Forall₂ LineOf lines s.events
  numbered : s.events.map EvidenceEvent.sequence = List.range' 1 s.events.length
  bounded : s.events.length ≤ m.maxEvents

/-- A record call appends cleanly: its append, if it comes to one, raises before it has written
anything, or writes all of its bytes and is synced and closed without an error. -/
def SessionCall.Clean (m : LabService) (s : Session) : SessionCall → Prop
  | .record r kind payload now a => ∀ e line, m.Appends s r kind payload now e line → a.Clean m
  | .exportBundle _ => True

/-! ## One line -/

lemma nodup_items (e : EvidenceEvent) : (e.items.map Prod.fst).Nodup := by
  have hkeys : e.items.map Prod.fst = ["sequence", "recorded_at", "kind", "source",
      "payload_sha256", "payload"].map Unicode.str := rfl
  rw [hkeys]
  decide

lemma wellFormed_asdict (h : (dict e.payload).WellFormed) : e.asdict.WellFormed := by
  refine wellFormed_dict.mpr ⟨nodup_items e, fun item hitem => ?_⟩
  simp only [EvidenceEvent.items, List.mem_cons, List.not_mem_nil, or_false] at hitem
  rcases hitem with rfl | rfl | rfl | rfl | rfl | rfl
  all_goals trivial

/-- **A line carries the hash of its own payload.** -/
theorem hashChecks_of_hashed (h : e.Hashed) (hline : canonicalJson e.asdict = .ok line) :
    HashChecks line := by
  obtain ⟨text, hdecode, hloads⟩ := loads_canonicalJson (wellFormed_asdict h.wellFormed) hline
  obtain ⟨bytes, hbytes, hsha⟩ := h.hashed
  have hread := lookup_readBack (nodup_items e)
  refine ⟨text, _, (dict e.payload).normal, bytes, hdecode, hloads, ?_, ?_, ?_⟩
  · rw [hread]
    rfl
  · rw [canonicalJson_normal, hbytes]
  · rw [hread, ← hsha]
    rfl

/-! ## Runs -/

/-- What carries `Intact` through a run: the file is the lines one after the other. -/
structure LabService.Logged (m : LabService) (s : Session) : Prop where
  log : ∃ lines, s.log = lines.flatMap (· ++ [10])
    ∧ List.Forall₂ (fun line e => canonicalJson e.asdict = .ok line) lines s.events
  hashed : ∀ e ∈ s.events, e.Hashed
  numbered : s.events.map EvidenceEvent.sequence = List.range' 1 s.events.length
  bounded : s.events.length ≤ m.maxEvents

lemma LabService.Logged.intact (h : m.Logged s) : m.Intact s := by
  obtain ⟨lines, hlog, hlines⟩ := h.log
  have hline : List.Forall₂ LineOf lines s.events := by
    refine List.forall₂_iff_get.mpr ⟨hlines.length_eq, fun i hi hi' => ?_⟩
    have hcanonical := (List.forall₂_iff_get.mp hlines).2 i hi hi'
    exact ⟨hcanonical, hashChecks_of_hashed (h.hashed _ (List.get_mem _ _)) hcanonical⟩
  refine ⟨⟨lines, ?_, hline⟩, h.numbered, h.bounded⟩
  rw [hlog]
  refine Text.splitOn_flatMap_lines fun line hmem => ?_
  obtain ⟨e, he, hcanonical, -⟩ := exists_of_forall₂_left hline hmem
  exact canonicalJson_not_newline (wellFormed_asdict (h.hashed e he).wellFormed) hcanonical

lemma logged_fresh : m.Logged Session.fresh where
  log := ⟨[], rfl, .nil⟩
  hashed := by simp [Session.fresh]
  numbered := rfl
  bounded := Nat.zero_le _

lemma LabService.Logged.sameEvents {s' : Session} (h : m.Logged s) (hsame : SameEvents s s') :
    m.Logged s' := by
  have hlog : s'.log = s.log := by rw [Session.log, Session.log, hsame.2]
  exact ⟨by rw [hlog, hsame.1]; exact h.log, by rw [hsame.1]; exact h.hashed,
    by rw [hsame.1]; exact h.numbered, by rw [hsame.1]; exact h.bounded⟩

/-- One more event with its line. -/
lemma LabService.Logged.append {r : Recorder} {kind payload : Value} {now : String}
    (h : m.Logged s) (happends : m.Appends s r kind payload now e line) :
    m.Logged (s.append e line) := by
  obtain ⟨k, -, -, hnext⟩ := happends
  obtain ⟨hlimit, hsequence, -, hhashed, hline⟩ := nextEvent_spec hnext
  obtain ⟨lines, hlog, hlines⟩ := h.log
  refine ⟨⟨lines ++ [line], ?_, ?_⟩, ?_, ?_, ?_⟩
  · have hset : (s.append e line).log = s.log ++ (line ++ [10]) := by
      simp [Session.append, Session.log, Session.setFile]
    rw [hset, hlog, List.flatMap_append]
    simp
  · exact List.rel_append hlines (.cons hline .nil)
  · intro e' he'
    rcases List.mem_append.mp he' with he' | he'
    · exact h.hashed e' he'
    · rw [List.mem_singleton.mp he']
      exact hhashed
  · rw [Session.append, List.map_append, h.numbered, List.length_append, List.length_singleton,
      List.range'_concat]
    simp [hsequence, Nat.add_comm]
  · rw [Session.append, List.length_append]
    simpa using hlimit

/-- The session after a record call, by its outcome. -/
lemma after_record (r : Recorder) (kind payload : Value) (now : String) (a : AppendAnswer) :
    m.call E (.record r kind payload now a) s =
      ((m.recordEvent r kind payload now a s).1.map Returned.event,
        m.after E (.record r kind payload now a) s)
      ∧ m.after E (.record r kind payload now a) s = (m.recordEvent r kind payload now a s).2 := by
  simp only [LabService.after, LabService.call]
  rw [← bind_pure_comp, serviceM_bind]
  rcases m.recordEvent r kind payload now a s with ⟨_ | _, s'⟩ <;> exact ⟨rfl, rfl⟩

lemma after_export (a : ExportAnswer) : m.after E (.exportBundle a) s = (m.export E a s).2 := by
  simp only [LabService.after, LabService.call]
  rw [← bind_pure_comp, serviceM_bind]
  rcases m.export E a s with ⟨_ | _, s'⟩ <;> rfl

/-- **The step lemma**: a clean call keeps the log. -/
theorem LabService.Logged.after {call : SessionCall} (h : m.Logged s) (hclean : call.Clean m s) :
    m.Logged (m.after E call s) := by
  cases call with
  | record r kind payload now a =>
      rw [(after_record r kind payload now a).2]
      rcases recordEvent_spec hclean with ⟨error, hrun⟩ | ⟨e, line, happends, hrun⟩
      · rw [hrun]
        exact h
      · rw [hrun]
        exact h.append happends
  | exportBundle a =>
      rw [after_export]
      exact h.sameEvents (steps_export a s)

/-- **The log is the list of events, as long as every append is clean**: in every session that such
calls lead to, and a record call that fails leaves it as it was. -/
theorem log_is_list_of_events (h : m.Reaches E (fun s call => call.Clean m s) Session.fresh s) :
    m.Intact s ∧ ∀ r kind payload now a error s',
    SessionCall.Clean m s (.record r kind payload now a) →
      m.call E (.record r kind payload now a) s = (.error error, s') →
      s'.log = s.log ∧ s'.events = s.events := by
  have hlogged : m.Logged s := by
    induction h with
    | start => exact logged_fresh
    | call call _ hclean ih => exact ih.after hclean
  refine ⟨hlogged.intact, fun r kind payload now a error s' hclean hcall => ?_⟩
  obtain ⟨hrun, hafter⟩ := after_record (E := E) (m := m) (s := s) r kind payload now a
  rw [hrun, hafter] at hcall
  rcases recordEvent_spec hclean with ⟨error', hrecord⟩ | ⟨e, line, -, hrecord⟩
  · rw [hrecord] at hcall
    obtain ⟨-, rfl⟩ := Prod.mk.inj hcall
    exact ⟨rfl, rfl⟩
  · rw [hrecord] at hcall
    cases hcall

/-! ## A service of its own -/

/-- A service with unsigned evidence. -/
def plainService : LabService where
  spec :=
    { document := [(str "schema", .str (str "softcloud.lab/v1")), (str "id", .str (str "lab"))]
      id := str "lab"
      schema_eq := rfl
      id_eq := rfl
      id_ne_nil := by decide }
  sessionId := "0123456789abcdef"
  startedAt := "2026-01-01T00:00:00+00:00"
  sessionDir := str "/lab/.evidence/0123456789abcdef"
  maxEvents := 10
  maxEventPayloadBytes := 1024
  fsyncEvents := true
  system := "FreeBSD"
  release := "15.0-RELEASE"
  machine := "amd64"
  path := fun _ => none
  maxEvents_pos := by decide
  maxEventPayloadBytes_ge := by decide

/-- A single key pair, for services that do not sign. -/
def Ed25519.single : Ed25519 :=
  ⟨Unit, Unit, fun _ => Option.none, fun _ => Option.none, id, fun _ => [], fun _ _ => [],
    fun _ _ _ => true⟩

/-- An observation of the notebook, and how its append ends. -/
def observation (a : AppendAnswer) : SessionCall :=
  .record .client (.str notebookContext) (.dict []) "2026-01-01T00:00:01+00:00" a

/-- An export whose writes are all done. -/
def exportAnswer : ExportAnswer where
  exportedAt := "2026-01-01T00:00:02+00:00"
  generatedAt := "2026-01-01T00:00:02+00:00"
  labFile := some []
  evidence := .done
  environment := .done
  manifest := .done
  signature := .done
  moved := true
  sums := .done

lemma observation_clean {a : AppendAnswer} (ha : a.Clean plainService) (s : Session) :
    (observation a).Clean plainService s :=
  fun _ _ _ => ha

/-- The session with one observation. -/
def observedOnce : Session :=
  plainService.after .single (observation (.writes 0 true true)) Session.fresh

/-- One more observation whose append raises, and another one: the first leaves the log alone, and
behind the second it is two lines. -/
theorem log_is_list_of_events_of_observations : ∃ error s,
    plainService.call .single (observation .raises) observedOnce = (.error error, s)
      ∧ (s.log = observedOnce.log ∧ s.events = observedOnce.events)
      ∧ plainService.Intact (plainService.after .single (observation (.writes 0 true true)) s)
      ∧ (plainService.after .single (observation (.writes 0 true true)) s).events.length = 2 := by
  have hwrites := observation_clean (a := .writes 0 true true) ⟨rfl, fun _ => rfl, rfl⟩
  have hraises := observation_clean (a := .raises) trivial
  have hfirst : plainService.Reaches .single (fun s call => call.Clean plainService s) Session.fresh
      observedOnce := .call _ .start (hwrites _)
  have hfails : (plainService.call .single (observation .raises) observedOnce).1.isOk = false := by
    decide +kernel
  have htwo : (plainService.after .single (observation (.writes 0 true true))
      (plainService.after .single (observation .raises) observedOnce)).events.length = 2 := by
    decide +kernel
  have hsecond := hfirst.call _ (hraises _)
  rcases hcall : plainService.call .single (observation .raises) observedOnce with ⟨error | v, s⟩
  · have hafter : plainService.after .single (observation .raises) observedOnce = s := by
      rw [LabService.after, hcall]
    rw [hafter] at htwo hsecond
    refine ⟨error, s, rfl, ?_, ?_, htwo⟩
    · exact (log_is_list_of_events hfirst).2 _ _ _ _ _ _ _ (hraises _) hcall
    · exact (log_is_list_of_events (hsecond.call _ (hwrites _))).1
  · rw [hcall] at hfails
    cases hfails

/-- An append that is written and not synced leaves a line of no event. -/
theorem unsynced_line_stays :
    ¬ plainService.Intact
      (plainService.after .single (observation (.writes 0 false true)) Session.fresh) := by
  intro h
  have hevents : (plainService.after .single (observation (.writes 0 false true))
      Session.fresh).events = [] := by decide +kernel
  obtain ⟨lines, hsplit, hlines⟩ := h.lines
  rw [hevents, List.forall₂_nil_right_iff] at hlines
  subst hlines
  have hlog : (plainService.after .single (observation (.writes 0 false true))
      Session.fresh).log.splitOn 10 ≠ [[]] := by decide +kernel
  exact hlog hsplit

end FreebsdLaboratory
