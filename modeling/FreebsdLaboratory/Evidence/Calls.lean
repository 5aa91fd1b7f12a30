import FreebsdLaboratory.Evidence.Payloads

/-!
# What a call does to the session

`Steps R x` says that a method leaves the session it starts from in the relation `R`, whether it
returns or raises; `Steps.bind` lets a method be read from top to bottom.  `record_spec` is all that
a record call can do when its append is clean, and `export_keeps` that an export leaves the events
alone.
-/

namespace FreebsdLaboratory

open Library Library.Unicode Library.Json Value

variable {m : LabService} {E : Ed25519} {s s' : Session} {α β : Type}

/-! ## Methods -/

lemma serviceM_bind (x : ServiceM α) (f : α → ServiceM β) (s : Session) :
    (x >>= f) s = match x s with
      | (.ok a, s') => f a s'
      | (.error e, s') => (.error e, s') := by
  change (ExceptT.bind x f) s = _
  simp only [ExceptT.bind, ExceptT.mk, bind, StateT.bind]
  rcases x s with ⟨_ | _, s'⟩ <;> rfl

@[simp] lemma serviceM_pure (a : α) (s : Session) : (pure a : ServiceM α) s = (.ok a, s) := rfl

@[simp] lemma serviceM_throw (e : ServiceError) (s : Session) :
    (throw e : ServiceM α) s = (.error e, s) := rfl

@[simp] lemma serviceM_get (s : Session) : (get : ServiceM Session) s = (.ok s, s) := rfl

@[simp] lemma serviceM_set (t s : Session) :
    (MonadStateOf.set t : ServiceM PUnit) s = (.ok ⟨⟩, t) := rfl

@[simp] lemma serviceM_modify (f : Session → Session) (s : Session) :
    (modify f : ServiceM PUnit) s = (.ok ⟨⟩, f s) := rfl

@[simp] lemma serviceM_mk (x : Except ServiceError α) (s : Session) :
    (ExceptT.mk (pure x) : ServiceM α) s = (x, s) := rfl

/-- The method leaves its session in the relation, whatever its outcome. -/
def Steps (R : Session → Session → Prop) (x : ServiceM α) : Prop := ∀ s, R s (x s).2

section Steps

variable {R : Session → Session → Prop}

lemma Steps.bind (htrans : ∀ a b c, R a b → R b c → R a c) {x : ServiceM α} {f : α → ServiceM β}
    (hx : Steps R x) (hf : ∀ a, Steps R (f a)) : Steps R (x >>= f) := by
  intro s
  have hs := hx s
  rw [serviceM_bind]
  rcases hrun : x s with ⟨_ | a, s'⟩
  · rwa [hrun] at hs
  · rw [hrun] at hs
    exact htrans _ _ _ hs (hf a s')

lemma Steps.of_unchanged (hrefl : ∀ a, R a a) {x : ServiceM α} (h : ∀ s, (x s).2 = s) :
    Steps R x := by
  intro s
  rw [h]
  exact hrefl s

end Steps

/-! ## Appending -/

@[simp] lemma log_setFile (s : Session) (content : Bytes) :
    (s.setFile eventsName (some content)).log = content := by
  simp [Session.log, Session.setFile]

/-- The append writes everything, or raises before it has written anything. -/
def AppendAnswer.Clean (m : LabService) : AppendAnswer → Prop
  | .raises => True
  | .writes missing synced closed =>
      missing = 0 ∧ (m.fsyncEvents = true → synced = true) ∧ closed = true

/-- A clean append takes place as a whole or not at all. -/
lemma append_spec {a : AppendAnswer} (h : a.Clean m) (bytes : Bytes) (s : Session) :
    m.append bytes a s = (.error .writeFailed, s)
      ∨ m.append bytes a s = (.ok (), s.setFile eventsName (some (s.log ++ bytes))) := by
  cases a with
  | raises => exact .inl rfl
  | writes missing synced closed =>
      obtain ⟨rfl, hsynced, rfl⟩ := h
      have hfails : (m.fsyncEvents && !synced || !true) = false := by
        cases hfsync : m.fsyncEvents with
        | false => rfl
        | true => simp [hsynced hfsync]
      unfold LabService.append
      simp only [serviceM_bind, serviceM_get, Nat.sub_zero, List.take_length, hfails,
        Bool.false_eq_true, if_false]
      by_cases hsize : s.log.length + bytes.length > maxFileSize
      · rw [if_pos hsize]
        exact .inl rfl
      · rw [if_neg hsize]
        exact .inr rfl

/-! ## Recording -/

/-- The event is hashed by the canonical JSON of its payload, and its payload is well formed. -/
structure EvidenceEvent.Hashed (e : EvidenceEvent) : Prop where
  wellFormed : (dict e.payload).WellFormed
  hashed : ∃ bytes, canonicalJson (dict e.payload) = .ok bytes
    ∧ e.payloadSha256 = sha256Bytes bytes

/-- **What the next event is**, when a call gets as far as making one. -/
theorem nextEvent_spec {kind source : Str} {payload : Value} {now : String} {e : EvidenceEvent}
    {line : Bytes} (h : m.nextEvent kind payload source now s = .ok (e, line)) :
    s.events.length < m.maxEvents ∧ e.sequence = s.events.length + 1 ∧ e.kind = kind ∧ e.Hashed
      ∧ canonicalJson e.asdict = .ok line := by
  unfold LabService.nextEvent at h
  obtain ⟨⟨safe, bytes⟩, hsafe, h⟩ := except_bind_eq_ok.mp h
  dsimp only at h
  split_ifs at h with hlimit
  · cases h
  · obtain ⟨line', hline, h⟩ := except_bind_eq_ok.mp h
    obtain ⟨rfl, rfl⟩ := Prod.mk.inj (except_pure_eq_ok.mp h)
    obtain ⟨hwell, hbytes⟩ := safePayload_spec hsafe
    exact ⟨by omega, rfl, rfl, ⟨hwell, bytes, hbytes, rfl⟩, hline⟩

/-- The session with one more event and its line. -/
def Session.append (s : Session) (e : EvidenceEvent) (line : Bytes) : Session :=
  { s.setFile eventsName (some (s.log ++ (line ++ [10]))) with events := s.events ++ [e] }

lemma record_eq {kind source : Str} {payload : Value} {now : String} {a : AppendAnswer} :
    m.record kind payload source now a s = match m.nextEvent kind payload source now s with
      | .error e => (.error e, s)
      | .ok (e, line) => match m.append (line ++ [10]) a s with
          | (.error e, s') => (.error e, s')
          | (.ok (), s') => (.ok e, { s' with events := s'.events ++ [e] }) := by
  unfold LabService.record
  rw [serviceM_bind, serviceM_get]
  dsimp only
  rw [serviceM_bind, serviceM_mk]
  cases m.nextEvent kind payload source now s with
  | error e => rfl
  | ok r =>
      dsimp only
      rw [serviceM_bind]
      rcases m.append (r.2 ++ [10]) a s with ⟨_ | _, s'⟩ <;> rfl

/-- The call is about to append this event. -/
def LabService.Appends (m : LabService) (s : Session) (r : Recorder) (kind payload : Value)
    (now : String) (e : EvidenceEvent) (line : Bytes) : Prop :=
  ∃ k, kind = .str k ∧ r.kinds.contains k = true
    ∧ m.nextEvent k payload r.source now s = .ok (e, line)

/-- **A record call with a clean append** leaves the session as it was, or it has one more event and
its line. -/
theorem recordEvent_spec {r : Recorder} {kind payload : Value} {now : String} {a : AppendAnswer}
    (hclean : ∀ e line, m.Appends s r kind payload now e line → a.Clean m) :
    (∃ error, m.recordEvent r kind payload now a s = (.error error, s))
      ∨ ∃ e line, m.Appends s r kind payload now e line
          ∧ m.recordEvent r kind payload now a s = (.ok e, s.append e line) := by
  unfold LabService.recordEvent
  split
  · rename_i k
    split_ifs with hkind
    · rw [record_eq]
      cases hnext : m.nextEvent k payload r.source now s with
      | error e => exact .inl ⟨e, rfl⟩
      | ok next =>
          obtain ⟨e, line⟩ := next
          have happends : m.Appends s r (.str k) payload now e line := ⟨k, rfl, hkind, hnext⟩
          rcases append_spec (hclean e line happends) (line ++ [10]) s with hfails | hdone
          · exact .inl ⟨.writeFailed, by simp only [hfails]⟩
          · exact .inr ⟨e, line, happends, by simp only [hdone]; rfl⟩
    · exact .inl ⟨_, rfl⟩
  · exact .inl ⟨_, rfl⟩

/-! ## Exporting -/

/-- The events are the same, and so is the file with this name. -/
def Leaves (n : Str) (s s' : Session) : Prop := s'.events = s.events ∧ s'.files n = s.files n

/-- The events and their file are the same. -/
def SameEvents (s s' : Session) : Prop :=
  s'.events = s.events ∧ s'.files eventsName = s.files eventsName

section Leaves

variable {n name : Str}

lemma Leaves.refl (s : Session) : Leaves n s s := ⟨rfl, rfl⟩

lemma Leaves.trans (a b c : Session) (h : Leaves n a b) (h' : Leaves n b c) : Leaves n a c :=
  ⟨h'.1.trans h.1, h'.2.trans h.2⟩

lemma leaves_setFile (hname : n ≠ name) (s : Session) (content : Option Bytes) :
    Leaves n s (s.setFile name content) :=
  ⟨rfl, if_neg hname⟩

lemma steps_writeFile (hname : n ≠ name) (content : Bytes) (a : WriteAnswer) :
    Steps (Leaves n) (writeFile name content a) := by
  intro s
  unfold writeFile
  rw [serviceM_bind, serviceM_get]
  dsimp only
  split
  · split_ifs
    · exact .refl s
    · exact leaves_setFile hname s _
  · exact .refl s
  · exact leaves_setFile hname s _

lemma steps_readFile (name : Str) : Steps (Leaves n) (readFile name) := by
  intro s
  unfold readFile
  rw [serviceM_bind, serviceM_get]
  cases h : s.files name with
  | none =>
      simp only [h]
      exact .refl s
  | some content =>
      simp only [h]
      exact .refl s

lemma steps_mk (x : Except ServiceError α) : Steps (Leaves n) (ExceptT.mk (pure x)) :=
  .of_unchanged .refl fun _ => rfl

lemma steps_pure (a : α) : Steps (Leaves n) (pure a : ServiceM α) :=
  .of_unchanged .refl fun _ => rfl

lemma steps_throw (e : ServiceError) : Steps (Leaves n) (throw e : ServiceM α) :=
  .of_unchanged .refl fun _ => rfl

lemma steps_bind {x : ServiceM α} {f : α → ServiceM β} (hx : Steps (Leaves n) x)
    (hf : ∀ a, Steps (Leaves n) (f a)) : Steps (Leaves n) (x >>= f) :=
  hx.bind Leaves.trans hf

/-- Only a value that is there is gone on with. -/
lemma steps_mk_bind {x : Except ServiceError α} {f : α → ServiceM β}
    (hf : ∀ a, x = .ok a → Steps (Leaves n) (f a)) :
    Steps (Leaves n) (ExceptT.mk (pure x) >>= f) := by
  intro s
  rw [serviceM_bind, serviceM_mk]
  cases x with
  | error e => exact .refl s
  | ok a => exact hf a rfl s

lemma steps_writeDocument (hname : n ≠ name) (value : Value) (a : WriteAnswer) :
    Steps (Leaves n) (writeDocument name value a) :=
  steps_bind (steps_mk _) fun _ => steps_writeFile hname _ a

lemma steps_signManifest (hsignature : n ≠ signatureName) (htemporary : n ≠ temporaryName)
    (privateKey : PathTarget) (keyId : Str) (a : ExportAnswer) :
    Steps (Leaves n) (signManifest E privateKey keyId a) := by
  unfold signManifest
  split
  · exact steps_throw _
  · refine steps_bind (steps_readFile _) fun _ => steps_bind (steps_mk _) fun _ =>
      steps_bind (steps_writeFile htemporary _ _) fun _ => ?_
    split_ifs
    · exact steps_throw _
    · intro s
      exact .trans _ _ _ (leaves_setFile hsignature s _) (leaves_setFile htemporary _ _)

lemma steps_checksumLines : ∀ names : List Str, Steps (Leaves n) (checksumLines names)
  | [] => steps_pure _
  | _ :: names =>
      steps_bind (steps_readFile _) fun _ => steps_bind (steps_checksumLines names) fun _ =>
        steps_pure _

lemma steps_mapM {ι : Type} {f : ι → ServiceM α} (hf : ∀ i, Steps (Leaves n) (f i)) :
    ∀ is : List ι, Steps (Leaves n) (is.mapM f)
  | [] => steps_pure _
  | i :: is => by
      rw [List.mapM_cons]
      exact steps_bind (hf i) fun _ => steps_bind (steps_mapM hf is) fun _ => steps_pure _

lemma steps_readLabFile (a : ExportAnswer) : Steps (Leaves n) (readLabFile a) := by
  unfold readLabFile
  split
  · exact steps_pure _
  · exact steps_throw _

lemma steps_artifact (name : Str) : Steps (Leaves n) (artifact name) :=
  steps_bind (steps_readFile name) fun _ => steps_pure _

lemma steps_signExport (hsignature : n ≠ signatureName) (htemporary : n ≠ temporaryName)
    (signing : SigningConfig) (a : ExportAnswer) : Steps (Leaves n) (signExport E signing a) := by
  cases signing with
  | disabled => exact steps_pure _
  | enabled privateKey keyId => exact steps_signManifest hsignature htemporary privateKey keyId a

/-- An export changes neither the events nor any file that it does not write. -/
lemma leaves_export (hn : n ∉ [evidenceName, environmentName, manifestName, sumsName])
    (a : ExportAnswer) (hsign : ∀ signing, m.signingConfig = .ok signing →
      Steps (Leaves n) (signExport E signing a)) : Steps (Leaves n) (m.export E a) := by
  simp only [List.mem_cons, List.not_mem_nil, or_false, not_or] at hn
  obtain ⟨hevidence, henvironment, hmanifest, hsums⟩ := hn
  unfold LabService.export
  refine steps_bind (.of_unchanged .refl fun _ => rfl) fun s => ?_
  refine steps_mk_bind fun signing hsigning => steps_bind (steps_readLabFile a) fun labFile => ?_
  refine steps_bind (steps_writeDocument hevidence _ _) fun _ => ?_
  refine steps_bind (steps_writeDocument henvironment _ _) fun _ => ?_
  refine steps_bind (steps_mapM steps_artifact _) fun artifacts => ?_
  refine steps_bind (steps_writeDocument hmanifest _ _) fun _ => ?_
  refine steps_bind (hsign signing hsigning) fun _ => ?_
  refine steps_bind (steps_checksumLines _) fun _ => ?_
  exact steps_bind (steps_writeFile hsums _ _) fun _ => steps_pure _

end Leaves

/-- **An export changes neither the events nor their file**, however it ends. -/
theorem steps_export (a : ExportAnswer) : Steps SameEvents (m.export E a) :=
  leaves_export (by decide) a fun signing _ => steps_signExport (by decide) (by decide) signing a

end FreebsdLaboratory
