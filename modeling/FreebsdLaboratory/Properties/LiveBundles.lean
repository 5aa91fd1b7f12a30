import FreebsdLaboratory.Evidence.Reexports
import FreebsdLaboratory.Properties.EvidenceLog
import FreebsdLaboratory.Properties.Tampering

/-!
# Bundles of a live session

An export writes its manifest into the directory where recording goes on, and one of the artifacts
that the manifest lists is `events.jsonl` itself.  The next event makes that file longer than the
manifest says, so **`accepted_iff_nothing_recorded`**: a session directory verifies exactly until
the next event.
-/

namespace FreebsdLaboratory

open Library Library.Unicode Library.Json

variable {m : LabService} {E : Ed25519} {t : FileTree} {s s' s₁ : Session} {rawBundle : Location}
variable {trusted : Option Location} {signing : SigningConfig} {a : ExportAnswer}
variable {evidence environment log log' manifest : Bytes}

/-! ## The session directory -/

/-- The directory of the session, as it stands in the file system. -/
structure SessionDirectory (t : FileTree) (rawBundle : Location) (s : Session) : Prop where
  not_link : t.node rawBundle ≠ some .symlink
  directory : t.node (t.resolve rawBundle) = some .directory
  files : ∀ name, t.node (t.resolve rawBundle ++ [name]) = (s.files name).map .file

lemma SessionDirectory.content (h : SessionDirectory t rawBundle s) (name : Str) :
    t.content (t.resolve rawBundle ++ [name]) = s.files name := by
  unfold FileTree.content
  rw [h.files]
  cases s.files name <;> rfl

/-- The trusted key goes with the signing key, if there is one. -/
def TrustedKey (E : Ed25519) (t : FileTree) (signing : SigningConfig) (trusted : Option Location) :
    Prop :=
  match signing with
  | .disabled => trusted = none
  | .enabled privateKey _ => ∃ path key c, trusted = some path
      ∧ privateKey.content.bind E.loadPrivate = some key
      ∧ t.content path = some c ∧ E.loadPublic c = some (E.publicKey key)

/-! ## Signatures that verify -/

/-- **What `sign_manifest` writes is what the verifier accepts** with the key that goes with it. -/
lemma signatureFound_of_signedIn (hE : E.Lawful) (hsigned : SignedIn E signing manifest s s')
    (hnone : signing = .disabled → s.files signatureName = none)
    (hdirectory : SessionDirectory t rawBundle s') (htrusted : TrustedKey E t signing trusted) :
    ∃ found, SignatureFound E t (t.resolve rawBundle) trusted manifest found := by
  cases signing with
  | disabled =>
      have hfile : s'.files signatureName = none := hsigned.trans (hnone rfl)
      refine ⟨none, ?_, ?_, htrusted⟩
      · rw [hdirectory.content, hfile]
      · rw [hdirectory.files, hfile]
        simp
  | enabled privateKey keyId =>
      obtain ⟨key, document, hkey, hdocument, hfile⟩ := hsigned
      obtain ⟨path, key', c, rfl, hkey', hc, hpublic⟩ := htrusted
      obtain rfl := Option.some.inj (hkey.symm.trans hkey')
      have hparses := parses_document wellFormed_signatureDocument hdocument
      have hread := lookup_readBack (nodup_signatureItems key keyId manifest)
      refine ⟨some _, document ++ [10], ?_, hparses, ?_, ?_, ?_, E.publicKey key,
        Base64.encode (E.sign key manifest), E.sign key manifest, ⟨c, hc, hpublic⟩, ?_, ?_,
        Base64.decode_encode _ (hE.sign_lt key manifest), hE.verify_sign key manifest⟩
      · rw [hdirectory.content, hfile]
      all_goals exact (hread _).trans rfl

/-! ## What is recorded after an export -/

/-- The session is a later one: events have been recorded, and nothing else has been written. -/
structure Since (s₁ s : Session) : Prop where
  files : ∀ name, name ≠ eventsName → s.files name = s₁.files name
  grown : ∃ later extra, s.events = s₁.events ++ later
    ∧ s.files eventsName = (s₁.files eventsName).map (· ++ extra) ∧ (extra = [] ↔ later = [])

lemma Since.refl (s : Session) : Since s s := by
  refine ⟨fun _ _ => rfl, [], [], (List.append_nil _).symm, ?_, by simp⟩
  cases s.files eventsName <;> simp

lemma append_files {e : EvidenceEvent} {line : Bytes} {name : Str} (hname : name ≠ eventsName) :
    (s.append e line).files name = s.files name :=
  if_neg hname

lemma append_log (e : EvidenceEvent) (line : Bytes) :
    (s.append e line).files eventsName = some (s.log ++ (line ++ [10])) := by
  simp [Session.append, Session.setFile]

lemma Since.append {e : EvidenceEvent} {line : Bytes} (h : Since s₁ s)
    (hlog : (s₁.files eventsName).isSome) : Since s₁ (s.append e line) := by
  obtain ⟨later, extra, hevents, hextra, -⟩ := h.grown
  obtain ⟨log, hlog⟩ := Option.isSome_iff_exists.mp hlog
  rw [hlog, Option.map_some] at hextra
  refine ⟨fun name hname => ?_, later ++ [e], extra ++ (line ++ [10]), ?_, ?_, by simp⟩
  · rw [append_files hname, h.files name hname]
  · rw [Session.append, hevents, List.append_assoc]
  · rw [append_log, Session.log, hextra, hlog, Option.getD_some, Option.map_some, List.append_assoc]

lemma artifactMatches_entry {bundle : Location} {name : Str} {c : Bytes}
    (hname : isArtifactName name = true) (hcontent : t.content (bundle ++ [name]) = some c) :
    ArtifactMatches t bundle (name, (artifactEntry c).normal) := by
  obtain ⟨metadata, hmetadata, hhash, hsize⟩ := artifactEntry_readBack c
  refine ⟨hname, metadata, c, hmetadata, hcontent, hhash, fun size hlookup => ?_⟩
  cases hsize.symm.trans hlookup
  rfl

/-- **A session directory verifies if and only if nothing has been recorded** since its export. -/
theorem Exported.accepted_iff (hE : E.Lawful)
    (h : Exported m E a s s₁ signing evidence environment log manifest)
    (hnone : signing = .disabled → s.files signatureName = none) (hsince : Since s₁ s')
    (hdirectory : SessionDirectory t rawBundle s') (htrusted : TrustedKey E t signing trusted) :
    (∃ report, (verifyBundle E rawBundle trusted).outcome t.answer = .ok report)
      ↔ s'.events = s₁.events := by
  obtain ⟨items, hparses, hitems⟩ := manifest_readBack h
  obtain ⟨later, extra, hevents, hlog, hextra⟩ := hsince.grown
  rw [h.log_file, Option.map_some] at hlog
  have hfile : ∀ name, name ≠ eventsName →
    t.content (t.resolve rawBundle ++ [name]) = s₁.files name :=
    fun name hname => (hdirectory.content name).trans (hsince.files name hname)
  have hmanifest := (hfile manifestName (by decide)).trans h.manifest_file
  have hsame : s'.events = s₁.events ↔ extra = [] := by
    rw [hextra, hevents]
    simp
  rw [hsame]
  constructor
  · rintro ⟨report, haccepted⟩
    obtain ⟨-, -, content, items', artifacts, found, hcontent, hparses', hitems', hall, -⟩ :=
      verifyBundle_eq_ok.mp haccepted
    obtain rfl := Option.some.inj (hmanifest.symm.trans hcontent)
    cases hparses.unique hparses'
    cases hitems.artifacts_eq.symm.trans hitems'.artifacts_eq
    have hmem : (eventsName, (artifactEntry log).normal)
      ∈ readBackArtifacts evidence environment log :=
      mem_readBackArtifacts.mpr ⟨log, rfl, .inr (.inr ⟨rfl, rfl⟩)⟩
    obtain ⟨metadata, c, hmetadata, hc, -, hsize⟩ := (hall _ hmem).matching
    obtain ⟨metadata', hmetadata', -, hsize'⟩ := artifactEntry_readBack log
    cases hmetadata.symm.trans hmetadata'
    have hlength := hsize _ hsize'
    obtain rfl := Option.some.inj (hc.symm.trans ((hdirectory.content eventsName).trans hlog))
    rw [List.length_append] at hlength
    exact List.eq_nil_of_length_eq_zero (by omega)
  · rintro rfl
    rw [List.append_nil] at hlog
    have hsigned : SignedIn E signing manifest s s' := by
      have hsignature := h.signature_file
      cases signing with
      | disabled => exact (hsince.files _ (by decide)).trans hsignature
      | enabled privateKey keyId =>
          obtain ⟨key, document, hkey, hdocument, hfile⟩ := hsignature
          exact ⟨key, document, hkey, hdocument, (hsince.files _ (by decide)).trans hfile⟩
    obtain ⟨found, hfound⟩ := signatureFound_of_signedIn hE hsigned hnone hdirectory htrusted
    refine ⟨_, verifyBundle_eq_ok.mpr ⟨hdirectory.not_link, hdirectory.directory,
      manifest, items, _, found, hmanifest, hparses, hitems, ?_, hfound, rfl⟩⟩
    rintro ⟨name, metadata⟩ hmem
    obtain ⟨c, rfl, hname⟩ := mem_readBackArtifacts.mp hmem
    rcases hname with ⟨rfl, rfl⟩ | ⟨rfl, rfl⟩ | ⟨rfl, rfl⟩
    · exact artifactMatches_entry (by decide) ((hfile _ (by decide)).trans h.evidence_file)
    · exact artifactMatches_entry (by decide) ((hfile _ (by decide)).trans h.environment_file)
    · exact artifactMatches_entry (by decide) ((hdirectory.content _).trans hlog)

/-! ## Runs -/

/-- Every file write of the call succeeds. -/
def SessionCall.WritesSucceed (m : LabService) (E : Ed25519) (s : Session) : SessionCall → Prop
  | .record r kind payload now a =>
      (∃ synced, a = .writes 0 synced true ∧ (m.fsyncEvents = true → synced = true))
        ∧ (m.recordEvent r kind payload now a s).1 ≠ .error .writeFailed
  | .exportBundle a => a.Done ∧ (m.export E a s).1 ≠ .error .writeFailed

/-- The session right after the last export that returned, if this call is one. -/
def LabService.lastExport (m : LabService) (E : Ed25519) (call : SessionCall) (s : Session)
    (last : Option Session) : Option Session :=
  match call with
  | .record _ _ _ _ _ => last
  | .exportBundle a =>
      match m.export E a s with
      | (.ok _, s') => some s'
      | (.error _, _) => last

/-- The sessions that calls with successful writes lead to, with the one right after the last export
that returned. -/
inductive LabService.Runs (m : LabService) (E : Ed25519) : Session → Option Session → Prop where
  | start : m.Runs E Session.fresh none
  | call {s : Session} {last : Option Session} (call : SessionCall) :
      m.Runs E s last → call.WritesSucceed m E s →
        m.Runs E (m.after E call s) (m.lastExport E call s last)

/-- The log fits into a file, and each event has a line in it. -/
def Fits (s : Session) : Prop :=
  ∃ log, s.files eventsName = some log ∧ log.length ≤ maxFileSize ∧ s.events.length ≤ log.length

/-- What is known of a session in such a run. -/
structure LabService.Tracked (m : LabService) (E : Ed25519) (s : Session) (last : Option Session) :
    Prop where
  fits : Fits s
  unsigned : m.signingConfig = .ok .disabled → s.files signatureName = none
  exported : ∀ s₁, last = some s₁ → Since s₁ s ∧ ∃ a s₀ signing evidence environment log manifest,
    Exported m E a s₀ s₁ signing evidence environment log manifest
      ∧ (signing = .disabled → s₀.files signatureName = none)

lemma tracked_fresh : m.Tracked E Session.fresh none where
  fits := ⟨[], rfl, Nat.zero_le _, Nat.le_refl _⟩
  unsigned _ := rfl
  exported _ h := by cases h

/-- An append that returns has found room for its bytes. -/
lemma append_fits {bytes : Bytes} {synced closed : Bool} {u : Unit}
    (h : m.append bytes (.writes 0 synced closed) s = (.ok u, s')) :
    s.log.length + bytes.length ≤ maxFileSize := by
  unfold LabService.append at h
  simp only [serviceM_bind, serviceM_get, Nat.sub_zero, List.take_length] at h
  by_contra hsize
  rw [if_pos (by omega)] at h
  cases h

/-- **A record call whose write succeeds** leaves the session as it was, or adds an event and its
line, for which there is room. -/
lemma recordEvent_written {r : Recorder} {kind payload : Value} {now : String} {a : AppendAnswer}
    (h : SessionCall.WritesSucceed m E s (.record r kind payload now a)) :
    (m.recordEvent r kind payload now a s).2 = s
      ∨ ∃ e line, (m.recordEvent r kind payload now a s).2 = s.append e line
          ∧ s.log.length + (line ++ [10]).length ≤ maxFileSize := by
  obtain ⟨⟨synced, rfl, hsynced⟩, -⟩ := h
  have hclean : AppendAnswer.Clean m (.writes 0 synced true) := ⟨rfl, hsynced, rfl⟩
  unfold LabService.recordEvent
  split
  · split_ifs
    · rw [record_eq]
      cases hnext : m.nextEvent _ payload r.source now s with
      | error e => exact .inl rfl
      | ok next =>
          obtain ⟨e, line⟩ := next
          dsimp only
          rcases append_spec hclean (line ++ [10]) s with hfails | hdone
          · rw [hfails]
            exact .inl rfl
          · rw [hdone]
            exact .inr ⟨e, line, rfl, append_fits hdone⟩
    · exact .inl rfl
  · exact .inl rfl

lemma Fits.append {e : EvidenceEvent} {line : Bytes} (h : Fits s)
    (hroom : s.log.length + (line ++ [10]).length ≤ maxFileSize) : Fits (s.append e line) := by
  obtain ⟨log, hlog, -, hcount⟩ := h
  have hsame : s.log = log := by rw [Session.log, hlog, Option.getD_some]
  refine ⟨_, append_log e line, by rwa [List.length_append], ?_⟩
  rw [Session.append, hsame]
  simp only [List.length_append, List.length_singleton]
  omega

lemma LabService.Tracked.record {last : Option Session} {r : Recorder} {kind payload : Value}
    {now : String} {a : AppendAnswer} (h : m.Tracked E s last)
    (hwrites : SessionCall.WritesSucceed m E s (.record r kind payload now a)) :
    m.Tracked E (m.recordEvent r kind payload now a s).2 last := by
  rcases recordEvent_written hwrites with hsame | ⟨e, line, happend, hroom⟩
  · rwa [hsame]
  · rw [happend]
    refine ⟨h.fits.append hroom, fun hunsigned => ?_, fun s₁ hlast => ?_⟩
    · rw [append_files (by decide), h.unsigned hunsigned]
    · obtain ⟨hsince, a, s₀, signing, evidence, environment, log, manifest, hexported, hnone⟩ :=
        h.exported s₁ hlast
      exact ⟨hsince.append (by rw [hexported.log_file]; rfl), a, s₀, signing, evidence, environment,
        log, manifest, hexported, hnone⟩

/-- An unsigned export writes no signature. -/
lemma export_unsigned (hunsigned : m.signingConfig = .ok .disabled) (a : ExportAnswer)
    (s : Session) :
    (m.export E a s).2.files signatureName = s.files signatureName := by
  refine (leaves_export (by decide) a (fun signing hsigning => ?_) s).2
  obtain rfl := Except.ok.inj (hunsigned.symm.trans hsigning)
  exact steps_pure _

lemma LabService.Tracked.export {last : Option Session} {a : ExportAnswer} (h : m.Tracked E s last)
    (hwrites : SessionCall.WritesSucceed m E s (.exportBundle a)) :
    m.Tracked E (m.export E a s).2 (m.lastExport E (.exportBundle a) s last) := by
  obtain ⟨hdone, hwritten⟩ := hwrites
  obtain ⟨log, hlog, hsize, hcount⟩ := h.fits
  have hsame := steps_export (m := m) (E := E) a s
  have hfits : Fits (m.export E a s).2 := ⟨log, hsame.2.trans hlog, hsize, by rwa [hsame.1]⟩
  have hunsigned : m.signingConfig = .ok .disabled →
    (m.export E a s).2.files signatureName = none :=
    fun hconfig => (export_unsigned hconfig a s).trans (h.unsigned hconfig)
  rw [LabService.lastExport]
  rcases hrun : m.export E a s with ⟨e | value, s'⟩
  · rw [hrun] at hwritten hfits hunsigned
    refine ⟨hfits, hunsigned, fun s₁ hlast => ?_⟩
    obtain ⟨hsince, a', s₀, signing, evidence, environment, log', manifest, hexported, hnone⟩ :=
      h.exported s₁ hlast
    obtain rfl : s' = s := reexport_keeps hexported.canExport hdone hlog hsize (by omega) hrun
      fun he => hwritten (congrArg Except.error he)
    exact ⟨hsince, a', s₀, signing, evidence, environment, log', manifest, hexported, hnone⟩
  · rw [hrun] at hfits hunsigned
    refine ⟨hfits, hunsigned, fun s₁ hlast => ?_⟩
    obtain rfl := Option.some.inj hlast
    obtain ⟨signing, evidence, environment, log', manifest, hexported⟩ := export_ok hrun
    refine ⟨.refl s', a, s, signing, evidence, environment, log', manifest, hexported, ?_⟩
    rintro rfl
    exact h.unsigned hexported.signing_eq

/-- **The run lemma**. -/
lemma LabService.Runs.tracked {last : Option Session} (h : m.Runs E s last) :
    m.Tracked E s last := by
  induction h with
  | start => exact tracked_fresh
  | call call _ hwrites ih =>
      cases call with
      | record r kind payload now a =>
          rw [(after_record r kind payload now a).2]
          exact ih.record hwrites
      | exportBundle a =>
          rw [after_export]
          exact ih.export hwrites

/-- **After the first export, the session directory verifies if and only if** nothing has been
recorded since the last one, in every run whose writes succeed. -/
theorem accepted_iff_nothing_recorded (hE : E.Lawful) (hrun : m.Runs E s (some s₁))
    (hsigning : m.signingConfig = .ok signing) (hdirectory : SessionDirectory t rawBundle s)
    (htrusted : TrustedKey E t signing trusted) :
    (∃ report, (verifyBundle E rawBundle trusted).outcome t.answer = .ok report)
      ↔ s.events = s₁.events := by
  obtain ⟨hsince, a, s₀, signing', evidence, environment, log, manifest, hexported, hnone⟩ :=
    hrun.tracked.exported s₁ rfl
  obtain rfl := Except.ok.inj (hsigning.symm.trans hexported.signing_eq)
  exact hexported.accepted_iff hE hnone hsince hdirectory htrusted

lemma sameEvents_append (h : SameEvents s s') (bytes : Bytes) (a : AppendAnswer) :
    (m.append bytes a s').1 = (m.append bytes a s).1
      ∧ SameEvents (m.append bytes a s).2 (m.append bytes a s').2 := by
  have hlog : s'.log = s.log := by rw [Session.log, Session.log, h.2]
  cases a with
  | raises => exact ⟨rfl, h⟩
  | writes missing synced closed =>
      have hset : ∀ file, SameEvents (s.setFile eventsName file) (s'.setFile eventsName file) :=
        fun file => ⟨h.1, by simp [Session.setFile]⟩
      unfold LabService.append
      simp only [serviceM_bind, serviceM_get, hlog]
      split_ifs
      · exact ⟨rfl, h⟩
      · exact ⟨rfl, h⟩
      · exact ⟨rfl, hset _⟩
      · exact ⟨rfl, hset _⟩

/-- **A record call** looks at the events and their file, and at nothing else. -/
lemma sameEvents_recordEvent (h : SameEvents s s') (r : Recorder) (kind payload : Value)
    (now : String)
    (a : AppendAnswer) : (m.recordEvent r kind payload now a s').1
    = (m.recordEvent r kind payload now a s).1
      ∧ SameEvents (m.recordEvent r kind payload now a s).2
        (m.recordEvent r kind payload now a s').2 := by
  unfold LabService.recordEvent
  cases kind with
  | str k =>
      dsimp only
      split_ifs
      · have hnext : m.nextEvent k payload r.source now s'
          = m.nextEvent k payload r.source now s := by
          unfold LabService.nextEvent
          rw [h.1]
        rw [record_eq, record_eq, hnext]
        cases m.nextEvent k payload r.source now s with
        | error e => exact ⟨rfl, h⟩
        | ok next =>
            obtain ⟨hsame, hstate⟩ := sameEvents_append (m := m) h (next.2 ++ [10]) a
            dsimp only
            rcases happend : m.append (next.2 ++ [10]) a s with ⟨e | ⟨⟩, s₁⟩ <;>
              rcases happend' : m.append (next.2 ++ [10]) a s' with ⟨e' | ⟨⟩, s₂⟩ <;>
              rw [happend, happend'] at hsame hstate
            · exact ⟨congrArg Except.error (Except.error.inj hsame), hstate⟩
            · cases hsame
            · cases hsame
            · refine ⟨rfl, ?_, hstate.2⟩
              dsimp only
              rw [hstate.1]
      · exact ⟨rfl, h⟩
  | _ => exact ⟨rfl, h⟩

/-! ### An observation after an export -/

lemma done_exportAnswer : exportAnswer.Done := ⟨rfl, rfl, rfl, rfl, rfl, rfl⟩

lemma sessionDirectory_sessionTree (s : Session) :
    SessionDirectory (sessionTree s) [str "session"] s where
  not_link := by
    change some Node.directory ≠ _
    simp
  directory := rfl
  files name := by
    have hlong : [str "session"] ++ [name] ≠ [str "session"] := by simp
    have hkey : [str "session"] ++ [name] ≠ [str "key.pem"] := by simp
    simp only [sessionTree, id, if_neg hlong, if_neg hkey]
    simp

lemma trustedKey_sessionTree (s : Session) : TrustedKey .plain (sessionTree s)
    (.enabled ⟨false, str "key", some []⟩ (str "key")) (some [str "key.pem"]) := by
  exact ⟨[str "key.pem"], (), str "PEM", rfl, rfl, key_sessionTree s, rfl⟩

/-- An observation, an export, and another observation. -/
def recordedSession : Session :=
  signedService.after .plain (observation (.writes 0 true true)) Session.fresh

def exportedSession : Session :=
  signedService.after .plain (.exportBundle exportAnswer) recordedSession

def laterSession : Session :=
  signedService.after .plain (observation (.writes 0 true true)) exportedSession

lemma sameEvents_exportedSession : SameEvents recordedSession exportedSession := by
  rw [exportedSession, after_export]
  exact steps_export exportAnswer recordedSession

lemma sameEvents_laterSession : SameEvents
    (signedService.after .plain (observation (.writes 0 true true)) recordedSession)
    laterSession := by
  rw [laterSession, observation, (after_record _ _ _ _ _).2, (after_record _ _ _ _ _).2]
  exact (sameEvents_recordEvent sameEvents_exportedSession _ _ _ _ _).2

lemma observation_writes (h : (signedService.recordEvent .client (.str notebookContext)
    (.dict []) "2026-01-01T00:00:01+00:00" (.writes 0 true true) s).1.isOk = true) :
    (observation (.writes 0 true true)).WritesSucceed signedService .plain s := by
  refine ⟨⟨true, rfl, fun _ => rfl⟩, fun hfails => ?_⟩
  rw [hfails] at h
  cases h

lemma recordedSession_exports :
    (signedService.export .plain exportAnswer recordedSession).1.isOk = true := by
  decide +kernel

/-- The run up to the export. -/
lemma runs_exportedSession : signedService.Runs .plain exportedSession (some exportedSession) := by
  have hrecorded : signedService.Runs .plain recordedSession none :=
    LabService.Runs.start.call _ (observation_writes (by decide +kernel))
  have hok := recordedSession_exports
  rcases hexport : signedService.export .plain exportAnswer recordedSession with ⟨e | value, s₁⟩
  · rw [hexport] at hok
    cases hok
  · have hafter : exportedSession = s₁ := by rw [exportedSession, after_export, hexport]
    have hexported := hrecorded.call (.exportBundle exportAnswer)
      ⟨done_exportAnswer, by rw [hexport]; exact fun he => by cases he⟩
    rwa [← exportedSession, LabService.lastExport, hexport, ← hafter] at hexported

/-- The run with the observation behind the export. -/
lemma runs_laterSession : signedService.Runs .plain laterSession (some exportedSession) := by
  refine runs_exportedSession.call _ (observation_writes ?_)
  rw [(sameEvents_recordEvent sameEvents_exportedSession _ _ _ _ _).1]
  decide +kernel

lemma length_recordedSession : recordedSession.events.length = 1 := by
  decide +kernel

lemma length_exportedSession : exportedSession.events.length = 1 := by
  rw [sameEvents_exportedSession.1]
  exact length_recordedSession

lemma length_laterSession : laterSession.events.length = 2 := by
  rw [sameEvents_laterSession.1]
  decide +kernel

theorem accepted_iff_nothing_recorded_of_export :
    exportedSession.events.length = 1 ∧ laterSession.events.length = 2
      ∧ ((∃ report, (verifyBundle .plain [str "session"] (some [str "key.pem"])).outcome
          (sessionTree exportedSession).answer = .ok report)
        ↔ exportedSession.events = exportedSession.events)
      ∧ ((∃ report, (verifyBundle .plain [str "session"] (some [str "key.pem"])).outcome
          (sessionTree laterSession).answer = .ok report)
        ↔ laterSession.events = exportedSession.events) := by
  refine ⟨length_exportedSession, length_laterSession, ?_, ?_⟩
  · exact accepted_iff_nothing_recorded lawful_plain runs_exportedSession signing_signedService
      (sessionDirectory_sessionTree _) (trustedKey_sessionTree _)
  · exact accepted_iff_nothing_recorded lawful_plain runs_laterSession signing_signedService
      (sessionDirectory_sessionTree _) (trustedKey_sessionTree _)

/-- An observation after the export, and the bundle that was exported is refused. -/
theorem recorded_bundle_refused : ∃ s s₁, signedService.Runs .plain s (some s₁)
    ∧ ¬ ∃ report, (verifyBundle .plain [str "session"] (some [str "key.pem"])).outcome
        (sessionTree s).answer = .ok report := by
  refine ⟨laterSession, exportedSession, runs_laterSession, ?_⟩
  obtain ⟨hsince, a, s₀, signing, evidence, environment, log, manifest, hexported, -⟩ :=
    runs_laterSession.tracked.exported exportedSession rfl
  obtain rfl := Except.ok.inj (signing_signedService.symm.trans hexported.signing_eq)
  rw [hexported.accepted_iff lawful_plain (fun h => by cases h) hsince
    (sessionDirectory_sessionTree _) (trustedKey_sessionTree _)]
  intro hsame
  have hlength := congrArg List.length hsame
  rw [length_exportedSession, length_laterSession] at hlength
  omega

end FreebsdLaboratory
