import FreebsdLaboratory.Library.JsonWritable
import FreebsdLaboratory.Evidence.Exports

/-!
# Exporting again

Most of what an export writes is fixed when the service starts, so an export that has returned says
much about the ones that follow: as long as its writes succeed, a later one either raises before it
has written anything, or returns (`reexport_keeps`).  What changes is counts and sizes, and these
can always be written: a file has no more bytes than an `off_t` counts.
-/

namespace FreebsdLaboratory

open Library Library.Unicode Library.Json

variable {m : LabService} {E : Ed25519} {s s' : Session} {α β : Type} {name : Str}
variable {content b : Bytes} {v value : Value} {e : ServiceError}

/-! ## Documents that can be written -/

lemma exists_canonicalJson_iff : (∃ b, canonicalJson v = .ok b) ↔ v.Writable := by
  rw [← writable_iff, HasText]
  simp only [canonicalJson_eq_ok]
  constructor
  · rintro ⟨b, text, hdumps, hencode⟩
    exact ⟨text, hdumps, (encode_eq_some_iff.mp hencode).1⟩
  · rintro ⟨text, hdumps, hencodable⟩
    exact ⟨_, text, hdumps, encode_eq_some_iff.mpr ⟨hencodable, rfl⟩⟩

lemma encodable_sha256Bytes (content : Bytes) : Encodable (sha256Bytes content) := by
  refine encodable_of_lt fun c hc => ?_
  obtain ⟨d, -, hd⟩ := List.mem_flatMap.mp hc
  have hdigit : ∀ n, (Sha256.hexDigit n).toNat < 128 := by
    intro n
    by_cases hn : n < 16
    · have hall : ∀ n < 16, (Sha256.hexDigit n).toNat < 128 := by decide
      exact hall n hn
    · have hnone : "0123456789abcdef".toList[n]? = none := by
        rw [List.getElem?_eq_none_iff, show "0123456789abcdef".toList.length = 16 by decide]
        omega
      rw [Sha256.hexDigit, List.getD_eq_getElem?_getD, hnone]
      decide
  simp only [List.mem_cons, List.not_mem_nil, or_false] at hd
  rcases hd with rfl | rfl
  · exact hdigit _
  · exact hdigit _

/-- A number of bytes can be written. -/
lemma writable_length {n : ℕ} (h : n ≤ maxFileSize) : (Value.int n).Writable := by
  have hpow : maxFileSize < 10 ^ 20 := by decide
  have hdigits : (Nat.toDigits 10 n).length ≤ 20 :=
    Nat.toDigits_length 10 n 20 (by decide) (by omega)
  have hmax : 20 ≤ Json.maxIntDigits := by decide
  rw [Value.Writable, Int.natAbs_natCast, decimal, List.length_map]
  omega

lemma writable_artifactEntry (h : content.length ≤ maxFileSize) :
    (artifactEntry content).Writable :=
  ⟨⟨encodable_str _, encodable_sha256Bytes _⟩, ⟨encodable_str _, writable_length h⟩, trivial⟩

lemma writable_artifactsOf {evidence environment log : Bytes}
    (hevidence : evidence.length ≤ maxFileSize)
    (henvironment : environment.length ≤ maxFileSize) (hlog : log.length ≤ maxFileSize) :
    Value.WritableItems (artifactsOf evidence environment log) :=
  ⟨⟨encodable_str _, writable_artifactEntry hevidence⟩,
    ⟨encodable_str _, writable_artifactEntry henvironment⟩,
    ⟨encodable_str _, writable_artifactEntry hlog⟩, trivial⟩

/-- A manifest can be written if another one of the service could: they differ in counts and
sizes. -/
lemma writable_manifest {s₁ : Session} {signing : SigningConfig} {artifacts artifacts₁ : Items}
    {generatedAt generatedAt₁ : String}
    (h : (m.manifest s₁ signing artifacts₁ generatedAt₁).Writable)
    (hcount : s.events.length ≤ maxFileSize) (hartifacts : Value.WritableItems artifacts) :
    (m.manifest s signing artifacts generatedAt).Writable := by
  obtain ⟨hschema, hlab, hsession, -, hattestation, -, -, hsignature⟩ := h
  exact ⟨hschema, hlab, hsession, ⟨encodable_str _, writable_length hcount⟩, hattestation,
    ⟨encodable_str _, encodable_str _⟩, ⟨encodable_str _, hartifacts⟩, hsignature⟩

/-- Whether a signature document can be written does not depend on the manifest. -/
lemma writable_signatureDocument {key : E.PrivateKey} {keyId : Str}
    {manifest manifest₁ : Bytes} (h : (signatureDocument E key keyId manifest₁).Writable) :
    (signatureDocument E key keyId manifest).Writable := by
  obtain ⟨hschema, halgorithm, hkeyId, hname, -, hprint, hpem, -⟩ := h
  have hsignature : Encodable (Base64.encode (E.sign key manifest)) :=
    encodable_of_lt (Base64.encode_lt _)
  exact ⟨hschema, halgorithm, hkeyId, hname, ⟨encodable_str _, encodable_sha256Bytes _⟩, hprint,
    hpem, ⟨encodable_str _, hsignature⟩, trivial⟩

/-! ## Methods that raise -/

lemma serviceM_bind_error {x : ServiceM α} {f : α → ServiceM β} :
    (x >>= f) s = (.error e, s')
      ↔ x s = (.error e, s') ∨ ∃ a t, x s = (.ok a, t) ∧ f a t = (.error e, s') := by
  rw [serviceM_bind]
  rcases x s with ⟨_ | a, t⟩
  · constructor
    · intro h
      cases h
      exact .inl rfl
    · rintro (h | ⟨a, t', h, -⟩)
      · cases h
        rfl
      · cases h
  · constructor
    · exact fun h => .inr ⟨a, t, rfl, h⟩
    · rintro (h | ⟨a', t', heq, h⟩)
      · cases h
      · cases heq
        exact h

lemma mk_error {x : Except ServiceError α} :
    (ExceptT.mk (pure x) : ServiceM α) s = (.error e, s') ↔ x = .error e ∧ s' = s := by
  rw [serviceM_mk, Prod.mk.injEq]
  exact and_congr_right fun _ => eq_comm

lemma writeFile_error (h : writeFile name content .done s = (.error e, s')) : e = .writeFailed := by
  unfold writeFile at h
  rw [serviceM_bind, serviceM_get] at h
  dsimp only at h
  by_cases hsize : content.length > maxFileSize
  · rw [if_pos hsize] at h
    cases h
    rfl
  · rw [if_neg hsize] at h
    cases h

/-- A document that is not written, although its write would be done. -/
lemma writeDocument_error (h : writeDocument name value .done s = (.error e, s'))
    (he : e ≠ .writeFailed) : s' = s ∧ ¬ value.Writable := by
  rw [writeDocument, serviceM_bind_error] at h
  rcases h with h | ⟨bytes, t, -, h⟩
  · obtain ⟨hcanonical, rfl⟩ := mk_error.mp h
    refine ⟨rfl, fun hwritable => ?_⟩
    obtain ⟨bytes, hbytes⟩ := exists_canonicalJson_iff.mpr hwritable
    cases hcanonical.symm.trans hbytes
  · exact absurd (writeFile_error h) he

lemma readFile_error (h : readFile name s = (.error e, s')) : s.files name = none := by
  cases hfile : s.files name with
  | none => rfl
  | some c =>
      rw [readFile_ok.mpr ⟨hfile, rfl⟩] at h
      cases h

lemma artifact_error (h : artifact name s = (.error e, s')) : s.files name = none := by
  rw [artifact, serviceM_bind_error] at h
  rcases h with h | ⟨c, t, -, h⟩
  · exact readFile_error h
  · cases h

lemma mapM_artifact_error {names : List Str} (h : names.mapM artifact s = (.error e, s')) :
    ∃ name ∈ names, s.files name = none := by
  induction names generalizing s with
  | nil => cases h
  | cons name names ih =>
      rw [List.mapM_cons, serviceM_bind_error] at h
      rcases h with h | ⟨entry, t, hentry, h⟩
      · exact ⟨name, List.mem_cons_self, artifact_error h⟩
      · obtain ⟨-, -, -, rfl⟩ := artifact_ok.mp hentry
        rw [serviceM_bind_error] at h
        rcases h with h | ⟨entries, t, -, h⟩
        · obtain ⟨n, hn, hnone⟩ := ih h
          exact ⟨n, List.mem_cons_of_mem _ hn, hnone⟩
        · cases h

lemma checksumLines_error {names : List Str} (h : checksumLines names s = (.error e, s')) :
    ∃ name ∈ names, s.files name = none := by
  induction names generalizing s with
  | nil => cases h
  | cons name names ih =>
      rw [checksumLines, serviceM_bind_error] at h
      rcases h with h | ⟨c, t, hread, h⟩
      · exact ⟨name, List.mem_cons_self, readFile_error h⟩
      · obtain ⟨-, rfl⟩ := readFile_ok.mp hread
        rw [serviceM_bind_error] at h
        rcases h with h | ⟨rest, t, -, h⟩
        · obtain ⟨n, hn, hnone⟩ := ih h
          exact ⟨n, List.mem_cons_of_mem _ hn, hnone⟩
        · cases h

/-- Every write of the export is done. -/
structure ExportAnswer.Done (a : ExportAnswer) : Prop where
  evidence : a.evidence = .done
  environment : a.environment = .done
  manifest : a.manifest = .done
  signature : a.signature = .done
  moved : a.moved = true
  sums : a.sums = .done

lemma signManifest_error {a : ExportAnswer} (hdone : a.Done) {privateKey : PathTarget} {keyId : Str}
    {key : E.PrivateKey} {manifest : Bytes}
    (hkey : privateKey.content.bind E.loadPrivate = some key)
    (hmanifest : s.files manifestName = some manifest)
    (hwritable : (signatureDocument E key keyId manifest).Writable)
    (h : signManifest E privateKey keyId a s = (.error e, s')) : e = .writeFailed := by
  unfold signManifest at h
  rw [hkey] at h
  dsimp only at h
  rw [serviceM_bind_error] at h
  rcases h with h | ⟨manifest', t, hread, h⟩
  · cases (readFile_error h).symm.trans hmanifest
  · obtain ⟨hmanifest', rfl⟩ := readFile_ok.mp hread
    obtain rfl := Option.some.inj (hmanifest.symm.trans hmanifest')
    rw [serviceM_bind_error] at h
    rcases h with h | ⟨document, t, -, h⟩
    · obtain ⟨document, hdocument⟩ := exists_canonicalJson_iff.mpr hwritable
      cases (mk_error.mp h).1.symm.trans hdocument
    · rw [hdone.signature, serviceM_bind_error] at h
      rcases h with h | ⟨_, t', -, h⟩
      · exact writeFile_error h
      · rw [hdone.moved] at h
        cases h

/-! ## Later exports -/

/-- What an earlier export shows about the service. -/
structure LabService.CanExport (m : LabService) (E : Ed25519) (signing : SigningConfig) : Prop where
  signing_eq : m.signingConfig = .ok signing
  environment : m.environment.Writable
  manifest : ∀ s artifacts generatedAt, s.events.length ≤ maxFileSize →
    Value.WritableItems artifacts → (m.manifest s signing artifacts generatedAt).Writable
  signature : ∀ privateKey keyId, signing = .enabled privateKey keyId → ∃ key,
    privateKey.content.bind E.loadPrivate = some key
      ∧ ∀ manifest, (signatureDocument E key keyId manifest).Writable

lemma Exported.canExport {a : ExportAnswer} {signing : SigningConfig}
    {evidence environment log manifest : Bytes}
    (h : Exported m E a s s' signing evidence environment log manifest) :
    m.CanExport E signing := by
  refine ⟨h.signing_eq, ?_, ?_, ?_⟩
  · obtain ⟨bytes, hbytes, -⟩ := h.environment_eq
    exact exists_canonicalJson_iff.mp ⟨bytes, hbytes⟩
  · intro s artifacts generatedAt hcount hartifacts
    obtain ⟨bytes, hbytes, -⟩ := h.manifest_eq
    exact writable_manifest (exists_canonicalJson_iff.mp ⟨bytes, hbytes⟩) hcount hartifacts
  · rintro privateKey keyId rfl
    obtain ⟨key, document, hkey, hdocument, -⟩ := h.signature_file
    exact ⟨key, hkey, fun _ => writable_signatureDocument
      (exists_canonicalJson_iff.mp ⟨document, hdocument⟩)⟩

lemma signExport_error {signing : SigningConfig} (hm : m.CanExport E signing) {a : ExportAnswer}
    (hdone : a.Done) {manifest : Bytes} (hmanifest : s.files manifestName = some manifest)
    (h : signExport E signing a s = (.error e, s')) : e = .writeFailed := by
  cases signing with
  | disabled => cases h
  | enabled privateKey keyId =>
      obtain ⟨key, hkey, hwritable⟩ := hm.signature privateKey keyId rfl
      exact signManifest_error hdone hkey hmanifest (hwritable manifest) h

/-- Every file that is hashed last is there. -/
lemma signExport_present {signing : SigningConfig} {a : ExportAnswer} {u : Unit} {manifest : Bytes}
    (h : signExport E signing a s = (.ok u, s')) (hmanifest : s.files manifestName = some manifest)
    (hartifacts : ∀ n ∈ [evidenceName, environmentName, eventsName], ∃ c, s.files n = some c)
    (hname : name ∈ hashedNames signing) : s'.files name ≠ none := by
  by_cases hsignature : name = signatureName
  · subst hsignature
    cases signing with
    | disabled => exact absurd hname (by decide)
    | enabled privateKey keyId =>
        obtain ⟨key, document, -, -, hfile⟩ := signExport_signature h hmanifest
        rw [hfile]
        exact Option.some_ne_none _
  · have hother : name ∈ [evidenceName, environmentName, eventsName] ++ [manifestName] := by
      refine (List.mem_append.mp hname).resolve_right fun hlast => hsignature ?_
      split_ifs at hlast
      · exact List.mem_singleton.mp hlast
      · cases hlast
    have hne : name ≠ temporaryName := by
      rintro rfl
      revert hother
      decide
    rw [signExport_files h hsignature hne]
    rcases List.mem_append.mp hother with hmem | hmem
    · obtain ⟨c, hc⟩ := hartifacts name hmem
      rw [hc]
      exact Option.some_ne_none _
    · rw [List.mem_singleton.mp hmem, hmanifest]
      exact Option.some_ne_none _

/-- **An export whose writes succeed** changes the session only if it returns, if an earlier one has
returned. -/
theorem reexport_keeps {signing : SigningConfig} (hm : m.CanExport E signing) {a : ExportAnswer}
    (hdone : a.Done) {log : Bytes} (hlog : s.files eventsName = some log)
    (hsize : log.length ≤ maxFileSize) (hcount : s.events.length ≤ maxFileSize)
    (h : m.export E a s = (.error e, s')) (he : e ≠ .writeFailed) : s' = s := by
  unfold LabService.export at h
  rw [serviceM_bind_error] at h
  rcases h with h | ⟨s₀, t₀, hget, h⟩
  · cases h
  obtain ⟨rfl, rfl⟩ := get_ok.mp hget
  rw [serviceM_bind_error] at h
  rcases h with h | ⟨signing', t₀, hsigning, h⟩
  · exact (mk_error.mp h).2
  obtain ⟨hconfig, rfl⟩ := mk_ok.mp hsigning
  obtain rfl := Except.ok.inj (hm.signing_eq.symm.trans hconfig)
  rw [serviceM_bind_error] at h
  rcases h with h | ⟨labFile, t₀, hlab, h⟩
  · unfold readLabFile at h
    cases hfile : a.labFile with
    | none =>
        rw [hfile] at h
        cases h
        rfl
    | some content =>
        rw [hfile] at h
        cases h
  obtain ⟨-, rfl⟩ := readLabFile_ok.mp hlab
  rw [hdone.evidence, serviceM_bind_error] at h
  rcases h with h | ⟨_, t₁, hwrite, h⟩
  · exact (writeDocument_error h he).1
  -- from here on something has been written, and nothing can fail but a write
  exfalso
  obtain ⟨evidence, -, -, hevidence, rfl⟩ := writeDocument_ok.mp hwrite
  rw [hdone.environment, serviceM_bind_error] at h
  rcases h with h | ⟨_, t₂, hwrite, h⟩
  · exact (writeDocument_error h he).2 hm.environment
  obtain ⟨environment, -, -, henvironment, rfl⟩ := writeDocument_ok.mp hwrite
  rw [serviceM_bind_error] at h
  rcases h with h | ⟨artifacts, t₂, hartifacts, h⟩
  · obtain ⟨name, hname, hnone⟩ := mapM_artifact_error h
    simp only [List.mem_cons, List.not_mem_nil, or_false] at hname
    rcases hname with rfl | rfl | rfl
    · rw [files_setFile_of_ne (by decide), files_setFile_self] at hnone
      cases hnone
    · rw [files_setFile_self] at hnone
      cases hnone
    · rw [files_setFile_of_ne (by decide), files_setFile_of_ne (by decide), hlog] at hnone
      cases hnone
  obtain ⟨c₁, c₂, c₃, hc₁, hc₂, hc₃, rfl, rfl⟩ := artifacts_ok hartifacts
  rw [files_setFile_of_ne (by decide), files_setFile_self] at hc₁
  rw [files_setFile_self] at hc₂
  rw [files_setFile_of_ne (by decide), files_setFile_of_ne (by decide)] at hc₃
  obtain rfl := Option.some.inj hc₁
  obtain rfl := Option.some.inj hc₂
  obtain rfl := Option.some.inj (hlog.symm.trans hc₃)
  rw [hdone.manifest, serviceM_bind_error] at h
  rcases h with h | ⟨_, t₃, hwrite, h⟩
  · exact (writeDocument_error h he).2
      (hm.manifest _ _ _ hcount (writable_artifactsOf hevidence henvironment hsize))
  obtain ⟨manifest, -, -, -, rfl⟩ := writeDocument_ok.mp hwrite
  rw [serviceM_bind_error] at h
  rcases h with h | ⟨_, t₄, hsign, h⟩
  · exact he (signExport_error hm hdone files_setFile_self h)
  rw [serviceM_bind_error] at h
  rcases h with h | ⟨sums, t₅, -, h⟩
  · obtain ⟨name, hname, hnone⟩ := checksumLines_error h
    have hmem : name ∈ hashedNames signing := (List.perm_insertionSort _ _).mem_iff.mp hname
    exact signExport_present hsign files_setFile_self (fun n hn => by
      simp only [List.mem_cons, List.not_mem_nil, or_false] at hn
      rcases hn with rfl | rfl | rfl
      · exact ⟨_, by rw [files_setFile_of_ne (by decide), files_setFile_of_ne (by decide),
          files_setFile_self]⟩
      · exact ⟨_, by rw [files_setFile_of_ne (by decide), files_setFile_self]⟩
      · exact ⟨_, by rw [files_setFile_of_ne (by decide), files_setFile_of_ne (by decide),
          files_setFile_of_ne (by decide), hlog]⟩) hmem hnone
  · rw [hdone.sums, serviceM_bind_error] at h
    rcases h with h | ⟨_, t₆, -, h⟩
    · exact he (writeFile_error h)
    · cases h

end FreebsdLaboratory
