import FreebsdLaboratory.Evidence.Calls

/-!
# What an export writes

An export that returns has written every file it hashes: `export_spec` says what is then in the
session directory, in terms of the documents and of the three artifacts that the manifest lists.
-/

namespace FreebsdLaboratory

open Library Library.Unicode Library.Json

variable {m : LabService} {E : Ed25519} {s s' : Session} {α β : Type} {name : Str}
variable {content b : Bytes} {value : Value}

/-! ## Methods that return -/

lemma serviceM_bind_ok {x : ServiceM α} {f : α → ServiceM β} {y : β} :
    (x >>= f) s = (.ok y, s') ↔ ∃ a t, x s = (.ok a, t) ∧ f a t = (.ok y, s') := by
  rw [serviceM_bind]
  rcases x s with ⟨_ | a, t⟩
  · constructor
    · exact fun h => by cases h
    · rintro ⟨a, t', h, -⟩
      cases h
  · constructor
    · exact fun h => ⟨a, t, rfl, h⟩
    · rintro ⟨a', t', heq, h⟩
      cases heq
      exact h

lemma writeFile_ok {a : WriteAnswer} {u : Unit} :
    writeFile name content a s = (.ok u, s')
      ↔ a = .done ∧ content.length ≤ maxFileSize ∧ s' = s.setFile name (some content) := by
  unfold writeFile
  rw [serviceM_bind, serviceM_get]
  dsimp only
  cases a with
  | done =>
      by_cases hsize : content.length > maxFileSize
      · have hnot : ¬ content.length ≤ maxFileSize := by omega
        simp only [hsize, if_true, hnot, false_and, and_false, iff_false]
        exact fun h => by cases h
      · have hle : content.length ≤ maxFileSize := by omega
        simp only [hsize, if_false, hle, true_and]
        constructor
        · exact fun h => (congrArg Prod.snd h).symm
        · rintro rfl
          rfl
  | raises left =>
      simp only [reduceCtorEq, false_and, iff_false]
      cases left <;> exact fun h => by cases h

lemma readFile_ok : readFile name s = (.ok content, s') ↔ s.files name = some content ∧ s' = s := by
  unfold readFile
  rw [serviceM_bind, serviceM_get]
  cases hfile : s.files name with
  | none =>
      simp only [hfile, reduceCtorEq, false_and, iff_false]
      exact fun h => by cases h
  | some c =>
      simp only [hfile, Option.some.injEq]
      constructor
      · intro h
        cases h
        exact ⟨rfl, rfl⟩
      · rintro ⟨rfl, rfl⟩
        rfl

lemma mk_ok {x : Except ServiceError α} {y : α} :
    (ExceptT.mk (pure x) : ServiceM α) s = (.ok y, s') ↔ x = .ok y ∧ s' = s := by
  rw [serviceM_mk, Prod.mk.injEq]
  exact and_congr_right fun _ => eq_comm

lemma writeDocument_ok {a : WriteAnswer} {u : Unit} :
    writeDocument name value a s = (.ok u, s')
      ↔ ∃ bytes, canonicalJson value = .ok bytes ∧ a = .done
          ∧ (bytes ++ [10]).length ≤ maxFileSize ∧ s' = s.setFile name (some (bytes ++ [10])) := by
  rw [writeDocument, serviceM_bind_ok]
  constructor
  · rintro ⟨bytes, t, hbytes, hwrite⟩
    obtain ⟨hcanonical, rfl⟩ := mk_ok.mp hbytes
    exact ⟨bytes, hcanonical, writeFile_ok.mp hwrite⟩
  · rintro ⟨bytes, hcanonical, hwrite⟩
    exact ⟨bytes, s, mk_ok.mpr ⟨hcanonical, rfl⟩, writeFile_ok.mpr hwrite⟩

lemma artifact_ok {entry : Str × Value} : artifact name s = (.ok entry, s')
    ↔ ∃ c, s.files name = some c ∧ entry = (name, artifactEntry c) ∧ s' = s := by
  rw [artifact, serviceM_bind_ok]
  constructor
  · rintro ⟨c, t, hread, h⟩
    obtain ⟨hfile, rfl⟩ := readFile_ok.mp hread
    cases h
    exact ⟨c, hfile, rfl, rfl⟩
  · rintro ⟨c, hfile, rfl, rfl⟩
    exact ⟨c, s', readFile_ok.mpr ⟨hfile, rfl⟩, rfl⟩

lemma mapM_artifact_ok {names : List Str} {artifacts : Items} :
    names.mapM artifact s = (.ok artifacts, s')
      ↔ List.Forall₂ (fun entry name => ∃ c, s.files name = some c
        ∧ entry = (name, artifactEntry c))
          artifacts names ∧ s' = s := by
  induction names generalizing artifacts s s' with
  | nil =>
      rw [List.mapM_nil, List.forall₂_nil_right_iff]
      constructor
      · intro h
        cases h
        exact ⟨rfl, rfl⟩
      · rintro ⟨rfl, rfl⟩
        rfl
  | cons name names ih =>
      rw [List.mapM_cons, serviceM_bind_ok]
      constructor
      · rintro ⟨entry, t, hentry, h⟩
        obtain ⟨c, hfile, rfl, rfl⟩ := artifact_ok.mp hentry
        rw [serviceM_bind_ok] at h
        obtain ⟨entries, t', hentries, h⟩ := h
        obtain ⟨hall, rfl⟩ := ih.mp hentries
        cases h
        exact ⟨.cons ⟨c, hfile, rfl⟩ hall, rfl⟩
      · rintro ⟨hall, rfl⟩
        cases hall with
        | @cons entry _ entries _ hentry hentries =>
            obtain ⟨c, hfile, rfl⟩ := hentry
            exact ⟨_, s', artifact_ok.mpr ⟨c, hfile, rfl, rfl⟩,
              serviceM_bind_ok.mpr ⟨entries, s', ih.mpr ⟨hentries, rfl⟩, rfl⟩⟩

lemma signManifest_ok {privateKey : PathTarget} {keyId : Str} {a : ExportAnswer} {u : Unit} :
    signManifest E privateKey keyId a s = (.ok u, s')
      ↔ ∃ key manifest document, privateKey.content.bind E.loadPrivate = some key
          ∧ s.files manifestName = some manifest
          ∧ canonicalJson (signatureDocument E key keyId manifest) = .ok document
          ∧ a.signature = .done ∧ (document ++ [10]).length ≤ maxFileSize ∧ a.moved = true
          ∧ s' = ((s.setFile temporaryName (some (document ++ [10]))).setFile signatureName
              (some (document ++ [10]))).setFile temporaryName none := by
  unfold signManifest
  cases hkey : privateKey.content.bind E.loadPrivate with
  | none =>
      simp only [reduceCtorEq, false_and, exists_false, iff_false]
      exact fun h => by cases h
  | some key =>
      dsimp only
      rw [serviceM_bind_ok]
      constructor
      · rintro ⟨manifest, t, hread, h⟩
        obtain ⟨hmanifest, rfl⟩ := readFile_ok.mp hread
        rw [serviceM_bind_ok] at h
        obtain ⟨document, t, hdocument, h⟩ := h
        obtain ⟨hcanonical, rfl⟩ := mk_ok.mp hdocument
        rw [serviceM_bind_ok] at h
        obtain ⟨_, t, hwrite, h⟩ := h
        obtain ⟨hdone, hsize, rfl⟩ := writeFile_ok.mp hwrite
        cases hmoved : a.moved with
        | false =>
            rw [hmoved] at h
            cases h
        | true =>
            rw [hmoved] at h
            exact ⟨key, manifest, document, rfl, hmanifest, hcanonical, hdone, hsize, rfl,
              (congrArg Prod.snd h).symm⟩
      · rintro ⟨key', manifest, document, hsome, hmanifest, hcanonical, hdone, hsize, hmoved, rfl⟩
        obtain rfl := Option.some.inj hsome
        refine ⟨manifest, s, readFile_ok.mpr ⟨hmanifest, rfl⟩, serviceM_bind_ok.mpr
          ⟨document, s, mk_ok.mpr ⟨hcanonical, rfl⟩, serviceM_bind_ok.mpr
          ⟨(), _, writeFile_ok.mpr ⟨hdone, hsize, rfl⟩, ?_⟩⟩⟩
        rw [hmoved]
        rfl

lemma signExport_ok {signing : SigningConfig} {a : ExportAnswer} {u : Unit} :
    signExport E signing a s = (.ok u, s') ↔ match signing with
      | .disabled => s' = s
      | .enabled privateKey keyId => signManifest E privateKey keyId a s = (.ok u, s') := by
  cases signing with
  | disabled =>
      constructor
      · intro h
        cases h
        rfl
      · rintro rfl
        rfl
  | enabled privateKey keyId => exact Iff.rfl

/-! ## Whole exports -/

/-- The entries of the manifest, from the contents of the three artifacts. -/
def artifactsOf (evidence environment log : Bytes) : Items :=
  [(evidenceName, artifactEntry evidence), (environmentName, artifactEntry environment),
    (eventsName, artifactEntry log)]

lemma artifacts_ok {artifacts : Items}
    (h : [evidenceName, environmentName, eventsName].mapM artifact s = (.ok artifacts, s')) :
    ∃ evidence environment log, s.files evidenceName = some evidence
      ∧ s.files environmentName = some environment ∧ s.files eventsName = some log
      ∧ artifacts = artifactsOf evidence environment log ∧ s' = s := by
  obtain ⟨hall, hs'⟩ := mapM_artifact_ok.mp h
  obtain _ | ⟨⟨c₁, hc₁, rfl⟩, hall⟩ := hall
  obtain _ | ⟨⟨c₂, hc₂, rfl⟩, hall⟩ := hall
  obtain _ | ⟨⟨c₃, hc₃, rfl⟩, hall⟩ := hall
  cases hall
  exact ⟨c₁, c₂, c₃, hc₁, hc₂, hc₃, rfl, hs'⟩

/-- The signature of a manifest is in the session directory, if signing is enabled. -/
def SignedIn (E : Ed25519) (signing : SigningConfig) (manifest : Bytes) (s s' : Session) : Prop :=
  match signing with
  | .disabled => s'.files signatureName = s.files signatureName
  | .enabled privateKey keyId => ∃ key document,
      privateKey.content.bind E.loadPrivate = some key
        ∧ canonicalJson (signatureDocument E key keyId manifest) = .ok document
        ∧ s'.files signatureName = some (document ++ [10])

/-- What an export that returned has left in the session directory. -/
structure Exported (m : LabService) (E : Ed25519) (a : ExportAnswer) (s s' : Session)
    (signing : SigningConfig) (evidence environment log manifest : Bytes) : Prop where
  signing_eq : m.signingConfig = .ok signing
  environment_eq : ∃ bytes, canonicalJson m.environment = .ok bytes ∧ environment = bytes ++ [10]
  manifest_eq : ∃ bytes, canonicalJson (m.manifest s signing (artifactsOf evidence environment log)
    a.generatedAt) = .ok bytes ∧ manifest = bytes ++ [10]
  events_eq : s'.events = s.events
  evidence_file : s'.files evidenceName = some evidence
  environment_file : s'.files environmentName = some environment
  log_file : s'.files eventsName = some log
  manifest_file : s'.files manifestName = some manifest
  signature_file : SignedIn E signing manifest s s'
  same_log : s.files eventsName = some log

lemma steps_checksumLines_files (names : List Str) :
    Steps (fun a b => b = a) (checksumLines names) := by
  have htrans : ∀ a b c : Session, b = a → c = b → c = a := fun a b c h h' => h'.trans h
  have hread : ∀ name, Steps (fun a b : Session => b = a) (readFile name) := by
    intro name s
    unfold readFile
    rw [serviceM_bind, serviceM_get]
    cases h : s.files name with
    | none =>
        simp only [h]
        rfl
    | some content =>
        simp only [h]
        rfl
  induction names with
  | nil => exact fun _ => rfl
  | cons name names ih =>
      exact (hread name).bind htrans fun _ => ih.bind htrans fun _ _ => rfl

lemma get_ok {t : Session} : (get : ServiceM Session) s = (.ok t, s') ↔ t = s ∧ s' = s := by
  rw [serviceM_get, Prod.mk.injEq, Except.ok.injEq]
  exact and_congr eq_comm eq_comm

lemma readLabFile_ok {a : ExportAnswer} :
    readLabFile a s = (.ok content, s') ↔ a.labFile = some content ∧ s' = s := by
  unfold readLabFile
  cases a.labFile with
  | none =>
      simp only [reduceCtorEq, false_and, iff_false]
      exact fun h => by cases h
  | some c =>
      change (Except.ok c, s) = (Except.ok content, s') ↔ _
      rw [Prod.mk.injEq, Except.ok.injEq, Option.some.injEq]
      exact and_congr_right fun _ => eq_comm

/-- The files of the session directory after writes to other files. -/
lemma files_setFile_of_ne {n : Str} {c : Option Bytes} (h : n ≠ name) :
    (s.setFile name c).files n = s.files n :=
  if_neg h

lemma files_setFile_self {c : Option Bytes} : (s.setFile name c).files name = c := if_pos rfl

/-- Signing writes no other file than the signature. -/
lemma signExport_files {signing : SigningConfig} {a : ExportAnswer} {u : Unit}
    (h : signExport E signing a s = (.ok u, s')) {n : Str} (hn : n ≠ signatureName)
    (hn' : n ≠ temporaryName) : s'.files n = s.files n := by
  cases signing with
  | disabled => rw [signExport_ok.mp h]
  | enabled privateKey keyId =>
      obtain ⟨key, manifest, document, -, -, -, -, -, -, rfl⟩ :=
        signManifest_ok.mp (signExport_ok.mp h)
      rw [files_setFile_of_ne hn', files_setFile_of_ne hn, files_setFile_of_ne hn']

lemma signExport_events {signing : SigningConfig} {a : ExportAnswer} {u : Unit}
    (h : signExport E signing a s = (.ok u, s')) : s'.events = s.events := by
  have hsame := steps_signExport (E := E) (n := eventsName) (by decide) (by decide) signing a s
  rw [h] at hsame
  exact hsame.1

/-- What signing leaves of the signature. -/
lemma signExport_signature {signing : SigningConfig} {a : ExportAnswer} {u : Unit}
    {manifest : Bytes}
    (h : signExport E signing a s = (.ok u, s'))
    (hmanifest : s.files manifestName = some manifest) :
    SignedIn E signing manifest s s' := by
  cases signing with
  | disabled => rw [signExport_ok.mp h, SignedIn]
  | enabled privateKey keyId =>
      obtain ⟨key, manifest', document, hkey, hmanifest', hdocument, -, -, -, rfl⟩ :=
        signManifest_ok.mp (signExport_ok.mp h)
      obtain rfl := Option.some.inj (hmanifest.symm.trans hmanifest')
      refine ⟨key, document, hkey, hdocument, ?_⟩
      rw [files_setFile_of_ne (by decide), files_setFile_self]

/-- **An export that returns has written everything.** -/
theorem export_ok {a : ExportAnswer} (h : m.export E a s = (.ok value, s')) :
    ∃ signing evidence environment log manifest,
      Exported m E a s s' signing evidence environment log manifest := by
  unfold LabService.export at h
  rw [serviceM_bind_ok] at h
  obtain ⟨s₀, t₀, hget, h⟩ := h
  obtain ⟨rfl, ht₀⟩ := get_ok.mp hget
  rw [ht₀, serviceM_bind_ok] at h
  obtain ⟨signing, t₀, hsigning, h⟩ := h
  obtain ⟨hsigning, ht₀⟩ := mk_ok.mp hsigning
  rw [ht₀, serviceM_bind_ok] at h
  obtain ⟨labFile, t₀, hlab, h⟩ := h
  rw [(readLabFile_ok.mp hlab).2, serviceM_bind_ok] at h
  obtain ⟨_, t₁, hwrite, h⟩ := h
  obtain ⟨evidence, -, -, -, ht₁⟩ := writeDocument_ok.mp hwrite
  rw [ht₁, serviceM_bind_ok] at h
  obtain ⟨_, t₂, hwrite, h⟩ := h
  obtain ⟨environment, henvironment, -, -, ht₂⟩ := writeDocument_ok.mp hwrite
  rw [ht₂, serviceM_bind_ok] at h
  obtain ⟨artifacts, t₂, hartifacts, h⟩ := h
  obtain ⟨c₁, c₂, c₃, hc₁, hc₂, hc₃, hall, ht₂⟩ := artifacts_ok hartifacts
  rw [ht₂, serviceM_bind_ok] at h
  obtain ⟨_, t₃, hwrite, h⟩ := h
  obtain ⟨manifest, hmanifest, -, -, ht₃⟩ := writeDocument_ok.mp hwrite
  rw [ht₃, serviceM_bind_ok] at h
  obtain ⟨_, t₄, hsign, h⟩ := h
  rw [serviceM_bind_ok] at h
  obtain ⟨sums, t₅, hsums, h⟩ := h
  have ht₅ : t₅ = t₄ := by
    have hsame := steps_checksumLines_files ((hashedNames signing).insertionSort (· ≤ ·)) t₄
    rwa [hsums] at hsame
  rw [ht₅, serviceM_bind_ok] at h
  obtain ⟨_, t₆, hwrite, h⟩ := h
  obtain ⟨-, -, ht₆⟩ := writeFile_ok.mp hwrite
  have hs' : s' = t₄.setFile sumsName (some sums) := by
    rw [ht₆] at h
    exact (congrArg Prod.snd h).symm
  have hrest : ∀ n, n ≠ sumsName → s'.files n = t₄.files n := fun n hn => by
    rw [hs', files_setFile_of_ne hn]
  have hfiles : ∀ n, n ≠ signatureName → n ≠ temporaryName → n ≠ sumsName →
      s'.files n = (((s₀.setFile evidenceName (some (evidence ++ [10]))).setFile environmentName
        (some (environment ++ [10]))).setFile manifestName (some (manifest ++ [10]))).files n :=
    fun n hn hn' hn'' => (hrest n hn'').trans (signExport_files hsign hn hn')
  obtain ⟨log, hlog, rfl⟩ : ∃ log, s₀.files eventsName = some log
      ∧ artifacts = artifactsOf (evidence ++ [10]) (environment ++ [10]) log := by
    rw [files_setFile_of_ne (by decide), files_setFile_self] at hc₁
    rw [files_setFile_self] at hc₂
    rw [files_setFile_of_ne (by decide), files_setFile_of_ne (by decide)] at hc₃
    obtain rfl := Option.some.inj hc₁
    obtain rfl := Option.some.inj hc₂
    exact ⟨c₃, hc₃, hall⟩
  have hsigned := signExport_signature hsign files_setFile_self
  refine ⟨signing, evidence ++ [10], environment ++ [10], log, manifest ++ [10], hsigning,
    ⟨environment, henvironment, rfl⟩, ⟨manifest, hmanifest, rfl⟩, ?_, ?_, ?_, ?_, ?_, ?_, hlog⟩
  · rw [hs']
    exact (signExport_events hsign).trans rfl
  · rw [hfiles _ (by decide) (by decide) (by decide), files_setFile_of_ne (by decide),
      files_setFile_of_ne (by decide), files_setFile_self]
  · rw [hfiles _ (by decide) (by decide) (by decide), files_setFile_of_ne (by decide),
      files_setFile_self]
  · rw [hfiles _ (by decide) (by decide) (by decide), files_setFile_of_ne (by decide),
      files_setFile_of_ne (by decide), files_setFile_of_ne (by decide), hlog]
  · rw [hfiles _ (by decide) (by decide) (by decide), files_setFile_self]
  · cases signing with
    | disabled =>
        have hsame : t₄.files signatureName = _ := hsigned
        rw [SignedIn, hrest _ (by decide), hsame, files_setFile_of_ne (by decide),
          files_setFile_of_ne (by decide), files_setFile_of_ne (by decide)]
    | enabled privateKey keyId =>
        obtain ⟨key, document, hkey, hdocument, hfile⟩ := hsigned
        exact ⟨key, document, hkey, hdocument, (hrest _ (by decide)).trans hfile⟩

end FreebsdLaboratory
