import FreebsdLaboratory.Evidence.Exports
import FreebsdLaboratory.Properties.Bundles
import FreebsdLaboratory.Properties.EvidenceLog

/-!
# Tampered bundles

A manifest that a key has signed lists the hashes of three artifacts, and its text reads back as
what was written.  So a bundle that is accepted with that key is a bundle that was exported with it:
what an attacker can change without being noticed is only what no manifest speaks about.

The two assumptions are about the bundle at hand: a signature that verifies is one of a manifest
that was exported with the key, and no file of the bundle has the hash of an exported artifact with
other content.
-/

namespace FreebsdLaboratory

open Library Library.Unicode Library.Json

variable {m : LabService} {E : Ed25519} {t : FileTree} {s s' : Session} {b : Bytes} {v : Value}

/-! ## Documents read back -/

lemma universalNewlines_of_not_mem {text : Str} (h : 13 ∉ text) :
    universalNewlines text = text := by
  induction text using universalNewlines.induct with
  | case1 s ih => simp at h
  | case2 s hne ih => simp at h
  | case3 c s hne hne' ih =>
      rw [universalNewlines, ih fun hmem => h (List.mem_cons_of_mem c hmem)]
      · exact hne
      · exact hne'
  | case4 => rfl

/-- **A document that was written is parsed as it was written.** -/
theorem parses_document (hv : v.WellFormed) (h : canonicalJson v = .ok b) :
    Parses (b ++ [10]) v.normal := by
  obtain ⟨text, hdumps, hencode⟩ := canonicalJson_eq_ok.mp h
  have hline : encode [10] = some [10] := by decide
  have hcontrol : 13 ∉ text ++ [10] := by
    rw [List.mem_append, List.mem_singleton]
    rintro (hmem | hmem)
    · have := noControl_dumps v hv text hdumps 13 hmem
      omega
    · omega
  refine ⟨text ++ [10], decode_encode (encode_append hencode hline), ?_⟩
  rw [universalNewlines_of_not_mem hcontrol]
  exact loads_dumps hv hdumps (by decide)

/-! ## The manifest read back -/

lemma wellFormed_artifactEntry (content : Bytes) : (artifactEntry content).WellFormed := by
  refine wellFormed_dict.mpr ⟨?_, fun item hitem => ?_⟩
  · change [str "sha256", str "size"].Nodup
    decide
  · simp only [List.mem_cons, List.not_mem_nil, or_false] at hitem
    rcases hitem with rfl | rfl <;> trivial

lemma artifactsOf_keys (evidence environment log : Bytes) :
    (artifactsOf evidence environment log).map Prod.fst
      = [evidenceName, environmentName, eventsName] := rfl

lemma wellFormed_artifactsOf (evidence environment log : Bytes) :
    (Value.dict (artifactsOf evidence environment log)).WellFormed := by
  refine wellFormed_dict.mpr ⟨?_, fun item hitem => ?_⟩
  · rw [artifactsOf_keys]
    decide
  · simp only [artifactsOf, List.mem_cons, List.not_mem_nil, or_false] at hitem
    rcases hitem with rfl | rfl | rfl <;> exact wellFormed_artifactEntry _

lemma nodup_manifestItems (signing : SigningConfig) (artifacts : Items) (generatedAt : String) :
    ((m.manifestItems s signing artifacts generatedAt).map Prod.fst).Nodup := by
  change [str "schema", str "lab_id", str "session_id", str "event_count", str "attestation",
    str "generated_at", str "artifacts", str "signature"].Nodup
  decide

lemma wellFormed_manifest {signing : SigningConfig} {artifacts : Items} {generatedAt : String}
    (h : (Value.dict artifacts).WellFormed) :
    (m.manifest s signing artifacts generatedAt).WellFormed := by
  have hsignature : (Value.dict [(str "enabled", .bool signing.isEnabled),
      (str "algorithm", signing.algorithm), (str "key_id", signing.keyId)]).WellFormed := by
    refine wellFormed_dict.mpr ⟨?_, fun item hitem => ?_⟩
    · change [str "enabled", str "algorithm", str "key_id"].Nodup
      decide
    · simp only [List.mem_cons, List.not_mem_nil, or_false] at hitem
      rcases hitem with rfl | rfl | rfl
      · trivial
      · cases signing <;> trivial
      · cases signing <;> trivial
  refine wellFormed_dict.mpr ⟨nodup_manifestItems _ _ _, fun item hitem => ?_⟩
  simp only [LabService.manifestItems, List.mem_cons, List.not_mem_nil, or_false] at hitem
  rcases hitem with rfl | rfl | rfl | rfl | rfl | rfl | rfl | rfl <;> trivial

/-- The entries of the artifacts as they read back. -/
def readBackArtifacts (evidence environment log : Bytes) : Items :=
  sortItems (Value.normalItems (artifactsOf evidence environment log))

lemma mem_readBackArtifacts {evidence environment log : Bytes} {artifact : Str × Value} :
    artifact ∈ readBackArtifacts evidence environment log
      ↔ ∃ content, artifact.2 = (artifactEntry content).normal
          ∧ (artifact.1 = evidenceName ∧ content = evidence
            ∨ artifact.1 = environmentName ∧ content = environment
            ∨ artifact.1 = eventsName ∧ content = log) := by
  obtain ⟨name, metadata⟩ := artifact
  rw [readBackArtifacts, (sortItems_perm _).mem_iff]
  simp only [artifactsOf, Value.normalItems, List.mem_cons, List.not_mem_nil, or_false,
    Prod.mk.injEq]
  constructor
  · rintro (⟨rfl, rfl⟩ | ⟨rfl, rfl⟩ | ⟨rfl, rfl⟩)
    · exact ⟨_, rfl, .inl ⟨rfl, rfl⟩⟩
    · exact ⟨_, rfl, .inr (.inl ⟨rfl, rfl⟩)⟩
    · exact ⟨_, rfl, .inr (.inr ⟨rfl, rfl⟩)⟩
  · rintro ⟨content, rfl, ⟨rfl, rfl⟩ | ⟨rfl, rfl⟩ | ⟨rfl, rfl⟩⟩
    · exact .inl ⟨rfl, rfl⟩
    · exact .inr (.inl ⟨rfl, rfl⟩)
    · exact .inr (.inr ⟨rfl, rfl⟩)

/-- An entry of the manifest as it reads back: the hash and the size. -/
lemma artifactEntry_readBack (content : Bytes) : ∃ metadata,
    (artifactEntry content).normal = .dict metadata
      ∧ Value.lookup metadata (str "sha256") = some (.str (sha256Bytes content))
      ∧ Value.lookup metadata (str "size") = some (.int content.length) := by
  have hnodup : (([(str "sha256", .str (sha256Bytes content)), (str "size", .int content.length)] :
      Items).map Prod.fst).Nodup := (wellFormed_dict.mp (wellFormed_artifactEntry content)).1
  have hread := lookup_readBack hnodup
  refine ⟨_, rfl, ?_, ?_⟩
  · rw [hread]
    rfl
  · rw [hread]
    rfl

/-- **The manifest of an export reads back with its artifacts.** -/
theorem manifest_readBack {a : ExportAnswer} {signing : SigningConfig}
    {evidence environment log manifest : Bytes}
    (h : Exported m E a s s' signing evidence environment log manifest) :
    ∃ items, Parses manifest (.dict items)
      ∧ IsManifest items (readBackArtifacts evidence environment log) := by
  obtain ⟨bytes, hbytes, rfl⟩ := h.manifest_eq
  have hparses := parses_document (wellFormed_manifest (wellFormed_artifactsOf _ _ _)) hbytes
  have hread := lookup_readBack (nodup_manifestItems (m := m) (s := s) signing
    (artifactsOf evidence environment log) a.generatedAt)
  refine ⟨sortItems (Value.normalItems (m.manifestItems s signing
    (artifactsOf evidence environment log) a.generatedAt)), hparses, ?_, ?_, ?_⟩
  · rw [hread]
    rfl
  · rw [hread]
    rfl
  · intro hnil
    have hmem : (evidenceName, (artifactEntry evidence).normal)
        ∈ readBackArtifacts evidence environment log :=
      mem_readBackArtifacts.mpr ⟨evidence, rfl, .inl ⟨rfl, rfl⟩⟩
    rw [hnil] at hmem
    cases hmem

/-! ## The signature document read back -/

/-- The items of the signature document. -/
def signatureItems (E : Ed25519) (key : E.PrivateKey) (keyId : Str) (manifest : Bytes) : Items :=
  match signatureDocument E key keyId manifest with
  | .dict items => items
  | _ => []

lemma nodup_signatureItems (key : E.PrivateKey) (keyId : Str) (manifest : Bytes) :
    ((signatureItems E key keyId manifest).map Prod.fst).Nodup := by
  change [str "schema", str "algorithm", str "key_id", str "manifest", str "manifest_sha256",
    str "public_key_sha256", str "public_key_pem", str "signature_base64"].Nodup
  decide

lemma wellFormed_signatureDocument {key : E.PrivateKey} {keyId : Str} :
    (signatureDocument E key keyId manifest).WellFormed := by
  refine wellFormed_dict.mpr ⟨nodup_signatureItems _ _ _, fun item hitem => ?_⟩
  simp only [List.mem_cons, List.not_mem_nil, or_false] at hitem
  rcases hitem with rfl | rfl | rfl | rfl | rfl | rfl | rfl | rfl <;> trivial

/-! ## What is read -/

/-- An entry of the directory, reached without a symbolic link. -/
def InBundle (t : FileTree) (bundle path : Location) : Prop :=
  ∃ name content, path = bundle ++ [name] ∧ 47 ∉ name ∧ name ≠ str ".." ∧ name ≠ []
    ∧ t.node path = some (.file content)

/-- The verifier reads the trusted key and entries of the bundle, nothing else. -/
def ReadsOnly (t : FileTree) (bundle : Location) (trusted : Option Location) : ReadOp → Prop
  | .readBytes path => some path = trusted ∨ InBundle t bundle path
  | _ => True

section Reading

variable {α β : Type} {bundle path : Location} {trusted : Option Location} {message : Str}

/-- What is read is permitted, and the program returns only with `Q`. -/
def Reading (t : FileTree) (bundle : Location) (trusted : Option Location) (p : Verifier α)
    (Q : α → Prop) : Prop :=
  p.Obeys (Prog.answering t.answer (ReadsOnly t bundle trusted)) (fun a _ => Q a) (fun _ _ => True)
    ()

lemma reading_bind {p : Verifier α} {f : α → Verifier β} {Q : β → Prop}
    (h : Reading t bundle trusted p fun a => Reading t bundle trusted (f a) Q) :
    Reading t bundle trusted (p >>= f) Q :=
  Prog.obeys_bind.mpr h

lemma reading_op {o : ReadOp} {Q : o.Resp → Prop} (ho : ReadsOnly t bundle trusted o)
    (h : Q (t.answer o)) : Reading t bundle trusted (Prog.op ReadOp.Resp VerifyError o) Q := by
  refine ⟨ho, fun r _ hr => ?_⟩
  rw [hr.1]
  exact h

lemma reading_check {ok : Prop} [Decidable ok] {e : VerifyError} {Q : Unit → Prop} (h : ok → Q ()) :
    Reading t bundle trusted (check ok e) Q := by
  unfold check
  split_ifs with hok
  · exact h hok
  · trivial

lemma reading_require {ok : Prop} [Decidable ok] {Q : Unit → Prop} (h : ok → Q ()) :
    Reading t bundle trusted (require ok message) Q :=
  reading_check h

lemma reading_raise {e : VerifyError} {Q : α → Prop} :
    Reading t bundle trusted (Prog.raise e : Verifier α) Q := trivial

lemma reading_requireFile {Q : Unit → Prop} (h : ∀ c, t.node path = some (.file c) → Q ()) :
    Reading t bundle trusted (requireFile path message) Q := by
  refine reading_bind (reading_op trivial (reading_bind (reading_require fun _ => ?_)))
  refine reading_bind (reading_op trivial (reading_require fun hfile => ?_))
  obtain ⟨c, hc⟩ := Option.isSome_iff_exists.mp hfile
  exact h c (content_eq_some.mp hc)

lemma reading_readBytes {Q : Bytes → Prop} (ho : ReadsOnly t bundle trusted (.readBytes path))
    (h : ∀ c, Q c) : Reading t bundle trusted (readBytes path) Q := by
  refine reading_bind (reading_op ho ?_)
  cases t.answer (.readBytes path) with
  | none => exact reading_raise
  | some c => exact h c

lemma reading_readDocument {Q : Value → Prop} (ho : ReadsOnly t bundle trusted (.readBytes path))
    (h : ∀ v, Q v) : Reading t bundle trusted (readDocument path message) Q := by
  refine reading_bind (reading_op ho ?_)
  cases t.answer (.readBytes path) with
  | none => exact reading_raise
  | some c => exact Prog.obeys_ofExcept.mpr ⟨fun v _ => h v, fun _ _ => trivial⟩

lemma reading_asDict {value : Option Value} {Q : Items → Prop} (h : ∀ items, Q items) :
    Reading t bundle trusted (asDict value message) Q := by
  unfold asDict
  split
  · exact h _
  · exact reading_raise

lemma reading_asText {value : Option Value} {Q : Str → Prop} (h : ∀ text, Q text) :
    Reading t bundle trusted (asText value message) Q := by
  unfold asText
  split
  · exact h _
  · exact reading_raise

/-- A regular file next to the manifest may be read. -/
lemma readsOnly_entry {name : Str} {c : Bytes} (hname : 47 ∉ name ∧ name ≠ str ".." ∧ name ≠ [])
    (hc : t.node (bundle ++ [name]) = some (.file c)) :
    ReadsOnly t bundle trusted (.readBytes (bundle ++ [name])) :=
  .inr ⟨name, c, rfl, hname.1, hname.2.1, hname.2.2, hc⟩

lemma reading_verificationKey {items : Items} {Q : E.PublicKey → Prop} (h : ∀ key, Q key) :
    Reading t bundle trusted (verificationKey E trusted items) Q := by
  cases trusted with
  | some path =>
      refine reading_bind (reading_bind (reading_requireFile fun _ _ => ?_))
      refine reading_bind (reading_readBytes (.inl rfl) fun content => ?_)
      cases E.loadPublic content with
      | none => exact reading_raise
      | some key => exact reading_bind (reading_require fun _ => h key)
  | none =>
      refine reading_bind (reading_bind (reading_asText fun pem => ?_))
      cases (if pem.all (· < 128) then E.loadPublic pem else none) with
      | none => exact reading_raise
      | some key => exact reading_bind (reading_require fun _ => h key)

lemma reading_verifyManifestSignature {Q : Items → Prop} (h : ∀ items, Q items) :
    Reading t bundle trusted (verifyManifestSignature E (bundle ++ [manifestName])
      (bundle ++ [signatureName]) trusted) Q := by
  refine reading_bind (reading_requireFile fun c hc => ?_)
  refine reading_bind (reading_requireFile fun c' hc' => ?_)
  refine reading_bind (reading_readDocument (readsOnly_entry (by decide) hc') fun v => ?_)
  refine reading_bind (reading_asDict fun items => reading_bind (reading_require fun _ => ?_))
  refine reading_bind (reading_readBytes (readsOnly_entry (by decide) hc) fun manifest => ?_)
  refine reading_bind
    (reading_require fun _ => reading_bind (reading_verificationKey fun key => ?_))
  refine reading_bind (reading_asText fun text => reading_bind ?_)
  unfold decodeSignature
  cases Base64.decode text with
  | none => exact reading_raise
  | some signature => exact reading_bind (reading_require fun _ => h items)

lemma reading_verifyArtifact {name : Str} {metadata : Value} {Q : Unit → Prop} (h : Q ()) :
    Reading t bundle trusted (verifyArtifact bundle name metadata) Q := by
  refine reading_bind (reading_check fun hname => reading_bind (reading_asDict fun items => ?_))
  refine reading_bind
    (reading_asText fun expected => reading_bind (reading_requireFile fun c hc => ?_))
  have hplain : 47 ∉ name ∧ name ≠ str ".." ∧ name ≠ [] := by
    refine ⟨(pathParts_of_isArtifactName hname).2, ?_⟩
    simp only [isArtifactName, decide_eq_true_eq] at hname
    exact ⟨hname.2.2.1, hname.1⟩
  rw [joinPath_artifact hname] at hc ⊢
  refine reading_bind (reading_readBytes (readsOnly_entry hplain hc) fun content => ?_)
  refine reading_bind (reading_require fun _ => ?_)
  unfold verifySize
  split
  · exact reading_bind (reading_op trivial (reading_require fun _ => h))
  · exact h

/-- **The loop reads entries of the bundle only.** -/
lemma reading_verifyArtifacts {artifacts : Items} {Q : List Str → Prop} (h : ∀ names, Q names) :
    Reading t bundle trusted (verifyArtifacts bundle artifacts) Q := by
  induction artifacts generalizing Q with
  | nil => exact h []
  | cons artifact artifacts ih =>
      refine reading_bind (reading_verifyArtifact ?_)
      exact reading_bind (ih fun names => h _)

/-- **The verifier reads the bundle and the trusted key, nothing else.** -/
theorem reading_verifyBundle {rawBundle : Location} (hbundle : t.resolve rawBundle = bundle) :
    Reading t bundle trusted (verifyBundle E rawBundle trusted) fun _ => True := by
  refine reading_bind (reading_op trivial (reading_bind (reading_require fun _ => ?_)))
  refine reading_bind (reading_op trivial ?_)
  simp only [FileTree.answer, hbundle]
  refine reading_bind (reading_op trivial (reading_bind (reading_require fun _ => ?_)))
  refine reading_bind (reading_requireFile fun c hc => ?_)
  refine reading_bind (reading_readDocument (readsOnly_entry (by decide) hc) fun v => ?_)
  refine reading_bind (reading_asDict fun manifest => reading_bind (reading_require fun _ => ?_))
  refine reading_bind (reading_asDict fun artifacts => reading_bind (reading_require fun _ => ?_))
  refine reading_bind (reading_verifyArtifacts fun names => reading_bind ?_)
  refine reading_bind (reading_op trivial (reading_bind (reading_require fun _ => ?_)))
  refine reading_bind (reading_op trivial ?_)
  cases t.answer (.isFile (bundle ++ [signatureName])) with
  | false => exact reading_bind (reading_require fun _ => trivial)
  | true => exact reading_bind (reading_verifyManifestSignature fun _ => trivial)

end Reading

/-! ## What is accepted -/

/-- The session of an export that returned, and that signed its manifest with the key. -/
def SignedExport (E : Ed25519) (key : E.PrivateKey) (s' : Session) : Prop :=
  ∃ (m : LabService) (a : ExportAnswer) (s : Session) (value : Value) (target : PathTarget)
    (keyId : Str), m.export E a s = (.ok value, s') ∧ m.signingConfig = .ok (.enabled target keyId)
      ∧ target.content.bind E.loadPrivate = some key

/-- The signature that the signature document of a bundle carries. -/
def Carries (t : FileTree) (bundle : Location) (signature : Bytes) : Prop :=
  ∃ content document text, t.content (bundle ++ [signatureName]) = some content
    ∧ Parses content (.dict document)
    ∧ Value.lookup document (str "signature_base64") = some (.str text)
    ∧ Base64.decode text = some signature

/-- The manifest and every artifact it lists are as they were exported. -/
def AsExported (t : FileTree) (bundle : Location) (s : Session) : Prop :=
  ∃ content manifest artifacts, t.content (bundle ++ [manifestName]) = some content
    ∧ s.files manifestName = some content
    ∧ Parses content (.dict manifest) ∧ IsManifest manifest artifacts
    ∧ ∀ artifact ∈ artifacts, ∃ c, t.content (bundle ++ [artifact.1]) = some c
      ∧ s.files artifact.1 = some c

/-- The artifacts of an export, from the entries of its manifest. -/
lemma Exported.file_of_mem {a : ExportAnswer} {signing : SigningConfig}
    {evidence environment log manifest : Bytes} {artifact : Str × Value}
    (h : Exported m E a s s' signing evidence environment log manifest)
    (hmem : artifact ∈ readBackArtifacts evidence environment log) :
    ∃ c, s'.files artifact.1 = some c ∧ artifact.2 = (artifactEntry c).normal := by
  obtain ⟨c, hentry, ⟨hname, rfl⟩ | ⟨hname, rfl⟩ | ⟨hname, rfl⟩⟩ := mem_readBackArtifacts.mp hmem
  · exact ⟨c, hname ▸ h.evidence_file, hentry⟩
  · exact ⟨c, hname ▸ h.environment_file, hentry⟩
  · exact ⟨c, hname ▸ h.log_file, hentry⟩

/-- An artifact that matches the entry of an exported one has its hash. -/
lemma ArtifactMatches.hash_eq {bundle : Location} {artifact : Str × Value} {c : Bytes}
    (h : ArtifactMatches t bundle artifact) (hentry : artifact.2 = (artifactEntry c).normal) :
    ∃ c', t.content (bundle ++ [artifact.1]) = some c' ∧ sha256Bytes c' = sha256Bytes c := by
  obtain ⟨metadata, c', hmetadata, hcontent, hhash, -⟩ := h.matching
  obtain ⟨metadata', hmetadata', hhash', -⟩ := artifactEntry_readBack c
  cases hmetadata.symm.trans (hentry.trans hmetadata')
  have hsame := Option.some.inj (hhash.symm.trans hhash')
  exact ⟨c', hcontent, Value.str.inj hsame⟩

/-- The trusted key has verified the signature that the bundle carries. -/
lemma verified_of_trusted {rawBundle trusted : Location} {report : Report} {key : E.PublicKey}
    (htrusted : ∃ c, t.content trusted = some c ∧ E.loadPublic c = some key)
    (h : (verifyBundle E rawBundle (some trusted)).outcome t.answer = .ok report) :
    ∃ content manifest artifacts signature,
      t.content (t.resolve rawBundle ++ [manifestName]) = some content
        ∧ Parses content (.dict manifest) ∧ IsManifest manifest artifacts
        ∧ (∀ artifact ∈ artifacts, ArtifactMatches t (t.resolve rawBundle) artifact)
        ∧ Carries t (t.resolve rawBundle) signature ∧ E.verify key signature content = true := by
  obtain ⟨-, -, content, manifest, artifacts, found, hcontent, hparses, hmanifest,
    hall, hfound, -⟩ :=
    verifyBundle_eq_ok.mp h
  cases found with
  | none => exact absurd hfound.2.2 (by simp)
  | some document =>
      obtain ⟨signatureFile, hfile, hdocument, hsigns⟩ := hfound
      obtain ⟨key', text, signature, ⟨c, hc, hkey⟩, -, htext, hdecode, hverify⟩ := hsigns.verified
      obtain ⟨c', hc', hkey'⟩ := htrusted
      obtain rfl := Option.some.inj (hc.symm.trans hc')
      obtain rfl := Option.some.inj (hkey.symm.trans hkey')
      exact ⟨content, manifest, artifacts, signature, hcontent, hparses, hmanifest, hall,
        ⟨signatureFile, document, text, hfile, hdocument, htext, hdecode⟩, hverify⟩

/-- **Whatever has been done to the directory**, the verifier reads only its entries and the trusted
key, and accepts only a manifest and artifacts that were exported with that key. -/
theorem accepted_as_exported {rawBundle trusted : Location} {key : E.PrivateKey}
    {exports : Set Session} (hexports : ∀ s ∈ exports, SignedExport E key s)
    (htrusted : ∃ c, t.content trusted = some c ∧ E.loadPublic c = some (E.publicKey key))
    (hunforgeable : ∀ signature message, Carries t (t.resolve rawBundle) signature →
      E.verify (E.publicKey key) signature message = true →
        ∃ s ∈ exports, s.files manifestName = some message)
    (hcollisions : ∀ s ∈ exports, ∀ name c c', s.files name = some c →
      t.content (t.resolve rawBundle ++ [name]) = some c' →
        sha256Bytes c' = sha256Bytes c → c' = c) :
    (∀ path, .readBytes path ∈ (verifyBundle E rawBundle (some trusted)).performed t.answer →
        path = trusted ∨ InBundle t (t.resolve rawBundle) path)
      ∧ ∀ report, (verifyBundle E rawBundle (some trusted)).outcome t.answer = .ok report →
        ∃ s ∈ exports, AsExported t (t.resolve rawBundle) s := by
  constructor
  · intro path hread
    have hpermitted := Prog.performed_of_obeys (reading_verifyBundle rfl) _ hread
    exact hpermitted.imp_left Option.some.inj
  · intro report haccepted
    obtain ⟨content, manifest, artifacts, signature, hcontent, hparses, hmanifest, hall, hcarries,
      hverify⟩ := verified_of_trusted htrusted haccepted
    obtain ⟨s', hs', hfile⟩ := hunforgeable signature content hcarries hverify
    obtain ⟨m, a, s, value, -, -, hexport, -, -⟩ := hexports s' hs'
    obtain ⟨signing, evidence, environment, log, manifestBytes, hexported⟩ := export_ok hexport
    obtain rfl := Option.some.inj (hexported.manifest_file.symm.trans hfile)
    obtain ⟨items, hparses', hitems⟩ := manifest_readBack hexported
    cases hparses.unique hparses'
    cases hmanifest.artifacts_eq.symm.trans hitems.artifacts_eq
    refine ⟨s', hs', manifestBytes, manifest, _, hcontent, hfile, hparses, hmanifest, ?_⟩
    intro artifact hartifact
    obtain ⟨c, hc, hentry⟩ := hexported.file_of_mem hartifact
    obtain ⟨c', hc', hhash⟩ := (hall artifact hartifact).hash_eq hentry
    obtain rfl := hcollisions s' hs' _ c c' hc hc' hhash
    exact ⟨c', hc', hc⟩

/-! ### A service that signs -/

/-- A scheme whose signatures are the messages themselves. -/
def Ed25519.plain : Ed25519 where
  PrivateKey := Unit
  PublicKey := Unit
  loadPrivate _ := some ()
  loadPublic content := if content = str "PEM" then some () else none
  publicKey := id
  publicPem _ := str "PEM"
  sign _ message := if message.all (· < 256) then 0 :: message else [1]
  verify _ signature message := signature = if message.all (· < 256) then 0 :: message else [1]

lemma lawful_plain : Ed25519.plain.Lawful where
  verify_sign _ message := by simp [Ed25519.plain]
  sign_lt _ message := by
    dsimp only [Ed25519.plain]
    split_ifs with hall
    · simpa using hall
    · simp
  publicPem_lt _ := by
    dsimp only [Ed25519.plain]
    decide
  loadPublic_publicPem _ := rfl

/-- A service that signs its exports. -/
def signedService : LabService :=
  { plainService with
    spec :=
      { plainService.spec with
        document := [(str "schema", .str (str "softcloud.lab/v1")), (str "id", .str (str "lab")),
          (str "evidence", .dict [(str "signing", .dict [(str "enabled", .bool true),
            (str "private_key", .str (str "key"))])])]
        schema_eq := rfl
        id_eq := rfl }
    path := fun _ => some ⟨false, str "key", some []⟩ }

lemma signedService_exports : (signedService.export .plain exportAnswer Session.fresh).1.isOk
    = true := by
  decide +kernel

/-- The first export of the service. -/
lemma exists_export : ∃ value s₁, signedService.export .plain exportAnswer Session.fresh
    = (.ok value, s₁) := by
  have hok := signedService_exports
  rcases hrun : signedService.export .plain exportAnswer Session.fresh with ⟨e | value, s₁⟩
  · rw [hrun] at hok
    cases hok
  · exact ⟨value, s₁, rfl⟩

lemma signing_signedService :
    signedService.signingConfig = .ok (.enabled ⟨false, str "key", some []⟩ (str "key")) := by
  rfl

/-- The session in a file system, and the trusted key next to it. -/
def sessionTree (s : Session) : FileTree where
  node path :=
    if path = [str "session"] then some .directory
    else if path = [str "key.pem"] then some (.file (str "PEM"))
    else if path.dropLast = [str "session"] then (s.files (path.getLast?.getD [])).map .file
    else none
  resolve := id

lemma content_sessionTree (s : Session) (name : Str) :
    (sessionTree s).content [str "session", name] = s.files name := by
  have hlong : [str "session", name] ≠ [str "session"] := by simp
  have hkey : [str "session", name] ≠ [str "key.pem"] := by simp
  simp only [FileTree.content, sessionTree, if_neg hlong, if_neg hkey]
  cases hfile : s.files name <;> simp [hfile]

lemma key_sessionTree (s : Session) : (sessionTree s).content [str "key.pem"]
    = some (str "PEM") := by
  have hother : [str "key.pem"] ≠ [str "session"] := by decide
  rw [content_eq_some]
  simp only [sessionTree, if_neg hother, if_true]

/-- A signature of the service is of its manifest only. -/
lemma plain_unforgeable {value : Value}
    (h : signedService.export .plain exportAnswer Session.fresh = (.ok value, s'))
    {signature message : Bytes} (hcarries : Carries (sessionTree s') [str "session"] signature)
    (hverify : Ed25519.plain.verify () signature message = true) :
    s'.files manifestName = some message := by
  obtain ⟨signing, evidence, environment, log, manifest, hexported⟩ := export_ok h
  obtain rfl := Except.ok.inj (signing_signedService.symm.trans hexported.signing_eq)
  obtain ⟨key, document, -, hdocument, hfile⟩ := hexported.signature_file
  obtain ⟨content, items, text, hcontent, hparses, htext, hdecode⟩ := hcarries
  obtain rfl := Option.some.inj
    (hfile.symm.trans ((content_sessionTree s' signatureName).symm.trans hcontent))
  cases hparses.unique (parses_document wellFormed_signatureDocument hdocument)
  have hread := lookup_readBack (nodup_signatureItems key (str "key") manifest)
  obtain rfl : Base64.encode (Ed25519.plain.sign key manifest) = text :=
    Value.str.inj (Option.some.inj ((hread (str "signature_base64")).symm.trans htext))
  rw [Base64.decode_encode _ (lawful_plain.sign_lt key manifest)] at hdecode
  obtain rfl := Option.some.inj hdecode
  obtain ⟨bytes, hbytes, rfl⟩ := hexported.manifest_eq
  have hall : (bytes ++ [10]).all (· < 256) = true := by
    obtain ⟨text, -, hencode⟩ := canonicalJson_eq_ok.mp hbytes
    simpa using fun b hb => encode_lt hencode b hb
  rw [hexported.manifest_file]
  simp only [Ed25519.plain, hall, if_true, decide_eq_true_eq] at hverify
  split_ifs at hverify
  · rw [(List.cons.inj hverify).2]
  · cases hverify

theorem accepted_as_exported_of_export : ∃ s',
    (∀ path, .readBytes path
      ∈ (verifyBundle .plain [str "session"] (some [str "key.pem"])).performed
        (sessionTree s').answer → path = [str "key.pem"]
        ∨ InBundle (sessionTree s') [str "session"] path)
      ∧ ∀ report, (verifyBundle .plain [str "session"] (some [str "key.pem"])).outcome
          (sessionTree s').answer = .ok report →
        ∃ s ∈ ({s'} : Set Session), AsExported (sessionTree s') [str "session"] s := by
  obtain ⟨value, s', hexport⟩ := exists_export
  have hexports : ∀ s ∈ ({s'} : Set Session), SignedExport .plain () s := by
    rintro s rfl
    exact ⟨_, _, _, _, _, _, hexport, signing_signedService, rfl⟩
  refine ⟨s', accepted_as_exported hexports ?_ ?_ ?_⟩
  · exact ⟨_, key_sessionTree s', rfl⟩
  · intro signature message hcarries hverify
    exact ⟨s', rfl, plain_unforgeable hexport hcarries hverify⟩
  · rintro s rfl name c c' hc hc' -
    rw [← content_sessionTree] at hc
    exact Option.some.inj (hc'.symm.trans hc)

end FreebsdLaboratory
