import FreebsdLaboratory.Evidence.Verifying

/-!
# What a verified bundle says

A bundle is accepted on the strength of its manifest: the artifacts are the ones whose hashes the
manifest lists, and with a trusted key the manifest is one that the key has signed.  The rest of the
signature document is not signed.

`report_on_same_manifest_iff` says what of a report is authenticated: all of it but the `key_id`,
which is read from the signature document.
-/

namespace FreebsdLaboratory

open Library Library.Unicode Library.Json

variable {E : Ed25519} {t t' : FileTree} {rawBundle rawBundle' : Location} {report report' : Report}

/-! ## The identity in the report -/

/-- `document.get("key_id")` -/
def keyIdOf (document : Items) : Value := (Value.lookup document (str "key_id")).getD .none

/-- The key identity inside the signed manifest. -/
def signedKeyId (manifest : Items) : Value :=
  match Value.lookup manifest (str "signature") with
  | some (.dict signature) => keyIdOf signature
  | _ => .none

/-- The signature document of a bundle names the key as the manifest does. -/
def NamesSignedKey (t : FileTree) (bundle : Location) : Prop :=
  ∀ content manifest signature document, t.content (bundle ++ [manifestName]) = some content →
    Parses content (.dict manifest) → t.content (bundle ++ [signatureName]) = some signature →
    Parses signature (.dict document) → keyIdOf document = signedKeyId manifest

/-- What a report with a trusted key consists of. -/
lemma report_trusted {trusted : Location}
    (h : (verifyBundle E rawBundle (some trusted)).outcome t.answer = .ok report) :
    ∃ content manifest artifacts signature document,
      t.content (t.resolve rawBundle ++ [manifestName]) = some content
        ∧ Parses content (.dict manifest) ∧ IsManifest manifest artifacts
        ∧ t.content (t.resolve rawBundle ++ [signatureName]) = some signature
        ∧ Parses signature (.dict document) ∧ Signs E t (some trusted) document content
        ∧ report = reportOf (t.resolve rawBundle) (some trusted) artifacts (some document) := by
  obtain ⟨-, -, content, manifest, artifacts, found, hcontent, hparses, hmanifest, -, hfound,
    hreport⟩ := verifyBundle_eq_ok.mp h
  cases found with
  | none => exact absurd hfound.2.2 (by simp)
  | some document =>
      obtain ⟨signature, hsignature, hdocument, hsigns⟩ := hfound
      exact ⟨content, manifest, artifacts, signature, document, hcontent, hparses, hmanifest,
        hsignature, hdocument, hsigns, hreport⟩

/-- The reported identity is the one in the signature document. -/
lemma keyId_eq_iff {trusted : Location}
    (h : (verifyBundle E rawBundle (some trusted)).outcome t.answer = .ok report) {manifest : Items}
    {content : Bytes} (hcontent : t.content (t.resolve rawBundle ++ [manifestName]) = some content)
    (hparses : Parses content (.dict manifest)) :
    report.keyId = signedKeyId manifest ↔ NamesSignedKey t (t.resolve rawBundle) := by
  obtain ⟨content', manifest', artifacts, signature, document, hcontent', hparses', -, hsignature,
    hdocument, -, rfl⟩ := report_trusted h
  obtain rfl := Option.some.inj (hcontent.symm.trans hcontent')
  have hkey : (reportOf (t.resolve rawBundle) (some trusted) artifacts (some document)).keyId
      = keyIdOf document := rfl
  rw [hkey]
  constructor
  · intro heq content₂ manifest₂ signature₂ document₂ hcontent₂ hparses₂ hsignature₂ hdocument₂
    obtain rfl := Option.some.inj (hcontent.symm.trans hcontent₂)
    obtain rfl := Option.some.inj (hsignature.symm.trans hsignature₂)
    cases hparses.unique hparses₂
    cases hdocument.unique hdocument₂
    exact heq
  · intro hnames
    exact hnames content manifest signature document hcontent hparses hsignature hdocument

/-- **Two accepted bundles with one manifest get the same report, with the identity of the manifest,
if and only if** both signature documents name the key as the manifest does. -/
theorem report_on_same_manifest_iff {trusted trusted' : Location}
    (h : (verifyBundle E rawBundle (some trusted)).outcome t.answer = .ok report)
    (h' : (verifyBundle E rawBundle' (some trusted')).outcome t'.answer = .ok report')
    {content : Bytes} (hcontent : t.content (t.resolve rawBundle ++ [manifestName]) = some content)
    (hcontent' : t'.content (t'.resolve rawBundle' ++ [manifestName]) = some content)
    {manifest : Items} (hparses : Parses content (.dict manifest)) :
    report.artifacts = report'.artifacts ∧ report.signatureVerified = report'.signatureVerified
        ∧ report.keyId = report'.keyId
        ∧ report.trustedKeyEnforced = report'.trustedKeyEnforced
        ∧ report.keyId = signedKeyId manifest
      ↔ NamesSignedKey t (t.resolve rawBundle) ∧ NamesSignedKey t' (t'.resolve rawBundle') := by
  rw [← keyId_eq_iff h hcontent hparses, ← keyId_eq_iff h' hcontent' hparses]
  have hsame : report.artifacts = report'.artifacts
      ∧ report.signatureVerified = report'.signatureVerified
      ∧ report.trustedKeyEnforced = report'.trustedKeyEnforced := by
    obtain ⟨content₁, manifest₁, artifacts₁, _, _, hcontent₁, hparses₁, hmanifest₁, -, -, -, rfl⟩ :=
      report_trusted h
    obtain ⟨content₂, manifest₂, artifacts₂, _, _, hcontent₂, hparses₂, hmanifest₂, -, -, -, rfl⟩ :=
      report_trusted h'
    obtain rfl := Option.some.inj (hcontent₁.symm.trans hcontent)
    obtain rfl := Option.some.inj (hcontent₂.symm.trans hcontent')
    cases hparses₁.unique hparses₂
    have hartifacts := hmanifest₁.artifacts_eq.symm.trans hmanifest₂.artifacts_eq
    cases hartifacts
    exact ⟨rfl, rfl, rfl⟩
  constructor
  · rintro ⟨-, -, hkeys, -, hkey⟩
    exact ⟨hkey, hkeys.symm.trans hkey⟩
  · rintro ⟨hkey, hkey'⟩
    exact ⟨hsame.1, hsame.2.1, hkey.trans hkey'.symm, hsame.2.2, hkey⟩

/-! ### A bundle with two signature documents -/

/-- A scheme with one key, whose signatures are digests: enough to sign and to verify with. -/
def Ed25519.digests : Ed25519 where
  PrivateKey := Unit
  PublicKey := Unit
  loadPrivate _ := some ()
  loadPublic content := if content = str "PEM" then some () else none
  publicKey := id
  publicPem _ := str "PEM"
  sign _ message := Sha256.digest message
  verify _ signature message := signature = Sha256.digest message

/-- The bytes of a document. -/
def bytesOf (v : Value) : Bytes :=
  match canonicalJson v with
  | .ok bytes => bytes
  | .error _ => []

/-- A manifest with one empty artifact. -/
def sampleManifest : Bytes :=
  bytesOf (.dict [(str "schema", .str (str "softcloud.lab-evidence-manifest/v1")),
    (str "artifacts", .dict [(str "a", artifactEntry [])]),
    (str "signature", .dict [(str "key_id", .str (str "genuine"))])])

/-- A directory with the manifest, its artifact and a signature document; the trusted key is
elsewhere. -/
def sampleTree (keyId : Str) : FileTree where
  node path :=
    if path = [str "bundle"] then some .directory
    else if path = [str "bundle", str "a"] then some (.file [])
    else if path = [str "bundle", manifestName] then some (.file sampleManifest)
    else if path = [str "bundle", signatureName] then
      some (.file (bytesOf (signatureDocument .digests () keyId sampleManifest)))
    else if path = [str "key.pem"] then some (.file (str "PEM"))
    else none
  resolve := id

/-- The text of an identity. -/
def textOf : Value → Option Str
  | .str s => some s
  | _ => none

/-- The verifier on the sample. -/
def sampleOutcome (keyId : Str) : Except VerifyError Report :=
  (verifyBundle .digests [str "bundle"] (some [str "key.pem"])).outcome (sampleTree keyId).answer

/-- The genuine bundle, and a copy of it next to it. -/
def copiedTree : FileTree where
  node path :=
    if path.head? = some (str "copy") then (sampleTree (str "genuine")).node
      (str "bundle" :: path.tail)
    else (sampleTree (str "genuine")).node path
  resolve := id

/-- The verifier on the copy. -/
def copiedOutcome : Except VerifyError Report :=
  (verifyBundle .digests [str "copy"] (some [str "key.pem"])).outcome copiedTree.answer

/-- The report of an outcome, by its identity. -/
lemma exists_report {outcome : Except VerifyError Report} {keyId : Str}
    (h : (outcome.toOption.map fun r => textOf r.keyId) = some (some keyId)) :
    ∃ r, outcome = .ok r ∧ r.keyId = .str keyId := by
  obtain ⟨r, hr, htext⟩ := Option.map_eq_some_iff.mp h
  refine ⟨r, ?_, ?_⟩
  · cases outcome with
    | error e => cases hr
    | ok r' => exact congrArg Except.ok (Option.some.inj hr)
  · unfold textOf at htext
    split at htext
    · rename_i s hs
      rw [hs, Option.some.inj htext]
    · cases htext

lemma genuine_accepted : ∃ r, sampleOutcome (str "genuine") = .ok r
    ∧ r.keyId = .str (str "genuine") :=
  exists_report (by decide +kernel)

lemma forged_accepted : ∃ r, sampleOutcome (str "forged") = .ok r ∧ r.keyId = .str (str "forged") :=
  exists_report (by decide +kernel)

lemma copied_accepted : ∃ r, copiedOutcome = .ok r ∧ r.keyId = .str (str "genuine") :=
  exists_report (by decide +kernel)

lemma sampleTree_manifest (keyId : Str) :
    (sampleTree keyId).content [str "bundle", manifestName] = some sampleManifest := by
  refine content_eq_some.mpr ?_
  unfold sampleTree
  dsimp only
  rw [if_neg (by decide), if_neg (by decide), if_pos rfl]

lemma copiedTree_manifest : copiedTree.content [str "copy", manifestName]
    = some sampleManifest := by
  refine content_eq_some.mpr ?_
  have hnode := content_eq_some.mp (sampleTree_manifest (str "genuine"))
  simpa [copiedTree] using hnode

/-- The genuine bundle against its copy, and against the one whose signature document is forged. -/
theorem report_on_same_manifest_iff_of_genuine : ∃ report copied forged manifest,
    sampleOutcome (str "genuine") = .ok report ∧ copiedOutcome = .ok copied
      ∧ sampleOutcome (str "forged") = .ok forged
      ∧ (report.artifacts = copied.artifacts
          ∧ report.signatureVerified = copied.signatureVerified ∧ report.keyId = copied.keyId
          ∧ report.trustedKeyEnforced = copied.trustedKeyEnforced
          ∧ report.keyId = signedKeyId manifest
        ↔ NamesSignedKey (sampleTree (str "genuine")) [str "bundle"]
          ∧ NamesSignedKey copiedTree [str "copy"])
      ∧ (report.artifacts = forged.artifacts
          ∧ report.signatureVerified = forged.signatureVerified ∧ report.keyId = forged.keyId
          ∧ report.trustedKeyEnforced = forged.trustedKeyEnforced
          ∧ report.keyId = signedKeyId manifest
        ↔ NamesSignedKey (sampleTree (str "genuine")) [str "bundle"]
          ∧ NamesSignedKey (sampleTree (str "forged")) [str "bundle"]) := by
  obtain ⟨report, hreport, -⟩ := genuine_accepted
  obtain ⟨copied, hcopied, -⟩ := copied_accepted
  obtain ⟨forged, hforged, -⟩ := forged_accepted
  obtain ⟨content, manifest, -, -, -, hcontent, hparses, -⟩ := report_trusted hreport
  obtain rfl := Option.some.inj (hcontent.symm.trans (sampleTree_manifest (str "genuine")))
  exact ⟨report, copied, forged, manifest, hreport, hcopied, hforged,
    report_on_same_manifest_iff hreport hcopied hcontent copiedTree_manifest hparses,
    report_on_same_manifest_iff hreport hforged hcontent (sampleTree_manifest _) hparses⟩

/-- A changed `key_id` of the signature document, next to the same manifest, is accepted and
reported. -/
theorem forged_key_id_reported : ∃ report report',
    sampleOutcome (str "genuine") = .ok report ∧ sampleOutcome (str "forged") = .ok report'
      ∧ (sampleTree (str "genuine")).content [str "bundle", manifestName]
        = (sampleTree (str "forged")).content [str "bundle", manifestName]
      ∧ report.keyId ≠ report'.keyId := by
  obtain ⟨report, hreport, hkey⟩ := genuine_accepted
  obtain ⟨report', hreport', hkey'⟩ := forged_accepted
  refine ⟨report, report', hreport, hreport', by rw [sampleTree_manifest, sampleTree_manifest], ?_⟩
  rw [hkey, hkey']
  intro heq
  have hne : str "genuine" ≠ str "forged" := by decide
  exact hne (Value.str.inj heq)

end FreebsdLaboratory
