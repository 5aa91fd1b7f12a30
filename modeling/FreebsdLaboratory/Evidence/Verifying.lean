import FreebsdLaboratory.Evidence.Calls
import FreebsdLaboratory.Model.Verify

/-!
# What the verifier accepts

Each check of the verifier succeeds exactly when what it checks holds: one equivalence for each
function, read off its text from top to bottom.  `verifyBundle_eq_ok` is the sum of them: what
`verify_bundle` needs in order to return, and what it then returns.
-/

namespace FreebsdLaboratory

open Library Library.Unicode Library.Json

variable {E : Ed25519} {t : FileTree} {path : Location} {message : Str} {b c : Bytes} {v w : Value}
variable {items : Items}

/-! ## Checks -/

lemma exists_unit {p : Unit → Prop} : (∃ u, p u) ↔ p () := ⟨fun ⟨_, h⟩ => h, fun h => ⟨(), h⟩⟩

@[simp] lemma check_eq_ok {ok : Prop} [Decidable ok] {e : VerifyError} {u : Unit} :
    (check ok e).outcome t.answer = .ok u ↔ ok := by
  unfold check
  by_cases h : ok <;> simp [h]

@[simp] lemma require_eq_ok {ok : Prop} [Decidable ok] {u : Unit} :
    (require ok message).outcome t.answer = .ok u ↔ ok :=
  check_eq_ok

lemma content_eq_some : t.content path = some c ↔ t.node path = some (.file c) := by
  unfold FileTree.content
  split
  · rename_i content hnode
    simp [hnode]
  · rename_i hother
    simp only [reduceCtorEq, false_iff]
    exact hother c

@[simp] lemma requireFile_eq_ok {u : Unit} :
    (requireFile path message).outcome t.answer = .ok u ↔ ∃ c, t.content path = some c := by
  have hlink : (∃ c, t.content path = some c) → t.node path ≠ some .symlink := by
    rintro ⟨c, hc⟩ hlink
    rw [content_eq_some, hlink] at hc
    cases hc
  simp only [requireFile, Prog.outcome_bind, Prog.outcome_op, except_bind_eq_ok, require_eq_ok,
    FileTree.answer, Except.ok.injEq, exists_eq_left', exists_unit, decide_eq_false_iff_not,
    Option.isSome_iff_exists]
  exact ⟨fun h => h.2, fun h => ⟨hlink h, h⟩⟩

@[simp] lemma readBytes_eq_ok :
    (readBytes path).outcome t.answer = .ok c ↔ t.content path = some c := by
  rw [readBytes, Prog.outcome_bind, Prog.outcome_op, except_bind_eq_ok]
  simp only [FileTree.answer, Except.ok.injEq, exists_eq_left']
  cases t.content path <;> simp

/-- The bytes of a file parse as the value. -/
def Parses (content : Bytes) (value : Value) : Prop :=
  ∃ text, decode content = some text ∧ loads (universalNewlines text) = some value

lemma Parses.unique (h : Parses b v) (h' : Parses b w) : v = w := by
  obtain ⟨text, hdecode, hloads⟩ := h
  obtain ⟨text', hdecode', hloads'⟩ := h'
  obtain rfl := Option.some.inj (hdecode.symm.trans hdecode')
  exact Option.some.inj (hloads.symm.trans hloads')

lemma parseDocument_eq_ok : parseDocument b message = .ok v ↔ Parses b v := by
  unfold parseDocument Parses
  cases hdecode : decode b with
  | none => simp
  | some text =>
      cases hloads : loads (universalNewlines text) with
      | none => simp [hloads]
      | some value => simp [hloads]

lemma outcome_ofExcept {ε α : Type} {Op : Type} {Resp : Op → Type} {answer : (o : Op) → Resp o}
    (x : Except ε α) : (Prog.ofExcept x : Prog Resp ε α).outcome answer = x := by
  cases x <;> rfl

@[simp] lemma readDocument_eq_ok : (readDocument path message).outcome t.answer = .ok v
    ↔ ∃ c, t.content path = some c ∧ Parses c v := by
  rw [readDocument, Prog.outcome_bind, Prog.outcome_op, except_bind_eq_ok]
  simp only [FileTree.answer, Except.ok.injEq, exists_eq_left']
  cases t.content path with
  | none => simp
  | some content => simp [outcome_ofExcept, parseDocument_eq_ok]

@[simp] lemma asDict_eq_ok {value : Option Value} :
    (asDict value message).outcome t.answer = .ok items ↔ value = some (.dict items) := by
  unfold asDict
  split
  · simp
  · rename_i hother
    simp only [Prog.outcome_raise, reduceCtorEq, false_iff]
    exact hother items

@[simp] lemma asText_eq_ok {value : Option Value} {text : Str} :
    (asText value message).outcome t.answer = .ok text ↔ value = some (.str text) := by
  unfold asText
  split
  · simp
  · rename_i hother
    simp only [Prog.outcome_raise, reduceCtorEq, false_iff]
    exact hother text

lemma isText_iff {value : Option Value} {text : Str} :
    isText value text = true ↔ value = some (.str text) := by
  unfold isText
  split
  · simp
  · rename_i hother
    simp only [Bool.false_eq_true, false_iff]
    exact hother text

/-! ## Signatures -/

@[simp] lemma decodeSignature_eq_ok {text : Str} :
    (decodeSignature text).outcome t.answer = .ok b ↔ Base64.decode text = some b := by
  unfold decodeSignature
  cases Base64.decode text <;> simp

/-- The file is a public key. -/
@[simp] lemma loadPublicKey_eq_ok {key : E.PublicKey} :
    (loadPublicKey E path).outcome t.answer = .ok key
      ↔ ∃ c, t.content path = some c ∧ E.loadPublic c = some key := by
  rw [loadPublicKey, Prog.outcome_bind, except_bind_eq_ok]
  simp only [requireFile_eq_ok, exists_unit, Prog.outcome_bind, except_bind_eq_ok, readBytes_eq_ok]
  constructor
  · rintro ⟨-, c, hc, hkey⟩
    refine ⟨c, hc, ?_⟩
    cases hload : E.loadPublic c with
    | none => simp [hload] at hkey
    | some key' => simpa [hload] using hkey
  · rintro ⟨c, hc, hkey⟩
    exact ⟨⟨c, hc⟩, c, hc, by simp [hkey]⟩

/-- The key in the document. -/
@[simp] lemma embeddedKey_eq_ok {key : E.PublicKey} :
    (embeddedKey E items).outcome t.answer = .ok key
      ↔ ∃ pem, Value.lookup items (str "public_key_pem") = some (.str pem)
          ∧ pem.all (· < 128) = true ∧ E.loadPublic pem = some key := by
  rw [embeddedKey, Prog.outcome_bind, except_bind_eq_ok]
  refine exists_congr fun pem => and_congr asText_eq_ok ?_
  by_cases hascii : pem.all (· < 128) = true
  · simp only [hascii, if_true, true_and]
    cases E.loadPublic pem <;> simp
  · simp [hascii]

/-- The key that a signature is checked with, and where it comes from. -/
def KeyFrom (E : Ed25519) (t : FileTree) (trusted : Option Location) (document : Items)
    (key : E.PublicKey) : Prop :=
  match trusted with
  | some path => ∃ c, t.content path = some c ∧ E.loadPublic c = some key
  | none => ∃ pem, Value.lookup document (str "public_key_pem") = some (.str pem)
      ∧ pem.all (· < 128) = true ∧ E.loadPublic pem = some key

lemma verificationKey_eq_ok {trusted : Option Location} {key : E.PublicKey} :
    (verificationKey E trusted items).outcome t.answer = .ok key
      ↔ KeyFrom E t trusted items key ∧ Value.lookup items (str "public_key_sha256")
          = some (.str (sha256Bytes (E.publicPem key))) := by
  cases trusted with
  | some path =>
      simp only [verificationKey, KeyFrom, Prog.outcome_bind, except_bind_eq_ok,
        loadPublicKey_eq_ok, require_eq_ok, isText_iff, exists_unit, Prog.outcome_pure,
        Except.ok.injEq]
      constructor
      · rintro ⟨key', hkey, hprint, rfl⟩
        exact ⟨hkey, hprint⟩
      · rintro ⟨hkey, hprint⟩
        exact ⟨key, hkey, hprint, rfl⟩
  | none =>
      simp only [verificationKey, KeyFrom, Prog.outcome_bind, except_bind_eq_ok,
        embeddedKey_eq_ok, require_eq_ok, isText_iff, exists_unit, Prog.outcome_pure,
        Except.ok.injEq]
      constructor
      · rintro ⟨key', hkey, hprint, rfl⟩
        exact ⟨hkey, hprint⟩
      · rintro ⟨hkey, hprint⟩
        exact ⟨key, hkey, hprint, rfl⟩

/-- The document is a signature of the manifest. -/
structure Signs (E : Ed25519) (t : FileTree) (trusted : Option Location) (document : Items)
    (manifest : Bytes) : Prop where
  schema_eq : Value.lookup document (str "schema") = some (.str signatureSchema)
  algorithm_eq : Value.lookup document (str "algorithm") = some (.str (str "ed25519"))
  manifest_eq : Value.lookup document (str "manifest_sha256") = some (.str (sha256Bytes manifest))
  verified : ∃ key text signature, KeyFrom E t trusted document key
    ∧ Value.lookup document (str "public_key_sha256")
        = some (.str (sha256Bytes (E.publicPem key)))
    ∧ Value.lookup document (str "signature_base64") = some (.str text)
    ∧ Base64.decode text = some signature ∧ E.verify key signature manifest = true

/-- **What `verify_manifest_signature` accepts.** -/
theorem verifyManifestSignature_eq_ok {manifestPath signaturePath : Location}
    {trusted : Option Location} :
    (verifyManifestSignature E manifestPath signaturePath trusted).outcome t.answer = .ok items
      ↔ ∃ manifest content, t.content manifestPath = some manifest
          ∧ t.content signaturePath = some content ∧ Parses content (.dict items)
          ∧ Signs E t trusted items manifest := by
  simp only [verifyManifestSignature, Prog.outcome_bind, except_bind_eq_ok, requireFile_eq_ok,
    exists_unit, readDocument_eq_ok, asDict_eq_ok, require_eq_ok, isText_iff, readBytes_eq_ok,
    verificationKey_eq_ok, asText_eq_ok, decodeSignature_eq_ok, Prog.outcome_pure,
    Except.ok.injEq, Option.some.injEq]
  constructor
  · rintro ⟨-, -, value, ⟨content, hcontent, hparses⟩, document, rfl, ⟨hschema, halgorithm⟩,
      manifest, hmanifest, hhash, key, ⟨hkey, hprint⟩, text, htext, signature, hsignature, hverify,
      rfl⟩
    exact ⟨manifest, content, hmanifest, hcontent, hparses, hschema, halgorithm, hhash, key, text,
      signature, hkey, hprint, htext, hsignature, hverify⟩
  · rintro ⟨manifest, content, hmanifest, hcontent, hparses, hschema, halgorithm, hhash, key, text,
      signature, hkey, hprint, htext, hsignature, hverify⟩
    exact ⟨⟨manifest, hmanifest⟩, ⟨content, hcontent⟩, _, ⟨content, hcontent, hparses⟩, items, rfl,
      ⟨hschema, halgorithm⟩, manifest, hmanifest, hhash, key, ⟨hkey, hprint⟩, text,
      htext, signature, hsignature, hverify, rfl⟩

/-! ## Artifacts -/

lemma not_mem_of_mem_splitOn {sep : ℕ} {s part : Str} (h : part ∈ s.splitOn sep) : sep ∉ part := by
  induction s generalizing part with
  | nil =>
      rw [List.splitOn_nil, List.mem_singleton] at h
      simp [h]
  | cons c s ih =>
      rw [List.splitOn_cons_eq_if_modifyHead] at h
      split_ifs at h with hc
      · rcases List.mem_cons.mp h with rfl | h
        · simp
        · exact ih h
      · obtain ⟨first, rest, hsplit⟩ := List.exists_cons_of_ne_nil (List.splitOn_ne_nil sep s)
        rw [hsplit, List.modifyHead_cons] at h
        rcases List.mem_cons.mp h with rfl | h
        · have hfirst : sep ∉ first := ih (by simp [hsplit])
          rw [List.mem_cons, not_or]
          refine ⟨fun heq => hc ?_, hfirst⟩
          simp [heq]
        · exact ih (by simp [hsplit, h])

/-- A name that is its own last component is one component. -/
lemma pathParts_of_isArtifactName {name : Str} (h : isArtifactName name = true) :
    pathParts name = [name] ∧ 47 ∉ name := by
  simp only [isArtifactName, decide_eq_true_eq] at h
  obtain ⟨hne, hdot, -, hname⟩ := h
  have hmem : name ∈ pathParts name := by
    unfold pathName at hname
    cases hlast : (pathParts name).getLast? with
    | none =>
        rw [hlast] at hname
        exact absurd hname.symm hne
    | some last =>
        rw [hlast] at hname
        obtain rfl : last = name := hname
        exact List.mem_of_getLast? hlast
  have hslash : 47 ∉ name := not_mem_of_mem_splitOn (List.mem_of_mem_filter hmem)
  refine ⟨?_, hslash⟩
  have hdot' : name ≠ [46] := hdot
  rw [pathParts, List.splitOn_eq_singleton hslash]
  simp [hne, hdot']

/-- **The path of an artifact is an entry of the bundle directory.** -/
lemma joinPath_artifact {bundle : Location} {name : Str} (h : isArtifactName name = true) :
    joinPath bundle name = bundle ++ [name] := by
  obtain ⟨hparts, hslash⟩ := pathParts_of_isArtifactName h
  have hhead : name.head? ≠ some 47 := fun hhead => hslash (List.mem_of_mem_head? hhead)
  rw [joinPath, if_neg hhead, hparts]

/-- The artifact is there, with the hash and the size that the manifest gives. -/
structure ArtifactMatches (t : FileTree) (bundle : Location) (artifact : Str × Value) : Prop where
  isName : isArtifactName artifact.1 = true
  matching : ∃ metadata content, artifact.2 = .dict metadata
    ∧ t.content (bundle ++ [artifact.1]) = some content
    ∧ Value.lookup metadata (str "sha256") = some (.str (sha256Bytes content))
    ∧ ∀ size, Value.lookup metadata (str "size") = some (.int size) → (content.length : ℤ) = size

lemma verifySize_eq_ok {expected : Option Value} {u : Unit} (hcontent : t.content path = some c) :
    (verifySize path expected message).outcome t.answer = .ok u
      ↔ ∀ size, expected = some (.int size) → (c.length : ℤ) = size := by
  unfold verifySize
  split
  · rename_i size
    simp only [Prog.outcome_bind, Prog.outcome_op, except_bind_eq_ok, FileTree.answer, hcontent,
      Option.getD_some, Except.ok.injEq, exists_eq_left', require_eq_ok, Option.some.injEq,
      Value.int.injEq]
    exact ⟨fun h size' hsize => hsize ▸ h, fun h => h size rfl⟩
  · rename_i hother
    simp only [Prog.outcome_pure, true_iff]
    exact fun size hsize => absurd hsize (hother size)

lemma verifyArtifact_eq_ok {bundle : Location} {name : Str} {metadata : Value} {u : Unit} :
    (verifyArtifact bundle name metadata).outcome t.answer = .ok u
      ↔ ArtifactMatches t bundle (name, metadata) := by
  simp only [verifyArtifact, Prog.outcome_bind, except_bind_eq_ok, check_eq_ok, require_eq_ok,
    exists_unit, asDict_eq_ok, asText_eq_ok, requireFile_eq_ok, readBytes_eq_ok, Option.some.injEq]
  constructor
  · rintro ⟨hname, metadata', rfl, expected, hexpected, -, content, hcontent, rfl, hsize⟩
    rw [verifySize_eq_ok hcontent] at hsize
    rw [joinPath_artifact hname] at hcontent
    exact ⟨hname, metadata', content, rfl, hcontent, hexpected, hsize⟩
  · rintro ⟨hname, metadata', content, hmetadata, hcontent, hexpected, hsize⟩
    rw [← joinPath_artifact hname] at hcontent
    exact ⟨hname, metadata', hmetadata, _, hexpected, ⟨content, hcontent⟩, content, hcontent, rfl,
      (verifySize_eq_ok hcontent).mpr hsize⟩

lemma verifyArtifacts_eq_ok {bundle : Location} {names : List Str} :
    (verifyArtifacts bundle items).outcome t.answer = .ok names
      ↔ (∀ artifact ∈ items, ArtifactMatches t bundle artifact) ∧ names = items.map Prod.fst := by
  induction items generalizing names with
  | nil => simp [verifyArtifacts, eq_comm]
  | cons artifact items ih =>
      obtain ⟨name, metadata⟩ := artifact
      simp only [verifyArtifacts, Prog.outcome_bind, except_bind_eq_ok, verifyArtifact_eq_ok,
        exists_unit, ih, Prog.outcome_pure, Except.ok.injEq, List.forall_mem_cons, List.map_cons]
      constructor
      · rintro ⟨hfirst, names', ⟨hrest, rfl⟩, rfl⟩
        exact ⟨⟨hfirst, hrest⟩, rfl⟩
      · rintro ⟨⟨hfirst, hrest⟩, rfl⟩
        exact ⟨hfirst, _, ⟨hrest, rfl⟩, rfl⟩

/-! ## Bundles -/

/-- The signature that is reported: there is a document and it signs the manifest, or there is none
and no key was asked for. -/
def SignatureFound (E : Ed25519) (t : FileTree) (bundle : Location) (trusted : Option Location)
    (manifest : Bytes) : Option Items → Prop
  | some document => ∃ content, t.content (bundle ++ [signatureName]) = some content
      ∧ Parses content (.dict document) ∧ Signs E t trusted document manifest
  | none => t.content (bundle ++ [signatureName]) = none
      ∧ t.node (bundle ++ [signatureName]) ≠ some .symlink ∧ trusted = none

lemma verifySignature_eq_ok {bundle : Location} {trusted : Option Location} {manifest : Bytes}
    (hmanifest : t.content (bundle ++ [manifestName]) = some manifest) {found : Option Items} :
    (verifySignature E bundle trusted).outcome t.answer = .ok found
      ↔ SignatureFound E t bundle trusted manifest found := by
  have hfile : (t.content (bundle ++ [signatureName])).isSome = true →
      t.node (bundle ++ [signatureName]) ≠ some .symlink := by
    rw [Option.isSome_iff_exists]
    rintro ⟨c, hc⟩ hlink
    rw [content_eq_some, hlink] at hc
    cases hc
  simp only [verifySignature, Prog.outcome_bind, Prog.outcome_op, except_bind_eq_ok, require_eq_ok,
    FileTree.answer, Except.ok.injEq, exists_eq_left', exists_unit, decide_eq_false_iff_not]
  cases hcontent : t.content (bundle ++ [signatureName]) with
  | none =>
      simp only [Option.isSome_none, Bool.false_eq_true, if_false, Prog.outcome_bind,
        except_bind_eq_ok, require_eq_ok, exists_unit, Prog.outcome_pure, Except.ok.injEq]
      cases found with
      | none => simp [SignatureFound, hcontent]
      | some document => simp [SignatureFound, hcontent]
  | some content =>
      rw [hcontent] at hfile
      simp only [Option.isSome_some, if_true, Prog.outcome_bind,
        except_bind_eq_ok, verifyManifestSignature_eq_ok, hmanifest, hcontent, Option.some.injEq,
        Prog.outcome_pure, Except.ok.injEq]
      cases found with
      | none => simp [SignatureFound, hcontent]
      | some document =>
          simp only [SignatureFound, hcontent, Option.some.injEq, exists_eq_left']
          constructor
          · rintro ⟨-, document', ⟨_, _, rfl, rfl, hparses, hsigns⟩, rfl⟩
            exact ⟨hparses, hsigns⟩
          · rintro ⟨hparses, hsigns⟩
            exact ⟨hfile rfl, document, ⟨_, _, rfl, rfl, hparses, hsigns⟩, rfl⟩

/-- The manifest of a bundle, as far as the verifier reads it. -/
structure IsManifest (manifest artifacts : Items) : Prop where
  schema_eq : Value.lookup manifest (str "schema")
    = some (.str (str "softcloud.lab-evidence-manifest/v1"))
  artifacts_eq : Value.lookup manifest (str "artifacts") = some (.dict artifacts)
  artifacts_ne : artifacts ≠ []

/-- The report on a bundle. -/
def reportOf (bundle : Location) (trusted : Option Location) (artifacts : Items)
    (found : Option Items) : Report where
  manifest := bundle ++ [manifestName]
  artifacts := (artifacts.map Prod.fst).insertionSort (· ≤ ·)
  signatureVerified := found.isSome
  keyId := (found.bind fun document => Value.lookup document (str "key_id")).getD .none
  trustedKeyEnforced := trusted.isSome

/-- **What `verify_bundle` accepts, and what it reports.** -/
theorem verifyBundle_eq_ok {rawBundle : Location} {trusted : Option Location} {report : Report} :
    (verifyBundle E rawBundle trusted).outcome t.answer = .ok report
      ↔ t.node rawBundle ≠ some .symlink ∧ t.node (t.resolve rawBundle) = some .directory
        ∧ ∃ content manifest artifacts found,
          t.content (t.resolve rawBundle ++ [manifestName]) = some content
          ∧ Parses content (.dict manifest) ∧ IsManifest manifest artifacts
          ∧ (∀ artifact ∈ artifacts, ArtifactMatches t (t.resolve rawBundle) artifact)
          ∧ SignatureFound E t (t.resolve rawBundle) trusted content found
          ∧ report = reportOf (t.resolve rawBundle) trusted artifacts found := by
  simp only [verifyBundle, Prog.outcome_bind, Prog.outcome_op, except_bind_eq_ok, require_eq_ok,
    FileTree.answer, Except.ok.injEq, exists_eq_left', exists_unit, decide_eq_false_iff_not,
    decide_eq_true_eq, requireFile_eq_ok, readDocument_eq_ok, asDict_eq_ok, isText_iff,
    Option.some.injEq, verifyArtifacts_eq_ok, Prog.outcome_pure, List.isEmpty_eq_false_iff]
  refine and_congr_right fun _ => and_congr_right fun _ => ?_
  constructor
  · rintro ⟨-, value, ⟨content, hcontent, hparses⟩, manifest, rfl, hschema, artifacts, hartifacts,
      hne, names, ⟨hall, rfl⟩, found, hfound, rfl⟩
    exact ⟨content, manifest, artifacts, found, hcontent, hparses, ⟨hschema, hartifacts, hne⟩, hall,
      (verifySignature_eq_ok hcontent).mp hfound, rfl⟩
  · rintro ⟨content, manifest, artifacts, found, hcontent, hparses, ⟨hschema, hartifacts, hne⟩,
      hall, hfound, rfl⟩
    exact ⟨⟨content, hcontent⟩, _, ⟨content, hcontent, hparses⟩, manifest, rfl, hschema, artifacts,
      hartifacts, hne, _, ⟨hall, rfl⟩, found, (verifySignature_eq_ok hcontent).mpr hfound, rfl⟩

end FreebsdLaboratory
