import FreebsdLaboratory.Library.Base64
import FreebsdLaboratory.Library.Words
import FreebsdLaboratory.Model.Runtime

/-!
# Which public keys are accepted

`validate_ssh_public_key` stands between a request and an `authorized_keys` line that root writes.

**The language.**  `KeyLine` describes the accepted texts: the algorithm, white space, the base64 of
an Ed25519 blob, and possibly white space and a comment.

**The line.**  What is returned is written from the key bytes alone: 51 bytes are 68 digits without
padding, so that base64 is one to one on them (`base64Decode_eq_some`).
-/

namespace FreebsdLaboratory

open Library

/-! ## Base64 without padding -/

/-- `base64.b64encode` as characters. -/
def base64Encode (bytes : List ℕ) : List Char := (Base64.encode bytes).map Char.ofNat

/-- A digit is not white space. -/
lemma isSpace_digit : ∀ n < 64, Text.isSpace (Char.ofNat (Base64.digit n)) = false := by decide

lemma no_space_base64Encode : ∀ bytes : List ℕ, (∀ b ∈ bytes, b < 256) →
    ∀ c ∈ base64Encode bytes, Text.isSpace c = false
  | [], _ => by simp [base64Encode, Base64.encode]
  | [a], h => by
      have ha : a < 256 := h a (by simp)
      have h1 := isSpace_digit (a / 4) (by omega)
      have h2 := isSpace_digit (a % 4 * 16) (by omega)
      simp [base64Encode, Base64.encode, h1, h2]
      decide
  | [a, b], h => by
      have ha : a < 256 := h a (by simp)
      have hb : b < 256 := h b (by simp)
      have h1 := isSpace_digit (a / 4) (by omega)
      have h2 := isSpace_digit (a % 4 * 16 + b / 16) (by omega)
      have h3 := isSpace_digit (b % 16 * 4) (by omega)
      simp [base64Encode, Base64.encode, h1, h2, h3]
      decide
  | a :: b :: c :: rest, h => by
      have ha : a < 256 := h a (by simp)
      have hb : b < 256 := h b (by simp)
      have hc : c < 256 := h c (by simp)
      have h1 := isSpace_digit (a / 4) (by omega)
      have h2 := isSpace_digit (a % 4 * 16 + b / 16) (by omega)
      have h3 := isSpace_digit (b % 16 * 4 + c / 64) (by omega)
      have h4 := isSpace_digit (c % 64) (by omega)
      have ih := no_space_base64Encode rest fun d hd => h d (by simp [hd])
      simpa [base64Encode, Base64.encode, h1, h2, h3, h4] using ih

lemma map_toNat_iff {cs : List Char} {text : List ℕ} (h : ∀ c ∈ text, c < 128) :
    cs.map Char.toNat = text ↔ cs = text.map Char.ofNat := by
  constructor
  · rintro rfl
    rw [List.map_map]
    exact (List.map_id'' Char.ofNat_toNat cs).symm
  · rintro rfl
    rw [List.map_map]
    calc text.map (Char.toNat ∘ Char.ofNat) = text.map id :=
          List.map_congr_left fun c hc => Text.toNat_ofNat_of_lt (h c hc)
      _ = text := text.map_id

/-- **Bytes in groups of three have one base64 text.** -/
theorem base64Decode_eq_some {cs : List Char} {bytes : List ℕ} (h3 : bytes.length % 3 = 0) :
    base64Decode cs = some bytes ↔ (∀ b ∈ bytes, b < 256) ∧ cs = base64Encode bytes := by
  rw [base64Decode, Base64.decode_eq_some h3, map_toNat_iff (Base64.encode_lt bytes)]
  rfl

lemma base64Decode_base64Encode {bytes : List ℕ} (h3 : bytes.length % 3 = 0)
    (hlt : ∀ b ∈ bytes, b < 256) : base64Decode (base64Encode bytes) = some bytes :=
  (base64Decode_eq_some h3).mpr ⟨hlt, rfl⟩

/-! ## The accepted texts -/

/-- An OpenSSH Ed25519 key: the length-prefixed name of the algorithm and the length-prefixed
key. -/
def ed25519Blob (key : List ℕ) : List ℕ :=
  [0, 0, 0, 11] ++ asciiBytes "ssh-ed25519" ++ [0, 0, 0, 32] ++ key

/-- Its base64. -/
def keyMaterial (key : List ℕ) : List Char := base64Encode (ed25519Blob key)

/-- `value` is one line that names the algorithm and carries the 32 bytes `key`, possibly with a
comment. -/
structure KeyLine (value : String) (key : List ℕ) : Prop where
  length_le : value.length ≤ 1024
  no_newline : '\n' ∉ value.toList
  no_return : '\r' ∉ value.toList
  key_length : key.length = 32
  key_lt : ∀ b ∈ key, b < 256
  trimmed : ∃ gap tail, gap ≠ [] ∧ Text.Spaces gap
    ∧ (tail = [] ∨ ∃ gap' comment, gap' ≠ [] ∧ Text.Spaces gap' ∧ tail = gap' ++ comment)
    ∧ (Text.strip value).toList = "ssh-ed25519".toList ++ gap ++ keyMaterial key ++ tail

/-- The line that is written for a key. -/
def keyLine (key : List ℕ) : String := "ssh-ed25519 " ++ String.ofList (keyMaterial key)

lemma length_ed25519Blob (key : List ℕ) : (ed25519Blob key).length = 19 + key.length := by
  simp [ed25519Blob, asciiBytes]
  omega

lemma ed25519Blob_lt {key : List ℕ} (h : ∀ b ∈ key, b < 256) : ∀ b ∈ ed25519Blob key, b < 256 := by
  intro b hb
  rw [ed25519Blob, List.mem_append] at hb
  rcases hb with hb | hb
  · revert b
    decide
  · exact h b hb

/-- The checks on the decoded bytes. -/
lemma blob_checks_iff {blob : List ℕ} :
    ¬ (blob.length ≠ 51 ∨ blob.take 4 ≠ [0, 0, 0, 11]
        ∨ (blob.drop 4).take 11 ≠ asciiBytes "ssh-ed25519"
        ∨ (blob.drop 15).take 4 ≠ [0, 0, 0, 32])
      ↔ ∃ key, key.length = 32 ∧ blob = ed25519Blob key := by
  simp only [not_or, not_not]
  constructor
  · rintro ⟨hlength, h1, h2, h3⟩
    refine ⟨blob.drop 19, by simp [hlength], ?_⟩
    have hsplit : blob = blob.take 4 ++ ((blob.drop 4).take 11
        ++ ((blob.drop 15).take 4 ++ blob.drop 19)) := by
      have e1 := List.take_append_drop 4 blob
      have e2 := List.take_append_drop 11 (blob.drop 4)
      have e3 := List.take_append_drop 4 (blob.drop 15)
      rw [List.drop_drop] at e2 e3
      rw [e3, e2, e1]
    rw [hsplit, h1, h2, h3, ed25519Blob, List.append_assoc, List.append_assoc]
    congr 3
  · rintro ⟨key, hkey, rfl⟩
    refine ⟨by rw [length_ed25519Blob, hkey], rfl, rfl, rfl⟩

lemma isWord_algorithm : Text.IsWord "ssh-ed25519".toList where
  ne_nil := by decide
  no_space := by
    have hall : "ssh-ed25519".toList.all (fun c => !Text.isSpace c) = true := by decide
    intro c hc
    simpa using List.all_eq_true.mp hall c hc

lemma isWord_keyMaterial {key : List ℕ} (h : ∀ b ∈ key, b < 256) :
    Text.IsWord (keyMaterial key) where
  ne_nil := by simp [keyMaterial, base64Encode, ed25519Blob, Base64.encode]
  no_space := no_space_base64Encode _ (ed25519Blob_lt h)

/-- The fields of the stripped text. -/
lemma split_strip_iff {value : String} {key : List ℕ} (hkey : ∀ b ∈ key, b < 256) :
    (∃ rest, Text.split (Text.strip value)
        = "ssh-ed25519" :: String.ofList (keyMaterial key) :: rest)
      ↔ ∃ gap tail, gap ≠ [] ∧ Text.Spaces gap
        ∧ (tail = [] ∨ ∃ gap' comment, gap' ≠ [] ∧ Text.Spaces gap' ∧ tail = gap' ++ comment)
        ∧ (Text.strip value).toList = "ssh-ed25519".toList ++ gap ++ keyMaterial key ++ tail := by
  have hofList : ∀ {s : String} {w : List Char}, String.ofList w = s ↔ w = s.toList := by
    intro s w
    constructor
    · rintro rfl
      simp
    · rintro rfl
      simp
  constructor
  · rintro ⟨rest, hsplit⟩
    have hwords : ∃ ws, Text.splitWords (Text.strip value).toList
        = "ssh-ed25519".toList :: keyMaterial key :: ws := by
      rw [Text.split, List.map_eq_cons_iff] at hsplit
      obtain ⟨w, ws, hws, hw, hsplit⟩ := hsplit
      rw [List.map_eq_cons_iff] at hsplit
      obtain ⟨w', ws', rfl, hw', -⟩ := hsplit
      rw [hofList] at hw hw'
      rw [String.toList_ofList] at hw'
      exact ⟨ws', by rw [hws, hw, hw']⟩
    obtain ⟨ws, hwords⟩ := hwords
    obtain ⟨lead, rest, hcs, hlead, hw, hend, hrest⟩ := Text.exists_of_splitWords hwords
    obtain ⟨gap, tail, rfl, hgap, hw', hend', -⟩ := Text.exists_of_splitWords hrest
    have hnil : lead = [] := by
      cases lead with
      | nil => rfl
      | cons c lead =>
          have hc : c ∈ (Text.stripChars value.toList).head? := by
            rw [Text.strip, String.toList_ofList] at hcs
            simp [hcs]
          have hhead := Text.head?_stripChars c hc
          rw [hlead c (by simp)] at hhead
          cases hhead
    subst hnil
    refine ⟨gap, tail, ?_, hgap, ?_, ?_⟩
    · -- the two words do not touch
      rintro rfl
      obtain ⟨c, material, hmaterial⟩ := List.exists_cons_of_ne_nil hw'.ne_nil
      have hc := hend c (by simp [hmaterial])
      rw [hw'.no_space c (by simp [hmaterial])] at hc
      cases hc
    · cases tail with
      | nil => exact .inl rfl
      | cons c comment =>
          have hc : Text.isSpace c = true := hend' c (by simp)
          exact .inr ⟨[c], comment, by simp, by simp [Text.Spaces, hc], rfl⟩
    · rw [hcs]
      simp [List.append_assoc]
  · rintro ⟨gap, tail, hne, hgap, htail, hcs⟩
    have hend : Text.EndsWord (gap ++ (keyMaterial key ++ tail)) := by
      obtain ⟨c, gap, rfl⟩ := List.exists_cons_of_ne_nil hne
      intro d hd
      obtain rfl : c = d := by simpa using hd
      exact hgap c (by simp)
    have hend' : Text.EndsWord tail := by
      rcases htail with rfl | ⟨gap', comment, hne', hgap', rfl⟩
      · simp [Text.EndsWord]
      · obtain ⟨c, gap', rfl⟩ := List.exists_cons_of_ne_nil hne'
        intro d hd
        obtain rfl : c = d := by simpa using hd
        exact hgap' c (by simp)
    refine ⟨(Text.splitWords tail).map String.ofList, ?_⟩
    rw [Text.split, hcs, List.append_assoc, List.append_assoc,
      Text.splitWords_word isWord_algorithm hend, Text.splitWords_spaces hgap,
      Text.splitWords_word (isWord_keyMaterial hkey) hend']
    simp

/-- **The accepted texts are the key lines**, and what is returned is the line of the key. -/
theorem validateSshPublicKey_eq_ok {value line : String} :
    validateSshPublicKey value = .ok line ↔ ∃ key, KeyLine value key ∧ line = keyLine key := by
  constructor
  · intro h
    unfold validateSshPublicKey at h
    split_ifs at h with hlength hline
    split at h
    case h_2 => cases h
    case h_1 algorithm material rest hsplit =>
      split_ifs at h with halgorithm
      split at h
      case h_1 => cases h
      case h_2 blob hblob =>
        split_ifs at h with hchecks
        obtain ⟨key, hkey, rfl⟩ := blob_checks_iff.mp hchecks
        have h3 : (ed25519Blob key).length % 3 = 0 := by rw [length_ed25519Blob, hkey]
        obtain ⟨hlt, hmaterial⟩ := (base64Decode_eq_some h3).mp hblob
        have hkeyLt : ∀ b ∈ key, b < 256 := fun b hb => hlt b (by simp [ed25519Blob, hb])
        have hof : material = String.ofList (keyMaterial key) := by
          rw [keyMaterial, ← hmaterial, String.ofList_toList]
        rw [not_or] at hlength hline
        rw [not_ne_iff] at halgorithm
        cases h
        refine ⟨key, ⟨by omega, hline.1, hline.2, hkey, hkeyLt, ?_⟩, by rw [hof]; rfl⟩
        rw [halgorithm, hof] at hsplit
        exact (split_strip_iff hkeyLt).mp ⟨rest, hsplit⟩
  · rintro ⟨key, h, rfl⟩
    obtain ⟨rest, hsplit⟩ := (split_strip_iff h.key_lt).mpr h.trimmed
    have h3 : (ed25519Blob key).length % 3 = 0 := by rw [length_ed25519Blob, h.key_length]
    have hblob : base64Decode (String.ofList (keyMaterial key)).toList
      = some (ed25519Blob key) := by
      rw [String.toList_ofList]
      exact base64Decode_base64Encode h3 (ed25519Blob_lt h.key_lt)
    have hne : value ≠ "" := by
      rintro rfl
      have hempty : Text.split (Text.strip "") = [] := by decide
      rw [hempty] at hsplit
      cases hsplit
    have hlength := h.length_le
    unfold validateSshPublicKey
    rw [if_neg (by rw [not_or]; exact ⟨hne, by omega⟩),
      if_neg (by rw [not_or]; exact ⟨h.no_newline, h.no_return⟩), hsplit]
    simp only [ne_eq, not_true_eq_false, if_false, hblob]
    rw [if_neg (blob_checks_iff.mpr ⟨key, h.key_length, rfl⟩)]
    rfl

/-! ## The written lines -/

lemma length_base64Encode : ∀ bytes : List ℕ, bytes.length % 3 = 0 →
    (base64Encode bytes).length = bytes.length / 3 * 4
  | [], _ => rfl
  | [_], h3 => by simp at h3
  | [_, _], h3 => by simp at h3
  | a :: b :: c :: rest, h3 => by
      have ih := length_base64Encode rest (by simp at h3; omega)
      simp only [base64Encode, List.length_map] at ih
      simp only [base64Encode, Base64.encode, List.length_map, List.length_cons, ih]
      omega

lemma toList_keyLine (key : List ℕ) :
    (keyLine key).toList = "ssh-ed25519".toList ++ [' '] ++ keyMaterial key := by
  simp [keyLine]

lemma length_keyMaterial {key : List ℕ} (h : key.length = 32) : (keyMaterial key).length = 68 := by
  have hblob : (ed25519Blob key).length = 51 := by rw [length_ed25519Blob, h]
  rw [keyMaterial, length_base64Encode _ (by rw [hblob]), hblob]

/-- The line of a key is a key line of it. -/
lemma keyLine_keyLine {key : List ℕ} (hlength : key.length = 32) (hlt : ∀ b ∈ key, b < 256) :
    KeyLine (keyLine key) key := by
  have hword := isWord_keyMaterial hlt
  have hbreak : ∀ c, Text.isSpace c = true → c ≠ ' ' → c ∉ (keyLine key).toList := by
    intro c hspace hne hc
    rw [toList_keyLine, List.mem_append, List.mem_append, List.mem_singleton] at hc
    rcases hc with (hc | hc) | hc
    · simp [isWord_algorithm.no_space c hc] at hspace
    · exact hne hc
    · simp [hword.no_space c hc] at hspace
  have hstrip : (Text.strip (keyLine key)).toList
      = "ssh-ed25519".toList ++ [' '] ++ keyMaterial key := by
    rw [Text.strip, String.toList_ofList, toList_keyLine]
    exact Text.stripChars_of_words isWord_algorithm hword
  refine ⟨?_, hbreak _ (by decide) (by decide), hbreak _ (by decide) (by decide), hlength, hlt,
    [' '], [], by simp, by simp [Text.Spaces, Text.isSpace], .inl rfl, by rw [hstrip]; simp⟩
  rw [← String.length_toList, toList_keyLine]
  simp [length_keyMaterial hlength]

/-- The key can be read off the line. -/
lemma keyLine_injective {key key' : List ℕ} (hlength : key.length = 32) (hlt : ∀ b ∈ key, b < 256)
    (hlength' : key'.length = 32) (hlt' : ∀ b ∈ key', b < 256) (h : keyLine key = keyLine key') :
    key = key' := by
  have hmaterial : keyMaterial key = keyMaterial key' := by
    have hlist := congrArg String.toList h
    rwa [toList_keyLine, toList_keyLine, List.append_cancel_left_eq] at hlist
  have hdecode := base64Decode_base64Encode
    (by rw [length_ed25519Blob, hlength]) (ed25519Blob_lt hlt)
  have hdecode' := base64Decode_base64Encode
    (by rw [length_ed25519Blob, hlength']) (ed25519Blob_lt hlt')
  rw [← keyMaterial] at hdecode hdecode'
  rw [hmaterial, hdecode', Option.some.injEq] at hdecode
  exact (List.append_cancel_left hdecode).symm

/-- **Public keys are accepted by their language and written from their bytes**: what is accepted is
exactly the key lines, what is returned is the line of the key and is accepted as it stands, and two
accepted texts give the same line exactly when they carry the same key. -/
theorem public_keys_normalized :
    (∀ value line, validateSshPublicKey value = .ok line
        ↔ ∃ key, KeyLine value key ∧ line = keyLine key)
      ∧ (∀ value line, validateSshPublicKey value = .ok line
        → validateSshPublicKey line = .ok line)
      ∧ ∀ value value' key key', KeyLine value key → KeyLine value' key' →
        (validateSshPublicKey value = validateSshPublicKey value' ↔ key = key') := by
  refine ⟨fun value line => validateSshPublicKey_eq_ok, ?_, ?_⟩
  · intro value line h
    obtain ⟨key, hkey, rfl⟩ := validateSshPublicKey_eq_ok.mp h
    exact validateSshPublicKey_eq_ok.mpr ⟨key, keyLine_keyLine hkey.key_length hkey.key_lt, rfl⟩
  · intro value value' key key' h h'
    have hline : validateSshPublicKey value = .ok (keyLine key) :=
      validateSshPublicKey_eq_ok.mpr ⟨key, h, rfl⟩
    have hline' : validateSshPublicKey value' = .ok (keyLine key') :=
      validateSshPublicKey_eq_ok.mpr ⟨key', h', rfl⟩
    rw [hline, hline', Except.ok.injEq]
    constructor
    · exact keyLine_injective h.key_length h.key_lt h'.key_length h'.key_lt
    · rintro rfl
      rfl

/-- White space and a comment around a key go away. -/
example : validateSshPublicKey
      "  ssh-ed25519\t AAAAC3NzaC1lZDI1NTE5AAAAIAAAAAAAAAAAAAAAAAAAAAAAAAAAAAAAAAAAAAAAAAAA user@host "
    = .ok (keyLine (List.replicate 32 0)) := by decide

end FreebsdLaboratory
