import FreebsdLaboratory.Library.Base64
import FreebsdLaboratory.Model.Payload

/-!
# Signing a manifest

Ed25519 and its PEM files belong to a library outside the repository: `Ed25519` is what `signing.py`
uses of it, and `Ed25519.Lawful` what the library documents.  `signatureDocument` is the document
that `sign_manifest` writes next to a manifest.
-/

namespace FreebsdLaboratory

open Library Library.Unicode Library.Json

/-- Keys, their PEM files, signing and verifying. -/
structure Ed25519 where
  PrivateKey : Type
  PublicKey : Type
  /-- `load_pem_private_key(data)`, if that is an Ed25519 key. -/
  loadPrivate : Bytes → Option PrivateKey
  /-- `load_pem_public_key(data)`, if that is an Ed25519 key. -/
  loadPublic : Bytes → Option PublicKey
  publicKey : PrivateKey → PublicKey
  /-- `_public_pem(key)` -/
  publicPem : PublicKey → Bytes
  sign : PrivateKey → Bytes → Bytes
  /-- `key.verify(signature, message)` does not raise. -/
  verify : PublicKey → Bytes → Bytes → Bool

/-- A signature verifies, is made of bytes, and the PEM text of a public key is an ASCII text that
loads as that key. -/
structure Ed25519.Lawful (E : Ed25519) : Prop where
  verify_sign : ∀ key message, E.verify (E.publicKey key) (E.sign key message) message = true
  sign_lt : ∀ key message, ∀ b ∈ E.sign key message, b < 256
  publicPem_lt : ∀ key, ∀ b ∈ E.publicPem key, b < 128
  loadPublic_publicPem : ∀ key, E.loadPublic (E.publicPem key) = some key

/-- `SIGNATURE_SCHEMA` -/
def signatureSchema : Str := str "softcloud.lab-signature/v1"

/-- The document that `sign_manifest` writes. -/
def signatureDocument (E : Ed25519) (key : E.PrivateKey) (keyId : Str) (manifest : Bytes) : Value :=
  let publicPem := E.publicPem (E.publicKey key)
  .dict [(str "schema", .str signatureSchema), (str "algorithm", .str (str "ed25519")),
    (str "key_id", .str keyId), (str "manifest", .str (str "manifest.json")),
    (str "manifest_sha256", .str (sha256Bytes manifest)),
    (str "public_key_sha256", .str (sha256Bytes publicPem)),
    (str "public_key_pem", .str publicPem),
    (str "signature_base64", .str (Base64.encode (E.sign key manifest)))]

end FreebsdLaboratory
