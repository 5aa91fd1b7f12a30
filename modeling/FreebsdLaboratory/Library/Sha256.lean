import Mathlib.Algebra.Group.Nat.Defs
import Mathlib.Data.List.Basic

/-!
# SHA-256

The hash function of FIPS 180-4 on lists of bytes, with 32-bit words as natural numbers reduced
modulo `2 ^ 32`, and `hexDigest`, the lower-case hexadecimal text of a digest.  Nothing in the
development relies on how the digest is computed; it is here so that a digest can be computed.
-/

namespace Library.Sha256

def wordSize : ℕ := 2 ^ 32

/-- Rotation to the right by `n` bits. -/
def rotr (n x : ℕ) : ℕ := x >>> n ||| (x <<< (32 - n)) % wordSize

/-- The first 32 bits of the fractional parts of the cube roots of the first 64 primes. -/
def roundConstants : List ℕ :=
  [0x428a2f98, 0x71374491, 0xb5c0fbcf, 0xe9b5dba5, 0x3956c25b, 0x59f111f1, 0x923f82a4, 0xab1c5ed5,
   0xd807aa98, 0x12835b01, 0x243185be, 0x550c7dc3, 0x72be5d74, 0x80deb1fe, 0x9bdc06a7, 0xc19bf174,
   0xe49b69c1, 0xefbe4786, 0x0fc19dc6, 0x240ca1cc, 0x2de92c6f, 0x4a7484aa, 0x5cb0a9dc, 0x76f988da,
   0x983e5152, 0xa831c66d, 0xb00327c8, 0xbf597fc7, 0xc6e00bf3, 0xd5a79147, 0x06ca6351, 0x14292967,
   0x27b70a85, 0x2e1b2138, 0x4d2c6dfc, 0x53380d13, 0x650a7354, 0x766a0abb, 0x81c2c92e, 0x92722c85,
   0xa2bfe8a1, 0xa81a664b, 0xc24b8b70, 0xc76c51a3, 0xd192e819, 0xd6990624, 0xf40e3585, 0x106aa070,
   0x19a4c116, 0x1e376c08, 0x2748774c, 0x34b0bcb5, 0x391c0cb3, 0x4ed8aa4a, 0x5b9cca4f, 0x682e6ff3,
   0x748f82ee, 0x78a5636f, 0x84c87814, 0x8cc70208, 0x90befffa, 0xa4506ceb, 0xbef9a3f7, 0xc67178f2]

/-- The initial state. -/
def initialState : List ℕ :=
  [0x6a09e667, 0xbb67ae85, 0x3c6ef372, 0xa54ff53a, 0x510e527f, 0x9b05688c, 0x1f83d9ab, 0x5be0cd19]

/-- `n` bytes of `x`, most significant first. -/
def bigEndian : ℕ → ℕ → List ℕ
  | 0, _ => []
  | n + 1, x => (x >>> (8 * n)) % 256 :: bigEndian n x

/-- The message, a one bit, zeros, and the length in bits, to a multiple of 64 bytes. -/
def pad (message : List ℕ) : List ℕ :=
  message ++ 0x80 :: List.replicate ((119 - message.length % 64) % 64) 0
    ++ bigEndian 8 (8 * message.length)

/-- Bytes as big-endian words. -/
def words : List ℕ → List ℕ
  | a :: b :: c :: d :: rest => ((a <<< 24) + (b <<< 16) + (c <<< 8) + d) :: words rest
  | _ => []

/-- `n` further words of the message schedule; `window` holds the last sixteen. -/
def schedule : ℕ → List ℕ → List ℕ
  | 0, _ => []
  | n + 1, window =>
      let w (i : ℕ) := window.getD i 0
      let s0 := rotr 7 (w 1) ^^^ rotr 18 (w 1) ^^^ w 1 >>> 3
      let s1 := rotr 17 (w 14) ^^^ rotr 19 (w 14) ^^^ w 14 >>> 10
      let next := (w 0 + s0 + w 9 + s1) % wordSize
      next :: schedule n (window.tail ++ [next])

def round (state : List ℕ) (kw : ℕ × ℕ) : List ℕ :=
  match state with
  | [a, b, c, d, e, f, g, h] =>
      let s1 := rotr 6 e ^^^ rotr 11 e ^^^ rotr 25 e
      let ch := (e &&& f) ^^^ ((wordSize - 1 - e) &&& g)
      let t1 := h + s1 + ch + kw.1 + kw.2
      let s0 := rotr 2 a ^^^ rotr 13 a ^^^ rotr 22 a
      let maj := (a &&& b) ^^^ (a &&& c) ^^^ (b &&& c)
      [(t1 + s0 + maj) % wordSize, a, b, c, (d + t1) % wordSize, e, f, g]
  | _ => state

/-- The blocks of sixteen words, one after the other. -/
def blocks : ℕ → List ℕ → List ℕ → List ℕ
  | 0, _, state => state
  | n + 1, ws, state =>
      let block := ws.take 16
      let compressed := (roundConstants.zip (block ++ schedule 48 block)).foldl round state
      blocks n (ws.drop 16) (List.zipWith (fun x y => (x + y) % wordSize) state compressed)

/-- The digest of a message as 32 bytes. -/
def digest (message : List ℕ) : List ℕ :=
  let ws := words (pad message)
  (blocks (ws.length / 16) ws initialState).flatMap (bigEndian 4)

def hexDigit (n : ℕ) : Char := "0123456789abcdef".toList.getD n '0'

/-- `hashlib.sha256(text.encode("utf-8")).hexdigest()`. -/
def hexDigest (text : String) : String :=
  let message := (text.toList.flatMap String.utf8EncodeChar).map UInt8.toNat
  String.ofList ((digest message).flatMap fun b => [hexDigit (b / 16), hexDigit (b % 16)])

/-- `hashlib.sha256(message).hexdigest()`, by code points. -/
def hexDigestBytes (message : List ℕ) : List ℕ :=
  (digest message).flatMap fun b => [(hexDigit (b / 16)).toNat, (hexDigit (b % 16)).toNat]

/-! ## The shape of a digest -/

lemma length_bigEndian (n x : ℕ) : (bigEndian n x).length = n := by
  induction n with
  | zero => rfl
  | succ n ih => simp [bigEndian, ih]

lemma lt_of_mem_bigEndian {n x b : ℕ} (h : b ∈ bigEndian n x) : b < 256 := by
  induction n with
  | zero => simp [bigEndian] at h
  | succ n ih =>
      rcases List.mem_cons.mp h with rfl | h
      · exact Nat.mod_lt _ (by decide)
      · exact ih h

lemma length_round {state : List ℕ} (h : state.length = 8) (kw : ℕ × ℕ) :
    (round state kw).length = 8 := by
  unfold round
  split
  · rfl
  · exact h

lemma length_foldl_round {state : List ℕ} (h : state.length = 8) (kws : List (ℕ × ℕ)) :
    (kws.foldl round state).length = 8 := by
  induction kws generalizing state with
  | nil => exact h
  | cons kw kws ih => exact ih (length_round h kw)

lemma length_blocks {state : List ℕ} (h : state.length = 8) (n : ℕ) (ws : List ℕ) :
    (blocks n ws state).length = 8 := by
  induction n generalizing ws state with
  | zero => exact h
  | succ n ih =>
      refine ih ?_ _
      rw [List.length_zipWith, length_foldl_round h, h]
      rfl

/-- A digest is 32 bytes. -/
theorem length_digest (message : List ℕ) : (digest message).length = 32 := by
  have hall : ∀ state : List ℕ, (state.flatMap (bigEndian 4)).length = 4 * state.length := by
    intro state
    induction state with
    | nil => rfl
    | cons x state ih =>
        rw [List.flatMap_cons, List.length_append, length_bigEndian, ih, List.length_cons]
        omega
  rw [digest, hall, length_blocks rfl]

lemma lt_of_mem_digest {message : List ℕ} {b : ℕ} (h : b ∈ digest message) : b < 256 := by
  obtain ⟨x, -, hb⟩ := List.mem_flatMap.mp h
  exact lt_of_mem_bigEndian hb

/-- A hexadecimal digit in lower case. -/
def IsLowerHex (c : ℕ) : Prop := 48 ≤ c ∧ c ≤ 57 ∨ 97 ≤ c ∧ c ≤ 102

lemma isLowerHex_hexDigit {n : ℕ} (h : n < 16) : IsLowerHex (hexDigit n).toNat := by
  have hall : ∀ n < 16, 48 ≤ (hexDigit n).toNat ∧ (hexDigit n).toNat ≤ 57
      ∨ 97 ≤ (hexDigit n).toNat ∧ (hexDigit n).toNat ≤ 102 := by decide
  exact hall n h

/-- A digest in hexadecimal is 64 digits in lower case. -/
theorem hexDigestBytes_spec (message : List ℕ) :
    (hexDigestBytes message).length = 64 ∧ ∀ c ∈ hexDigestBytes message, IsLowerHex c := by
  constructor
  · have hall : ∀ bs : List ℕ, (bs.flatMap fun b =>
        [(hexDigit (b / 16)).toNat, (hexDigit (b % 16)).toNat]).length = 2 * bs.length := by
      intro bs
      induction bs with
      | nil => rfl
      | cons b bs ih =>
          rw [List.flatMap_cons, List.length_append, ih]
          simp only [List.length_cons, List.length_nil]
          omega
    rw [hexDigestBytes, hall, length_digest]
  · intro c hc
    obtain ⟨b, hb, hc⟩ := List.mem_flatMap.mp hc
    have hlt := lt_of_mem_digest hb
    simp only [List.mem_cons, List.not_mem_nil, or_false] at hc
    rcases hc with rfl | rfl
    · exact isLowerHex_hexDigit (by omega)
    · exact isLowerHex_hexDigit (by omega)

lemma hexDigest_ne_empty (text : String) : hexDigest text ≠ "" := by
  intro h
  have hchars := congrArg String.toList h
  rw [hexDigest, String.toList_ofList] at hchars
  have hlength := length_digest ((text.toList.flatMap String.utf8EncodeChar).map UInt8.toNat)
  cases hdigest : digest ((text.toList.flatMap String.utf8EncodeChar).map UInt8.toNat) with
  | nil => simp [hdigest] at hlength
  | cons b bs => simp [hdigest] at hchars

end Library.Sha256
