import FreebsdLaboratory.Library.JsonRoundTrip
import FreebsdLaboratory.Model.PortLeases

/-!
# Names of leases

The name of a lease is taken apart as it was put together: `parseLeaseName` reads the process off
the name of every lease that `allocate` writes, and the pattern of its port matches it.
-/

namespace FreebsdLaboratory

open Library Library.Unicode Library.Json

variable {port : ℕ} {pid uid : ℤ} {digest fingerprint : Str}

/-! ## Numbers -/

/-- Decimal digits. -/
def IsDecimal (ds : Str) : Prop := ∀ d ∈ ds, 48 ≤ d ∧ d ≤ 57

lemma isDecimal_decimal (n : ℕ) : IsDecimal (decimal n) := by
  intro d hd
  have hdigit := isDigit_of_mem_decimal hd
  simp only [isDigit, Bool.and_eq_true, decide_eq_true_eq] at hdigit
  exact hdigit

lemma str_injective {s s' : String} (h : str s = str s') : s = s' := by
  refine String.toList_injective ((List.map_injective_iff.mpr ?_) h)
  intro c c' hc
  exact Char.toNat_inj.mp hc

lemma decimal_injective {n n' : ℕ} (h : decimal n = decimal n') : n = n' := by
  rw [← ofDecimal_decimal n, h, ofDecimal_decimal]

/-- What the scanner of `int()` makes of a decimal digit. -/
lemma digitValue_ofNat {d : ℕ} (h : 48 ≤ d ∧ d ≤ 57) : Text.digitValue (Char.ofNat d)
    = some (d - 48) := by
  have hnat : (Char.ofNat d).toNat = d := Text.toNat_ofNat_of_lt (by omega)
  have hfind : Text.zeroDigits.find? (fun z => z ≤ d && d < z + 10) = some 48 := by
    rw [Text.zeroDigits, List.find?_cons_of_pos]
    simp only [Bool.and_eq_true, decide_eq_true_eq]
    omega
  rw [Text.digitValue, hnat, hfind, Option.map_some]

lemma ofNat_ne {d : ℕ} (h : 48 ≤ d ∧ d ≤ 57) :
    Char.ofNat d ≠ '_' ∧ Char.ofNat d ≠ '-' ∧ Char.ofNat d ≠ '+'
      ∧ Text.isSpace (Char.ofNat d) = false := by
  have hall : ∀ d < 58, 48 ≤ d → Char.ofNat d ≠ '_' ∧ Char.ofNat d ≠ '-' ∧ Char.ofNat d ≠ '+'
      ∧ Text.isSpace (Char.ofNat d) = false := by decide +kernel
  exact hall d (by omega) h.1

lemma digitsValue_decimal {ds : Str} (h : IsDecimal ds) (n v : ℕ) :
    Text.digitsValue (ds.map Char.ofNat) true n v
      = some (n + ds.length, ds.foldl (fun v d => 10 * v + (d - 48)) v) := by
  induction ds generalizing n v with
  | nil => rfl
  | cons d ds ih =>
      have hd := h d List.mem_cons_self
      have hrest : IsDecimal ds := fun e he => h e (List.mem_cons_of_mem d he)
      rw [List.map_cons, Text.digitsValue, if_neg (ofNat_ne hd).1, digitValue_ofNat hd]
      simp only [ih hrest, List.length_cons, List.foldl_cons]
      congr 2
      omega

lemma length_decimal_of_lt {n : ℕ} (h : n < 10 ^ 20) : (decimal n).length ≤ maxIntDigits := by
  have hdigits : (Nat.toDigits 10 n).length ≤ 20 := Nat.toDigits_length 10 n 20 (by decide) h
  have hmax : 20 ≤ maxIntDigits := by decide
  rw [decimal, List.length_map]
  omega

/-- `int()` reads a number that was written in decimal. -/
lemma intOfText_decimal {n : ℕ} (h : (decimal n).length ≤ maxIntDigits) :
    intOfText (decimal n) = some (n : ℤ) := by
  have hdigits := isDecimal_decimal n
  have hvalue := ofDecimal_decimal n
  have hlength : (decimal n).length ≤ Text.maxIntDigits := h
  obtain ⟨d, ds, hcons⟩ := List.exists_cons_of_ne_nil (decimal_ne_nil (n := n))
  rw [hcons] at hdigits hvalue hlength ⊢
  have hd := hdigits d List.mem_cons_self
  have hstrip : Text.stripNumber ((d :: ds).map Char.ofNat) = (d :: ds).map Char.ofNat := by
    refine Text.stripNumber_eq_self fun c hc => ?_
    obtain ⟨e, he, rfl⟩ := List.mem_map.mp hc
    exact (ofNat_ne (hdigits e he)).2.2.2
  have hscan : Text.digitsValue ((d :: ds).map Char.ofNat) false 0 0
    = some ((d :: ds).length, n) := by
    have hrest : IsDecimal ds := fun e he => hdigits e (List.mem_cons_of_mem d he)
    rw [List.map_cons, Text.digitsValue, if_neg (ofNat_ne hd).1, digitValue_ofNat hd]
    simp only [digitsValue_decimal hrest, ← hvalue, ofDecimal, List.length_cons, List.foldl_cons]
    congr 2
    omega
  unfold intOfText Text.parseInt
  rw [String.toList_ofList, hstrip]
  split
  · rename_i heq
    exact absurd (List.cons.inj heq).1 (ofNat_ne hd).2.1
  · rename_i heq
    exact absurd (List.cons.inj heq).1 (ofNat_ne hd).2.2.1
  · simp only [hscan, if_pos hlength]

/-! ## Digests -/

/-- A hexadecimal digit in either case. -/
def IsHex (d : ℕ) : Prop := 48 ≤ d ∧ d ≤ 57 ∨ 65 ≤ d ∧ d ≤ 70 ∨ 97 ≤ d ∧ d ≤ 102

lemma IsHex.of_lower {d : ℕ} (h : Sha256.IsLowerHex d) : IsHex d := by
  rcases h with h | h
  · exact .inl h
  · exact .inr (.inr h)

/-- What the scanner of `int(text, 16)` makes of a hexadecimal digit. -/
lemma IsHex.plain {d : ℕ} (h : IsHex d) :
    Text.isSpace (Char.ofNat d) = false ∧ Char.ofNat d ≠ '-' ∧ Char.ofNat d ≠ '+'
      ∧ Char.ofNat d ≠ 'x' ∧ Char.ofNat d ≠ 'X' ∧ Char.ofNat d ≠ '_'
      ∧ isHexDigit (Char.ofNat d) = true := by
  have hall : ∀ d < 103, 48 ≤ d ∧ d ≤ 57 ∨ 65 ≤ d ∧ d ≤ 70 ∨ 97 ≤ d ∧ d ≤ 102 →
      Text.isSpace (Char.ofNat d) = false ∧ Char.ofNat d ≠ '-' ∧ Char.ofNat d ≠ '+'
        ∧ Char.ofNat d ≠ 'x' ∧ Char.ofNat d ≠ 'X' ∧ Char.ofNat d ≠ '_'
        ∧ isHexDigit (Char.ofNat d) = true := by decide +kernel
  exact hall d (by rcases h with h | h | h <;> omega) h

lemma isHexRun_of_hex {ds : Str} (h : ∀ d ∈ ds, IsHex d) :
    isHexRun (ds.map Char.ofNat) true = true := by
  induction ds with
  | nil => rfl
  | cons d ds ih =>
      obtain ⟨-, -, -, -, -, hne, hhex⟩ := (h d List.mem_cons_self).plain
      rw [List.map_cons, isHexRun, if_neg hne, hhex, Bool.true_and]
      exact ih fun e he => h e (List.mem_cons_of_mem d he)

/-- A text of 64 hexadecimal digits. -/
def IsHexText (digest : Str) : Prop := digest.length = 64 ∧ ∀ d ∈ digest, IsHex d

/-- A digest in hexadecimal is taken for one. -/
lemma IsHexText.isDigest (h : IsHexText digest) : isDigest digest = true := by
  obtain ⟨hlength, h⟩ := h
  have hstrip : Text.stripNumber (digest.map Char.ofNat) = digest.map Char.ofNat := by
    refine Text.stripNumber_eq_self fun c hc => ?_
    obtain ⟨e, he, rfl⟩ := List.mem_map.mp hc
    exact (h e he).plain.1
  obtain ⟨a, b, e, ds, rfl⟩ : ∃ a b e ds, digest = a :: b :: e :: ds := by
    match digest, hlength with
    | a :: b :: e :: ds, _ => exact ⟨a, b, e, ds, rfl⟩
  have ha := (h a (by simp)).plain
  have hb := (h b (by simp)).plain
  have hrun : isHexRun ((a :: b :: e :: ds).map Char.ofNat) false = true := by
    rw [List.map_cons, isHexRun, if_neg ha.2.2.2.2.2.1, ha.2.2.2.2.2.2, Bool.true_and]
    exact isHexRun_of_hex fun d hd => h d (List.mem_cons_of_mem a hd)
  have hprefix : ¬ (Text.digitValue (Char.ofNat a) = some 0
      ∧ (Char.ofNat b = 'x' ∨ Char.ofNat b = 'X')) := by
    rintro ⟨-, hx | hx⟩
    · exact hb.2.2.2.1 hx
    · exact hb.2.2.2.2.1 hx
  have hunsigned : isUnsignedHex ((a :: b :: e :: ds).map Char.ofNat) = true :=
    (if_neg hprefix).trans hrun
  have htext : isHexText (a :: b :: e :: ds) = true := by
    unfold isHexText
    rw [hstrip]
    split
    · rename_i heq
      exact absurd (List.cons.inj heq).1 ha.2.1
    · rename_i heq
      exact absurd (List.cons.inj heq).1 ha.2.2.1
    · exact hunsigned
  simp [FreebsdLaboratory.isDigest, hlength, htext]

lemma IsHexText.no_dot (h : IsHexText digest) : 46 ∉ digest := by
  intro hmem
  rcases h.2 46 hmem with hd | hd | hd <;> omega

/-- A text of 64 lower-case hexadecimal digits. -/
def IsHexDigest (digest : Str) : Prop := digest.length = 64 ∧ ∀ d ∈ digest, Sha256.IsLowerHex d

lemma IsHexDigest.isHexText (h : IsHexDigest digest) : IsHexText digest :=
  ⟨h.1, fun d hd => .of_lower (h.2 d hd)⟩

lemma isHexDigest_sha256Bytes (content : Bytes) : IsHexDigest (sha256Bytes content) :=
  Sha256.hexDigestBytes_spec content

lemma isHexDigest_processDigest (uid : ℤ) (startedAt : String) :
    IsHexDigest (str (processDigest uid startedAt)) := by
  have hbytes : str (processDigest uid startedAt) = Sha256.hexDigestBytes
      (((toString uid ++ ":" ++ startedAt).toList.flatMap String.utf8EncodeChar).map
        UInt8.toNat) := by
    rw [processDigest, Sha256.hexDigest, str, String.toList_ofList, Sha256.hexDigestBytes,
      List.map_flatMap]
    rfl
  rw [hbytes]
  exact Sha256.hexDigestBytes_spec _

lemma isHexDigest_of_ownerDigest {owner : Str} (h : ownerDigest owner = some digest) :
    IsHexDigest digest := by
  obtain ⟨bytes, -, rfl⟩ := Option.map_eq_some_iff.mp h
  exact isHexDigest_sha256Bytes bytes

/-! ## Names -/

lemma portLeaseName_eq (port : ℕ) (digest : Str) (pid uid : ℤ) (fingerprint : Str) :
    portLeaseName port digest pid uid fingerprint
      = decimal port ++ 46 :: (intName pid ++ 46 :: (intName uid ++ 46 :: (fingerprint ++ 46 ::
          (digest ++ str ".lease")))) := by
  have hlast : str ".lease" = 46 :: str "lease" := by decide
  simp [portLeaseName, List.intercalate, hlast]

/-- The first part of a name. -/
def portOf (name : Str) : Str := name.takeWhile (· ≠ 46)

lemma portOf_append {ds rest : Str} (h : IsDecimal ds) : portOf (ds ++ 46 :: rest) = ds := by
  unfold portOf
  rw [List.takeWhile_append_of_pos]
  · simp
  · intro d hd
    have := h d hd
    simp only [ne_eq, decide_eq_true_eq]
    omega

lemma portOf_portLeaseName : portOf (portLeaseName port digest pid uid fingerprint)
    = decimal port := by
  rw [portLeaseName_eq, portOf_append (isDecimal_decimal port)]

/-- The pattern of a port matches the names of its leases. -/
lemma isLeaseOf_portLeaseName :
    isLeaseOf port (portLeaseName port digest pid uid fingerprint) = true := by
  rw [portLeaseName_eq, isLeaseOf]
  simp only [Bool.and_eq_true, decide_eq_true_eq, List.isPrefixOf_iff_prefix,
    List.isSuffixOf_iff_suffix]
  refine ⟨⟨⟨intName pid ++ 46 :: (intName uid ++ 46 :: (fingerprint ++ 46 ::
    (digest ++ str ".lease"))), by simp⟩,
    ⟨decimal port ++ 46 :: (intName pid ++ 46 :: (intName uid ++
    46 :: (fingerprint ++ 46 :: digest))), by simp⟩⟩, ?_⟩
  simp only [List.length_append, List.length_cons, List.length_nil]
  omega

/-- A name that the pattern of a port matches is one of that port. -/
lemma portOf_of_isLeaseOf {name : Str} (h : isLeaseOf port name = true) :
    portOf name = decimal port := by
  simp only [isLeaseOf, Bool.and_eq_true, decide_eq_true_eq, List.isPrefixOf_iff_prefix] at h
  obtain ⟨rest, rfl⟩ := h.1.1
  rw [List.append_assoc, List.singleton_append, portOf_append (isDecimal_decimal port)]

lemma intName_natCast (n : ℕ) : intName n = decimal n := by
  simp [intName]

/-- The parts of a name. -/
lemma splitOn_portLeaseName (port m n : ℕ) (hprocess : IsHexText fingerprint)
    (hdigest : IsHexText digest) : (portLeaseName port digest m n fingerprint).splitOn 46
      = [decimal port, decimal m, decimal n, fingerprint, digest, str "lease"] := by
  have hdot : ∀ n : ℕ, 46 ∉ decimal n := by
    intro n hmem
    have := isDecimal_decimal n 46 hmem
    omega
  rw [portLeaseName, intName_natCast, intName_natCast]
  refine List.splitOn_intercalate 46 ?_ (by simp)
  intro part hpart
  simp only [List.mem_cons, List.not_mem_nil, or_false] at hpart
  rcases hpart with rfl | rfl | rfl | rfl | rfl | rfl
  · exact hdot port
  · exact hdot m
  · exact hdot n
  · exact hprocess.no_dot
  · exact hdigest.no_dot
  · decide

/-- **A lease is read as it was named**, by the numbers that have a text. -/
theorem parseLeaseName_of_hex {m n : ℕ} (hm : 1 < m) (hmlength : (decimal m).length ≤ maxIntDigits)
    (hnlength : (decimal n).length ≤ maxIntDigits) (hprocess : IsHexText fingerprint)
    (hdigest : IsHexText digest) :
    parseLeaseName (portLeaseName port digest m n fingerprint) port
      = some ((m : ℤ), (n : ℤ), fingerprint) := by
  have hcheck : ¬ ((m : ℤ) ≤ 1 ∨ (n : ℤ) < 0) := by omega
  have hdigests : (isDigest fingerprint && isDigest digest) = true := by
    rw [hprocess.isDigest, hdigest.isDigest]
    rfl
  rw [parseLeaseName, splitOn_portLeaseName port m n hprocess hdigest]
  simp only [and_self, if_true, intOfText_decimal hmlength, intOfText_decimal hnlength,
    Option.bind_eq_bind, Option.bind_some, if_neg hcheck, if_pos hdigests]

/-- The leases of processes are read as they were named. -/
theorem parseLeaseName_portLeaseName (hpid : 1 < pid ∧ pid ≤ maxPid) {n : ℕ} (hn : n < 2 ^ 32)
    (hprocess : IsHexDigest fingerprint) (hdigest : IsHexDigest digest) :
    parseLeaseName (portLeaseName port digest pid n fingerprint) port
      = some (pid, (n : ℤ), fingerprint) := by
  obtain ⟨k, rfl⟩ := Int.eq_ofNat_of_zero_le (show 0 ≤ pid by omega)
  have hmax : maxPid = 2147483647 := rfl
  exact parseLeaseName_of_hex (by omega) (length_decimal_of_lt (by omega))
    (length_decimal_of_lt (by omega)) hprocess.isHexText hdigest.isHexText

/-- What is read off a name could be a process. -/
lemma of_parseLeaseName {name : Str} (h : parseLeaseName name port = some (pid, uid, digest)) :
    1 < pid ∧ 0 ≤ uid ∧ digest ≠ [] := by
  unfold parseLeaseName at h
  split at h
  · split_ifs at h with hends hdigests
    · obtain ⟨pid', -, h⟩ := Option.bind_eq_some_iff.mp h
      obtain ⟨uid', -, h⟩ := Option.bind_eq_some_iff.mp h
      split_ifs at h with hbad
      cases h
      rw [not_or, not_le, not_lt] at hbad
      refine ⟨hbad.1, hbad.2, ?_⟩
      rintro rfl
      simp [isDigest] at hdigests
    · obtain ⟨pid', -, h⟩ := Option.bind_eq_some_iff.mp h
      obtain ⟨uid', -, h⟩ := Option.bind_eq_some_iff.mp h
      split_ifs at h
  · cases h

end FreebsdLaboratory
