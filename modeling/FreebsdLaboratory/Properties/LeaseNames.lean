import FreebsdLaboratory.Tunnels.Names

/-!
# The names of leases as a code

A lease is nothing but its name, so the name has to say all: who holds the port, and which port it
is.  `lease_name_decodes` is the code both ways, for whatever `_lease_path` is called with.
-/

namespace FreebsdLaboratory

open Library Library.Unicode Library.Json

/-- What `_lease_path` is called with. -/
structure LeaseParts where
  port : ℕ
  owner : Str
  pid : ℤ
  uid : ℤ
  processDigest : Str
  port_ge : 1024 ≤ port
  port_le : port ≤ 65535
  owner_ne : owner ≠ []
  pid_gt : 1 < pid
  uid_ge : 0 ≤ uid
  isHexText : IsHexText processDigest

namespace LeaseParts

variable {l l' : LeaseParts} {name name' : Str}

/-- The name that `_lease_path` builds. -/
def path (l : LeaseParts) : Option Str := leasePath l.port l.owner l.pid l.uid l.processDigest

/-- What a name has to tell apart. -/
def key (l : LeaseParts) : ℕ × ℤ × ℤ × Str × Option Str :=
  (l.port, l.pid, l.uid, l.processDigest, ownerDigest l.owner)

/-- A name is built where the owner has UTF-8 and the numbers have a text. -/
theorem exists_path_iff : (∃ name, l.path = some name)
    ↔ (∃ digest, ownerDigest l.owner = some digest)
    ∧ (decimal l.pid.natAbs).length ≤ maxIntDigits
    ∧ (decimal l.uid.natAbs).length ≤ maxIntDigits := by
  rw [path, leasePath]
  split_ifs with hlength
  · constructor
    · rintro ⟨name, hname⟩
      obtain ⟨digest, hdigest, -⟩ := Option.map_eq_some_iff.mp hname
      exact ⟨⟨digest, hdigest⟩, hlength⟩
    · rintro ⟨⟨digest, hdigest⟩, -⟩
      exact ⟨_, Option.map_eq_some_iff.mpr ⟨digest, hdigest, rfl⟩⟩
  · simp [hlength]

/-- The numbers and digests in a name that was built. -/
lemma path_cases (h : l.path = some name) : ∃ (m n : ℕ) (digest : Str), l.pid = m ∧ l.uid = n
    ∧ ownerDigest l.owner = some digest ∧ IsHexText digest
    ∧ (decimal m).length ≤ maxIntDigits ∧ (decimal n).length ≤ maxIntDigits
    ∧ name = portLeaseName l.port digest m n l.processDigest := by
  have hpid := l.pid_gt
  have huid := l.uid_ge
  rw [path, leasePath] at h
  split_ifs at h with hlength
  obtain ⟨digest, hdigest, rfl⟩ := Option.map_eq_some_iff.mp h
  obtain ⟨m, hm⟩ := Int.eq_ofNat_of_zero_le (show 0 ≤ l.pid by omega)
  obtain ⟨n, hn⟩ := Int.eq_ofNat_of_zero_le huid
  rw [hm, hn] at hlength
  refine ⟨m, n, digest, hm, hn, hdigest, (isHexDigest_of_ownerDigest hdigest).isHexText, hlength.1,
    hlength.2, ?_⟩
  rw [hm, hn]

/-- Names tell keys apart. -/
lemma key_eq_of_path (h : l.path = some name) (h' : l'.path = some name) : l.key = l'.key := by
  obtain ⟨m, n, digest, hm, hn, hdigest, hhex, -, -, hname⟩ := path_cases h
  obtain ⟨m', n', digest', hm', hn', hdigest', hhex', -, -, hname'⟩ := path_cases h'
  have hparts := congrArg (List.splitOn 46) (hname.symm.trans hname')
  rw [splitOn_portLeaseName _ _ _ l.isHexText hhex,
    splitOn_portLeaseName _ _ _ l'.isHexText hhex'] at hparts
  simp only [List.cons.injEq, and_true] at hparts
  obtain ⟨hport, hpid, huid, hprocess, howner⟩ := hparts
  simp only [key, Prod.mk.injEq, hm, hm', hn, hn', hdigest, hdigest', Nat.cast_inj,
    Option.some.injEq]
  exact ⟨decimal_injective hport, decimal_injective hpid, decimal_injective huid, hprocess, howner⟩

/-- The pattern of a port takes the names of that port. -/
lemma isLeaseOf_iff (h : l.path = some name) (port : ℕ) :
    isLeaseOf port name = true ↔ port = l.port := by
  obtain ⟨m, n, digest, -, -, -, -, -, -, rfl⟩ := path_cases h
  constructor
  · intro hport
    exact decimal_injective ((portOf_of_isLeaseOf hport).symm.trans portOf_portLeaseName)
  · rintro rfl
    exact isLeaseOf_portLeaseName

end LeaseParts

/-- **A name tells whose lease it is.**  `_lease_identity` reads the process off it, two names are
the same only where the parts are, and the pattern of a port takes the names of that port only. -/
theorem lease_name_decodes {l l' : LeaseParts} {name name' : Str} (h : l.path = some name)
    (h' : l'.path = some name') :
    (leaseIdentity name l.port = do
      let link ← attempt (Prog.op LeaseOp.Resp PyError (.isSymlink name))
      return if link then none else some (l.pid, l.uid, l.processDigest))
    ∧ (name = name' ↔ l.key = l'.key)
    ∧ ∀ port, isLeaseOf port name = true ↔ port = l.port := by
  refine ⟨?_, ⟨?_, ?_⟩, LeaseParts.isLeaseOf_iff h⟩
  · obtain ⟨m, n, digest, hm, hn, -, hhex, hmlength, hnlength, rfl⟩ := LeaseParts.path_cases h
    have hpid : 1 < m := by
      have := l.pid_gt
      omega
    rw [leaseIdentity, parseLeaseName_of_hex hpid hmlength hnlength l.isHexText hhex, hm, hn]
  · rintro rfl
    exact LeaseParts.key_eq_of_path h h'
  · intro hkey
    simp only [LeaseParts.key, Prod.mk.injEq] at hkey
    obtain ⟨hport, hpid, huid, hprocess, howner⟩ := hkey
    rw [LeaseParts.path, leasePath, hport, hpid, huid, hprocess, howner] at h
    exact Option.some.inj (h.symm.trans h')

/-- A lease of the process 4242 of user 1001. -/
def sampleLease : LeaseParts where
  port := 40000
  owner := str "alice"
  pid := 4242
  uid := 1001
  processDigest := List.replicate 64 97
  port_ge := by decide
  port_le := by decide
  owner_ne := by decide
  pid_gt := by decide
  uid_ge := by decide
  isHexText := ⟨by simp, fun d hd => .inr (.inr (by
    obtain rfl := List.eq_of_mem_replicate hd
    decide))⟩

lemma sampleLease_path : ∃ name, sampleLease.path = some name :=
  LeaseParts.exists_path_iff.mpr ⟨⟨_, rfl⟩, length_decimal_of_lt (by decide),
    length_decimal_of_lt (by decide)⟩

/-- The name is one of port 40000, and none of port 4000. -/
theorem lease_name_decodes_sample : ∃ name, sampleLease.path = some name
    ∧ isLeaseOf 40000 name = true ∧ isLeaseOf 4000 name = false := by
  obtain ⟨name, h⟩ := sampleLease_path
  obtain ⟨-, -, hport⟩ := lease_name_decodes h h
  refine ⟨name, h, (hport 40000).mpr rfl, ?_⟩
  rw [← Bool.not_eq_true, hport 4000]
  decide

end FreebsdLaboratory
