import Mathlib.Data.List.AList
import Mathlib.Data.List.Sort
import Mathlib.Tactic.NormNum
import FreebsdLaboratory.Library.Text
import FreebsdLaboratory.Model.Commands

/-!
# The address pool

`network.py`: IPv4 addresses, their dotted text, and `IPv4LeasePool`, which keeps one file
`<address>.lease` per leased address in a directory.  Each of `allocate`, `release` and
`clearOrphans` runs under one lock, so each is a function of the directory.

What the file system may refuse is an argument: `unreadable` names the files that cannot be opened,
`stuck` those that cannot be removed.
-/

namespace FreebsdLaboratory

open Library

/-- An IPv4 address by its integer value. -/
structure IPv4Address where
  value : ℕ
  isLt : value < 2 ^ 32
  deriving DecidableEq

namespace IPv4Address

instance instNeZeroOctets : NeZero (256 : ℕ) := ⟨by decide⟩

/-- The address `a.b.c.d`. -/
def ofOctets (a b c d : Fin 256) : IPv4Address where
  value := a * 2 ^ 24 + b * 2 ^ 16 + c * 2 ^ 8 + d
  isLt := by omega

def octets (a : IPv4Address) : List ℕ :=
  [a.value / 2 ^ 24, a.value / 2 ^ 16 % 256, a.value / 2 ^ 8 % 256, a.value % 256]

/-- `str(address)` on characters. -/
def chars (a : IPv4Address) : List Char :=
  ['.'].intercalate (a.octets.map fun n => (toString n).toList)

/-- `str(address)`. -/
def text (a : IPv4Address) : String := String.ofList a.chars

/-- One octet of a dotted address: at most three ASCII digits, no leading zero, at most 255. -/
def parseOctet (cs : List Char) : Option ℕ :=
  if cs ≠ [] ∧ cs.all Char.isDigit ∧ cs.length ≤ 3 ∧ (cs = ['0'] ∨ cs.head? ≠ some '0') then
    let n := cs.foldl (fun n c => 10 * n + (c.toNat - '0'.toNat)) 0
    if n ≤ 255 then some n else none
  else none

/-- `ipaddress.ip_address(s)` where it gives an IPv4 address. -/
def parse (s : String) : Option IPv4Address :=
  match (s.toList.splitOn '.').map parseOctet with
  | [some a, some b, some c, some d] =>
      let n := a * 2 ^ 24 + b * 2 ^ 16 + c * 2 ^ 8 + d
      if h : n < 2 ^ 32 then some ⟨n, h⟩ else none
  | _ => none

theorem parseOctet_toString : ∀ n < 256, parseOctet (toString n).toList = some n := by
  decide +kernel

theorem dot_notMem_toString : ∀ n < 256, '.' ∉ (toString n).toList := by
  decide +kernel

theorem nul_notMem_toString : ∀ n < 256, Char.ofNat 0 ∉ (toString n).toList := by
  decide +kernel

theorem octets_lt (a : IPv4Address) : ∀ n ∈ a.octets, n < 256 := by
  have := a.isLt
  simp only [octets, List.mem_cons, List.not_mem_nil, or_false]
  rintro n (rfl | rfl | rfl | rfl) <;> omega

/-- The text of an address reads back as the address. -/
@[simp] theorem parse_text (a : IPv4Address) : parse a.text = some a := by
  have hlt := a.octets_lt
  have hsplit : (a.text.toList.splitOn '.') = a.octets.map fun n => (toString n).toList := by
    rw [text, String.toList_ofList, chars]
    refine List.splitOn_intercalate '.' (fun l hl => ?_) (by simp [octets])
    obtain ⟨n, hn, rfl⟩ := List.mem_map.mp hl
    exact dot_notMem_toString n (hlt n hn)
  have hoctets : (a.text.toList.splitOn '.').map parseOctet = a.octets.map some := by
    rw [hsplit, List.map_map]
    exact List.map_congr_left fun n hn => parseOctet_toString n (hlt n hn)
  have hv : a.value / 2 ^ 24 * 2 ^ 24 + a.value / 2 ^ 16 % 256 * 2 ^ 16
      + a.value / 2 ^ 8 % 256 * 2 ^ 8 + a.value % 256 = a.value := by
    have := a.isLt; omega
  have hlt := a.isLt
  norm_num at hv hlt
  simp [parse, hoctets, octets, hv, hlt]

/-- The text of an address can be an argument of a command. -/
theorem nul_notMem_text (a : IPv4Address) : Char.ofNat 0 ∉ a.text.toList := by
  have hoctets : ∀ n ∈ a.octets, Char.ofNat 0 ∉ (toString n).toList :=
    fun n hn => nul_notMem_toString n (a.octets_lt n hn)
  have hdot : Char.ofNat 0 ≠ '.' := by decide
  simp only [octets, List.mem_cons, List.not_mem_nil, or_false, forall_eq_or_imp,
    forall_eq] at hoctets
  obtain ⟨h₁, h₂, h₃, h₄⟩ := hoctets
  simp only [text, chars, octets, List.intercalate, String.toList_ofList,
    List.map_cons, List.map_nil, List.intersperse_cons_cons, List.intersperse_singleton,
    List.flatten_cons, List.flatten_nil, List.append_nil, List.mem_append, List.mem_singleton]
  tauto

theorem text_injective : Function.Injective text := fun a b h => by
  simpa using congrArg parse h

end IPv4Address

/-- A network in CIDR form. -/
structure IPv4Network where
  address : IPv4Address
  prefixLen : ℕ

/-- `address in network`. -/
def IPv4Network.contains (n : IPv4Network) (a : IPv4Address) : Bool :=
  a.value / 2 ^ (32 - n.prefixLen) == n.address.value / 2 ^ (32 - n.prefixLen)

/-! ## The lease directory -/

/-- What a lease file holds. -/
inductive LeaseFile where
  | owner (text : String)
  | undecodable
  | symlink
  deriving DecidableEq

/-- The lease directory without its lock file: file names and contents. -/
abbrev LeaseDir := AList fun _ : String => LeaseFile

/-- `IPv4LeasePool` after its constructor, which checks the fields' conditions. -/
structure IPv4LeasePool where
  network : IPv4Network
  start : IPv4Address
  finish : IPv4Address
  start_mem : network.contains start = true
  finish_mem : network.contains finish = true
  start_le_finish : start.value ≤ finish.value

namespace IPv4LeasePool

/-- `range(int(start), int(end) + 1)` as addresses. -/
def addresses (pool : IPv4LeasePool) : List IPv4Address :=
  (List.range' pool.start.value (pool.finish.value + 1 - pool.start.value)).filterMap fun n =>
    if h : n < 2 ^ 32 then some ⟨n, h⟩ else none

/-- The address lies in `[start, end]`. -/
def InRange (pool : IPv4LeasePool) (a : IPv4Address) : Prop :=
  pool.start.value ≤ a.value ∧ a.value ≤ pool.finish.value

instance (pool : IPv4LeasePool) (a : IPv4Address) : Decidable (pool.InRange a) :=
  inferInstanceAs (Decidable (_ ∧ _))

@[simp] theorem mem_addresses {pool : IPv4LeasePool} {a : IPv4Address} :
    a ∈ pool.addresses ↔ pool.InRange a := by
  obtain ⟨v, hv⟩ := a
  simp only [addresses, InRange, List.mem_filterMap, List.mem_range'_1]
  constructor
  · rintro ⟨n, hn, heq⟩
    split at heq
    · obtain rfl : n = v := by simpa using heq
      have := pool.start_le_finish
      omega
    · simp at heq
  · intro h
    exact ⟨v, by omega, by rw [dif_pos hv]⟩

end IPv4LeasePool

/-- `_lease_path(address).name`. -/
def leaseName (a : IPv4Address) : String := a.text ++ ".lease"

theorem leaseName_injective : Function.Injective leaseName := fun a b h =>
  IPv4Address.text_injective (by simpa [leaseName] using h)

namespace IPv4LeasePool

/-- `allocate(owner)`: the first address of the range whose file can be created exclusively. -/
def allocate (pool : IPv4LeasePool) (unreadable : List String) (dir : LeaseDir) (owner : String) :
    Except PyError IPv4Address × LeaseDir :=
  if owner = "" then (.error (.valueError "Lease owner must be a non-empty string"), dir)
  else
    match pool.addresses.find? fun a =>
        dir.lookup (leaseName a) = none ∧ leaseName a ∉ unreadable with
    | some a => (.ok a, dir.insert (leaseName a) (.owner (owner ++ "\n")))
    | none =>
        (.error (.runtimeError "No free IPv4 addresses remain in the laboratory pool"), dir)

/-- `release(address, owner)`: removes the file if it records this owner. -/
def release (pool : IPv4LeasePool) (unreadable stuck : List String) (dir : LeaseDir)
    (address owner : String) : Except PyError Bool × LeaseDir :=
  if owner = "" then (.ok false, dir)
  else match IPv4Address.parse address with
    | none => (.ok false, dir)
    | some a =>
        let name := leaseName a
        if pool.network.contains a = false ∨ ¬ pool.InRange a then (.ok false, dir)
        else match dir.lookup name with
          | none => (.ok false, dir)
          | some .symlink => (.ok false, dir.erase name)
          | some .undecodable =>
              if name ∈ unreadable then (.ok false, dir) else (.error .unicodeDecodeError, dir)
          | some (.owner text) =>
              if name ∈ unreadable ∨ Text.strip text ≠ owner then (.ok false, dir)
              else if name ∈ stuck then (.error .osError, dir)
              else (.ok true, dir.erase name)

/-- `path.stem`: the name in front of its last dot, unless that begins or ends it. -/
def pathStem (name : String) : String :=
  let suffix := name.toList.rtakeWhile (· ≠ '.')
  let front := name.toList.take (name.length - suffix.length - 1)
  if suffix ≠ [] ∧ suffix.length < name.length ∧ front ≠ [] then String.ofList front else name

/-- The loop of `clear_orphans` over the directory entries: what is removed, and the error that
ends it early. -/
def clearOrphansLoop (unreadable stuck active : List String) :
    List (Sigma fun _ : String => LeaseFile) → LeaseDir → Except PyError (List String) × LeaseDir
  | [], dir => (.ok [], dir)
  | ⟨name, file⟩ :: entries, dir =>
      let continue' := clearOrphansLoop unreadable stuck active entries
      if Text.endsWith ".lease" name = false then continue' dir
      else match file with
        | .symlink => if name ∈ stuck then (.error .osError, dir) else continue' (dir.erase name)
        | .undecodable =>
            if name ∈ unreadable then continue' dir else (.error .unicodeDecodeError, dir)
        | .owner text =>
            if name ∈ unreadable ∨ Text.strip text ∈ active then continue' dir
            else if name ∈ stuck then (.error .osError, dir)
            else
              let (removed, dir') := continue' (dir.erase name)
              (removed.map fun names => pathStem name :: names, dir')

/-- `clear_orphans(active_owners)`: removes the leases of all other owners and returns their
addresses, sorted. -/
def clearOrphans (unreadable stuck : List String) (dir : LeaseDir) (active : List String) :
    Except PyError (List String) × LeaseDir :=
  let (removed, dir') := clearOrphansLoop unreadable stuck active dir.entries dir
  (removed.map fun names => names.insertionSort (· ≤ ·), dir')

end IPv4LeasePool

end FreebsdLaboratory
