import FreebsdLaboratory.Model.RequestHandler

/-!
# What a request knows about itself

The protocol every thread of the daemon follows, whatever the other threads do: `Known` is a
function of the responses a thread has seen so far, `Permits` says when each operation may come.

`Known` records the locks a thread holds, what it knows the registry to hold for the runtime whose
lock it holds, what it has created and not yet recorded, and, for `gc`, what its last reading of the
registry gave and what it found out about the owners.  `Permits` is where the design of the daemon
is written down: a record is written only by the create request of its own peer, under the runtime's
lock and over an empty or an own entry; jails, VMs and datasets are removed only under that lock and
with authority over what the registry holds; the collector takes a runtime's lock only after judging
the owner it read to be dead, or after reading no record at all.

`daemon` is the machine of these threads.
-/

namespace FreebsdLaboratory

open Library

structure Known where
  /-- Locks held, the latest first. -/
  holds : List LockId := []
  /-- A runtime whose lock the thread has looked up and is about to take. -/
  asked : Option String := none
  /-- A caching flag was found unset, and the section it guards is not yet left. -/
  slow : Bool := false
  /-- A runtime whose lock is held, and what the registry may hold for it. -/
  record : Option (String × List (Option RuntimeRecord)) := none
  /-- An address leased for the runtime and not yet in its record. -/
  lease : Option IPv4Address := none
  /-- An epair created for the runtime and not yet in its record. -/
  epair : Option String := none
  /-- A memory disk created for the runtime and not yet in its record. -/
  md : Option String := none
  /-- The lease of the recorded runtime is released, its record not yet deleted. -/
  forgetting : Bool := false
  /-- The records the last `_registered` has read. -/
  snapshot : List (String × RuntimeRecord) := []
  /-- Process ids asked about since, with the identity found. -/
  verdicts : List (ℤ × Option ProcessIdentity) := []
  deriving DecidableEq

namespace Known

/-- Giving a lock back, as far as locks go. -/
def leaving (s : Known) (l : LockId) : Known :=
  { s with holds := s.holds.erase l, asked := none, slow := s.slow && decide (l ≠ .shared) }

/-- Giving a lock back.  A thread without locks knows nothing, and what it knows about a runtime
goes with the lock of the runtime. -/
def releasing (s : Known) (l : LockId) : Known :=
  if s.holds.erase l = [] then {}
  else if l = .shared ∨ l ∈ s.holds.erase l then s.leaving l
  else { s.leaving l with record := none, lease := none, epair := none, md := none }

/-- The identity read off the outcome of `ps`. -/
def identityOf (pid : ℤ) : RunOutcome → Option ProcessIdentity
  | .completed 0 stdout => parseProcessIdentity pid stdout
  | _ => none

/-- What a response adds. -/
def learn (s : Known) : (o : Op) → o.Resp → Known
  | .runtimeLock name, _ => { s with asked := some name }
  | .acquire l, _ => { s with holds := l :: s.holds, asked := none }
  | .release l, _ => s.releasing l
  | .readFlag _, set => { s with slow := s.slow || !set }
  | .loadRegistry name, .ok x =>
      if .runtime name ∈ s.holds then { s with record := some (name, [x]) }
      else
        { s with
          snapshot := s.snapshot ++ (x.map fun r => (name, r)).toList
          verdicts := [] }
  | .registryNames, _ => { s with snapshot := [], verdicts := [] }
  | .writeRegistry r, .ok _ =>
      { s with
        record := s.record.map fun (name, _) => (name, [some r])
        lease := none
        epair := none
        md := none }
  | .writeRegistry r, .error _ =>
      { s with record := s.record.map fun (name, xs) => (name, some r :: xs) }
  | .deleteRegistry name, .ok _ => { s with record := some (name, [none]), forgetting := false }
  | .deleteRegistry _, .error _ =>
      { s with
        record := s.record.map fun (name, xs) => (name, none :: xs)
        forgetting := false }
  | .leaseAllocate _, .ok a => { s with lease := some a }
  | .leaseRelease _ _, .ok _ =>
      if s.lease.isSome then { s with lease := none } else { s with forgetting := true }
  | .leaseRelease _ _, .error _ => { s with lease := none }
  | .run (.arpDelete _), .timeoutExpired | .run (.arpDelete _), .raises _ =>
      { s with forgetting := false }
  | .run .ifconfigEpairCreate, .completed 0 stdout =>
      { s with epair := (newEpairHost stdout).toOption }
  | .run .mdconfigAttach, .completed 0 stdout => { s with md := (newMdUnit stdout).toOption }
  | .kill pid, .ok false => { s with verdicts := (pid, none) :: s.verdicts }
  | .ps _, .raises _ => s
  | .ps pid, outcome => { s with verdicts := (pid, identityOf pid outcome) :: s.verdicts }
  | _, _ => s

/-- The registry holds nothing for the runtime, or one of these. -/
def Knows (s : Known) (name : String) (x : Option RuntimeRecord) : Prop :=
  s.record = some (name, [x])

end Known

/-! ## Authority -/

/-- The connection is a create request for this runtime. -/
def Connection.Creates (c : Connection) (name : String) : Prop :=
  (∃ pid key, c.action = .ok (.createJail name pid key)) ∨
    ∃ pid key profile, c.action = .ok (.createBhyve name pid key profile)

/-- The runtime a create request is for. -/
def Connection.creates? (c : Connection) : Option String :=
  match c.action with
  | .ok (.createJail name _ _) | .ok (.createBhyve name _ _ _) => some name
  | _ => none

theorem Connection.creates_iff {c : Connection} {name : String} :
    c.Creates name ↔ c.creates? = some name := by
  unfold Creates creates?
  split <;> simp_all

/-- A create request is for one runtime. -/
theorem creates_unique {c : Connection} {name name' : String} (h : c.Creates name)
    (h' : c.Creates name') : name = name' := by
  rw [Connection.creates_iff] at h h'
  rw [h] at h'
  exact Option.some.inj h'

/-- The runtime of a create request is the one it creates. -/
theorem runtime_of_creates {c : Connection} {name : String} (h : c.Creates name) :
    c.runtime = name := by
  unfold Connection.runtime
  rcases h with ⟨pid, key, h⟩ | ⟨pid, key, profile, h⟩ <;> rw [h] <;> rfl

instance (c : Connection) (name : String) : Decidable (c.Creates name) :=
  decidable_of_iff _ Connection.creates_iff.symm

/-- The connection is a request to collect. -/
def Connection.Collects (c : Connection) (staleOnly : Bool) : Prop :=
  c.action = .ok (.gc staleOnly)

/-- The peer may tear down what is registered as `x`: root always, the owner its own, a create
request whatever is not registered at all. -/
def Connection.MayDestroy (c : Connection) (name : String) : Option RuntimeRecord → Prop
  | some r => c.peer.uid = 0 ∨ r.ownerUid = .int c.peer.uid
  | none => c.peer.uid = 0 ∨ c.Creates name

/-- A record as a create request of this connection writes it. -/
structure Connection.Wrote (m : RuntimeManager) (c : Connection) (name : String)
    (r : RuntimeRecord) : Prop where
  named : r.name = .str name
  ownerPid : r.ownerPid = .int c.peer.pid
  ownerUid : r.ownerUid = .int c.peer.uid
  ownerGid : r.ownerGid = .int c.peer.gid
  dataset : r.dataset = .null ∨ r.dataset = .str (m.jailDataset name)
    ∨ r.dataset = .str (m.vmDataset name)

/-- The record carries the fingerprint the request found for its peer. -/
def Connection.Identified (c : Connection) (verdicts : List (ℤ × Option ProcessIdentity))
    (r : RuntimeRecord) : Prop :=
  1 < c.peer.pid ∧ ∃ identity, (c.peer.pid, some identity) ∈ verdicts
    ∧ identity.uid = c.peer.uid ∧ r.ownerProcessDigest = .str identity.digest

/-- `_owner_alive` would say no: the record names no process, or the process it names was looked at
and is not the owner. -/
def Known.JudgedDead (s : Known) (r : RuntimeRecord) : Prop :=
  ∀ pid uid digest, r.ownerPid = .int pid → r.ownerUid = .int uid →
    r.ownerProcessDigest = .str digest → 1 < pid → 0 ≤ uid → digest ≠ "" →
    ∃ found, (pid, found) ∈ s.verdicts ∧
      ∀ identity, found = some identity → ¬ (identity.uid = uid ∧ identity.digest = digest)

/-- The collector has a reason to tear the runtime down. -/
def Known.Targets (s : Known) (name : String) : Prop :=
  (∃ r, (name, r) ∈ s.snapshot ∧ s.JudgedDead r) ∨ name ∉ s.snapshot.map Prod.fst

/-- A destroy works on the runtime: the thread holds its lock, and not only as the create request
it may be. -/
def Known.Destroying (c : Connection) (s : Known) (name : String) : Prop :=
  .runtime name ∈ s.holds ∧ (c.Creates name → 2 ≤ s.holds.count (.runtime name))

instance (c : Connection) (s : Known) (name : String) : Decidable (s.Destroying c name) :=
  inferInstanceAs (Decidable (_ ∧ _))

/-- A destroy has read what is registered and has authority over it. -/
structure Known.Working (c : Connection) (s : Known) (name : String) (x : Option RuntimeRecord) :
    Prop where
  destroying : s.Destroying c name
  named : isRuntimeName name = true
  knows : s.Knows name x
  mayDestroy : c.MayDestroy name x

/-- The thread is a create request inside its own lock and no other. -/
structure Known.Creating (c : Connection) (s : Known) (name : String) : Prop where
  creates : c.Creates name
  holds : s.holds = [.runtime name]
  asked : s.asked = none

/-! ## The protocol -/

/-- When a command may be run.  Commands that remove nothing and number nothing are free; a runtime
that is being forgotten is so at its own address. -/
def PermitsRun (m : RuntimeManager) (c : Connection) (s : Known) : Command → Prop
  | .jailRemove name | .vmDestroy name => ∃ x, s.Working c name x
  | .zfsDestroyRecursive dataset =>
      ∃ name, (∃ x, s.Working c name x ∧
          (dataset = m.jailDataset name ∨ ∃ r, x = some r ∧ r.dataset = .str dataset))
        ∨ (s.Creating c name ∧ isRuntimeName name = true ∧ dataset = m.srcDataset name)
  | .zfsDestroy dataset =>
      ∃ name r, s.Creating c name ∧ isRuntimeName name = true ∧ s.Knows name (some r)
        ∧ c.Wrote m name r ∧ dataset = m.vmDataset name ++ "/disk0"
  | .ifconfigDestroy interface =>
      (∃ name r, s.Working c name (some r) ∧ r.epairHost = .str interface
          ∧ isEpairHost interface = true)
        ∨ ((∃ staleOnly, c.Collects staleOnly) ∧ c.peer.uid = 0 ∧ s.holds = [.shared]
          ∧ interface ∉ s.snapshot.filterMap fun e => referencedEpair e.2)
  | .mdconfigDetach unit =>
      ∃ name r md, s.Working c name (some r) ∧ r.mdUnit = .str md ∧ isMdUnit md = true
        ∧ unit = unitNumber md
  | .arpDelete address =>
      s.forgetting = true → ∃ name r, s.Working c name (some r) ∧ r.guestIp = .str address
  | .ifconfigEpairCreate => ∃ name r, s.Creating c name ∧ s.Knows name (some r) ∧ s.epair = none
  | .mdconfigAttach => ∃ name r, s.Creating c name ∧ s.Knows name (some r) ∧ s.md = none
  | _ => True

/-- A write over nothing, with the address just leased; or over the request's own record, with the
devices created since. -/
def PermitsWrite (m : RuntimeManager) (c : Connection) (s : Known) (name : String)
    (r : RuntimeRecord) : Prop :=
  s.Creating c name ∧ isRuntimeName name = true ∧ c.Wrote m name r ∧ c.Identified s.verdicts r ∧
    ((s.Knows name none ∧ r.epairHost = .null ∧ r.mdUnit = .null
        ∧ ∃ a, s.lease = some a ∧ a ≠ m.hostAddress ∧ r.guestIp = .str a.text)
      ∨ ∃ r₀, s.Knows name (some r₀) ∧ c.Wrote m name r₀ ∧ r.guestIp = r₀.guestIp
        ∧ (r.epairHost = .null ∨ ∃ e, s.epair = some e ∧ r.epairHost = .str e)
        ∧ (r.mdUnit = .null ∨ ∃ u, s.md = some u ∧ r.mdUnit = .str u))

/-- **When an operation may come.** -/
def Permits (m : RuntimeManager) (c : Connection) (s : Known) : Op → Prop
  | .acquire .shared =>
      ((∃ staleOnly, c.Collects staleOnly) ∧ s.holds = [])
        ∨ ∃ name, s.Creating c name ∧ s.slow = true
  | .acquire (.runtime name) => s.asked = some name ∧
      ((c.action = .ok (.destroy name) ∧ s.holds = [])
        ∨ (c.Creates name ∧ (s.holds = [] ∨ s.holds = [.runtime name]))
        ∨ (∃ staleOnly, c.Collects staleOnly ∧ s.holds = [.shared]
          ∧ (staleOnly = true → c.peer.uid = 0 → s.Targets name)))
  | .release l => s.holds.head? = some l ∧ s.forgetting = false
  | .readFlag _ => s.holds ≠ []
  | .setFlag _ => ∃ name, c.Creates name ∧ s.holds = [.shared, .runtime name]
  | .loadRegistry name =>
      .runtime name ∈ s.holds ∨ ((∃ staleOnly, c.Collects staleOnly) ∧ s.holds = [.shared]
        ∧ name ∉ s.snapshot.map Prod.fst)
  | .registryNames => (∃ staleOnly, c.Collects staleOnly) ∧ s.holds = [.shared]
  | .writeRegistry r => ∃ name, PermitsWrite m c s name r
  | .deleteRegistry name => ∃ x, s.Working c name x
  | .leaseAllocate owner =>
      s.Creating c owner ∧ isRuntimeName owner = true ∧ s.Knows owner none ∧ s.lease = none
  | .leaseRelease address owner =>
      (s.Creating c owner ∧ s.Knows owner none ∧ ∃ a, s.lease = some a ∧ address = a.text)
        ∨ (s.lease = none ∧ ∃ r, s.Working c owner (some r) ∧ r.guestIp = .str address)
  | .leaseClearOrphans active =>
      (∃ staleOnly, c.Collects staleOnly) ∧ c.peer.uid = 0 ∧ s.holds = [.shared]
        ∧ active = s.snapshot.map Prod.fst
  | .run command => PermitsRun m c s command
  | _ => True

/-- A load under the runtime's lock gives what the thread already knows, if it knows anything; a
directory has a name once. -/
def Admits (s : Known) : (o : Op) → o.Resp → Prop
  | .loadRegistry name, .ok x => ∀ xs, s.record = some (name, xs) → x ∈ xs
  | .registryNames, names => names.Nodup
  | _, _ => True

/-- The threads of the daemon.  With `reentrant` a thread may take the lock of a runtime again. -/
abbrev daemon (m : RuntimeManager) (reentrant : Bool) : Machine Op.Resp PyError Reply where
  World := World
  Context := Connection
  Known := Known
  Choice := Answer
  Event := ProcessEvent
  start := handle m
  initial := {}
  permits := Permits m
  admits := fun _ => Admits
  learn := fun _ => Known.learn
  exec := fun i c w => exec m reentrant i c.runtime w
  environment := World.environment

end FreebsdLaboratory
