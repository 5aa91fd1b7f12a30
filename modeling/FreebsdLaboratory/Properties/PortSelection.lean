import FreebsdLaboratory.Tunnels.Vacancy

/-!
# Which ports a call gets

`allocate` in a directory that it has to itself: it succeeds exactly if enough ports of the range
are free, and then returns the first of them in the cycle that starts where the first eight bytes of
the owner's SHA-256 say.  Names that no process has written do not matter, unless they give a
process id beyond what `os.kill` takes: those make every call raise that meets them.
-/

namespace FreebsdLaboratory

open Library Library.Unicode

variable {w : LeaseWorld} {i : ℕ} {c : LeaseCaller} {pool : LocalPortLeasePool} {owner : Str}
variable {bytes : Bytes} {bindable : ℕ → Bool} {n : ℕ}

/-! ## The order -/

/-- The value of bytes, the most significant first. -/
def bigEndian (bytes : Bytes) : ℕ := bytes.foldl (fun n b => 256 * n + b) 0

/-- The ports of the range. -/
def LocalPortLeasePool.range (pool : LocalPortLeasePool) : List ℕ :=
  List.range' pool.start pool.capacity

/-- The ports of the range in cyclic order, from an offset. -/
def LocalPortLeasePool.cycle (pool : LocalPortLeasePool) (offset : ℕ) : List ℕ :=
  (List.range pool.capacity).map fun index => pool.start + (offset + index) % pool.capacity

/-- `allocate` succeeds exactly if there are `n` free ports in the range, and returns the first `n`
of the cycle that starts at the offset. -/
def LocalPortLeasePool.Selects (pool : LocalPortLeasePool) (offset : ℕ) (bindable : ℕ → Bool)
    (i : ℕ)
    (c : LeaseCaller) (owner : Str) (n : ℕ) (w : LeaseWorld) : Prop :=
  (pool.allocate c.process.pid c.process.uid owner c.process.pid n).Obeys (serving bindable i c)
    (fun r _ => n ≤ (pool.range.filter (w.free bindable)).length ∧
      r.ports = ((pool.cycle offset).filter (w.free bindable)).take n ∧ r.ports.length = n ∧
      r.ports.Nodup ∧ ∀ port ∈ r.ports, pool.start ≤ port ∧ port ≤ pool.stop)
    (fun _ _ => (pool.range.filter (w.free bindable)).length < n) w

lemma candidatePorts_eq_cycle : pool.candidatePorts bytes
    = pool.cycle (bigEndian ((Sha256.digest bytes).take 8)) := by
  refine List.map_congr_left fun index _ => ?_
  rw [Nat.mod_add_mod]
  rfl

lemma range_perm_candidatePorts : pool.range.Perm (pool.candidatePorts bytes) := by
  refine (List.perm_ext_iff_of_nodup List.nodup_range' (nodup_candidatePorts pool bytes)).mpr
    fun port => ?_
  have hstart := pool.start_le_stop
  have hcapacity : pool.capacity = pool.stop - pool.start + 1 := rfl
  rw [mem_candidatePorts, List.mem_range'_1]
  omega

lemma free_range (w : LeaseWorld) : (pool.range.filter (w.free bindable)).length
    = ((pool.candidatePorts bytes).filter (w.free bindable)).length :=
  (range_perm_candidatePorts.filter _).length_eq

/-- The directory holds leases of processes only. -/
def LeaseWorld.OnlyLeases (w : LeaseWorld) : Prop :=
  ∀ name ∈ w.files, ∃ (port : ℕ) (q : Process) (owner digest : Str), 1 < q.pid ∧ q.Plausible ∧
    ownerDigest owner = some digest ∧ name = q.leaseName port digest

lemma LeaseWorld.OnlyLeases.sensible (h : w.OnlyLeases) : w.Sensible := by
  intro name hname _ port hport
  obtain ⟨port', q, owner, digest, hpid, hcredible, hdigest, rfl⟩ := h name hname
  obtain rfl : port = port' :=
    decimal_injective ((portOf_of_isLeaseOf hport).symm.trans portOf_portLeaseName)
  exact sensible_leaseName ⟨hpid, hcredible⟩ hdigest

lemma selects_of_sensible (hdistinct : ∀ p ∈ w.processes, ∀ q ∈ w.processes, p.pid = q.pid → p = q)
    (hlive : c.process ∈ w.processes) (hown : 1 < c.process.pid ∧ c.process.Plausible)
    (hsensible : w.Sensible) (hfree : w.locked = none) (howner : owner ≠ [])
    (hencode : encode owner = some bytes) (hpositive : 0 < n) (hcapacity : n ≤ pool.capacity) :
    pool.Selects (bigEndian ((Sha256.digest bytes).take 8)) bindable i c owner n w := by
  refine (allocatePool_serves hdistinct hlive hown hsensible hfree howner hencode hpositive
    hcapacity).mono ?_ ?_
  · rintro r w' ⟨hle, hports⟩
    refine ⟨(free_range w).symm ▸ hle, candidatePorts_eq_cycle ▸ hports, ?_, ?_, ?_⟩
    · rw [hports, List.length_take, Nat.min_eq_left hle]
    · rw [hports]
      exact ((nodup_candidatePorts pool bytes).filter _).sublist (List.take_sublist _ _)
    · intro port hport
      rw [hports] at hport
      exact mem_candidatePorts.mp (List.mem_filter.mp (List.mem_of_mem_take hport)).1
  · rintro e w' ⟨hlt, -⟩
    exact (free_range w).symm ▸ hlt

/-- **The first free ports of the cycle**, which starts at the first eight bytes of the owner's
digest. -/
theorem allocate_selects (hdistinct : ∀ p ∈ w.processes, ∀ q ∈ w.processes, p.pid = q.pid → p = q)
    (hlive : c.process ∈ w.processes) (hown : 1 < c.process.pid ∧ c.process.Plausible)
    (honly : w.OnlyLeases) (hfree : w.locked = none) (howner : owner ≠ [])
    (hencode : encode owner = some bytes) (hpositive : 0 < n) (hcapacity : n ≤ pool.capacity) :
    pool.Selects (bigEndian ((Sha256.digest bytes).take 8)) bindable i c owner n w :=
  selects_of_sensible hdistinct hlive hown honly.sensible hfree howner hencode hpositive hcapacity

/-! ## Four ports -/

def fourPorts : LocalPortLeasePool := ⟨30000, 30003, by decide, by decide, by decide⟩

def notebookServer : Process := ⟨200, 1001, "Mon Nov 17 11:00:00 2026"⟩

/-- One process and an empty directory. -/
def oneProcess : LeaseWorld := ⟨[notebookServer], [], [], [], none, []⟩

/-- A call for one of the four ports. -/
def callForOne : LeaseCaller := ⟨notebookServer, .allocate fourPorts (str "a") 200 1⟩

def otherServer : Process := ⟨201, 1002, "Mon Nov 17 12:00:00 2026"⟩

def formerServer : Process := ⟨300, 1003, "Mon Nov 17 10:00:00 2026"⟩

/-- One of the ports is leased by a live process, and one by a process that has ended. -/
def busyDirectory : LeaseWorld where
  processes := [notebookServer, otherServer]
  departed := [formerServer]
  files := [otherServer.leaseName 30002 (sha256Bytes (str "b")),
    formerServer.leaseName 30003 (sha256Bytes (str "c"))]
  links := []
  locked := none
  held := []

lemma busyDirectory_onlyLeases : busyDirectory.OnlyLeases := by
  intro name hname
  rcases List.mem_pair.mp hname with rfl | rfl
  · exact ⟨30002, otherServer, str "b", _, by decide, by decide, rfl, rfl⟩
  · exact ⟨30003, formerServer, str "c", _, by decide, by decide, rfl, rfl⟩

/-- A call for two of the four ports. -/
def callForTwo : LeaseCaller := ⟨notebookServer, .allocate fourPorts (str "a") 200 2⟩

/-- The first port of the cycle is leased, the second one is free again, and the third one is in
use. -/
theorem allocate_selects_two :
    fourPorts.Selects (bigEndian ((Sha256.digest (str "a")).take 8)) (fun port => port ≠ 30000) 0
        callForTwo (str "a") 2 busyDirectory
      ∧ ((fourPorts.cycle (bigEndian ((Sha256.digest (str "a")).take 8))).filter
          (busyDirectory.free fun port => port ≠ 30000)).take 2 = [30003, 30001] := by
  refine ⟨?_, by decide +kernel⟩
  exact allocate_selects (by decide) (by decide) (by decide) busyDirectory_onlyLeases rfl
    (by decide) rfl
    (by decide) (by decide)

/-- The cycle does not start at the whole digest. -/
theorem whole_digest_not_selected : ¬ fourPorts.Selects (bigEndian (Sha256.digest (str "a")))
    (fun _ => true) 0 callForOne (str "a") 1 oneProcess := by
  intro h
  have hactual : fourPorts.Selects (bigEndian ((Sha256.digest (str "a")).take 8)) (fun _ => true) 0
      callForOne (str "a") 1 oneProcess := by
    refine selects_of_sensible ?_ (by decide) (by decide) ?_ rfl (by decide) rfl (by decide)
      (by decide)
    · decide
    · intro name hname
      cases hname
  have hfirst : ((fourPorts.cycle (bigEndian ((Sha256.digest (str "a")).take 8))).filter
      (oneProcess.free fun _ => true)).take 1 = [30002] := by decide +kernel
  have hother : ((fourPorts.cycle (bigEndian (Sha256.digest (str "a")))).filter
      (oneProcess.free fun _ => true)).take 1 = [30003] := by decide +kernel
  have hmany : 1 ≤ (fourPorts.range.filter (oneProcess.free fun _ => true)).length := by decide
  rcases Machine.alone_ends (M := leases) (h.and hactual) with ⟨r, w', hr, hr'⟩ | ⟨e, w', he, -⟩
  · have hsame := hr.2.1.symm.trans hr'.2.1
    rw [hfirst, hother] at hsame
    exact absurd hsame (by decide)
  · omega

/-! ## Foreign files -/

/-- `_lease_identity` followed by `process_matches`: whether a live process has the lease. -/
def leaseVerdict (port : ℕ) (name : Str) : LeaseProgram Bool := do
  match ← leaseIdentity name port with
  | some (pid, uid, digest) => leaseMatches pid uid digest
  | none => return false

/-- The system tells whether a file is a link, and `ps` prints text if it prints anything.  Where
that fails the call raises whatever the name is. -/
def Tells (_ : LeaseWorld) : LeaseOp → LeaseChoice → Prop
  | .isSymlink _, choice => choice = .succeeds
  | .identify _, choice => choice ≠ .fails
  | _, _ => True

/-- A call whose operations end in any way, where the system tells what it is asked. -/
abbrev anyhow (i : ℕ) (c : LeaseCaller) : Protocol LeaseOp.Resp LeaseWorld :=
  leases.alone Tells i c

/-- Each file that could be a lease gets a verdict, and calls that find enough free ports
succeed. -/
structure LeaseWorld.Copes (w : LeaseWorld) (i : ℕ) (c : LeaseCaller) : Prop where
  verdict : ∀ port name, name ∈ w.files ++ w.links → isLeaseOf port name = true →
    (leaseVerdict port name).Obeys (anyhow i c) (fun _ w' => w' = w) (fun _ _ => False) w
  allocates : ∀ (pool : LocalPortLeasePool) (owner : Str) (bindable : ℕ → Bool) (n : ℕ),
    owner ≠ [] → (encode owner).isSome → 0 < n → n ≤ (pool.range.filter (w.free bindable)).length →
    (pool.allocate c.process.pid c.process.uid owner c.process.pid n).Obeys (serving bindable i c)
      (fun r _ => r.ports.length = n ∧ ∀ port ∈ r.ports, w.free bindable port = true)
      (fun _ _ => False) w

section Verdicts

variable (hlive : c.process ∈ w.processes)
include hlive

lemma anyhow_op {o : LeaseOp} {Q : o.Resp → LeaseWorld → Prop} {R : PyError → LeaseWorld → Prop}
    (hsome : ∃ choice r w', Tells w o choice ∧ w.perform i c.process o choice = some (r, w'))
    (hq : ∀ choice r w', Tells w o choice → w.perform i c.process o choice = some (r, w') →
      Q r w') :
    (Prog.op LeaseOp.Resp PyError o).Obeys (anyhow i c) Q R w := by
  have hexec : ∀ choice, w.exec i c o choice = w.perform i c.process o choice := by
    intro choice
    rw [LeaseWorld.exec, if_pos hlive]
  obtain ⟨choice, r, w', htells, h⟩ := hsome
  refine ⟨⟨choice, r, w', htells, (hexec choice).trans h⟩, ?_⟩
  rintro r₁ w₁ ⟨choice₁, htells₁, h₁⟩
  exact hq choice₁ r₁ w₁ htells₁ ((hexec choice₁).symm.trans h₁)

/-- The process table answers or `ps` fails, but nothing raises below the largest id. -/
lemma identify_anyhow {pid : ℤ} (hmax : pid ≤ maxPid) {R : PyError → LeaseWorld → Prop} :
    (identify pid).Obeys (anyhow i c) (fun _ w' => w' = w) R w := by
  have hfound : ∃ found, w.identify pid = .ok found := by
    unfold LeaseWorld.identify
    split_ifs with hsmall hlarge
    · exact ⟨_, rfl⟩
    · omega
    · exact ⟨_, rfl⟩
  obtain ⟨found, hfound⟩ := hfound
  refine attempt_obeys.mpr (anyhow_op hlive ⟨.succeeds, _, _, by simp [Tells], rfl⟩ ?_)
  intro choice r w' htells h
  have hends : (∃ found', r = .ok found') ∧ w' = w := by
    cases choice with
    | fails => exact absurd rfl htells
    | _ =>
        simp only [LeaseWorld.perform, Option.some.injEq, Prod.mk.injEq] at h
        obtain ⟨rfl, rfl⟩ := h
        rw [hfound]
        exact ⟨⟨_, rfl⟩, rfl⟩
  obtain ⟨⟨found', rfl⟩, rfl⟩ := hends
  exact ⟨fun _ _ => rfl, fun e h => by cases h⟩

/-- **A sensible name gets a verdict.** -/
lemma leaseVerdict_anyhow {port : ℕ} {name : Str} (hname : name ∉ w.links → Sensible port name) :
    (leaseVerdict port name).Obeys (anyhow i c) (fun _ w' => w' = w) (fun _ _ => False) w := by
  refine Prog.obeys_bind.mpr (Prog.obeys_bind.mpr (attempt_obeys.mpr
    (anyhow_op hlive ⟨.succeeds, _, _, rfl, rfl⟩ ?_)))
  rintro choice r w' rfl h
  obtain ⟨rfl, rfl⟩ := Prod.mk.inj (Option.some.inj h)
  refine ⟨?_, fun e h => by cases h⟩
  rintro _ ⟨⟩
  by_cases hlink : name ∈ w.links
  · rw [decide_eq_true hlink]
    rfl
  · rw [decide_eq_false hlink, if_neg Bool.false_ne_true]
    cases hparse : parseLeaseName name port with
    | none => rfl
    | some t =>
        obtain ⟨pid, uid, fingerprint⟩ := t
        change (leaseMatches pid uid fingerprint).Obeys _ _ _ _
        unfold leaseMatches
        split_ifs
        · rfl
        · refine Prog.obeys_bind.mpr ((identify_anyhow hlive
            (hname hlink pid uid fingerprint hparse)).mono ?_ fun _ _ h => h)
          exact fun _ _ h => h

/-- **A name with an id beyond the largest raises.** -/
lemma leaseVerdict_raises {port : ℕ} {name : Str} (hlink : name ∉ w.links) {pid uid : ℤ}
    {fingerprint : Str} (hparse : parseLeaseName name port = some (pid, uid, fingerprint))
    (hlarge : maxPid < pid) :
    ¬ (leaseVerdict port name).Obeys (anyhow i c) (fun _ w' => w' = w) (fun _ _ => False) w := by
  intro h
  have hlooks := attempt_obeys.mp (Prog.obeys_bind.mp (Prog.obeys_bind.mp h))
  have hexec : w.exec i c (.isSymlink name) .succeeds = some (.ok false, w) := by
    rw [LeaseWorld.exec, if_pos hlive, LeaseWorld.perform, decide_eq_false hlink]
  have hmatches := (hlooks.2 (.ok false) w ⟨.succeeds, rfl, hexec⟩).1 false rfl
  simp only [Prog.obeys_pure, Bool.false_eq_true, if_false, hparse] at hmatches
  obtain ⟨hpid, huid, hdigest⟩ := of_parseLeaseName hparse
  rw [leaseMatches, if_neg (not_unmatchable hpid huid hdigest)] at hmatches
  have hasked := attempt_obeys.mp (Prog.obeys_bind.mp hmatches)
  have hraises : w.exec i c (.identify pid) .succeeds = some (.error .overflowError, w) := by
    rw [LeaseWorld.exec, if_pos hlive, LeaseWorld.perform, LeaseWorld.identify, if_neg (by omega),
      if_pos hlarge]
  exact (hasked.2 _ w ⟨.succeeds, by simp [Tells], hraises⟩).2 _ rfl

end Verdicts

/-- **Foreign files do no harm exactly if their names are sensible**: none gives a process id beyond
the largest. -/
theorem copes_iff_sensible (hdistinct : ∀ p ∈ w.processes, ∀ q ∈ w.processes, p.pid = q.pid → p = q)
    (hlive : c.process ∈ w.processes) (hown : 1 < c.process.pid ∧ c.process.Plausible)
    (hfree : w.locked = none) : w.Copes i c ↔ w.Sensible := by
  constructor
  · intro h name hname hlink port hport pid uid fingerprint hparse
    by_contra hlarge
    exact leaseVerdict_raises hlive hlink hparse (not_le.mp hlarge)
      (h.verdict port name (List.mem_append_left _ hname) hport)
  · intro h
    refine ⟨fun port name hmem hport => ?_, ?_⟩
    · refine leaseVerdict_anyhow hlive fun hlink => ?_
      exact h name ((List.mem_append.mp hmem).resolve_right hlink) hlink port hport
    · intro pool owner bindable n howner hencode hpositive henough
      obtain ⟨bytes, hbytes⟩ := Option.isSome_iff_exists.mp hencode
      have hcapacity : n ≤ pool.capacity := by
        refine henough.trans ((List.length_filter_le _ _).trans ?_)
        simp [LocalPortLeasePool.range]
      refine (selects_of_sensible hdistinct hlive hown h hfree howner hbytes
        hpositive hcapacity).mono
        ?_ ?_
      · rintro r w' ⟨-, hports, hlength, -, -⟩
        refine ⟨hlength, fun port hport => ?_⟩
        rw [hports] at hport
        exact (List.mem_filter.mp (List.mem_of_mem_take hport)).2
      · rintro e w' hlt
        omega

/-- The name of a file with an id that no process has. -/
def hugePid : Str :=
  str "30000.2147483648.0." ++ sha256Bytes [] ++ str "." ++ sha256Bytes [] ++ str ".lease"

/-- A foreign file with such a name. -/
def oneForeignFile : LeaseWorld := { oneProcess with files := [hugePid] }

/-- A foreign file without sense, which is no lease. -/
def oneMalformedFile : LeaseWorld := { oneProcess with files := [str "30000.x.y.lease"] }

lemma parse_hugePid : parseLeaseName hugePid 30000 = some (2147483648, 0, sha256Bytes []) := by
  decide +kernel

theorem copes_iff_sensible_malformed : oneMalformedFile.Copes 0 callForOne := by
  refine (copes_iff_sensible (by decide) (by decide) (by decide) rfl).mpr ?_
  intro name hname _ port _ pid uid digest hparse
  rw [List.mem_singleton.mp hname] at hparse
  have hsplit : (str "30000.x.y.lease").splitOn 46
    = [str "30000", str "x", str "y", str "lease"] := by
    decide
  rw [parseLeaseName, hsplit] at hparse
  cases hparse

theorem huge_pid_raises : ¬ oneForeignFile.Copes 0 callForOne := by
  intro h
  refine leaseVerdict_raises ?_ (by simp [oneForeignFile, oneProcess]) parse_hugePid (by decide)
    (h.verdict 30000 hugePid (by simp [oneForeignFile]) (by decide +kernel))
  decide

end FreebsdLaboratory
