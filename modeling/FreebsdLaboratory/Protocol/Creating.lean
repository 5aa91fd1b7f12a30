import FreebsdLaboratory.Protocol.Obedience

/-!
# Create requests follow the protocol

The two create operations, from taking the runtime's lock to giving it back.  What such a request
knows passes through few states: `entered`, `ready` once nothing is registered under the name,
the address leased, and `recorded`, to which the `try` block adds an epair or a memory disk.
-/

namespace FreebsdLaboratory

open Library Program

variable {m : RuntimeManager} {c : Connection} {s : Known} {name : String} {owner : RuntimeOwner}
    {verdicts : List (ℤ × Option ProcessIdentity)}

/-- A create request that has just taken its lock. -/
def entered (name : String) (verdicts : List (ℤ × Option ProcessIdentity)) : Known :=
  { holds := [.runtime name], verdicts := verdicts }

/-- It has seen that nothing is registered. -/
def ready (name : String) (verdicts : List (ℤ × Option ProcessIdentity)) : Known :=
  { entered name verdicts with record := some (name, [none]) }

/-- It has written its record. -/
def recorded (name : String) (verdicts : List (ℤ × Option ProcessIdentity)) (r : RuntimeRecord) :
    Known :=
  { entered name verdicts with record := some (name, [some r]) }

/-- It is still inside its lock. -/
def Inside (name : String) (s : Known) : Prop := s.holds = [.runtime name] ∧ s.forgetting = false

/-- A step failed after the record was written. -/
structure Failed (c : Connection) (name : String) (s : Known) : Prop where
  inside : Inside name s
  calm : s.Calm
  record : ∃ xs, s.record = some (name, xs) ∧ ∀ x ∈ xs, c.MayDestroy name x

theorem pidExists_obeys (pid : ℤ) :
    (pidExists pid).Obeys (rules m c)
      (fun b s' => b = true ∧ s' = s ∨ b = false ∧ (s' = s ∧ pid ≤ 1
        ∨ s' = { s with verdicts := (pid, none) :: s.verdicts }))
      (fun _ s' => s' = s) s := by
  unfold pidExists
  split_ifs with hpid
  · exact .inr ⟨rfl, .inl ⟨rfl, hpid⟩⟩
  · rw [Prog.obeys_bind]
    refine obeys_op_iff.mpr ⟨trivial, fun r _ => ?_⟩
    rcases r with e | b
    · rfl
    · cases b
      · exact .inr ⟨rfl, .inr rfl⟩
      · exact .inl ⟨rfl, rfl⟩

/-- What a query of a process adds to the verdicts. -/
theorem queryProcessIdentity_obeys (pid : ℤ) :
    (queryProcessIdentity pid).Obeys (rules m c)
      (fun found s' => found = none ∧ s' = s ∧ pid ≤ 1
        ∨ s' = { s with verdicts := (pid, found) :: s.verdicts })
      (fun _ s' => s' = s) s := by
  rw [queryProcessIdentity, Prog.obeys_bind]
  refine (pidExists_obeys pid).mono ?_ fun _ _ h => h
  rintro b s' (⟨rfl, rfl⟩ | ⟨rfl, ⟨rfl, hpid⟩ | rfl⟩)
  · rw [if_pos rfl, Prog.obeys_bind]
    refine obeys_op_iff.mpr ⟨trivial, fun outcome _ => ?_⟩
    cases outcome with
    | completed code stdout =>
        cases code with
        | zero => exact .inr rfl
        | succ n => exact .inr rfl
    | timeoutExpired => exact .inr rfl
    | osError => exact .inr rfl
    | raises error => exact rfl
  · exact .inl ⟨rfl, rfl, hpid⟩
  · exact .inr rfl

/-- The owner of a create request: its peer, with the fingerprint found for it. -/
structure OwnerOf (c : Connection) (verdicts : List (ℤ × Option ProcessIdentity))
    (owner : RuntimeOwner) : Prop where
  pid : owner.pid = c.peer.pid
  uid : owner.uid = c.peer.uid
  gid : owner.gid = c.peer.gid
  one_lt_pid : 1 < c.peer.pid
  identified : ∃ identity, (c.peer.pid, some identity) ∈ verdicts
    ∧ identity.uid = c.peer.uid ∧ owner.processDigest = identity.digest

/-- **The owner of a create request is its peer.** -/
theorem ownerFromPeer_obeys (pid : ℤ) :
    (ownerFromPeer c.peer pid).Obeys (rules m c)
      (fun owner s' => ∃ verdicts, s' = { s with verdicts := verdicts } ∧ OwnerOf c verdicts owner)
      (fun _ s' => ∃ verdicts, s' = { s with verdicts := verdicts }) s := by
  rw [ownerFromPeer, Prog.obeys_bind]
  refine obeys_ofExcept.mpr ⟨fun ownerPid hpid => ?_, fun _ _ => ⟨s.verdicts, rfl⟩⟩
  have hpid : ownerPid = pid ∧ 1 < ownerPid := by
    unfold validateOwnerPid at hpid
    split_ifs at hpid with hle
    obtain rfl : pid = ownerPid := by simpa using hpid
    exact ⟨rfl, by omega⟩
  split_ifs with hpeer
  · exact ⟨s.verdicts, rfl⟩
  · have hpeer : ownerPid = c.peer.pid := by simpa using hpeer
    rw [Prog.obeys_bind]
    refine (queryProcessIdentity_obeys c.peer.pid).mono (fun found s' hs' => ?_) ?_
    · obtain rfl : s' = { s with verdicts := (c.peer.pid, found) :: s.verdicts } := by
        rcases hs' with ⟨-, -, hle⟩ | rfl
        · omega
        · rfl
      cases found with
      | none => exact ⟨_, rfl⟩
      | some identity =>
          show Prog.Obeys _ _ _ (if _ then _ else _) _
          split_ifs with huid
          · exact ⟨_, rfl⟩
          · exact ⟨_, rfl, rfl, rfl, rfl, by omega, identity, by simp, by simpa using huid, rfl⟩
    · rintro - s' rfl
      exact ⟨s'.verdicts, rfl⟩

/-! ## Reconciliation -/

theorem reconcileRegistered_obeys (hcreates : c.Creates name) (huid : owner.uid = c.peer.uid) :
    (reconcileRegisteredBeforeCreate m name owner).Obeys (rules m c)
      (fun _ s' => s' = ready name verdicts) (fun _ => Inside name) (entered name verdicts) := by
  rw [reconcileRegisteredBeforeCreate, Prog.obeys_bind]
  refine loadRegistry_obeys (by simp [entered]) (fun x _ => ?_) fun _ => ⟨rfl, rfl⟩
  cases x with
  | none => rfl
  | some r =>
      show Prog.Obeys _ _ _ (if _ then _ else _) _
      split_ifs
      · exact ⟨rfl, rfl⟩
      · rw [Prog.obeys_bind]
        refine Prog.Obeys.mono (destroy_obeys_nested hcreates rfl ⟨rfl, rfl, rfl⟩ (by simp)
          fun _ => by rw [huid]) ?_ ?_
        · rintro - _ rfl
          rw [Prog.obeys_bind]
          refine loadRegistry_obeys (by simp [Known.forgot, entered]) (fun y hy => ?_)
            fun _ => ⟨rfl, rfl⟩
          obtain rfl : y = none := by simpa using hy _ rfl
          rfl
        · rintro - _ ⟨record, rfl⟩
          exact ⟨rfl, rfl⟩

theorem reconcileOrphanedJail_obeys {dataset : String} (hcreates : c.Creates name) :
    (reconcileOrphanedJailBeforeCreate m name dataset).Obeys (rules m c)
      (fun _ s' => s' = ready name verdicts) (fun _ => Inside name) (ready name verdicts) := by
  rw [reconcileOrphanedJailBeforeCreate, Prog.obeys_bind]
  refine loadRegistry_obeys (by simp [ready, entered]) (fun x hx => ?_) fun _ => ⟨rfl, rfl⟩
  obtain rfl : x = none := by simpa using hx _ rfl
  show Prog.Obeys _ _ _ (if _ then _ else _) (ready name verdicts)
  rw [if_neg (by simp), Prog.obeys_bind]
  refine (keeps_jailExists name).obeys (fun jail => ?_) fun _ => ⟨rfl, rfl⟩
  rw [Prog.obeys_bind]
  refine Keeps.obeys (keeps_ite (fun _ => keeps_pure _) fun _ => keeps_datasetExists _)
    (fun present => ?_) fun _ => ⟨rfl, rfl⟩
  split_ifs
  · rw [Prog.obeys_bind]
    refine Prog.Obeys.mono (destroy_obeys_nested hcreates rfl ⟨rfl, rfl, rfl⟩ (fun _ y hy => ?_)
      (by simp)) ?_ ?_
    · obtain rfl : y = none := by simpa using hy _ rfl
      exact .inr hcreates
    · rintro - _ rfl
      refine Keeps.obeys (keeps_bind (keeps_jailExists name) fun _ =>
        keeps_bind (keeps_datasetExists dataset) fun _ =>
          keeps_ite (fun _ => keeps_raise _) fun _ => keeps_pure _) (fun _ => rfl)
            fun _ => ⟨rfl, rfl⟩
    · rintro - _ ⟨record, rfl⟩
      exact ⟨rfl, rfl⟩
  · rfl

/-! ## Bridge, switch and address -/

/-- A section that runs once: the flag is read, and read again under the shared lock. -/
theorem keeps_once {flag : Flag} {body : Program Unit} (hcreates : c.Creates name)
    (hbody : Keeps m c { ready name verdicts with holds := [.shared, .runtime name], slow := true }
      body) :
    Keeps m c (ready name verdicts)
      (do if ← op (.readFlag flag) then pure ()
          else withLock .shared (do if ← op (.readFlag flag) then pure () else body)) := by
  refine Prog.obeys_bind.mpr (obeys_op_iff.mpr ⟨List.cons_ne_nil _ _, fun set _ => ?_⟩)
  cases set with
  | true => rfl
  | false =>
      refine withLock_obeys (.inr ⟨name, ⟨hcreates, rfl, rfl⟩, rfl⟩) ?_
      have hinner : Keeps m c
          { ready name verdicts with holds := [.shared, .runtime name], slow := true }
          (do if ← op (.readFlag flag) then pure () else body) :=
        keeps_bind (keeps_op _ (List.cons_ne_nil _ _) fun _ => rfl) fun _ =>
          keeps_ite (fun _ => keeps_pure _) fun _ => hbody
      refine Prog.Obeys.mono hinner ?_ ?_
      all_goals
        rintro - _ rfl
        exact ⟨⟨rfl, rfl⟩, by simp [Known.releasing, Known.leaving, ready, entered]⟩

theorem keeps_ensureBridge (hcreates : c.Creates name) :
    Keeps m c (ready name verdicts) (ensureBridge m) := by
  refine keeps_once hcreates ?_
  refine keeps_bind (keeps_run _ _ trivial fun _ => rfl) fun shown => ?_
  refine keeps_bind (keeps_ite (fun _ => keeps_bind (keeps_run _ _ trivial fun _ => rfl)
    fun _ => keeps_run _ _ trivial fun _ => rfl) fun _ => keeps_pure _) fun result => ?_
  refine keeps_bind ?_ fun _ => keeps_op _ ⟨name, hcreates, rfl⟩ fun _ => rfl
  split_ifs
  · exact keeps_run _ _ trivial fun _ => rfl
  · exact keeps_run _ _ trivial fun _ => rfl

theorem keeps_ensureVmSwitch (hcreates : c.Creates name) :
    Keeps m c (ready name verdicts) (ensureVmSwitch m) := by
  refine keeps_once hcreates ?_
  refine keeps_bind keeps_requireVmBackend fun _ => ?_
  refine keeps_bind (keeps_run _ _ trivial fun _ => rfl) fun result => ?_
  refine keeps_bind (keeps_when fun _ => keeps_bind (keeps_run _ _ trivial fun _ => rfl)
    fun _ => keeps_pure _) fun _ => ?_
  exact keeps_bind (keeps_run _ _ trivial fun _ => rfl) fun _ =>
    keeps_op _ ⟨name, hcreates, rfl⟩ fun _ => rfl

theorem allocate_obeys (hcreates : c.Creates name) (hname : isRuntimeName name = true) :
    (allocate m name).Obeys (rules m c)
      (fun a s' => a ≠ m.hostAddress ∧ s' = { ready name verdicts with lease := some a })
      (fun _ => Inside name) (ready name verdicts) := by
  rw [allocate, Prog.obeys_bind]
  refine obeys_op_iff.mpr ⟨⟨⟨hcreates, rfl, rfl⟩, hname, rfl, rfl⟩, fun r _ => ?_⟩
  cases r with
  | error e => exact ⟨rfl, rfl⟩
  | ok a =>
      show Prog.Obeys _ _ _ (if _ then _ else _) _
      split_ifs with hhost
      · rw [Prog.obeys_bind]
        refine obeys_op_iff.mpr ⟨.inl ⟨⟨hcreates, rfl, rfl⟩, rfl, a, rfl, rfl⟩, fun r _ => ?_⟩
        cases r <;> exact ⟨rfl, rfl⟩
      · exact ⟨hhost, rfl⟩

/-! ## The try blocks -/

theorem keeps_installJailAuthorizedKey (jailRoot publicKey : String) :
    Keeps m c s (installJailAuthorizedKey m jailRoot publicKey) := by
  refine keeps_bind (keeps_run _ _ trivial fun _ => rfl) fun user => ?_
  dsimp only
  split
  · split
    · refine keeps_ite (fun _ => keeps_raise _) fun _ => ?_
      refine keeps_bind (keeps_resolve _) fun homePath => ?_
      refine keeps_bind (keeps_resolve _) fun jailRootPath => ?_
      refine keeps_bind (keeps_when fun _ => keeps_raise _) fun _ => ?_
      refine keeps_bind (keeps_ask _) fun _ => ?_
      refine keeps_bind (keeps_when fun _ => keeps_file _) fun _ => ?_
      refine keeps_bind (keeps_file _) fun _ => ?_
      refine keeps_bind (keeps_file _) fun _ => ?_
      refine keeps_bind (keeps_file _) fun _ => ?_
      refine keeps_bind (keeps_ask _) fun _ => ?_
      refine keeps_bind (keeps_when fun _ => keeps_file _) fun _ => ?_
      refine keeps_bind (keeps_file _) fun _ => ?_
      exact keeps_bind (keeps_file _) fun _ => keeps_file _
    · exact keeps_raise _
  · exact keeps_raise _

theorem mayDestroy_of_wrote {r : RuntimeRecord} (h : c.Wrote m name r) :
    c.MayDestroy name (some r) :=
  .inr h.ownerUid

variable (s) in
/-- Writing the record again, with the devices created since. -/
theorem rewrite_obeys {r₀ r : RuntimeRecord} (hcreating : s.Creating c name)
    (hname : isRuntimeName name = true) (hrecord : s.record = some (name, [some r₀]))
    (hcalm : s.Calm) (h₀ : c.Wrote m name r₀) (hr : c.Wrote m name r)
    (hid : c.Identified s.verdicts r) (hip : r.guestIp = r₀.guestIp)
    (hepair : r.epairHost = .null ∨ ∃ e, s.epair = some e ∧ r.epairHost = .str e)
    (hmd : r.mdUnit = .null ∨ ∃ u, s.md = some u ∧ r.mdUnit = .str u) :
    (writeRegistry r).Obeys (rules m c)
      (fun _ s' => s' = { s with record := some (name, [some r]), epair := none, md := none })
      (fun _ => Failed c name) s := by
  rw [writeRegistry, Prog.obeys_bind]
  refine obeys_op_iff.mpr ⟨⟨name, hcreating, hname, hr, hid,
    .inr ⟨r₀, hrecord, h₀, hip, hepair, hmd⟩⟩, fun resp _ => ?_⟩
  cases resp with
  | ok u =>
      show s.learn (.writeRegistry r) (.ok u) = _
      simp [Known.learn, hrecord, hcalm.lease]
  | error e =>
      refine ⟨⟨hcreating.holds, hcalm.forgetting⟩, ⟨hcalm.asked, hcalm.lease, hcalm.forgetting⟩,
        [some r, some r₀], by simp [Known.learn, hrecord], ?_⟩
      rintro x (_ | ⟨_, _ | ⟨_, ⟨⟩⟩⟩)
      · exact mayDestroy_of_wrote hr
      · exact mayDestroy_of_wrote h₀

/-- A command whose output names a new device, run for its status and its output. -/
theorem run_obeys_new {command : Command} (hp : PermitsRun m c s command)
    (hl : ∀ outcome, (∀ stdout, outcome ≠ .completed 0 stdout) →
      s.learn (.run command) outcome = s) :
    (run command).Obeys (rules m c)
      (fun result s' => s' = s.learn (.run command) (.completed 0 result.stdout))
      (fun _ s' => s' = s) s := by
  rw [run, Prog.obeys_bind]
  refine obeys_op_iff.mpr ⟨hp, fun outcome _ => ?_⟩
  cases outcome with
  | timeoutExpired => exact hl _ (by simp)
  | osError => exact hl _ (by simp)
  | raises error => exact hl _ (by simp)
  | completed returncode stdout =>
      show Prog.Obeys _ _ _ (if _ then _ else _) _
      by_cases h : returncode = 0
      · subst h
        exact rfl
      · rw [if_pos (by simpa using h)]
        exact hl _ (by simpa using h)

/-- A step of a block that teaches nothing; if it raises, the block does. -/
theorem obeys_keeps_bind {p : Program α} {f : α → Program β} {Q : β → Known → Prop}
    {R : PyError → Known → Prop} (hp : Keeps m c s p) (hR : ∀ e, R e s)
    (hf : ∀ a, (f a).Obeys (rules m c) Q R s) : (p >>= f).Obeys (rules m c) Q R s :=
  Prog.obeys_bind.mpr (hp.obeys hf hR)

theorem createJailTry_obeys {publicKey dataset jailRoot : String} {address : IPv4Address}
    {r : RuntimeRecord} (hcreates : c.Creates name) (hname : isRuntimeName name = true)
    (hr : c.Wrote m name r) (hid : c.Identified verdicts r) (hmd : r.mdUnit = .null) :
    (createJailTry m name publicKey address dataset jailRoot r).Obeys (rules m c)
      (fun _ => Inside name) (fun _ => Failed c name) (recorded name verdicts r) := by
  have hfailed : ∀ epair, Failed c name { recorded name verdicts r with epair := epair } :=
    fun _ => ⟨⟨rfl, rfl⟩, ⟨rfl, rfl, rfl⟩, [some r], rfl, by simpa using mayDestroy_of_wrote hr⟩
  unfold createJailTry
  refine obeys_keeps_bind (keeps_run (.zfsCloneTemplate jailRoot dataset) true trivial fun _ => rfl)
    (fun _ => hfailed none) fun _ => ?_
  refine obeys_keeps_bind (keeps_installJailAuthorizedKey jailRoot publicKey)
    (fun _ => hfailed none) fun _ => ?_
  have hnew : PermitsRun m c (recorded name verdicts r) .ifconfigEpairCreate :=
    ⟨name, r, ⟨hcreates, rfl, rfl⟩, rfl, rfl⟩
  refine Prog.obeys_bind.mpr ((run_obeys_new hnew fun outcome hne => ?_).mono ?_ ?_)
  · unfold Known.learn
    split <;> simp_all
  · intro result s' hs'
    have hs' : s'
      = { recorded name verdicts r with epair := (newEpairHost result.stdout).toOption } :=
      hs'
    rw [Prog.obeys_bind, obeys_ofExcept]
    refine ⟨fun epairHost hepair => ?_, fun _ _ => by rw [hs']; exact hfailed _⟩
    obtain rfl : s' = { recorded name verdicts r with epair := some epairHost } := by
      rw [hs', hepair]
      rfl
    refine obeys_keeps_bind (keeps_run (.ifconfigBridgeAddm epairHost) true trivial fun _ => rfl)
      (fun _ => hfailed _) fun _ => ?_
    refine obeys_keeps_bind (keeps_run (.ifconfigBridgePrivate epairHost) true trivial fun _ => rfl)
      (fun _ => hfailed _) fun _ => ?_
    refine obeys_keeps_bind (keeps_run (.ifconfigUp epairHost) true trivial fun _ => rfl)
      (fun _ => hfailed _) fun _ => ?_
    refine obeys_keeps_bind
      (keeps_run (.jailCreate name jailRoot (guestSide epairHost)) true trivial
      fun _ => rfl) (fun _ => hfailed _) fun _ => ?_
    refine obeys_keeps_bind (keeps_run (.jexecStart name (guestSide epairHost) address.text) true
      trivial fun _ => rfl) (fun _ => hfailed _) fun _ => ?_
    have hw : c.Wrote m name (r.withJail epairHost) :=
      ⟨hr.named, hr.ownerPid, hr.ownerUid, hr.ownerGid, hr.dataset⟩
    rw [Prog.obeys_bind]
    refine (rewrite_obeys { recorded name verdicts r with epair := some epairHost }
      ⟨hcreates, rfl, rfl⟩ hname rfl ⟨rfl, rfl, rfl⟩ hr hw hid rfl (.inr ⟨epairHost, rfl, rfl⟩)
      (.inl hmd)).mono ?_ fun _ _ h => h
    rintro - _ rfl
    exact ⟨rfl, rfl⟩
  · rintro - _ rfl
    exact hfailed none

/-- The handler around a `try` block destroys what its request has recorded. -/
theorem cleaningUp_obeys {attempt : Program α} {Q : α → Known → Prop} (hcreates : c.Creates name)
    (h : attempt.Obeys (rules m c) Q (fun _ => Failed c name) s) :
    (cleaningUp m name attempt).Obeys (rules m c) Q (fun _ => Inside name) s := by
  refine Prog.obeys_tryCatch.mpr (h.mono (fun _ _ hq => hq) fun e s' hs' => ?_)
  obtain ⟨hinside, hcalm, xs, hxs, hmay⟩ := hs'
  rw [Prog.obeys_bind]
  refine Prog.Obeys.mono (destroy_obeys_nested hcreates hinside.1 hcalm (fun _ x hx => ?_)
    (by simp))
    ?_ ?_
  · exact hmay x (hx xs hxs)
  · rintro - _ rfl
    exact hinside
  · rintro - _ ⟨record, rfl⟩
    exact hinside

/-! ## Disks -/

theorem keeps_copySnapshot {snapshot md : String} (hcreates : c.Creates name)
    (hname : isRuntimeName name = true) (hholds : s.holds = [.runtime name])
    (hasked : s.asked = none) :
    Keeps m c s (copySnapshot m name snapshot md) := by
  have hdestroy : PermitsRun m c s (.zfsDestroyRecursive (m.srcDataset name)) :=
    ⟨name, .inr ⟨⟨hcreates, hholds, hasked⟩, hname, rfl⟩⟩
  unfold copySnapshot
  refine keeps_bind (keeps_datasetExists _) fun _ => ?_
  refine keeps_bind (keeps_when fun _ => keeps_bind (keeps_run _ false hdestroy fun _ => rfl)
    fun _ => keeps_pure _) fun _ => ?_
  refine keeps_bind (keeps_run (.zfsClone _ _) true trivial fun _ => rfl) fun _ => ?_
  exact keeps_finallyDo
    (keeps_bind (keeps_run (.dd _ _) true trivial fun _ => rfl) fun _ => keeps_pure _)
    (keeps_bind (keeps_run _ false hdestroy fun _ => rfl) fun _ => keeps_pure _)

theorem keeps_copyImage (image md : String) : Keeps m c s (copyImage image md) :=
  keeps_bind (keeps_ask _) fun _ => keeps_when fun _ =>
    keeps_bind (keeps_run (.dd _ _) true trivial fun _ => rfl) fun _ => keeps_pure _

section

variable {r : RuntimeRecord}

theorem failed_md (hr : c.Wrote m name r) (md : Option String) :
    Failed c name { recorded name verdicts r with md := md } :=
  ⟨⟨rfl, rfl⟩, ⟨rfl, rfl, rfl⟩, [some r], rfl, by simpa using mayDestroy_of_wrote hr⟩

theorem createMemdisk_obeys {snapshot image : String} (hcreates : c.Creates name)
    (hname : isRuntimeName name = true) (hr : c.Wrote m name r) :
    (createMemdisk m name snapshot image).Obeys (rules m c)
      (fun md s' => s' = { recorded name verdicts r with md := some md }) (fun _ => Failed c name)
      (recorded name verdicts r) := by
  unfold createMemdisk
  dsimp only
  have hnew : PermitsRun m c (recorded name verdicts r) .mdconfigAttach :=
    ⟨name, r, ⟨hcreates, rfl, rfl⟩, rfl, rfl⟩
  refine Prog.obeys_bind.mpr ((run_obeys_new hnew fun outcome hne => ?_).mono ?_ ?_)
  · unfold Known.learn
    split <;> simp_all
  · intro result s' hs'
    have hs' : s' = { recorded name verdicts r with md := (newMdUnit result.stdout).toOption } :=
      hs'
    rw [Prog.obeys_bind, obeys_ofExcept]
    refine ⟨fun md hmd => ?_, fun _ _ => by rw [hs']; exact failed_md hr _⟩
    obtain rfl : s' = { recorded name verdicts r with md := some md } := by
      rw [hs', hmd]
      rfl
    refine obeys_keeps_bind (keeps_snapshotExists _) (fun _ => failed_md hr _) fun _ => ?_
    refine obeys_keeps_bind (keeps_ite (fun _ => keeps_copySnapshot hcreates hname rfl rfl)
      fun _ => keeps_copyImage _ _) (fun _ => failed_md hr _) fun _ => ?_
    exact rfl
  · rintro - _ rfl
    exact failed_md hr none

/-- The record of the request, with what a disk backend adds to it. -/
structure AddsDisk (m : RuntimeManager) (c : Connection) (name : String)
    (verdicts : List (ℤ × Option ProcessIdentity)) (r r' : RuntimeRecord) (s : Known) : Prop where
  wrote : c.Wrote m name r'
  digest : r'.ownerProcessDigest = r.ownerProcessDigest
  guestIp : r'.guestIp = r.guestIp
  epairHost : r'.epairHost = .null
  known : ∃ md, s = { recorded name verdicts r with md := md }
    ∧ (r'.mdUnit = .null ∨ ∃ u, md = some u ∧ r'.mdUnit = .str u)

theorem cloneVmDisk_obeys {key netconfig : String} {guestProfile : BhyveGuestProfile}
    (hcreates : c.Creates name) (hname : isRuntimeName name = true) (hr : c.Wrote m name r)
    (hepair : r.epairHost = .null) (hmd : r.mdUnit = .null) :
    (cloneVmDisk m name key netconfig guestProfile r).Obeys (rules m c)
      (fun r' => AddsDisk m c name verdicts r r') (fun _ => Failed c name)
      (recorded name verdicts r) := by
  have hdestroy : PermitsRun m c (recorded name verdicts r)
      (.zfsDestroy (m.vmDataset name ++ "/disk0")) :=
    ⟨name, r, ⟨hcreates, rfl, rfl⟩, hname, rfl, hr, rfl⟩
  unfold cloneVmDisk
  refine obeys_keeps_bind (keeps_run (.vmCreate _ _ _ _ _) true trivial fun _ => rfl)
    (fun _ => failed_md hr none) fun _ => ?_
  refine obeys_keeps_bind (keeps_datasetExists _) (fun _ => failed_md hr none) fun _ => ?_
  refine obeys_keeps_bind (keeps_when fun _ => keeps_bind
    (keeps_run _ true hdestroy fun _ => rfl) fun _ => keeps_pure _)
    (fun _ => failed_md hr none) fun _ => ?_
  refine obeys_keeps_bind (keeps_run (.zfsClone _ _) true trivial fun _ => rfl)
    (fun _ => failed_md hr none) fun _ => ?_
  exact ⟨⟨hr.named, hr.ownerPid, hr.ownerUid, hr.ownerGid, .inr (.inr rfl)⟩, rfl, rfl, hepair,
    none, rfl, .inl hmd⟩

theorem memdiskVmDisk_obeys {key netconfig : String} {guestProfile : BhyveGuestProfile}
    (hcreates : c.Creates name) (hname : isRuntimeName name = true) (hr : c.Wrote m name r)
    (hepair : r.epairHost = .null) :
    (memdiskVmDisk m name key netconfig guestProfile r).Obeys (rules m c)
      (fun r' => AddsDisk m c name verdicts r r') (fun _ => Failed c name)
      (recorded name verdicts r) := by
  unfold memdiskVmDisk
  refine Prog.obeys_bind.mpr ((createMemdisk_obeys hcreates hname hr).mono ?_ fun _ _ h => h)
  rintro md _ rfl
  refine obeys_keeps_bind (keeps_run (.vmCreate _ _ _ _ _) true trivial fun _ => rfl)
    (fun _ => failed_md hr _) fun _ => ?_
  refine obeys_keeps_bind (keeps_bind (keeps_run (.vmSet _ _) false trivial fun _ => rfl) fun _ =>
    keeps_bind (keeps_run (.vmSet _ _) false trivial fun _ => rfl) fun _ => keeps_pure _)
    (fun _ => failed_md hr _) fun _ => ?_
  exact ⟨⟨hr.named, hr.ownerPid, hr.ownerUid, hr.ownerGid, hr.dataset⟩, rfl, rfl, hepair, some md,
    rfl, .inr ⟨md, rfl, rfl⟩⟩

theorem createVmDisk_obeys {key netconfig : String} {guestProfile : BhyveGuestProfile}
    (hcreates : c.Creates name) (hname : isRuntimeName name = true) (hr : c.Wrote m name r)
    (hepair : r.epairHost = .null) (hmd : r.mdUnit = .null) :
    (createVmDisk m name key netconfig guestProfile r).Obeys (rules m c)
      (fun r' => AddsDisk m c name verdicts r r') (fun _ => Failed c name)
      (recorded name verdicts r) := by
  refine obeys_keeps_bind (keeps_ite (fun _ => keeps_snapshotExists _) fun _ => keeps_pure _)
    (fun _ => failed_md hr none) fun clone => ?_
  split_ifs
  · exact cloneVmDisk_obeys hcreates hname hr hepair hmd
  · exact memdiskVmDisk_obeys hcreates hname hr hepair
  · refine obeys_keeps_bind (keeps_run (.vmCreate _ _ _ _ _) true trivial fun _ => rfl)
      (fun _ => failed_md hr none) fun _ => ?_
    exact ⟨hr, rfl, rfl, hepair, none, rfl, .inl hmd⟩

theorem createBhyveTry_obeys {address : IPv4Address} {profile : String}
    {guestProfile : BhyveGuestProfile} (hcreates : c.Creates name)
    (hname : isRuntimeName name = true) (hr : c.Wrote m name r) (hid : c.Identified verdicts r)
    (hepair : r.epairHost = .null) (hmd : r.mdUnit = .null) :
    (createBhyveTry m name address profile guestProfile r).Obeys (rules m c)
      (fun _ => Inside name) (fun _ => Failed c name) (recorded name verdicts r) := by
  unfold createBhyveTry
  dsimp only
  refine Prog.obeys_bind.mpr
    ((createVmDisk_obeys hcreates hname hr hepair hmd).mono ?_ fun _ _ h => h)
  rintro r' _ ⟨hwrote, hdigest, hip, hepair', md, rfl, hmd'⟩
  have hw : c.Wrote m name { r' with vmCreated := .bool true } :=
    ⟨hwrote.named, hwrote.ownerPid, hwrote.ownerUid, hwrote.ownerGid, hwrote.dataset⟩
  have hid' : c.Identified verdicts { r' with vmCreated := .bool true } := by
    rw [Connection.Identified, hdigest]
    exact hid
  rw [Prog.obeys_bind]
  refine (rewrite_obeys { recorded name verdicts r with md := md } ⟨hcreates, rfl, rfl⟩ hname rfl
    ⟨rfl, rfl, rfl⟩ hr hw hid' hip (.inl hepair') hmd').mono ?_ fun _ _ h => h
  rintro - _ rfl
  refine obeys_keeps_bind (keeps_run (.vmStart name) true trivial fun _ => rfl) (fun _ => ?_)
    fun _ => ⟨rfl, rfl⟩
  exact failed_md hw none

end

/-! ## The create operations -/

theorem wrote_jailRecord {address : IPv4Address} {jailRoot : String}
    (h : OwnerOf c verdicts owner) :
    c.Wrote m name (jailRecord m name owner address (m.jailDataset name) jailRoot)
      ∧ c.Identified verdicts (jailRecord m name owner address (m.jailDataset name) jailRoot) := by
  obtain ⟨hpid, huid, hgid, hone, identity, hmem, hiuid, hdigest⟩ := h
  exact ⟨⟨rfl, congrArg RecordValue.int hpid, congrArg (fun n : ℕ => RecordValue.int n) huid,
    congrArg (fun n : ℕ => RecordValue.int n) hgid, .inr (.inl rfl)⟩,
    hone, identity, hmem, hiuid, congrArg RecordValue.str hdigest⟩

theorem wrote_bhyveRecord {address : IPv4Address} {profile : String}
    {guestProfile : BhyveGuestProfile} (h : OwnerOf c verdicts owner) :
    c.Wrote m name (bhyveRecord m name owner address profile guestProfile)
      ∧ c.Identified verdicts (bhyveRecord m name owner address profile guestProfile) := by
  obtain ⟨hpid, huid, hgid, hone, identity, hmem, hiuid, hdigest⟩ := h
  exact ⟨⟨rfl, congrArg RecordValue.int hpid, congrArg (fun n : ℕ => RecordValue.int n) huid,
    congrArg (fun n : ℕ => RecordValue.int n) hgid, .inl rfl⟩,
    hone, identity, hmem, hiuid, congrArg RecordValue.str hdigest⟩

/-- The first write of a record, with the address just leased. -/
theorem firstWrite_obeys {r : RuntimeRecord} {a : IPv4Address} (hcreates : c.Creates name)
    (hname : isRuntimeName name = true) (hr : c.Wrote m name r ∧ c.Identified verdicts r)
    (ha : a ≠ m.hostAddress) (hip : r.guestIp = .str a.text) (hepair : r.epairHost = .null)
    (hmd : r.mdUnit = .null) :
    (writeRegistry r).Obeys (rules m c) (fun _ s' => s' = recorded name verdicts r)
      (fun _ => Inside name) { ready name verdicts with lease := some a } := by
  rw [writeRegistry, Prog.obeys_bind]
  refine obeys_op_iff.mpr ⟨⟨name, ⟨hcreates, rfl, rfl⟩, hname, hr.1, hr.2,
    .inl ⟨rfl, hepair, hmd, a, rfl, ha, hip⟩⟩, fun resp _ => ?_⟩
  cases resp with
  | ok u => rfl
  | error e => exact ⟨rfl, rfl⟩

theorem createJailBody_obeys {pid : ℤ} {key : String} (hcreates : c.Creates name) :
    (createJailBody m name pid c.peer key).Obeys (rules m c) (fun _ => Inside name)
      (fun _ => Inside name) (entered name []) := by
  unfold createJailBody
  rw [Prog.obeys_bind, obeys_ofExcept]
  refine ⟨fun n hn => ?_, fun _ _ => ⟨rfl, rfl⟩⟩
  obtain ⟨rfl, hname⟩ := validateName_eq_ok.mp hn
  rw [Prog.obeys_bind, obeys_ofExcept]
  refine ⟨fun publicKey _ => ?_, fun _ _ => ⟨rfl, rfl⟩⟩
  rw [Prog.obeys_bind]
  refine (ownerFromPeer_obeys pid).mono ?_ (by rintro - _ ⟨verdicts, rfl⟩; exact ⟨rfl, rfl⟩)
  rintro owner _ ⟨verdicts, rfl, howner⟩
  change Prog.Obeys _ _ _ _ (entered n verdicts)
  rw [Prog.obeys_bind]
  refine (reconcileRegistered_obeys hcreates howner.uid).mono ?_ fun _ _ h => h
  rintro - _ rfl
  dsimp only
  rw [Prog.obeys_bind]
  refine (reconcileOrphanedJail_obeys hcreates).mono ?_ fun _ _ h => h
  rintro - _ rfl
  refine obeys_keeps_bind (keeps_ensureBridge hcreates) (fun _ => ⟨rfl, rfl⟩) fun _ => ?_
  refine obeys_keeps_bind (keeps_resolve _) (fun _ => ⟨rfl, rfl⟩) fun jailRoot => ?_
  rw [Prog.obeys_bind]
  refine (allocate_obeys hcreates hname).mono ?_ fun _ _ h => h
  rintro address _ ⟨hhost, rfl⟩
  refine obeys_keeps_bind (keeps_arpDelete address.text rfl) (fun _ => ⟨rfl, rfl⟩) fun _ => ?_
  have hr : c.Wrote m n (jailRecord m n owner address (m.jailDataset n) jailRoot) ∧ _ :=
    wrote_jailRecord howner
  rw [Prog.obeys_bind]
  refine (firstWrite_obeys hcreates hname hr hhost rfl rfl rfl).mono ?_ fun _ _ h => h
  rintro - _ rfl
  exact cleaningUp_obeys hcreates (createJailTry_obeys hcreates hname hr.1 hr.2 rfl)

theorem createBhyveBody_obeys {pid : ℤ} {key profile : String} (hcreates : c.Creates name) :
    (createBhyveBody m name pid c.peer key profile).Obeys (rules m c) (fun _ => Inside name)
      (fun _ => Inside name) (entered name []) := by
  unfold createBhyveBody
  rw [Prog.obeys_bind, obeys_ofExcept]
  refine ⟨fun n hn => ?_, fun _ _ => ⟨rfl, rfl⟩⟩
  obtain ⟨rfl, hname⟩ := validateName_eq_ok.mp hn
  rw [Prog.obeys_bind, obeys_ofExcept]
  refine ⟨fun publicKey _ => ?_, fun _ _ => ⟨rfl, rfl⟩⟩
  split
  · exact ⟨rfl, rfl⟩
  · rename_i guestProfile _
    rw [Prog.obeys_bind]
    refine (ownerFromPeer_obeys pid).mono ?_ (by rintro - _ ⟨verdicts, rfl⟩; exact ⟨rfl, rfl⟩)
    rintro owner _ ⟨verdicts, rfl, howner⟩
    change Prog.Obeys _ _ _ _ (entered n verdicts)
    refine obeys_keeps_bind keeps_requireVmBackend (fun _ => ⟨rfl, rfl⟩) fun _ => ?_
    rw [Prog.obeys_bind]
    refine (reconcileRegistered_obeys hcreates howner.uid).mono ?_ fun _ _ h => h
    rintro - _ rfl
    refine obeys_keeps_bind (keeps_ensureBridge hcreates) (fun _ => ⟨rfl, rfl⟩) fun _ => ?_
    refine obeys_keeps_bind (keeps_ensureVmSwitch hcreates) (fun _ => ⟨rfl, rfl⟩) fun _ => ?_
    refine obeys_keeps_bind (keeps_succeeds (.vmInfo n) trivial fun _ => rfl)
      (fun _ => ⟨rfl, rfl⟩) fun _ => ?_
    refine obeys_keeps_bind (keeps_when fun _ => keeps_raise _) (fun _ => ⟨rfl, rfl⟩) fun _ => ?_
    rw [Prog.obeys_bind]
    refine (allocate_obeys hcreates hname).mono ?_ fun _ _ h => h
    rintro address _ ⟨hhost, rfl⟩
    refine obeys_keeps_bind (keeps_arpDelete address.text rfl) (fun _ => ⟨rfl, rfl⟩) fun _ => ?_
    have hr : c.Wrote m n (bhyveRecord m n owner address profile guestProfile) ∧ _ :=
      wrote_bhyveRecord howner
    rw [Prog.obeys_bind]
    refine (firstWrite_obeys hcreates hname hr hhost rfl rfl rfl).mono ?_ fun _ _ h => h
    rintro - _ rfl
    have hkey : (file (.writeRuntimePublicKey n)).Obeys (rules m c)
        (fun _ s' => s' = recorded n verdicts _) (fun _ => Failed c n) (recorded n verdicts _) :=
      (keeps_file _).obeys (fun _ => rfl) fun _ => failed_md hr.1 none
    rw [Prog.obeys_bind]
    refine (cleaningUp_obeys hcreates hkey).mono ?_ fun _ _ h => h
    rintro - _ rfl
    have hremove : ∀ s', Inside n s' →
        (removePublicKey n).Obeys (rules m c) (fun _ => Inside n) (fun _ => Inside n) s' :=
      fun s' hs' => Keeps.obeys (keeps_bind (keeps_ask _) fun _ =>
        keeps_ite (fun _ => keeps_file _) fun _ => keeps_pure _) (fun _ => hs') fun _ => hs'
    rw [Prog.obeys_finallyDo]
    exact (cleaningUp_obeys hcreates (createBhyveTry_obeys hcreates hname hr.1 hr.2 rfl rfl)).mono
      (fun _ => hremove) fun _ => hremove

/-- A create request takes its lock, works inside it, and ends knowing nothing. -/
theorem keeps_serialized_create {body : Program α} (hcreates : c.Creates name)
    (h : body.Obeys (rules m c) (fun _ => Inside name) (fun _ => Inside name) (entered name [])) :
    Keeps m c {} (serializedByName name body) := by
  have hback : ∀ s', Inside name s' →
      (s'.holds.head? = some (.runtime name) ∧ s'.forgetting = false)
        ∧ s'.releasing (.runtime name) = {} := by
    rintro s' ⟨hholds, hforgetting⟩
    simp [Known.releasing, hholds, hforgetting]
  refine serializedByName_obeys (withLock_obeys ⟨rfl, .inr (.inl ⟨hcreates, .inl rfl⟩)⟩ ?_)
  exact Prog.Obeys.mono h (fun _ => hback) fun _ => hback

theorem keeps_createJail {pid : ℤ} {key : String}
    (h : c.action = .ok (.createJail name pid key)) :
    Keeps m c {} (createJail m name pid c.peer key) :=
  have hcreates : c.Creates name := .inl ⟨pid, key, h⟩
  keeps_serialized_create hcreates (createJailBody_obeys hcreates)

theorem keeps_createBhyve {pid : ℤ} {key profile : String}
    (h : c.action = .ok (.createBhyve name pid key profile)) :
    Keeps m c {} (createBhyve m name pid c.peer key profile) :=
  have hcreates : c.Creates name := .inr ⟨pid, key, profile, h⟩
  keeps_serialized_create hcreates (createBhyveBody_obeys hcreates)

end FreebsdLaboratory
