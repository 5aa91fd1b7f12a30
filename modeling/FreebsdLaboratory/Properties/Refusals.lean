import FreebsdLaboratory.Lifecycle.Alone
import FreebsdLaboratory.Model.RuntimeClient

/-!
# Refused requests

What a refused request leaves behind.  A request that is refused before any command has run has
changed nothing but `_runtime_locks`: the lock of a runtime is looked up, and made where it is
missing, before the method looks at the name.  `refused_unchanged_iff` says exactly when a refusal
leaves no trace.
-/

namespace FreebsdLaboratory

open Library Program

variable {m : RuntimeManager} {reentrant : Bool} {runtime name : String} {w w' : World} {s : Alone}
variable {o : Op} {a : Answer} {r : o.Resp} {α β : Type} {peer : PeerCredentials}

/-- No external command has been run; `ps` is not one. -/
def NoCommand (past : List Taken) : Prop := ∀ st ∈ past, ∀ command, st.op ≠ .run command

/-- The daemon's state, on disk and in memory, is as before. -/
structure SameState (w w' : World) : Prop where
  registry : w'.registry = w.registry
  leases : w'.leases = w.leases
  runtimeLocks : w'.runtimeLocks = w.runtimeLocks
  bridgeConfigured : w'.bridgeConfigured = w.bridgeConfigured
  vmSwitchConfigured : w'.vmSwitchConfigured = w.vmSwitchConfigured

/-! ## Refusals -/

/-- The owner that a peer is registered as. -/
def PeerCredentials.owner (peer : PeerCredentials) (identity : ProcessIdentity) : RuntimeOwner where
  pid := peer.pid
  uid := peer.uid
  gid := peer.gid
  startedAt := identity.startedAt
  processDigest := identity.digest

/-- The name is registered, and not for the peer's process. -/
def RegisteredByOther (w : World) (peer : PeerCredentials) (name : String) : Prop :=
  ∃ record, w.load name = .ok (some record) ∧ ∀ identity, w.identityOf peer.pid = some identity →
    recordOwnedBy record (peer.owner identity) = false

/-- The reasons to refuse a create request. -/
def RefusedCreate (w : World) (peer : PeerCredentials) (name : String) (ownerPid : ℤ)
    (sshPublicKey : String) : Prop :=
  isRuntimeName name = false ∨ (∃ e, validateSshPublicKey sshPublicKey = .error e)
    ∨ ownerPid ≠ peer.pid ∨ RegisteredByOther w peer name

/-- The request has to be refused.  A well-typed `gc` passes. -/
def Refused (w : World) (c : Connection) : Prop :=
  match c.action with
  | .error _ => c.request ≠ .nothing
  | .ok (.createJail name ownerPid key) => RefusedCreate w c.peer name ownerPid key
  | .ok (.createBhyve name ownerPid key profile) =>
      RefusedCreate w c.peer name ownerPid key ∨ BHYVE_PROFILES.lookup profile = none
  | .ok (.destroy name) =>
      isRuntimeName name = false ∨ ∃ e, authorizeRecord (w.recordOf name) (some c.peer.uid)
        = .error e
  | .ok .ping | .ok (.gc _) => False

/-! ## Looking -/

/-- The operation changes nothing but locks, and makes no other entry in their table. -/
def Op.onlyLooks (name : String) : Op → Bool
  | .runtimeLock name' => name' = name
  | .acquire _ | .release _ | .readFlag _ | .loadRegistry _ | .vmAvailable | .kill _ | .ps _
  | .resolve _ => true
  | _ => false

/-- The request has entered the table of locks, and looked around. -/
structure Entered (name : String) (w : World) (s : Alone) : Prop where
  registry : s.world.registry = w.registry
  leases : s.world.leases = w.leases
  runtimeLocks : s.world.runtimeLocks = w.runtimeLocks.insert name
  bridgeConfigured : s.world.bridgeConfigured = w.bridgeConfigured
  vmSwitchConfigured : s.world.vmSwitchConfigured = w.vmSwitchConfigured
  processes : s.world.processes = w.processes
  noCommand : NoCommand s.past

lemma NoCommand.cons {st : Taken} {past : List Taken} (h : NoCommand past)
    (hst : ∀ command, st.op ≠ .run command) : NoCommand (st :: past) :=
  List.forall_mem_cons.mpr ⟨hst, h⟩

lemma not_noCommand_cons {st : Taken} {past : List Taken} (h : ¬ NoCommand past) :
    ¬ NoCommand (st :: past) :=
  fun hst => h (List.forall_mem_cons.mp hst).2

/-- Once the table has the entry, whoever only looks changes nothing but who holds which lock. -/
lemma exec_looks (ho : o.onlyLooks name = true) (hname : name ∈ w.runtimeLocks)
    (hexec : exec m reentrant 0 runtime w o a = some (r, w')) :
    ∃ held, w' = { w with held := held } := by
  cases o with
  | acquire lock =>
      obtain ⟨w'', hw, hr⟩ := Option.map_eq_some_iff.mp hexec
      obtain ⟨-, rfl⟩ := Prod.mk.inj hr
      unfold World.acquire at hw
      split at hw
      · exact ⟨_, (Option.some.inj hw).symm⟩
      · split_ifs at hw
        exact ⟨_, (Option.some.inj hw).symm⟩
  | release lock =>
      obtain ⟨-, rfl⟩ := Prod.mk.inj (Option.some.inj hexec)
      unfold World.release
      split <;> exact ⟨_, rfl⟩
  | runtimeLock name' =>
      obtain ⟨-, rfl⟩ := Prod.mk.inj (Option.some.inj hexec)
      obtain rfl : name' = name := by simpa [Op.onlyLooks] using ho
      rw [List.insert_of_mem hname]
      exact ⟨_, rfl⟩
  | readFlag _ | loadRegistry _ | vmAvailable | kill _ | ps _ | resolve _ =>
      obtain ⟨-, rfl⟩ := Prod.mk.inj (Option.some.inj hexec)
      exact ⟨_, rfl⟩
  | _ => cases ho

lemma Entered.step (h : Entered name w s) (ho : o.onlyLooks name = true)
    (hexec : exec m reentrant 0 runtime s.world o a = some (r, w')) :
    Entered name w ⟨w', ⟨s.world, o, a, r⟩ :: s.past⟩ := by
  have hname : name ∈ s.world.runtimeLocks := by simp [h.runtimeLocks]
  obtain ⟨held, rfl⟩ := exec_looks ho hname hexec
  refine ⟨h.registry, h.leases, h.runtimeLocks, h.bridgeConfigured,
    h.vmSwitchConfigured, h.processes, h.noCommand.cons ?_⟩
  rintro command rfl
  cases ho

/-- A request without a trace is one whose runtime has had a lock before. -/
lemma Entered.sameState_iff (h : Entered name w s) :
    SameState w s.world ↔ name ∈ w.runtimeLocks := by
  constructor
  · intro hsame
    have hmem : name ∈ w.runtimeLocks.insert name := by simp
    rwa [← h.runtimeLocks, hsame.runtimeLocks] at hmem
  · intro hname
    refine ⟨h.registry, h.leases, ?_, h.bridgeConfigured, h.vmSwitchConfigured⟩
    rw [h.runtimeLocks, List.insert_of_mem hname]

/-! ## Up to the first command -/

/-- A command has been run, or the request has only looked. -/
def Reached (name : String) (w : World) (s : Alone) : Prop := NoCommand s.past → Entered name w s

/-- Neither a return nor an exception shows more than looking, unless a command has been run. -/
def Passes (m : RuntimeManager) (reentrant : Bool) (runtime name : String) (w : World)
    (p : Program α) : Prop :=
  ∀ s, Reached name w s → p.Obeys (alone m reentrant runtime fun _ _ => true)
    (fun _ => Reached name w) (fun _ => Reached name w) s

/-- Moreover, it does not return before a command has been run. -/
def Commits (m : RuntimeManager) (reentrant : Bool) (runtime name : String) (w : World)
    (p : Program α) : Prop :=
  ∀ s, Reached name w s → p.Obeys (alone m reentrant runtime fun _ _ => true)
    (fun _ s => ¬ NoCommand s.past) (fun _ => Reached name w) s

/-- What runs after a command may do what it likes. -/
lemma ran_obeys (hs : ¬ NoCommand s.past) (p : Program α) :
    p.Obeys (alone m reentrant runtime fun _ _ => true) (fun _ s => ¬ NoCommand s.past)
      (fun _ s => ¬ NoCommand s.past) s :=
  alone_keeps (fun _ _ _ _ _ hs _ => not_noCommand_cons hs) hs p

lemma reached_of_ran (hs : ¬ NoCommand s.past) : Reached name w s := fun hpast => absurd hpast hs

lemma Commits.passes {p : Program α} (h : Commits m reentrant runtime name w p) :
    Passes m reentrant runtime name w p :=
  fun s hs => (h s hs).mono (fun _ _ => reached_of_ran) fun _ _ h => h

lemma passes_of_performs {p : Program α}
    (hp : p.Performs fun o => o.onlyLooks name = true ∨ ∃ command, o = .run command) :
    Passes m reentrant runtime name w p := by
  intro s hs
  refine performs_keeps hp (fun s o a r w' ho hs hexec hpast => ?_) hs
  obtain ⟨hrun, hpast⟩ := List.forall_mem_cons.mp hpast
  rcases ho with ho | ⟨command, rfl⟩
  · exact (hs hpast).step ho hexec
  · exact absurd rfl (hrun command)

lemma commits_run {command : Command} {check : Bool} :
    Commits m reentrant runtime name w (run command check) := by
  intro s hs
  refine Prog.obeys_bind.mpr (alone_op fun a outcome w' _ _ => ?_)
  have hran : ¬ NoCommand (⟨s.world, .run command, a, outcome⟩ :: s.past : List Taken) :=
    fun h => (List.forall_mem_cons.mp h).1 command rfl
  exact (ran_obeys hran _).mono (fun _ _ h => h) fun _ _ => reached_of_ran

lemma Commits.bind {p : Program α} {f : α → Program β} (hp : Commits m reentrant runtime name w p) :
    Commits m reentrant runtime name w (p >>= f) := by
  intro s hs
  refine Prog.obeys_bind.mpr ((hp s hs).mono (fun a s hs => ?_) fun _ _ h => h)
  exact (ran_obeys hs _).mono (fun _ _ h => h) fun _ _ => reached_of_ran

lemma Passes.bind_commits {p : Program α} {f : α → Program β}
    (hp : Passes m reentrant runtime name w p)
    (hf : ∀ a, Commits m reentrant runtime name w (f a)) :
    Commits m reentrant runtime name w (p >>= f) :=
  fun s hs => Prog.obeys_bind.mpr ((hp s hs).mono (fun a s hs => hf a s hs) fun _ _ h => h)

lemma Passes.bind {p : Program α} {f : α → Program β}
    (hp : Passes m reentrant runtime name w p) (hf : ∀ a, Passes m reentrant runtime name w (f a)) :
    Passes m reentrant runtime name w (p >>= f) :=
  fun s hs => Prog.obeys_bind.mpr ((hp s hs).mono (fun a s hs => hf a s hs) fun _ _ h => h)

lemma commits_raise (e : PyError) : Commits m reentrant runtime name w (raise e : Program α) :=
  fun _ hs => hs

lemma Commits.finallyDo {p : Program α} {q : Program Unit}
    (hp : Commits m reentrant runtime name w p)
    (hq : Passes m reentrant runtime name w q) :
    Commits m reentrant runtime name w (p.finallyDo q) := by
  intro s hs
  refine Prog.obeys_finallyDo.mpr ((hp s hs).mono (fun a s hs => ?_) fun e s hs => ?_)
  · exact (ran_obeys hs q).mono (fun _ _ h => h) fun _ _ => reached_of_ran
  · exact hq s hs

lemma passes_op {o : Op} (ho : o.onlyLooks name = true) :
    Passes m reentrant runtime name w (op o) :=
  passes_of_performs (performs_op (.inl ho))

lemma passes_ofExcept {x : Except PyError α} : Passes m reentrant runtime name w (ofExcept x) :=
  passes_of_performs performs_ofExcept

lemma passes_pure (a : α) : Passes m reentrant runtime name w (pure a) := passes_of_performs trivial

lemma passes_loadRegistry (name' : String) :
    Passes m reentrant runtime name w (loadRegistry name') :=
  .bind (passes_op rfl) fun _ => passes_ofExcept

lemma commits_withLock {lock : LockId} {body : Program α}
    (h : Commits m reentrant runtime name w body) :
    Commits m reentrant runtime name w (withLock lock body) :=
  (passes_op rfl).bind_commits fun _ => h.finallyDo (passes_op rfl)

lemma passes_withLock {lock : LockId} {body : Program α}
    (h : Passes m reentrant runtime name w body) :
    Passes m reentrant runtime name w (withLock lock body) := by
  refine (passes_op rfl).bind fun _ s hs => Prog.obeys_finallyDo.mpr ?_
  exact (h s hs).mono (fun _ s hs => (passes_op rfl).bind (fun _ => passes_pure _) s hs)
    fun _ s hs => (passes_op rfl).bind (fun _ => passes_pure ()) s hs

lemma Passes.ite {c : Prop} [Decidable c] {p q : Program α}
    (hp : Passes m reentrant runtime name w p)
    (hq : Passes m reentrant runtime name w q) :
    Passes m reentrant runtime name w (if c then p else q) := by
  split_ifs
  · exact hp
  · exact hq

/-- `destroy` asks `jls` before it is done. -/
lemma remainingResources_commits {record : RuntimeRecord} {name' : String} :
    Commits m reentrant runtime name w (remainingResources m name' record) := by
  refine (passes_of_performs (performs_labelIf ?_)).bind_commits fun _ =>
    .bind (.bind (.bind commits_run))
  exact performs_vmExists (.inl rfl) (.inr ⟨_, rfl⟩)

lemma destroyBody_commits {requesterUid : Option ℕ} {force : Bool} :
    Commits m reentrant runtime name w (destroyBody m name requesterUid force) := by
  have hrun : ∀ command : Command,
      (Op.run command).onlyLooks name = true ∨ ∃ command', Op.run command = .run command' :=
    fun command => .inr ⟨command, rfl⟩
  refine passes_ofExcept.bind_commits fun name' => ?_
  refine (passes_loadRegistry _).bind_commits fun x => ?_
  refine (passes_of_performs (performs_when fun _ => performs_ofExcept)).bind_commits fun _ => ?_
  refine (passes_of_performs
    (performs_destroyVm (.inl rfl) (hrun _) (hrun _) (hrun _))).bind_commits
    fun _ => ?_
  refine (passes_of_performs (performs_destroyMd fun _ _ => hrun _)).bind_commits fun _ => ?_
  refine (passes_of_performs (performs_destroyRecordedDataset (fun _ _ => hrun _)
    fun _ _ => hrun _)).bind_commits fun _ => ?_
  refine (passes_of_performs (performs_destroyJail (hrun _) (hrun _))).bind_commits fun _ => ?_
  refine (passes_of_performs (performs_destroyEpair fun _ _ => hrun _)).bind_commits fun _ => ?_
  refine (passes_of_performs (performs_destroyDataset (hrun _) (hrun _))).bind_commits fun _ => ?_
  exact remainingResources_commits.bind

lemma destroy_commits {requesterUid : Option ℕ} {force : Bool} :
    Commits m reentrant runtime name w (destroy m name requesterUid force) :=
  (passes_op (by simp [Op.onlyLooks])).bind_commits fun _ => commits_withLock destroyBody_commits

/-! ## The create requests -/

/-- The bridge has been configured, or commands configure it. -/
lemma passes_ensureBridge : Passes m reentrant runtime name w (ensureBridge m) := by
  refine (passes_op rfl).bind fun _ => (passes_pure ()).ite (passes_withLock ?_)
  exact (passes_op rfl).bind fun _ => (passes_pure ()).ite commits_run.bind.passes

lemma passes_requireVmBackend : Passes m reentrant runtime name w (requireVmBackend m) :=
  passes_of_performs (performs_requireVmBackend (.inl rfl))

lemma passes_ensureVmSwitch : Passes m reentrant runtime name w (ensureVmSwitch m) := by
  refine (passes_op rfl).bind fun _ => (passes_pure ()).ite (passes_withLock ?_)
  refine (passes_op rfl).bind fun _ => (passes_pure ()).ite ?_
  exact passes_requireVmBackend.bind fun _ => commits_run.bind.passes

/-- Without a command, the reconciliation ends well only where nothing is registered. -/
lemma reconcileRegistered_alone {owner : RuntimeOwner} (hs : Reached name w s) :
    (reconcileRegisteredBeforeCreate m name owner).Obeys (alone m reentrant runtime fun _ _ => true)
      (fun _ s => NoCommand s.past → Entered name w s ∧ w.load name = .ok none)
      (fun _ => Reached name w) s := by
  refine Prog.obeys_bind.mpr (Prog.obeys_bind.mpr (alone_op fun a r w' _ hexec => ?_))
  have hlooked : Reached name w ⟨w', ⟨s.world, .loadRegistry name, a, r⟩ :: s.past⟩ :=
    fun hpast => (hs (List.forall_mem_cons.mp hpast).2).step rfl hexec
  refine Prog.obeys_ofExcept.mpr ⟨fun x hx => ?_, fun _ _ => hlooked⟩
  cases x with
  | some record =>
      refine Prog.Obeys.mono ?_ (fun _ s (hs : ¬ NoCommand s.past) hpast => absurd hpast hs)
        fun _ _ h => h
      show Prog.Obeys _ _ _ (if _ then _ else _) _
      split_ifs
      · exact hlooked
      · exact destroy_commits.bind _ hlooked
  | none =>
      refine fun hpast => ⟨hlooked hpast, ?_⟩
      obtain ⟨hr, -⟩ := Prod.mk.inj (Option.some.inj hexec)
      rw [hx] at hr
      split_ifs at hr
      have hregistry := (hs (List.forall_mem_cons.mp hpast).2).registry
      exact (load_congr hregistry name).symm.trans hr

lemma reconcileRegistered_passes {owner : RuntimeOwner} :
    Passes m reentrant runtime name w (reconcileRegisteredBeforeCreate m name owner) :=
  fun _ hs => (reconcileRegistered_alone hs).mono (fun _ _ h hpast => (h hpast).1) fun _ _ h => h

/-- The name is not registered, so the host is asked for a jail of this name. -/
lemma reconcileOrphaned_commits {dataset : String}
    (hs : NoCommand s.past → Entered name w s ∧ w.load name = .ok none) :
    (reconcileOrphanedJailBeforeCreate m name dataset).Obeys
    (alone m reentrant runtime fun _ _ => true)
      (fun _ s => ¬ NoCommand s.past) (fun _ => Reached name w) s := by
  refine Prog.obeys_bind.mpr (Prog.obeys_bind.mpr (alone_op fun a r w' _ hexec => ?_))
  have hlooked : Reached name w ⟨w', ⟨s.world, .loadRegistry name, a, r⟩ :: s.past⟩ :=
    fun hpast => (hs (List.forall_mem_cons.mp hpast).2).1.step rfl hexec
  refine Prog.obeys_ofExcept.mpr ⟨fun x hx => ?_, fun _ _ => hlooked⟩
  show Prog.Obeys _ _ _ (if _ then _ else _) _
  split_ifs with hsome
  · intro hpast
    obtain ⟨hentered, hload⟩ := hs (List.forall_mem_cons.mp hpast).2
    obtain ⟨hr, -⟩ := Prod.mk.inj (Option.some.inj hexec)
    rw [hx] at hr
    split_ifs at hr
    have hnone := hr.symm.trans ((load_congr hentered.registry name).trans hload)
    rw [Except.ok.inj hnone] at hsome
    cases hsome
  · exact (Commits.bind (Commits.bind commits_run)) _ hlooked

lemma passes_ownerFromPeer {pid : ℤ} : Passes m reentrant runtime name w (ownerFromPeer peer pid) :=
  passes_of_performs (performs_ownerFromPeer (.inl rfl) (.inl rfl))

/-- A method inside the lock of its runtime, from the start. -/
lemma serialized_obeys {body : Program α} {Q : α → Alone → Prop} {R : PyError → Alone → Prop}
    (hQ : ∀ result, KeptByRelease m reentrant runtime (Q result))
    (hR : ∀ e, KeptByRelease m reentrant runtime (R e))
    (h : ∀ s, Entered name w s → body.Obeys (alone m reentrant runtime fun _ _ => true) Q R s) :
    (serializedByName name body).Obeys (alone m reentrant runtime fun _ _ => true) Q R w.alone := by
  refine Prog.obeys_bind.mpr (alone_op fun a₁ r₁ w₁ _ hexec₁ => ?_)
  refine Prog.obeys_bind.mpr (alone_op fun a₂ r₂ w₂ _ hexec₂ => Prog.obeys_finallyDo.mpr ?_)
  have hentered : Entered name w ⟨w₁, ⟨w, .runtimeLock name, a₁, r₁⟩ :: []⟩ := by
    obtain ⟨-, rfl⟩ := Prod.mk.inj (Option.some.inj hexec₁)
    exact ⟨rfl, rfl, rfl, rfl, rfl, rfl, by simp [NoCommand]⟩
  refine (h _ (hentered.step rfl hexec₂)).mono (fun result s hs => ?_) fun e s hs => ?_
  · exact alone_op fun a r w' _ hexec => hQ result s _ a r w' hexec hs
  · exact alone_op fun a r w' _ hexec => hR e s _ a r w' hexec hs

lemma createJailBody_commits {ownerPid : ℤ} {publicKey : String} :
    Commits m reentrant runtime name w (createJailBody m name ownerPid peer publicKey) := by
  unfold createJailBody
  generalize validateSshPublicKey publicKey = key
  intro s hs
  refine Prog.obeys_bind.mpr (Prog.obeys_ofExcept.mpr ⟨fun name' hname => ?_, fun _ _ => hs⟩)
  obtain ⟨rfl, -⟩ := validateName_eq_ok.mp hname
  refine Passes.bind_commits passes_ofExcept (fun key => ?_) s hs
  refine passes_ownerFromPeer.bind_commits fun owner s hs => ?_
  refine Prog.obeys_bind.mpr ((reconcileRegistered_alone hs).mono (fun _ s hs => ?_) fun _ _ h => h)
  refine Prog.obeys_bind.mpr ((reconcileOrphaned_commits hs).mono (fun _ s hs => ?_) fun _ _ h => h)
  exact (ran_obeys hs _).mono (fun _ _ h => h) fun _ _ => reached_of_ran

lemma createBhyveBody_commits {ownerPid : ℤ} {publicKey profile : String} :
    Commits m reentrant runtime name w
      (createBhyveBody m name ownerPid peer publicKey profile) := by
  unfold createBhyveBody
  generalize validateSshPublicKey publicKey = key
  intro s hs
  refine Prog.obeys_bind.mpr (Prog.obeys_ofExcept.mpr ⟨fun name' hname => ?_, fun _ _ => hs⟩)
  obtain ⟨rfl, -⟩ := validateName_eq_ok.mp hname
  refine Passes.bind_commits passes_ofExcept (fun key => ?_) s hs
  cases BHYVE_PROFILES.lookup profile with
  | none => exact commits_raise _
  | some guestProfile =>
      refine passes_ownerFromPeer.bind_commits fun owner => ?_
      refine passes_requireVmBackend.bind_commits fun _ => ?_
      refine reconcileRegistered_passes.bind_commits fun _ => ?_
      refine passes_ensureBridge.bind_commits fun _ =>
        passes_ensureVmSwitch.bind_commits fun _ => ?_
      exact (Commits.bind commits_run).bind

/-- **A method that fails without a command** has made the lock of its runtime, and nothing else. -/
lemma perform_reached {action : Action} (hruntime : action.runtime = name)
    (hnamed : ∀ staleOnly, action ≠ .ping ∧ action ≠ .gc staleOnly) :
    (perform m peer action).Obeys (alone m reentrant runtime fun _ _ => true) (fun _ _ => True)
      (fun _ s => NoCommand s.past → Entered name w s) w.alone := by
  have hrelease : KeptByRelease m reentrant runtime (fun s => NoCommand s.past →
    Entered name w s) :=
    fun s lock a r w' hexec hs hpast => (hs (List.forall_mem_cons.mp hpast).2).step rfl hexec
  have hserialized : ∀ {α : Type} {body : Program α}, Commits m reentrant runtime name w body →
      (serializedByName name body).Obeys (alone m reentrant runtime fun _ _ => true)
      (fun _ _ => True)
        (fun _ s => NoCommand s.past → Entered name w s) w.alone := by
    intro α body hbody
    refine serialized_obeys (fun _ _ _ _ _ _ _ _ => trivial) (fun _ => hrelease) fun s hs => ?_
    exact (hbody s fun _ => hs).mono (fun _ _ _ => trivial) fun _ _ h => h
  cases action with
  | ping => exact absurd rfl (hnamed true).1
  | gc staleOnly => exact absurd rfl (hnamed staleOnly).2
  | createJail name' ownerPid key =>
      obtain rfl : name' = name := hruntime
      exact Prog.obeys_bind.mpr (hserialized createJailBody_commits)
  | createBhyve name' ownerPid key profile =>
      obtain rfl : name' = name := hruntime
      exact Prog.obeys_bind.mpr (hserialized createBhyveBody_commits)
  | destroy name' =>
      obtain rfl : name' = name := hruntime
      exact Prog.obeys_bind.mpr (hserialized destroyBody_commits)

/-! ## Requests that have to be refused -/

/-- It raises, and has not run a command. -/
def Refuses (m : RuntimeManager) (reentrant : Bool) (runtime name : String) (w : World)
    (p : Program α) : Prop :=
  ∀ s, Entered name w s → p.Obeys (alone m reentrant runtime fun _ _ => true) (fun _ _ => False)
    (fun _ s => NoCommand s.past) s

lemma refuses_raise (e : PyError) : Refuses m reentrant runtime name w (raise e : Program α) :=
  fun _ hs => hs.noCommand

lemma refuses_of_looks {p : Program α} {f : α → Program β}
    (hp : p.Performs fun o => o.onlyLooks name = true)
    (hf : ∀ a, Refuses m reentrant runtime name w (f a)) :
    Refuses m reentrant runtime name w (p >>= f) := by
  intro s hs
  exact Prog.obeys_bind.mpr
    ((performs_keeps hp (fun _ _ _ _ _ ho hs hexec => hs.step ho hexec) hs).mono
    (fun a s hs => hf a s hs) fun _ _ (hs : Entered name w _) => hs.noCommand)

/-- What is found of a process is what `ps` has to say of it. -/
lemma queryProcessIdentity_known {pid : ℤ} (hs : s.world.processes = w.processes) :
    (queryProcessIdentity pid).Obeys (alone m reentrant runtime fun _ _ => true)
      (fun found _ => ∀ identity, found = some identity → w.identityOf pid = some identity)
      (fun _ _ => True) s := by
  have hexists : (pidExists pid).Obeys (alone m reentrant runtime fun _ _ => true)
      (fun _ s => s.world.processes = w.processes) (fun _ s => s.world.processes = w.processes) s :=
    alone_keeps (fun _ _ _ _ _ hs hexec => (exec_frame hexec).processes.trans hs) hs _
  refine Prog.obeys_bind.mpr (hexists.mono (fun alive s hs => ?_) fun _ _ _ => trivial)
  cases alive with
  | false => simp
  | true =>
      refine Prog.obeys_bind.mpr (alone_op fun a outcome w' _ hexec => ?_)
      obtain ⟨houtcome, -⟩ := Prod.mk.inj (Option.some.inj hexec)
      split
      · intro identity hidentity
        have hfound := identityOf_of_ps houtcome hidentity
        rwa [identityOf_congr hs] at hfound
      · trivial
      · simp

/-- The owner is the peer, as `ps` knows it. -/
lemma ownerFromPeer_known {pid : ℤ} (hs : s.world.processes = w.processes) :
    (ownerFromPeer peer pid).Obeys (alone m reentrant runtime fun _ _ => true)
      (fun owner _ => pid = peer.pid
        ∧ ∃ identity, w.identityOf peer.pid = some identity ∧ owner = peer.owner identity)
      (fun _ _ => True) s := by
  refine Prog.obeys_bind.mpr (Prog.obeys_ofExcept.mpr ⟨fun ownerPid hpid => ?_, fun _ _ => trivial⟩)
  obtain rfl : pid = ownerPid := by
    unfold validateOwnerPid at hpid
    split_ifs at hpid
    exact Except.ok.inj hpid
  split_ifs with hpeer
  · trivial
  refine Prog.obeys_bind.mpr
    ((queryProcessIdentity_known hs).mono (fun found s hs => ?_) fun _ _ h => h)
  cases found with
  | none => trivial
  | some identity =>
      show Prog.Obeys _ _ _ (if _ then _ else _) _
      split_ifs
      · trivial
      · exact ⟨of_not_not hpeer, identity, hs _ rfl, rfl⟩

lemma ownerFromPeer_alone {pid : ℤ} (hs : Entered name w s) :
    (ownerFromPeer peer pid).Obeys (alone m reentrant runtime fun _ _ => true)
      (fun owner s => Entered name w s ∧ pid = peer.pid
        ∧ ∃ identity, w.identityOf peer.pid = some identity ∧ owner = peer.owner identity)
      (fun _ s => NoCommand s.past) s := by
  have hlooks : (ownerFromPeer peer pid).Performs fun o => o.onlyLooks name = true :=
    performs_ownerFromPeer rfl rfl
  have hentered : (ownerFromPeer peer pid).Obeys (alone m reentrant runtime fun _ _ => true)
      (fun _ => Entered name w) (fun _ => Entered name w) s :=
    performs_keeps hlooks (fun _ _ _ _ _ ho hs hexec => hs.step ho hexec) hs
  exact (hentered.and (ownerFromPeer_known hs.processes)).mono (fun _ _ h => h)
    fun _ _ (h : Entered name w _ ∧ True) => h.1.noCommand

/-- A name that is registered for somebody else is not reconciled. -/
lemma reconcileRegistered_refuses {owner : RuntimeOwner} {record : RuntimeRecord}
    {f : Unit → Program α}
    (hload : w.load name = .ok (some record)) (howned : recordOwnedBy record owner = false) :
    Refuses m reentrant runtime name w (reconcileRegisteredBeforeCreate m name owner >>= f) := by
  intro s hs
  refine Prog.obeys_bind.mpr
    (Prog.obeys_bind.mpr (Prog.obeys_bind.mpr (alone_op fun a r w' _ hexec => ?_)))
  have hlooked := hs.step (o := .loadRegistry name) rfl hexec
  refine Prog.obeys_ofExcept.mpr ⟨fun x hx => ?_, fun _ _ => hlooked.noCommand⟩
  obtain ⟨hr, -⟩ := Prod.mk.inj (Option.some.inj hexec)
  rw [hx] at hr
  split_ifs at hr
  obtain rfl := Except.ok.inj (hr.symm.trans ((load_congr hs.registry name).trans hload))
  show Prog.Obeys _ _ _ (if _ then _ else _) _
  rw [if_pos howned]
  exact hlooked.noCommand

/-- The part that the create requests begin with. -/
lemma create_refuses {ownerPid : ℤ} {publicKey : String}
    {f : String → String → RuntimeOwner → Program α}
    (hrefused : RefusedCreate w peer name ownerPid publicKey)
    (hf : ∀ key identity, RegisteredByOther w peer name → w.identityOf peer.pid = some identity →
      Refuses m reentrant runtime name w (f name key (peer.owner identity))) :
    Refuses m reentrant runtime name w (do
      let name ← ofExcept (validateName name)
      let key ← ofExcept (validateSshPublicKey publicKey)
      let owner ← ownerFromPeer peer ownerPid
      f name key owner) := by
  intro s hs
  unfold RefusedCreate at hrefused
  generalize validateSshPublicKey publicKey = key at hrefused ⊢
  refine Prog.obeys_bind.mpr
    (Prog.obeys_ofExcept.mpr ⟨fun name' hname => ?_, fun _ _ => hs.noCommand⟩)
  obtain ⟨rfl, hname⟩ := validateName_eq_ok.mp hname
  refine Prog.obeys_bind.mpr
    (Prog.obeys_ofExcept.mpr ⟨fun key' hkey => ?_, fun _ _ => hs.noCommand⟩)
  refine Prog.obeys_bind.mpr ((ownerFromPeer_alone hs).mono ?_ fun _ _ h => h)
  rintro owner s ⟨hs, hpid, identity, hidentity, rfl⟩
  rcases hrefused with hinvalid | ⟨e, herror⟩ | hmismatch | hother
  · rw [hname] at hinvalid
    cases hinvalid
  · rw [hkey] at herror
    cases herror
  · exact absurd hpid hmismatch
  · exact hf key' identity hother hidentity s hs

lemma createJailBody_refuses {ownerPid : ℤ} {publicKey : String}
    (hrefused : RefusedCreate w peer name ownerPid publicKey) :
    Refuses m reentrant runtime name w (createJailBody m name ownerPid peer publicKey) := by
  refine create_refuses hrefused fun key identity hother hidentity => ?_
  obtain ⟨record, hload, howned⟩ := hother
  exact reconcileRegistered_refuses hload (howned identity hidentity)

lemma createBhyveBody_refuses {ownerPid : ℤ} {publicKey profile : String}
    (hrefused : RefusedCreate w peer name ownerPid publicKey
      ∨ BHYVE_PROFILES.lookup profile = none) :
    Refuses m reentrant runtime name w
      (createBhyveBody m name ownerPid peer publicKey profile) := by
  unfold createBhyveBody
  cases hlookup : BHYVE_PROFILES.lookup profile with
  | none =>
      generalize validateSshPublicKey publicKey = key
      exact refuses_of_looks performs_ofExcept fun _ => refuses_of_looks performs_ofExcept
        fun _ => refuses_raise _
  | some guestProfile =>
      have hrefused : RefusedCreate w peer name ownerPid publicKey :=
        hrefused.resolve_right (by simp [hlookup])
      refine create_refuses hrefused fun key identity hother hidentity => ?_
      obtain ⟨record, hload, howned⟩ := hother
      refine refuses_of_looks (performs_requireVmBackend rfl) fun _ => ?_
      exact reconcileRegistered_refuses hload (howned identity hidentity)

lemma destroyBody_refuses {requesterUid : ℕ} (hrefused : isRuntimeName name = false
      ∨ ∃ e, authorizeRecord (w.recordOf name) (some requesterUid) = .error e) :
    Refuses m reentrant runtime name w (destroyBody m name (some requesterUid) false) := by
  intro s hs
  refine Prog.obeys_bind.mpr
    (Prog.obeys_ofExcept.mpr ⟨fun name' hname => ?_, fun _ _ => hs.noCommand⟩)
  obtain ⟨rfl, hname⟩ := validateName_eq_ok.mp hname
  rcases hrefused with hinvalid | ⟨e, hauthorize⟩
  · rw [hname] at hinvalid
    cases hinvalid
  refine Prog.obeys_bind.mpr (Prog.obeys_bind.mpr (alone_op fun a r w' _ hexec => ?_))
  have hlooked := hs.step (o := .loadRegistry name') rfl hexec
  refine Prog.obeys_ofExcept.mpr ⟨fun x hx => ?_, fun _ _ => hlooked.noCommand⟩
  obtain ⟨hr, -⟩ := Prod.mk.inj (Option.some.inj hexec)
  rw [hx] at hr
  split_ifs at hr
  have hrecord := getD_of_load ((load_congr hs.registry name').symm.trans hr)
  dsimp only
  rw [hrecord, hauthorize]
  exact hlooked.noCommand

/-- **What has to be refused is refused** without a command. -/
lemma perform_refuses {c : Connection} {action : Action} (haction : c.action = .ok action)
    (hrefused : Refused w c) :
    (perform m c.peer action).Obeys (alone m reentrant runtime fun _ _ => true) (fun _ _ => False)
      (fun _ s => NoCommand s.past) w.alone := by
  have hserialized : ∀ {α : Type} {name : String} {body : Program α},
      Refuses m reentrant runtime name w body → (serializedByName name body).Obeys
        (alone m reentrant runtime fun _ _ => true) (fun _ _ => False) (fun _ s => NoCommand s.past)
        w.alone := by
    intro α name body hbody
    refine serialized_obeys (fun _ _ _ _ _ _ _ h => h) (fun _ s lock a r w' _ hs => ?_) hbody
    exact hs.cons (by simp)
  unfold Refused at hrefused
  rw [haction] at hrefused
  cases action with
  | ping => exact hrefused.elim
  | gc staleOnly => exact hrefused.elim
  | createJail name ownerPid key =>
      refine Prog.obeys_bind.mpr
        ((hserialized (createJailBody_refuses hrefused)).mono ?_ fun _ _ h => h)
      exact fun _ _ h => h.elim
  | createBhyve name ownerPid key profile =>
      refine Prog.obeys_bind.mpr
        ((hserialized (createBhyveBody_refuses hrefused)).mono ?_ fun _ _ h => h)
      exact fun _ _ h => h.elim
  | destroy name =>
      refine Prog.obeys_bind.mpr
        ((hserialized (destroyBody_refuses hrefused)).mono ?_ fun _ _ h => h)
      exact fun _ _ h => h.elim

lemma handle_eq {c : Connection} (hline : c.request ≠ .nothing) :
    handle m c = Prog.tryCatch
      (do
        let action ← ofExcept c.action
        return .ok (← perform m c.peer action))
      fun error => pure (.error error) := by
  unfold handle
  split
  · exact absurd ‹_› hline
  · rfl

/-- **A request that has to be refused is answered with an error before any command; and an error
before any command has left the daemon's state as it was if and only if** the request has not got
past the handler's own checks, or its runtime had a lock before. -/
theorem refused_unchanged_iff (m : RuntimeManager) (reentrant : Bool) (w : World) (c : Connection) :
    (handle m c).Obeys (alone m reentrant c.runtime fun _ _ => true)
      (fun reply s =>
        (Refused w c → (∃ e, reply = .error e) ∧ NoCommand s.past)
          ∧ ((∃ e, reply = .error e) → NoCommand s.past →
            (∀ staleOnly, c.action ≠ .ok (.gc staleOnly)) →
            (SameState w s.world ↔ (∃ e, c.action = .error e) ∨ c.runtime ∈ w.runtimeLocks)))
      (fun _ _ => False) w.alone := by
  by_cases hline : c.request = .nothing
  · have hreply : handle m c = pure .none := by rw [handle, hline]
    have haction : c.action = .error (.valueError "request must be an object") := by
      rw [Connection.action, hline]
    rw [hreply]
    refine ⟨fun hrefused => ?_, fun herror => ?_⟩
    · rw [Refused, haction] at hrefused
      exact absurd hline hrefused
    · obtain ⟨e, he⟩ := herror
      cases he
  rw [handle_eq hline]
  refine Prog.obeys_tryCatch.mpr (Prog.obeys_bind.mpr ?_)
  cases haction : c.action with
  | error e =>
      refine ⟨fun _ => ⟨⟨e, rfl⟩, by simp [NoCommand, World.alone]⟩, fun _ _ _ => ?_⟩
      exact iff_of_true ⟨rfl, rfl, rfl, rfl, rfl⟩ (.inl ⟨e, rfl⟩)
  | ok action =>
      refine Prog.obeys_pure.mpr (Prog.obeys_bind.mpr ?_)
      have hruntime : c.runtime = action.runtime := by rw [Connection.runtime, haction]
      have hrefuses : (perform m c.peer action).Obeys (alone m reentrant c.runtime fun _ _ => true)
          (fun _ _ => ¬ Refused w c) (fun _ s => Refused w c → NoCommand s.past) w.alone := by
        by_cases hrefused : Refused w c
        · exact (perform_refuses haction hrefused).mono (fun _ _ h => h.elim) fun _ _ h _ => h
        · exact (Solo.obeys_trivial _).mono (fun _ _ _ => hrefused) fun _ _ _ h => absurd h hrefused
      have hreached : (perform m c.peer action).Obeys (alone m reentrant c.runtime fun _ _ => true)
          (fun _ _ => True) (fun _ s => NoCommand s.past → (∀ staleOnly, action ≠ .gc staleOnly) →
            Entered c.runtime w s) w.alone := by
        by_cases hnamed : action = .ping ∨ ∃ staleOnly, action = .gc staleOnly
        · rcases hnamed with rfl | ⟨staleOnly, rfl⟩
          · trivial
          · exact (Solo.obeys_trivial _).mono (fun _ _ _ => trivial)
              fun _ _ _ _ h => absurd rfl (h staleOnly)
        · rw [not_or, not_exists] at hnamed
          refine (perform_reached hruntime.symm fun staleOnly =>
            ⟨hnamed.1, hnamed.2 staleOnly⟩).mono
            (fun _ _ h => h) fun _ _ h hpast _ => h hpast
      refine (hrefuses.and hreached).mono ?_ ?_
      · rintro result s ⟨hpassed, -⟩
        exact ⟨fun hrefused => absurd hrefused hpassed, fun herror => by
          obtain ⟨e, he⟩ := herror
          cases he⟩
      · rintro e s ⟨hpast, hentered⟩
        refine ⟨fun hrefused => ⟨⟨e, rfl⟩, hpast hrefused⟩, fun _ hpast hgc => ?_⟩
        have hentered := hentered hpast fun staleOnly h => hgc staleOnly (by rw [h])
        rw [hentered.sameState_iff, or_iff_right (by simp)]

/-- A request for the removal of a name that no runtime can have. -/
def destroyInvalid : Connection := fromJupyter (RuntimeClient.destroy "no runtime")

set_option maxRecDepth 10000 in
/-- It is refused, and the table of locks has an entry more. -/
theorem invalid_name_leaves_lock : ¬ (handle .standard destroyInvalid).Obeys
    (alone .standard false destroyInvalid.runtime fun _ _ => true)
    (fun reply s => Refused sampleWorld destroyInvalid →
      (∃ e, reply = .error e) ∧ SameState sampleWorld s.world)
    (fun _ _ => False) sampleWorld.alone := by
  intro h
  let done : Answer := {}
  have hrun : ∃ reply s, Solo.follow (exec .standard false 0 "no runtime") (fun _ _ => true)
      (List.replicate 3 done) (handle .standard destroyInvalid) sampleWorld.alone
        = some (.ret reply, s) ∧ s.world.runtimeLocks = ["no runtime"] :=
    ⟨_, _, rfl, rfl⟩
  obtain ⟨reply, s, hfollow, hlocks⟩ := hrun
  have hsame := Solo.obeys_of_follow h hfollow
  have hrefused : Refused sampleWorld destroyInvalid := .inl rfl
  have hunchanged : s.world.runtimeLocks = [] := (hsame hrefused).2.runtimeLocks
  rw [hlocks] at hunchanged
  cases hunchanged

end FreebsdLaboratory
