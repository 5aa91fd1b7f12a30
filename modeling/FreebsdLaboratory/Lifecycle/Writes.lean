import FreebsdLaboratory.Lifecycle.Alone

/-!
# The records that are written

The create requests write registry records, and nothing else does.  `Written` lists the records of
both, and every record that a create request writes is one of them (`createJail_writes`,
`createBhyve_writes`).
-/

namespace FreebsdLaboratory

open Library Program

variable {m : RuntimeManager} {name : String} {record : RuntimeRecord} {P : Op → Prop}

/-- The records that `create_jail` and `create_bhyve` write. -/
inductive Written (m : RuntimeManager) (name : String) : RuntimeRecord → Prop where
  | jail (owner : RuntimeOwner) (address : IPv4Address) (jailRoot : String) :
      Written m name (jailRecord m name owner address (m.jailDataset name) jailRoot)
  | jailDone (owner : RuntimeOwner) (address : IPv4Address) (jailRoot epairHost : String) :
      Written m name
        ((jailRecord m name owner address (m.jailDataset name) jailRoot).withJail epairHost)
  | bhyve (owner : RuntimeOwner) (address : IPv4Address) (profile : String)
      (guestProfile : BhyveGuestProfile) :
      Written m name (bhyveRecord m name owner address profile guestProfile)
  | bhyveDone (owner : RuntimeOwner) (address : IPv4Address) (profile : String)
      (guestProfile : BhyveGuestProfile) (dataset mdUnit : RecordValue)
      (hdataset : dataset = .null ∨ dataset = .str (m.vmDataset name)) :
      Written m name
        { bhyveRecord m name owner address profile guestProfile with
          dataset := dataset, mdUnit := mdUnit, vmCreated := .bool true }

/-- A jail's record names its root and no memory disk; any other is a VM's. -/
lemma Written.cases (h : Written m name record) :
    record.type = .str "jail" ∧ record.dataset = .str (m.jailDataset name) ∧ record.mdUnit = .null
      ∨ record.type = .str "bhyve" := by
  cases h with
  | jail => exact .inl ⟨rfl, rfl, rfl⟩
  | jailDone => exact .inl ⟨rfl, rfl, rfl⟩
  | bhyve => exact .inr rfl
  | bhyveDone => exact .inr rfl

/-! ## Functions that prepare -/

/-- The operation writes no record and makes nothing of a VM or its disk. -/
def Op.isPlain : Op → Bool
  | .writeRegistry _ | .ask (.isFile _) | .run .mdconfigAttach | .run (.dd _ _)
  | .run (.zfsClone _ _)
  | .run (.zfsListSnapshot _) | .run (.vmCreate _ _ _ _ _) | .run (.vmSet _ _) => false
  | _ => true

/-- The code is made of such operations. -/
abbrev Plain {α : Type} (p : Program α) : Prop := p.Performs fun o => o.isPlain = true

lemma plain_destroy (requesterUid : Option ℕ) (force : Bool) :
    Plain (destroy m name requesterUid force) := by
  refine performs_destroy rfl (fun _ => ⟨rfl, rfl⟩) rfl rfl (fun command h => ?_) (fun _ => rfl) rfl
  cases command <;> first | rfl | cases h

lemma plain_ownerFromPeer (peer : PeerCredentials) (pid : ℤ) :
    Plain (ownerFromPeer peer pid) :=
  performs_ownerFromPeer rfl rfl

lemma plain_loadRegistry : Plain (loadRegistry name) :=
  .bind (performs_op rfl) fun _ => performs_ofExcept

lemma plain_resolve (path : String) : Plain (resolve path) :=
  .bind (performs_op rfl) fun _ => performs_ofExcept

lemma plain_file (effect : FileEffect) : Plain (file effect) :=
  .bind (performs_op rfl) fun _ => performs_ofExcept

lemma plain_reconcileRegistered (owner : RuntimeOwner) :
    Plain (reconcileRegisteredBeforeCreate m name owner) := by
  refine .bind plain_loadRegistry fun x => ?_
  cases x with
  | none => trivial
  | some record =>
      refine .ite (fun _ => trivial) fun _ => .bind (plain_destroy _ _) fun _ => ?_
      exact .bind plain_loadRegistry fun _ => .ite (fun _ => trivial) fun _ => trivial

lemma plain_reconcileOrphaned (dataset : String) :
    Plain (reconcileOrphanedJailBeforeCreate m name dataset) := by
  refine .bind plain_loadRegistry fun x => .ite (fun _ => trivial) fun _ => ?_
  refine .bind (performs_succeeds rfl) fun jail => ?_
  refine .bind (.ite (fun _ => trivial) fun _ => performs_succeeds rfl) fun present => ?_
  refine .ite (fun _ => .bind (plain_destroy _ _) fun _ => ?_) fun _ => trivial
  exact .bind (performs_succeeds rfl) fun _ => .bind (performs_succeeds rfl) fun _ =>
    .ite (fun _ => trivial) fun _ => trivial

lemma plain_withLock {α : Type} {lock : LockId} {body : Program α} (h : Plain body) :
    Plain (withLock lock body) :=
  .bind (performs_op rfl) fun _ => .finallyDo h (performs_op rfl)

lemma plain_ensureBridge : Plain (ensureBridge m) := by
  refine .bind (performs_op rfl) fun _ => .ite (fun _ => trivial) fun _ => plain_withLock ?_
  refine .bind (performs_op rfl) fun _ => .ite (fun _ => trivial) fun _ => ?_
  refine .bind (performs_run rfl) fun shown => .bind (.ite (fun _ => ?_) fun _ => trivial)
    fun result => ?_
  · exact .bind (performs_run rfl) fun _ => performs_run rfl
  · refine .bind (performs_run ?_) fun _ => performs_op rfl
    split_ifs <;> rfl

lemma plain_ensureVmSwitch : Plain (ensureVmSwitch m) := by
  refine .bind (performs_op rfl) fun _ => .ite (fun _ => trivial) fun _ => plain_withLock ?_
  refine .bind (performs_op rfl) fun _ => .ite (fun _ => trivial) fun _ => ?_
  refine .bind (performs_requireVmBackend rfl) fun _ => .bind (performs_run rfl) fun _ => ?_
  refine .bind (performs_when fun _ => .bind (performs_run rfl) fun _ => trivial) fun _ => ?_
  exact .bind (performs_run rfl) fun _ => performs_op rfl

lemma plain_allocate : Plain (allocate m name) := by
  refine .bind (performs_op rfl) fun _ => .bind performs_ofExcept fun address => ?_
  refine .ite (fun _ => ?_) fun _ => trivial
  exact .bind (performs_op rfl) fun _ => .bind performs_ofExcept fun _ => trivial

lemma plain_installJailAuthorizedKey (jailRoot publicKey : String) :
    Plain (installJailAuthorizedKey m jailRoot publicKey) := by
  refine .bind (performs_run rfl) fun user => ?_
  dsimp only
  split
  · split
    · refine .ite (fun _ => trivial) fun _ => ?_
      refine .bind (plain_resolve _) fun home => .bind (plain_resolve _) fun root => ?_
      refine .bind (performs_when fun _ => trivial) fun _ => .bind (performs_op rfl) fun _ => ?_
      refine .bind (performs_when fun _ => plain_file _) fun _ => ?_
      refine .bind (plain_file _) fun _ => .bind (plain_file _) fun _ => ?_
      refine .bind (plain_file _) fun _ => .bind (performs_op rfl) fun _ => ?_
      refine .bind (performs_when fun _ => plain_file _) fun _ => ?_
      refine .bind (plain_file _) fun _ => .bind (plain_file _) fun _ => ?_
      exact plain_file _
    · trivial
  · trivial

/-! ## Functions that write no record -/

/-- The operation writes no record. -/
def Op.writesNothing : Op → Bool
  | .writeRegistry _ => false
  | _ => true

/-- The code writes no record. -/
abbrev WritesNothing {α : Type} (p : Program α) : Prop := p.Performs fun o => o.writesNothing = true

lemma Plain.writesNothing {α : Type} {p : Program α} (h : Plain p) : WritesNothing p := by
  refine h.mono fun o ho => ?_
  cases o with
  | writeRegistry record => cases ho
  | _ => rfl

lemma writesNothing_snapshotExists (snapshot : String) : WritesNothing (snapshotExists snapshot) :=
  .ite (fun _ => trivial) fun _ => performs_succeeds rfl

lemma writesNothing_copySnapshot (snapshot md : String) :
    WritesNothing (copySnapshot m name snapshot md) := by
  refine .bind (performs_succeeds rfl) fun _ => ?_
  refine .bind (performs_when fun _ => .bind (performs_run rfl) fun _ => trivial) fun _ => ?_
  refine .bind (performs_run rfl) fun _ => .finallyDo ?_ ?_
  · exact .bind (performs_run rfl) fun _ => trivial
  · exact .bind (performs_run rfl) fun _ => trivial

lemma writesNothing_copyImage (image md : String) : WritesNothing (copyImage image md) :=
  .bind (performs_op rfl) fun _ => performs_when fun _ => .bind (performs_run rfl) fun _ => trivial

lemma writesNothing_createMemdisk (snapshot image : String) :
    WritesNothing (createMemdisk m name snapshot image) := by
  refine .bind (performs_run rfl) fun result => ?_
  generalize newMdUnit result.stdout = unit
  refine .bind performs_ofExcept fun md => ?_
  refine .bind (writesNothing_snapshotExists _) fun fromSnapshot => .bind ?_ fun _ =>
    Prog.performs_pure
  exact .ite (fun _ => writesNothing_copySnapshot _ _) fun _ => writesNothing_copyImage _ _

/-! ## The create requests -/

/-- Every record that the code writes is one of a create request. -/
abbrev WritesOf (m : RuntimeManager) (name : String) {α : Type} (p : Program α) : Prop :=
  p.Performs fun o => ∀ record, o = .writeRegistry record → Written m name record

lemma WritesOf.of_nothing {α : Type} {p : Program α} (h : WritesNothing p) : WritesOf m name p := by
  refine h.mono fun o ho record heq => ?_
  rw [heq] at ho
  cases ho

lemma WritesOf.of_plain {α : Type} {p : Program α} (h : Plain p) : WritesOf m name p :=
  WritesOf.of_nothing (Plain.writesNothing h)

lemma writesOf_writeRegistry (h : Written m name record) :
    WritesOf m name (writeRegistry record) := by
  refine .bind (performs_op fun record' heq => ?_) fun _ => performs_ofExcept
  rwa [← Op.writeRegistry.inj heq]

lemma writesOf_cleaningUp {α : Type} {attempt : Program α} (h : WritesOf m name attempt) :
    WritesOf m name (cleaningUp m name attempt) :=
  .tryCatch h fun _ => WritesOf.of_plain (.bind (plain_destroy _ _) fun _ => trivial)

lemma writesOf_createJailTry (owner : RuntimeOwner) (address : IPv4Address)
    (jailRoot publicKey : String) :
    WritesOf m name (createJailTry m name publicKey address (m.jailDataset name) jailRoot
      (jailRecord m name owner address (m.jailDataset name) jailRoot)) := by
  have hrun : ∀ command, WritesOf m name (run command) :=
    fun command => WritesOf.of_nothing (performs_run rfl)
  refine .bind (hrun _) fun _ => ?_
  refine .bind (WritesOf.of_plain (plain_installJailAuthorizedKey _ _)) fun _ => ?_
  refine .bind (hrun _) fun epair => ?_
  generalize newEpairHost epair.stdout = host
  refine .bind performs_ofExcept fun epairHost => ?_
  refine .bind (hrun _) fun _ => .bind (hrun _) fun _ => .bind (hrun _) fun _ => ?_
  refine .bind (hrun _) fun _ => .bind (hrun _) fun _ => ?_
  exact .bind (writesOf_writeRegistry (.jailDone _ _ _ _)) fun _ => Prog.performs_pure

/-- What the disk backends make of the first record of a VM. -/
def DiskRecord (m : RuntimeManager) (name : String) (record record' : RuntimeRecord) : Prop :=
  ∃ dataset mdUnit, (dataset = record.dataset ∨ dataset = .str (m.vmDataset name))
    ∧ record' = { record with dataset := dataset, mdUnit := mdUnit }

lemma returns_createVmDisk {key netconfig : String} {guestProfile : BhyveGuestProfile} :
    (createVmDisk m name key netconfig guestProfile record).Returns (DiskRecord m name record) := by
  refine .bind fun clones => .ite ?_ (.ite ?_ ?_)
  · exact .bind fun _ => .bind fun _ => .bind fun _ => .bind fun _ =>
      ⟨.str (m.vmDataset name), record.mdUnit, .inr rfl, rfl⟩
  · exact .bind fun md => .bind fun _ => .bind fun _ => ⟨record.dataset, .str md, .inl rfl, rfl⟩
  · exact .bind fun _ => ⟨record.dataset, record.mdUnit, .inl rfl, rfl⟩

lemma writesOf_op {o : Op} (ho : o.writesNothing = true) : WritesOf m name (op o) :=
  WritesOf.of_nothing (performs_op ho)

lemma writesOf_run (command : Command) (check : Bool) : WritesOf m name (run command check) :=
  WritesOf.of_nothing (performs_run rfl)

lemma writesOf_serialized {α : Type} {body : Program α} (h : WritesOf m name body) :
    WritesOf m name (serializedByName name body) :=
  .bind (writesOf_op rfl) fun _ => .bind (writesOf_op rfl) fun _ => .finallyDo h (writesOf_op rfl)

lemma writesOf_createVmDisk {key netconfig : String} {guestProfile : BhyveGuestProfile} :
    WritesOf m name (createVmDisk m name key netconfig guestProfile record) := by
  have hexists : ∀ dataset, WritesOf m name (datasetExists dataset) :=
    fun _ => WritesOf.of_nothing (performs_succeeds rfl)
  refine .bind ?_ fun clones => .ite (fun _ => ?_) fun _ => .ite (fun _ => ?_) fun _ => ?_
  · exact .ite (fun _ => WritesOf.of_nothing (writesNothing_snapshotExists _)) fun _ => trivial
  · refine .bind (writesOf_run _ _) fun _ => .bind (hexists _) fun _ => ?_
    refine .bind (performs_when fun _ => .bind (writesOf_run _ _) fun _ => trivial) fun _ => ?_
    exact .bind (writesOf_run _ _) fun _ => Prog.performs_pure
  · refine .bind (WritesOf.of_nothing (writesNothing_createMemdisk _ _)) fun md => ?_
    refine .bind (writesOf_run _ _) fun _ => .bind ?_ fun _ => Prog.performs_pure
    exact .bind (writesOf_run _ _) fun _ => .bind (writesOf_run _ _) fun _ => trivial
  · exact .bind (writesOf_run _ _) fun _ => Prog.performs_pure

lemma writesOf_createBhyveTry (owner : RuntimeOwner) (address : IPv4Address) (profile : String)
    (guestProfile : BhyveGuestProfile) :
    WritesOf m name (createBhyveTry m name address profile guestProfile
      (bhyveRecord m name owner address profile guestProfile)) := by
  refine .bind_of_returns writesOf_createVmDisk returns_createVmDisk ?_
  rintro _ ⟨dataset, mdUnit, hdataset, rfl⟩
  refine .bind
    (writesOf_writeRegistry (.bhyveDone owner address profile guestProfile dataset mdUnit hdataset))
    fun _ => ?_
  exact .bind (writesOf_run _ _) fun _ => Prog.performs_pure

/-- **Every record that `create_jail` writes** is one of `Written`. -/
theorem createJail_writes (ownerPid : ℤ) (peer : PeerCredentials) (publicKey : String) :
    WritesOf m name (createJail m name ownerPid peer publicKey) := by
  refine writesOf_serialized (performs_validateName ?_)
  generalize validateSshPublicKey publicKey = key
  refine .bind performs_ofExcept fun key => ?_
  refine .bind (WritesOf.of_plain (plain_ownerFromPeer _ _)) fun owner => ?_
  refine .bind (WritesOf.of_plain (plain_reconcileRegistered _)) fun _ => ?_
  refine .bind (WritesOf.of_plain (plain_reconcileOrphaned _)) fun _ => ?_
  refine .bind (WritesOf.of_plain plain_ensureBridge) fun _ => ?_
  refine .bind (WritesOf.of_plain (plain_resolve _)) fun jailRoot => ?_
  refine .bind (WritesOf.of_plain plain_allocate) fun address => ?_
  refine .bind (writesOf_run _ _) fun _ => ?_
  refine .bind (writesOf_writeRegistry (.jail _ _ _)) fun _ => ?_
  exact writesOf_cleaningUp (writesOf_createJailTry _ _ _ _)

/-- **Every record that `create_bhyve` writes** is one of `Written`. -/
theorem createBhyve_writes (ownerPid : ℤ) (peer : PeerCredentials) (publicKey profile : String) :
    WritesOf m name (createBhyve m name ownerPid peer publicKey profile) := by
  refine writesOf_serialized (performs_validateName ?_)
  generalize validateSshPublicKey publicKey = key
  refine .bind performs_ofExcept fun key => ?_
  cases BHYVE_PROFILES.lookup profile with
  | none => trivial
  | some guestProfile =>
      refine .bind (WritesOf.of_plain (plain_ownerFromPeer _ _)) fun owner => ?_
      refine .bind (WritesOf.of_nothing (performs_requireVmBackend rfl)) fun _ => ?_
      refine .bind (WritesOf.of_plain (plain_reconcileRegistered _)) fun _ => ?_
      refine .bind (WritesOf.of_plain plain_ensureBridge) fun _ => ?_
      refine .bind (WritesOf.of_plain plain_ensureVmSwitch) fun _ => ?_
      refine .bind (WritesOf.of_nothing (performs_succeeds rfl)) fun _ => ?_
      refine .bind (performs_when fun _ => trivial) fun _ => ?_
      refine .bind (WritesOf.of_plain plain_allocate) fun address => ?_
      refine .bind (writesOf_run _ _) fun _ => ?_
      refine .bind (writesOf_writeRegistry (.bhyve _ _ _ _)) fun _ => ?_
      refine .bind (writesOf_cleaningUp (WritesOf.of_plain (plain_file _))) fun _ => ?_
      refine .finallyDo (writesOf_cleaningUp (writesOf_createBhyveTry _ _ _ _)) ?_
      exact .bind (writesOf_op rfl) fun _ => .ite (fun _ => WritesOf.of_plain (plain_file _))
        fun _ => trivial

end FreebsdLaboratory
