import FreebsdLaboratory.Library.Solo
import FreebsdLaboratory.Protocol.Coherence
import FreebsdLaboratory.Protocol.Obedience

/-!
# A lifecycle method on its own

`alone` runs a piece of the daemon's code with the world to itself, and keeps the steps it has
taken.  The functions that `destroy` is made of are read once for the operations they perform; what
one such operation leaves alone, the function leaves alone (`Prog.Performs.keeps`).
-/

namespace FreebsdLaboratory

open Library Program

variable {m : RuntimeManager} {reentrant : Bool} {runtime name : String} {record : RuntimeRecord}
variable {ok : Op → Answer → Bool} {α β : Type} {P : Op → Prop}

/-- An operation of the daemon, with the world before it and the environment's part in it. -/
abbrev Taken : Type := Step Op.Resp World Answer

/-- The world, and the steps taken so far. -/
abbrev Alone : Type := Solo Op.Resp World Answer

/-- The protocol of the daemon's code on its own; `ok` says what the environment may answer. -/
abbrev alone (m : RuntimeManager) (reentrant : Bool) (runtime : String) (ok : Op → Answer → Bool) :
    Protocol Op.Resp Alone :=
  solo (exec m reentrant 0 runtime) ok

/-- Nothing has happened yet. -/
def World.alone (w : World) : Alone := ⟨w, []⟩

/-- One operation on its own. -/
theorem alone_op {s : Alone} {o : Op} {Q : o.Resp → Alone → Prop} {R : PyError → Alone → Prop}
    (h : ∀ a r w', ok o a = true → exec m reentrant 0 runtime s.world o a = some (r, w') →
      Q r ⟨w', ⟨s.world, o, a, r⟩ :: s.past⟩) :
    (op o).Obeys (alone m reentrant runtime ok) Q R s :=
  Solo.obeys_op.mpr h

section Run

variable {s : Alone} {command : Command} {Q : Completed → Alone → Prop} {R : PyError → Alone → Prop}

/-- A command whose status is looked at, where nothing is asked of an exception. -/
theorem alone_run (hR : ∀ e s, R e s)
    (hcompleted : ∀ a code out w', ok (.run command) a = true →
      exec m reentrant 0 runtime s.world (.run command) a = some (.completed code out, w') →
      Q ⟨code, out⟩ ⟨w', ⟨s.world, .run command, a, .completed code out⟩ :: s.past⟩)
    (herror : ∀ a w', ok (.run command) a = true →
      exec m reentrant 0 runtime s.world (.run command) a = some (.osError, w') →
      Q ⟨127, ""⟩ ⟨w', ⟨s.world, .run command, a, .osError⟩ :: s.past⟩) :
    (run command false).Obeys (alone m reentrant runtime ok) Q R s := by
  refine Prog.obeys_bind.mpr (alone_op fun a r w' hok hexec => ?_)
  cases r with
  | timeoutExpired => exact hR _ _
  | raises error => exact hR _ _
  | osError => exact herror a w' hok hexec
  | completed code out =>
      rw [if_neg (by simp)]
      exact hcompleted a code out w' hok hexec

/-- A command that has to exit with status 0. -/
theorem alone_run_checked (hR : ∀ e s, R e s)
    (hdone : ∀ a out w', ok (.run command) a = true →
      exec m reentrant 0 runtime s.world (.run command) a = some (.completed 0 out, w') →
      Q ⟨0, out⟩ ⟨w', ⟨s.world, .run command, a, .completed 0 out⟩ :: s.past⟩) :
    (run command).Obeys (alone m reentrant runtime ok) Q R s := by
  refine Prog.obeys_bind.mpr (alone_op fun a r w' hok hexec => ?_)
  cases r with
  | timeoutExpired => exact hR _ _
  | raises error => exact hR _ _
  | osError => exact hR _ _
  | completed code out =>
      by_cases hcode : code = 0
      · subst hcode
        exact hdone a out w' hok hexec
      · dsimp only
        rw [if_pos (And.intro rfl hcode)]
        exact hR _ _

end Run

/-- Code keeps what every one of its operations keeps. -/
lemma performs_keeps {I : Alone → Prop} {p : Program α} (hp : p.Performs P)
    (hstep : ∀ (s : Alone) (o : Op) a r w', P o → I s →
      exec m reentrant 0 runtime s.world o a = some (r, w') → I ⟨w', ⟨s.world, o, a, r⟩ :: s.past⟩)
    {s : Alone} (hs : I s) :
    p.Obeys (alone m reentrant runtime ok) (fun _ => I) (fun _ => I) s := by
  refine hp.keeps (fun _ _ _ => trivial) ?_ hs
  rintro s o r s' ho hs ⟨a, w', -, hexec, rfl⟩
  exact hstep s o a r w' ho hs hexec

/-- A piece of code keeps what every step keeps. -/
lemma alone_keeps {I : Alone → Prop} (hstep : ∀ (s : Alone) (o : Op) a r w', I s →
      exec m reentrant 0 runtime s.world o a = some (r, w') → I ⟨w', ⟨s.world, o, a, r⟩ :: s.past⟩)
    {s : Alone} (hs : I s) (p : Program α) :
    p.Obeys (alone m reentrant runtime ok) (fun _ => I) (fun _ => I) s :=
  performs_keeps p.performs_true (fun s o a r w' _ hs hexec => hstep s o a r w' hs hexec) hs

/-- A command that is tried at least once: what its first attempt brings about, and every step
keeps. -/
lemma removeWith_obeys {I : Alone → Prop} {s : Alone} {command : Command} {label : String}
    (hstep : ∀ (s : Alone) (o : Op) a r w', I s →
      exec m reentrant 0 runtime s.world o a = some (r, w') → I ⟨w', ⟨s.world, o, a, r⟩ :: s.past⟩)
    (hfirst : ∀ a r w', exec m reentrant 0 runtime s.world (.run command) a = some (r, w') →
      I ⟨w', ⟨s.world, .run command, a, r⟩ :: s.past⟩) (attempts : ℕ) :
    (removeWith (attempts + 1) command label).Obeys (alone m reentrant runtime ok) (fun _ => I)
      (fun _ => I) s := by
  refine Prog.obeys_bind.mpr (Prog.obeys_bind.mpr (Prog.obeys_bind.mpr (Prog.obeys_bind.mpr ?_)))
  refine alone_op fun a r w' _ hexec => ?_
  refine (alone_keeps hstep (hfirst a r w' hexec) _).mono (fun _ s hs => ?_) fun _ _ hs => hs
  refine (alone_keeps hstep hs _).mono (fun _ s hs => ?_) fun _ _ hs => hs
  exact (alone_keeps hstep hs _).mono (fun _ _ hs => hs) fun _ _ hs => hs

/-! ## Processes -/

/-- What `ps` has to say of a process that is alive. -/
def World.identityOf (w : World) (pid : ℤ) : Option ProcessIdentity :=
  (w.processOf pid).bind fun p => parseProcessIdentity pid (World.psLine p)

lemma identityOf_congr {w w' : World} (h : w'.processes = w.processes) (pid : ℤ) :
    w'.identityOf pid = w.identityOf pid := by
  unfold World.identityOf World.processOf
  rw [h]

/-- A readable output of `ps` is what it has to say of the peer's process. -/
lemma identityOf_of_ps {w : World} {exit : Exit} {stdout : String} {identity : ProcessIdentity}
    {pid : ℤ}
    (hps : w.ps pid exit = .completed 0 stdout)
    (hparse : parseProcessIdentity pid stdout = some identity) :
    w.identityOf pid = some identity := by
  have htruthful : ∀ out, w.ps pid .truthful = .completed 0 out →
      parseProcessIdentity pid out = some identity → w.identityOf pid = some identity := by
    intro out hout hparse
    unfold World.identityOf
    simp only [World.ps] at hout
    cases hprocess : w.processOf pid with
    | none => simp [hprocess] at hout
    | some p =>
        rw [hprocess] at hout
        obtain ⟨-, rfl⟩ := RunOutcome.completed.inj hout
        exact hparse
  cases exit with
  | truthful => exact htruthful stdout hps hparse
  | status code out effect =>
      cases code with
      | zero =>
          simp only [World.ps] at hps
          split_ifs at hps with hnone
          · obtain ⟨-, rfl⟩ := RunOutcome.completed.inj hps
            rw [hparse] at hnone
            cases hnone
          · exact htruthful stdout hps hparse
      | succ n => simp [World.ps] at hps
  | timeoutExpired effect => simp [World.ps] at hps
  | undecodable effect => simp [World.ps] at hps
  | cannotExecute => simp [World.ps] at hps

/-! ## What the functions perform -/

lemma performs_op {o : Op} (h : P o) : (op o).Performs P := Prog.performs_op.mpr h

lemma performs_ofExcept {x : Except PyError α} : (ofExcept x).Performs P := Prog.performs_ofExcept

lemma performs_raise (e : PyError) : (raise e : Program α).Performs P := trivial

lemma performs_when {c : Prop} [Decidable c] {p : Program Unit} (hp : c → p.Performs P) :
    (when c p).Performs P :=
  .ite hp fun _ => trivial

lemma performs_run {command : Command} {check : Bool} (h : P (.run command)) :
    (run command check).Performs P := by
  refine .bind (performs_op h) fun outcome => ?_
  cases outcome with
  | timeoutExpired => trivial
  | raises error => trivial
  | osError => exact .ite (fun _ => trivial) fun _ => trivial
  | completed returncode stdout => exact .ite (fun _ => trivial) fun _ => trivial

lemma performs_succeeds {command : Command} (h : P (.run command)) :
    (succeeds command).Performs P :=
  .bind (performs_run h) fun _ => trivial

lemma performs_retry {attempt : Program Bool} (h : attempt.Performs P) (attempts : ℕ) :
    (retry attempt attempts).Performs P := by
  induction attempts with
  | zero => trivial
  | succ attempts ih => exact .bind h fun _ => .ite (fun _ => trivial) fun _ => ih

lemma performs_removeWith {attempts : ℕ} {command : Command} {label : String}
    (h : P (.run command)) : (removeWith attempts command label).Performs P :=
  .bind (performs_retry (performs_succeeds h) attempts) fun _ => trivial

lemma performs_labelIf {probe : Program Bool} {label : String} (h : probe.Performs P) :
    (labelIf probe label).Performs P :=
  .bind h fun _ => trivial

lemma performs_requireVmBackend (h : P .vmAvailable) : (requireVmBackend m).Performs P :=
  .bind (performs_op h) fun _ => .ite (fun _ => trivial) fun _ => trivial

lemma performs_vmExists (h : P .vmAvailable) (hinfo : P (.run (.vmInfo name))) :
    (vmExists name).Performs P :=
  .bind (performs_op h) fun _ => .ite (fun _ => performs_succeeds hinfo) fun _ => trivial

lemma performs_destroyVm (h : P .vmAvailable) (hinfo : P (.run (.vmInfo name)))
    (hpoweroff : P (.run (.vmPoweroff name))) (hdestroy : P (.run (.vmDestroy name))) :
    (destroyVm m name record).Performs P := by
  refine .bind (performs_when fun _ => performs_requireVmBackend h) fun _ => ?_
  refine .bind (.ite (fun _ => trivial) fun _ => performs_vmExists h hinfo) fun present => ?_
  exact .ite (fun _ => .bind (performs_run hpoweroff) fun _ => performs_removeWith hdestroy)
    fun _ => trivial

lemma performs_destroyMd
    (h : ∀ md, record.mdUnit = .str md → P (.run (.mdconfigDetach (unitNumber md)))) :
    (destroyMd record).Performs P := by
  unfold destroyMd
  split
  · exact .ite (fun _ => performs_removeWith (h _ ‹_›)) fun _ => trivial
  · trivial

lemma performs_destroyDataset {dataset : String} (hlist : P (.run (.zfsListDataset dataset)))
    (hdestroy : P (.run (.zfsDestroyRecursive dataset))) : (destroyDataset dataset).Performs P :=
  .bind (performs_succeeds hlist) fun _ => .ite (fun _ => performs_removeWith hdestroy)
    fun _ => trivial

lemma performs_destroyRecordedDataset
    (hlist : ∀ dataset, record.dataset = .str dataset → P (.run (.zfsListDataset dataset)))
    (hdestroy : ∀ dataset, record.dataset = .str dataset →
      P (.run (.zfsDestroyRecursive dataset))) :
    (destroyRecordedDataset record).Performs P := by
  unfold destroyRecordedDataset
  split
  · exact performs_destroyDataset (hlist _ ‹_›) (hdestroy _ ‹_›)
  · trivial
  · trivial

lemma performs_destroyJail (hjls : P (.run (.jlsName name)))
    (hremove : P (.run (.jailRemove name))) :
    (destroyJail name record).Performs P := by
  refine .bind (.ite (fun _ => trivial) fun _ => performs_succeeds hjls) fun present => ?_
  exact .ite (fun _ => performs_removeWith hremove) fun _ => trivial

lemma performs_destroyEpair
    (h : ∀ epair, record.epairHost = .str epair → P (.run (.ifconfigDestroy epair))) :
    (destroyEpair record).Performs P := by
  unfold destroyEpair
  split
  · exact .ite (fun _ => performs_removeWith (h _ ‹_›)) fun _ => trivial
  · trivial

/-- The commands that probe for a resource. -/
def Command.isExistenceProbe : Command → Bool
  | jlsName _ | vmInfo _ | zfsListDataset _ | ifconfigShow _ | mdconfigQuery _ => true
  | _ => false

/-- The final probes are probes for resources. -/
lemma performs_remainingResources (h : P .vmAvailable)
    (hprobe : ∀ command : Command, command.isExistenceProbe = true → P (.run command)) :
    (remainingResources m name record).Performs P := by
  refine .bind (performs_labelIf (performs_vmExists h (hprobe _ rfl))) fun _ => ?_
  refine .bind (performs_labelIf (performs_succeeds (hprobe _ rfl))) fun _ => ?_
  refine .bind ?_ fun _ => ?_
  · unfold remainingEpair
    split
    · exact .ite (fun _ => performs_labelIf (performs_succeeds (hprobe _ rfl))) fun _ => trivial
    · trivial
  refine .bind ?_ fun _ => ?_
  · unfold remainingMd
    split
    · refine .ite (fun _ => performs_labelIf ?_) fun _ => trivial
      exact .ite (fun _ => performs_succeeds (hprobe _ rfl)) fun _ => trivial
    · trivial
  refine .bind ?_ fun _ => .bind (performs_labelIf (performs_succeeds (hprobe _ rfl)))
    fun _ => trivial
  unfold remainingDataset
  split
  · exact performs_labelIf (performs_succeeds (hprobe _ rfl))
  · trivial
  · trivial

lemma performs_forget (hrelease : ∀ guestIp, record.guestIp = .str guestIp →
    P (.leaseRelease guestIp name))
    (harp : ∀ guestIp, record.guestIp = .str guestIp → P (.run (.arpDelete guestIp)))
    (hdelete : P (.deleteRegistry name)) : (forget name record).Performs P := by
  refine .bind ?_ fun _ => .bind (performs_op hdelete) fun _ => performs_ofExcept
  unfold forgetAddress
  split
  · refine performs_when fun _ => .bind (performs_op (hrelease _ ‹_›)) fun _ => ?_
    exact .bind performs_ofExcept fun _ => .bind (performs_run (harp _ ‹_›)) fun _ => trivial
  · trivial
  · trivial

/-- An external command, or the question whether `vm` is there. -/
def Op.IsCommand (o : Op) : Prop := o = .vmAvailable ∨ ∃ command, o = .run command

lemma isCommand_run (command : Command) : (Op.run command).IsCommand := .inr ⟨command, rfl⟩

/-- The removing blocks and the final probes of `destroy`. -/
def tearDown (m : RuntimeManager) (name : String) (record : RuntimeRecord) :
    Program (List String × List String) := do
  let vm ← destroyVm m name record
  let md ← destroyMd record
  let recorded ← destroyRecordedDataset record
  let jail ← destroyJail name record
  let epair ← destroyEpair record
  let dataset ← destroyDataset (m.jailDataset name)
  let remaining ← remainingResources m name record
  pure (vm ++ md ++ recorded ++ jail ++ epair ++ dataset, remaining)

/-- Up to its last phase `destroy` runs commands only. -/
lemma performs_tearDown : (tearDown m name record).Performs Op.IsCommand := by
  have hvm : Op.vmAvailable.IsCommand := .inl rfl
  refine .bind (performs_destroyVm hvm (isCommand_run _) (isCommand_run _) (isCommand_run _))
    fun _ => ?_
  refine .bind (performs_destroyMd fun _ _ => isCommand_run _) fun _ => ?_
  refine .bind (performs_destroyRecordedDataset (fun _ _ => isCommand_run _)
    fun _ _ => isCommand_run _) fun _ => ?_
  refine .bind (performs_destroyJail (isCommand_run _) (isCommand_run _)) fun _ => ?_
  refine .bind (performs_destroyEpair fun _ _ => isCommand_run _) fun _ => ?_
  refine .bind (performs_destroyDataset (isCommand_run _) (isCommand_run _)) fun _ => ?_
  exact .bind (performs_remainingResources hvm fun _ _ => isCommand_run _) fun _ => trivial

/-- What follows the removing blocks. -/
def finish (name : String) (record : RuntimeRecord) (removed remaining : List String) :
    Program DestroyResult := do
  when (remaining ≠ []) (raise (.runtimeError
    ("Runtime cleanup incomplete for " ++ name ++ ": " ++ ", ".intercalate remaining)))
  forget name record
  pure ⟨name, removed⟩

/-- `destroy` once it has read and authorized the record. -/
def destroyRecord (m : RuntimeManager) (name : String) (record : RuntimeRecord) :
    Program DestroyResult := do
  let (removed, remaining) ← tearDown m name record
  finish name record removed remaining

/-- The commands of `destroy`. -/
def Command.isTeardown : Command → Bool
  | vmInfo _ | vmPoweroff _ | vmDestroy _ | mdconfigDetach _ | mdconfigQuery _ | zfsListDataset _
  | zfsDestroyRecursive _ | jlsName _ | jailRemove _ | ifconfigDestroy _ | ifconfigShow _
  | arpDelete _ => true
  | _ => false

/-- Behind the check of the name, the name is the one that was given. -/
lemma performs_validateName {f : String → Program α} (h : (f name).Performs P) :
    (ofExcept (validateName name) >>= f).Performs P := by
  unfold validateName
  split_ifs
  · exact h
  · trivial

/-- What `destroy` performs inside its lock. -/
lemma performs_destroyBody {requesterUid : Option ℕ} {force : Bool} (hload : P (.loadRegistry name))
    (hvm : P .vmAvailable) (hrun : ∀ command : Command, command.isTeardown = true →
      P (.run command))
    (hrelease : ∀ guestIp, P (.leaseRelease guestIp name)) (hdelete : P (.deleteRegistry name)) :
    (destroyBody m name requesterUid force).Performs P := by
  refine performs_validateName ?_
  refine .bind (.bind (performs_op hload) fun _ => performs_ofExcept) fun x => ?_
  refine .bind (performs_when fun _ => performs_ofExcept) fun _ => ?_
  refine .bind (performs_destroyVm hvm (hrun _ rfl) (hrun _ rfl) (hrun _ rfl)) fun _ => ?_
  refine .bind (performs_destroyMd fun _ _ => hrun _ rfl) fun _ => ?_
  refine .bind (performs_destroyRecordedDataset (fun _ _ => hrun _ rfl) fun _ _ => hrun _ rfl)
    fun _ => ?_
  refine .bind (performs_destroyJail (hrun _ rfl) (hrun _ rfl)) fun _ => ?_
  refine .bind (performs_destroyEpair fun _ _ => hrun _ rfl) fun _ => ?_
  refine .bind (performs_destroyDataset (hrun _ rfl) (hrun _ rfl)) fun _ => ?_
  refine .bind (performs_remainingResources hvm fun command hprobe => hrun _ ?_) fun _ => ?_
  · cases command <;> first | rfl | cases hprobe
  refine .bind (performs_when fun _ => trivial) fun _ => ?_
  exact .bind (performs_forget (fun _ _ => hrelease _) (fun _ _ => hrun _ rfl) hdelete)
    fun _ => trivial

/-- All that a `destroy` performs. -/
lemma performs_destroy {requesterUid : Option ℕ} {force : Bool} (hentry : P (.runtimeLock name))
    (hlock : ∀ lock, P (.acquire lock) ∧ P (.release lock)) (hload : P (.loadRegistry name))
    (hvm : P .vmAvailable) (hrun : ∀ command : Command, command.isTeardown = true →
      P (.run command))
    (hrelease : ∀ guestIp, P (.leaseRelease guestIp name)) (hdelete : P (.deleteRegistry name)) :
    (destroy m name requesterUid force).Performs P :=
  .bind (performs_op hentry) fun _ => .bind (performs_op (hlock _).1) fun _ =>
    .finallyDo (performs_destroyBody hload hvm hrun hrelease hdelete) (performs_op (hlock _).2)

lemma performs_queryProcessIdentity {pid : ℤ} (hkill : P (.kill pid)) (hps : P (.ps pid)) :
    (queryProcessIdentity pid).Performs P := by
  refine .bind (.ite (fun _ => trivial) fun _ => .bind (performs_op hkill) fun _ =>
    performs_ofExcept) fun _ => .ite (fun _ => .bind (performs_op hps) fun outcome => ?_)
      fun _ => trivial
  split <;> trivial

/-- The owner of a request is found by looking at the peer's process. -/
lemma performs_ownerFromPeer {peer : PeerCredentials} {pid : ℤ} (hkill : P (.kill peer.pid))
    (hps : P (.ps peer.pid)) : (ownerFromPeer peer pid).Performs P := by
  refine .bind performs_ofExcept fun _ => .ite (fun _ => trivial) fun _ => ?_
  refine .bind (performs_queryProcessIdentity hkill hps) fun identity => ?_
  cases identity with
  | none => trivial
  | some identity => exact .ite (fun _ => trivial) fun _ => trivial

lemma performs_ownerAlive (h : ∀ pid, P (.kill pid) ∧ P (.ps pid)) :
    (ownerAlive record).Performs P := by
  unfold ownerAlive
  split
  · refine .ite (fun _ => trivial) fun _ => .ite (fun _ => trivial) fun _ => ?_
    refine .bind (performs_queryProcessIdentity (h _).1 (h _).2) fun identity => ?_
    cases identity <;> trivial
  · refine .ite (fun _ => trivial) fun _ => ?_
    exact .bind (performs_queryProcessIdentity (h _).1 (h _).2) fun _ => trivial
  · trivial

lemma performs_registered (hnames : P .registryNames) (hload : ∀ name, P (.loadRegistry name)) :
    registered.Performs P := by
  refine .bind (performs_op hnames) fun names => ?_
  induction names with
  | nil => trivial
  | cons name names ih =>
      refine .ite (fun _ => .bind (.bind (performs_op (hload _)) fun _ => performs_ofExcept)
        fun x => ?_)
        fun _ => ih
      cases x with
      | none => exact ih
      | some record => exact .bind ih fun _ => trivial

lemma performs_discoverJails (h : P (.run .jlsAll)) : discoverJails.Performs P :=
  .bind (performs_run h) fun _ => .ite (fun _ => trivial) fun _ => trivial

lemma performs_discoverVms (h : P .vmAvailable) (hlist : P (.run .vmList)) :
    discoverVms.Performs P :=
  .bind (performs_op h) fun _ => .ite (fun _ => .bind (performs_run hlist) fun _ =>
    .ite (fun _ => trivial) fun _ => trivial) fun _ => trivial

lemma performs_discoverDatasets (h : P (.run .zfsListChildren)) : (discoverDatasets m).Performs P :=
  .bind (performs_run h) fun _ => .ite (fun _ => trivial) fun _ => trivial

lemma performs_bridgeEpairs (h : P (.run .ifconfigBridge)) : bridgeEpairs.Performs P :=
  .bind (performs_run h) fun _ => .ite (fun _ => trivial) fun _ => trivial

lemma performs_gcEpairs (h : ∀ interface, P (.run (.ifconfigDestroy interface)))
    (interfaces : List String) : (gcEpairs interfaces).Performs P := by
  induction interfaces with
  | nil => trivial
  | cons interface interfaces ih =>
      exact .bind (performs_succeeds (h interface)) fun _ => .bind ih fun _ => Prog.performs_pure

lemma performs_forgetAddresses (h : ∀ address, P (.run (.arpDelete address)))
    (addresses : List String) : (forgetAddresses addresses).Performs P := by
  induction addresses with
  | nil => trivial
  | cons address addresses ih =>
      exact .bind (.bind (performs_run (h address)) fun _ => trivial) fun _ => ih

/-! ## Up to the record -/

/-- An operation in front of the removing blocks, or the release of the lock behind them. -/
def Op.isPrelude : Op → Bool
  | .runtimeLock _ | .acquire _ | .release _ | .loadRegistry _ => true
  | _ => false

/-- Only such operations so far, and nothing but locks has changed. -/
structure Settled (w : World) (s : Alone) : Prop where
  host : s.world.host = w.host
  registry : s.world.registry = w.registry
  leases : s.world.leases = w.leases
  prelude : ∀ st ∈ s.past, st.op.isPrelude = true

lemma Settled.step {w w' : World} {s : Alone} {o : Op} {a : Answer} {r : o.Resp}
    (h : Settled w s) (ho : o.isPrelude = true)
    (hexec : exec m reentrant 0 runtime s.world o a = some (r, w')) :
    Settled w ⟨w', ⟨s.world, o, a, r⟩ :: s.past⟩ := by
  have hframe := exec_frame hexec
  have htouch : o.touchesHost = false ∧ o.touchesRegistry = false ∧ o.touchesLeases = false := by
    cases o <;> first | exact ⟨rfl, rfl, rfl⟩ | cases ho
  exact ⟨(hframe.host htouch.1).trans h.host, (hframe.registry htouch.2.1).trans h.registry,
    (hframe.leases htouch.2.2).trans h.leases, List.forall_mem_cons.mpr ⟨ho, h.prelude⟩⟩

/-- The release of a lock keeps `Q`. -/
def KeptByRelease (m : RuntimeManager) (reentrant : Bool) (runtime : String) (Q : Alone → Prop) :
    Prop :=
  ∀ s lock a r w', exec m reentrant 0 runtime s.world (.release lock) a = some (r, w') → Q s →
    Q ⟨w', ⟨s.world, .release lock, a, r⟩ :: s.past⟩

/-- The record that a `destroy` works on. -/
def World.recordOf (w : World) (name : String) : RuntimeRecord := (w.registry.get? name).getD {}

lemma getD_of_load {w : World} {x : Option RuntimeRecord} (h : w.load name = .ok x) :
    x.getD {} = w.recordOf name := by
  unfold World.load at h
  unfold World.recordOf Registry.get?
  cases hlookup : w.registry.lookup name with
  | none =>
      rw [hlookup] at h
      rw [← Except.ok.inj h]
  | some file =>
      rw [hlookup] at h
      cases file with
      | record r => rw [← Except.ok.inj h]
      | invalid e => cases h

/-- **A `destroy` on its own** is refused while nothing but locks has changed, or tears down what
the registry has for the name. -/
theorem destroy_alone {w : World} {Q : DestroyResult → Alone → Prop} {R : PyError → Alone → Prop}
    {requesterUid : Option ℕ} {force : Bool}
    (hQ : ∀ result, KeptByRelease m reentrant runtime (Q result))
    (hR : ∀ e, KeptByRelease m reentrant runtime (R e))
    (hrefused : ∀ e s, Settled w s → R e s)
    (hrecord : ∀ s, Settled w s → isRuntimeName name = true →
      (destroyRecord m name (w.recordOf name)).Obeys (alone m reentrant runtime ok) Q R s) :
    (destroy m name requesterUid force).Obeys (alone m reentrant runtime ok) Q R w.alone := by
  have hstart : Settled w w.alone := ⟨rfl, rfl, rfl, by simp [World.alone]⟩
  refine Prog.obeys_bind.mpr (alone_op fun a₁ r₁ w₁ _ hexec₁ => ?_)
  refine Prog.obeys_bind.mpr (alone_op fun a₂ r₂ w₂ _ hexec₂ => Prog.obeys_finallyDo.mpr ?_)
  have hlocked :=
    (hstart.step (o := .runtimeLock name) rfl hexec₁).step (o := .acquire _) rfl hexec₂
  refine Prog.Obeys.mono (Q := Q) (R := R) ?_
    (fun result s hs => alone_op fun a r w' _ hexec => hQ result s _ a r w' hexec hs)
    (fun e s hs => alone_op fun a r w' _ hexec => hR e s _ a r w' hexec hs)
  refine Prog.obeys_bind.mpr (Prog.obeys_ofExcept.mpr ⟨fun name' hname => ?_, fun e _ =>
    hrefused e _ hlocked⟩)
  obtain ⟨rfl, hname⟩ := validateName_eq_ok.mp hname
  refine Prog.obeys_bind.mpr (Prog.obeys_bind.mpr (alone_op fun a₃ r₃ w₃ _ hexec₃ => ?_))
  have hloaded := hlocked.step (o := .loadRegistry name') rfl hexec₃
  refine Prog.obeys_ofExcept.mpr ⟨fun x hx => ?_, fun e _ => hrefused e _ hloaded⟩
  have hget : x.getD {} = w.recordOf name' := by
    obtain ⟨hr, -⟩ := Prod.mk.inj (Option.some.inj hexec₃)
    rw [hx] at hr
    split_ifs at hr
    refine getD_of_load ((load_congr ?_ name').symm.trans hr)
    exact hlocked.registry
  dsimp only
  rw [hget]
  have hbody := hrecord _ hloaded hname
  simp only [destroyRecord, tearDown, finish, Prog.obeys_bind, Prog.obeys_pure] at hbody
  simp only [Prog.obeys_bind, Prog.obeys_pure]
  refine obeys_when.mpr ⟨fun _ => Prog.obeys_ofExcept.mpr ⟨fun _ _ => hbody, fun e _ =>
    hrefused e _ hloaded⟩, fun _ => hbody⟩

end FreebsdLaboratory
