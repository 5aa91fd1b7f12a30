import FreebsdLaboratory.Lifecycle.Isolation
import FreebsdLaboratory.Properties.LiveOwners
import FreebsdLaboratory.Properties.Refusals

/-!
# Reconciliation

At its startup the daemon collects what is left of runtimes whose owner is gone.  A runtime whose
own record can be read and whose own cleanup goes through is destroyed, whatever becomes of the
others, as long as nothing is raised outside of a `destroy`; then the collection returns its report
(`gc_returns_iff`).
-/

namespace FreebsdLaboratory

open Library Program Solo

variable {m : RuntimeManager} {name name' : String} {record : RuntimeRecord}
    {w w' : World} {s : Alone}
variable {o : Op} {a : Answer} {r : o.Resp} {α β : Type} {calls : Taken → List Taken → Prop}

/-! ## A runtime in trouble -/

/-- There is no `vm` for a VM. -/
def LacksVm (name : String) (st : Taken) : Prop :=
  ∃ before a record, st = ⟨before, .vmAvailable, a, false⟩ ∧ before.load name = .ok (some record)
    ∧ record.type.eqStr "bhyve" = true

/-- The probes that were made last have found something. -/
def leftOver : List Taken → Bool
  | ⟨_, .run command, _, .completed code _⟩ :: past =>
      command.isExistenceProbe && (code == 0 || leftOver past)
  | ⟨_, .run command, _, _⟩ :: past => command.isExistenceProbe && leftOver past
  | ⟨_, .vmAvailable, _, _⟩ :: past => leftOver past
  | _ => false

/-- A dataset or an address of the record cannot be an argument of a command. -/
def RuntimeRecord.IsUnencodable (record : RuntimeRecord) : Prop :=
  record.dataset = .surrogate ∨ record.guestIp = .surrogate

/-- The record is read, and no command can be about what it names. -/
def ReadsUnencodable (name : String) (st : Taken) : Prop :=
  ∃ before a record, st = ⟨before, .loadRegistry name, a, .ok (some record)⟩ ∧ record.IsUnencodable

/-- **The cleanup of the runtime has not gone through**: under its lock the code raises, there is no
`vm` for a VM, the record names what no command can be about, or the last probes find something. -/
def Troubled (name : String) (st : Taken) (past : List Taken) : Prop :=
  (st.before.held (.runtime name) ≠ none
      ∧ (Interrupted st = true ∨ LacksVm name st ∨ ReadsUnencodable name st))
    ∨ (st.op = .release (.runtime name) ∧ leftOver past = true)

/-- No process is the owner of the record. -/
def World.Stale (w : World) (record : RuntimeRecord) : Prop := ∀ pid, ¬ w.OwnerAlive record pid

/-! ## The owner -/

/-- An identity that has been read carries its own fingerprint. -/
lemma eq_of_parseProcessIdentity {pid : ℤ} {stdout : String} {identity : ProcessIdentity}
    (h : parseProcessIdentity pid stdout = some identity) :
    identity = ⟨pid, identity.uid, identity.startedAt, processDigest identity.uid
      identity.startedAt⟩ := by
  unfold parseProcessIdentity at h
  split at h
  · obtain ⟨uid, -, rfl⟩ := Option.map_eq_some_iff.mp h
    rfl
  · cases h

/-- An owner that is found alive is alive. -/
lemma ownerAlive_sound (hs : s.world.processes = w.processes) :
    (ownerAlive record).Obeys (alone m false "" fun _ _ => true)
      (fun alive _ => alive = true → ∃ pid, w.OwnerAlive record pid) (fun _ _ => True) s := by
  unfold ownerAlive
  split
  · rename_i ownerPid ownerUid digest hpid huid hdigest
    split_ifs with hnone
    · exact fun h => absurd h (by simp)
    rw [processMatches]
    split_ifs with hother
    · exact fun h => absurd h (by simp)
    refine Prog.obeys_bind.mpr ((queryProcessIdentity_known hs).mono (fun found s hfound => ?_)
      fun _ _ h => h)
    cases found with
    | none => exact fun h => absurd h (by simp)
    | some identity =>
        intro hmatches
        obtain ⟨hsameUid, hsameDigest⟩ := of_decide_eq_true hmatches
        have hidentity := hfound identity rfl
        obtain ⟨p, -, hparse⟩ := Option.bind_eq_some_iff.mp hidentity
        have heq := eq_of_parseProcessIdentity hparse
        rw [not_or, not_or] at hother
        lift ownerUid to ℕ using not_lt.mp hother.2.1
        refine ⟨ownerPid, RecordValue.asInt_eq_some.mp hpid, not_le.mp hother.1, ownerUid,
          identity.startedAt, RecordValue.asInt_eq_some.mp huid, ?_, ?_⟩
        · rw [RecordValue.asStr_eq_some.mp hdigest, ← hsameDigest, heq, hsameUid]
        · rw [hidentity, heq, hsameUid]
  · rename_i ownerPid ownerUid hpid huid hdigest
    split_ifs
    · exact fun h => absurd h (by simp)
    exact Prog.obeys_bind.mpr
      ((queryProcessIdentity_known hs).mono (fun _ _ _ h => absurd h (by simp))
      fun _ _ h => h)
  · exact fun h => absurd h (by simp)

/-! ## The cleanup of one runtime -/

/-- The lock of the runtime is held, and the registry has `x` for it. -/
structure Tending (name : String) (x : Option RuntimeRecord) (s : Alone) : Prop where
  held : s.world.held (.runtime name) ≠ none
  load : s.world.load name = .ok x
  unencodable : (x.getD {}).IsUnencodable → Sent (Troubled name) s.past

variable {x : Option RuntimeRecord}

lemma Tending.step (hs : Tending name x s) (hlocks : o.touchesLocks = false)
    (hregistry : o.touchesRegistry = false) (hexec : exec m false 0 "" s.world o a = some (r, w')) :
    Tending name x ⟨w', ⟨s.world, o, a, r⟩ :: s.past⟩ where
  held := by
    show w'.held _ ≠ none
    rw [(exec_frame hexec).held hlocks]
    exact hs.held
  load := (load_congr ((exec_frame hexec).registry hregistry) name).trans hs.load
  unencodable h := .inr (hs.unencodable h)

lemma Tending.troubled (hs : Tending name x s) (h : Interrupted ⟨s.world, o, a, r⟩ = true) :
    Sent (Troubled name) (⟨s.world, o, a, r⟩ :: s.past) :=
  sent_of_calls (.inl ⟨hs.held, .inl h⟩)

/-- Code of a `destroy` that raises only where the cleanup of the runtime is in trouble. -/
def Survives (m : RuntimeManager) (name : String) (x : Option RuntimeRecord) (p : Program α) :
    Prop :=
  ∀ s, Tending name x s → p.Obeys (alone m false "" fun _ _ => true) (fun _ => Tending name x)
    (fun _ s => Sent (Troubled name) s.past) s

lemma Survives.bind {p : Program α} {f : α → Program β} (hp : Survives m name x p)
    (hf : ∀ a, Survives m name x (f a)) : Survives m name x (p >>= f) :=
  fun s hs => Prog.obeys_bind.mpr ((hp s hs).mono (fun a s hs => hf a s hs) fun _ _ h => h)

lemma Survives.ite {c : Prop} [Decidable c] {p q : Program α} (hp : c → Survives m name x p)
    (hq : ¬ c → Survives m name x q) : Survives m name x (if c then p else q) := by
  split_ifs with h
  · exact hp h
  · exact hq h

lemma survives_pure (a : α) : Survives m name x (pure a) := fun _ hs => hs

lemma survives_run (command : Command) : Survives m name x (run command false) := by
  refine fun s hs => Prog.obeys_bind.mpr (alone_op fun a outcome w' _ hexec => ?_)
  have hnext := hs.step (o := .run command) rfl rfl hexec
  cases outcome with
  | timeoutExpired | raises e => exact hs.troubled (o := .run command) rfl
  | osError => exact hnext
  | completed code out =>
      dsimp only
      rw [if_neg (by simp)]
      exact hnext

lemma survives_succeeds (command : Command) : Survives m name x (succeeds command) :=
  (survives_run command).bind fun _ => survives_pure _

lemma survives_removeWith (attempts : ℕ) (command : Command) (label : String) :
    Survives m name x (removeWith attempts command label) := by
  refine Survives.bind ?_ fun _ => survives_pure _
  induction attempts with
  | zero => exact survives_pure _
  | succ attempts ih =>
      exact (survives_succeeds command).bind fun _ => .ite (fun _ => survives_pure _) fun _ => ih

lemma survives_vmAvailable : Survives m name x (op .vmAvailable) :=
  fun _ hs => alone_op fun _ _ _ _ hexec => hs.step (o := .vmAvailable) rfl rfl hexec

/-- A VM cannot be removed without `vm`. -/
lemma survives_requireVmBackend (htype : (x.getD {}).type.eqStr "bhyve" = true) :
    Survives m name x (requireVmBackend m) := by
  refine fun s hs => Prog.obeys_bind.mpr (alone_op fun a available w' _ hexec => ?_)
  have hnext := hs.step (o := .vmAvailable) rfl rfl hexec
  cases available with
  | true => exact hnext
  | false =>
      cases x with
      | none => cases htype
      | some record =>
          exact sent_of_calls (.inl ⟨hs.held, .inr (.inl ⟨_, a, record, rfl, hs.load, htype⟩)⟩)

lemma survives_vmExists : Survives m name x (vmExists name) :=
  survives_vmAvailable.bind fun _ => .ite (fun _ => survives_succeeds _) fun _ => survives_pure _

lemma survives_destroyDataset (dataset : String) : Survives m name x (destroyDataset dataset) :=
  (survives_succeeds _).bind fun _ => .ite (fun _ => survives_removeWith _ _ _)
  fun _ => survives_pure _

lemma survives_destroyVm : Survives m name x (destroyVm m name (x.getD {})) := by
  refine Survives.bind (.ite survives_requireVmBackend fun _ => survives_pure _) fun _ => ?_
  refine Survives.bind (.ite (fun _ => survives_pure _) fun _ => survives_vmExists)
    fun present => ?_
  exact .ite (fun _ => (survives_run _).bind fun _ => survives_removeWith _ _ _)
    fun _ => survives_pure _

lemma survives_destroyMd : Survives m name x (destroyMd record) := by
  unfold destroyMd
  split
  · exact .ite (fun _ => survives_removeWith _ _ _) fun _ => survives_pure _
  · exact survives_pure _

lemma survives_destroyRecordedDataset : Survives m name x (destroyRecordedDataset (x.getD {})) := by
  unfold destroyRecordedDataset
  split
  · exact survives_destroyDataset _
  · rename_i hdataset
    exact fun s hs => hs.unencodable (.inl hdataset)
  · exact survives_pure _

lemma survives_destroyJail : Survives m name x (destroyJail name record) := by
  refine Survives.bind (.ite (fun _ => survives_pure _) fun _ => survives_succeeds _)
    fun present => ?_
  exact .ite (fun _ => survives_removeWith _ _ _) fun _ => survives_pure _

lemma survives_destroyEpair : Survives m name x (destroyEpair record) := by
  unfold destroyEpair
  split
  · exact .ite (fun _ => survives_removeWith _ _ _) fun _ => survives_pure _
  · exact survives_pure _

/-! ### The last probes -/

/-- What the probes have found so far is what they found last. -/
structure Noted (name : String) (x : Option RuntimeRecord) (labels : List String) (s : Alone) :
    Prop where
  inside : Tending name x s
  leftOver : labels ≠ [] → leftOver s.past = true

/-- A probe that adds its findings. -/
def Notes (m : RuntimeManager) (name : String) (x : Option RuntimeRecord)
    (p : Program (List String)) : Prop :=
  ∀ labels s, Noted name x labels s → p.Obeys (alone m false "" fun _ _ => true)
    (fun found => Noted name x (labels ++ found)) (fun _ s => Sent (Troubled name) s.past) s

lemma notes_nil : Notes m name x (pure []) := fun labels s hs => by
  rwa [Prog.obeys_pure, List.append_nil]

lemma Notes.ite {c : Prop} [Decidable c] {p q : Program (List String)} (hp : Notes m name x p)
    (hq : Notes m name x q) : Notes m name x (if c then p else q) := by
  split_ifs
  · exact hp
  · exact hq

lemma notes_succeeds {command : Command} (hprobe : command.isExistenceProbe = true)
    (label : String) :
    Notes m name x (labelIf (succeeds command) label) := by
  intro labels s hs
  refine Prog.obeys_bind.mpr
    (Prog.obeys_bind.mpr (Prog.obeys_bind.mpr (alone_op fun a outcome w' _ hexec => ?_)))
  have hnext := hs.inside.step (o := .run command) rfl rfl hexec
  cases outcome with
  | timeoutExpired | raises e => exact hs.inside.troubled (o := .run command) rfl
  | osError =>
      exact ⟨hnext, fun h => by simpa [leftOver, hprobe] using hs.leftOver (by simpa using h)⟩
  | completed code out =>
      dsimp only
      rw [if_neg (by simp)]
      refine ⟨hnext, fun h => ?_⟩
      by_cases hcode : code = 0
      · simp [leftOver, hprobe, hcode]
      · have hlabels : labels ≠ [] := by simpa [hcode] using h
        simp [leftOver, hprobe, hs.leftOver hlabels]

lemma notes_vmExists (label : String) : Notes m name x (labelIf (vmExists name) label) := by
  intro labels s hs
  refine Prog.obeys_bind.mpr (Prog.obeys_bind.mpr (alone_op fun a available w' _ hexec => ?_))
  have hnext : Noted name x labels ⟨w', ⟨s.world, .vmAvailable, a, available⟩ :: s.past⟩ :=
    ⟨hs.inside.step (o := .vmAvailable) rfl rfl hexec, hs.leftOver⟩
  split_ifs
  · exact Prog.obeys_bind.mp (notes_succeeds rfl label labels _ hnext)
  · exact notes_nil (m := m) labels _ hnext

lemma notes_remainingEpair : Notes m name x (remainingEpair record) := by
  unfold remainingEpair
  split
  · exact (notes_succeeds rfl _).ite notes_nil
  · exact notes_nil

lemma notes_remainingMd : Notes m name x (remainingMd record) := by
  unfold remainingMd
  split
  · refine Notes.ite ?_ notes_nil
    unfold mdExists
    split_ifs
    · exact notes_succeeds rfl _
    · exact notes_nil
  · exact notes_nil

lemma notes_remainingDataset : Notes m name x (remainingDataset (x.getD {})) := by
  unfold remainingDataset
  split
  · exact notes_succeeds rfl _
  · rename_i hdataset
    exact fun labels s hs => hs.inside.unencodable (.inl hdataset)
  · exact notes_nil

/-- What is left is what the last probes have found. -/
lemma remainingResources_noted (hs : Tending name x s) :
    (remainingResources m name (x.getD {})).Obeys (alone m false "" fun _ _ => true)
      (fun remaining => Noted name x remaining) (fun _ s => Sent (Troubled name) s.past) s := by
  have hstart : Noted name x [] s := ⟨hs, fun h => absurd rfl h⟩
  refine Prog.obeys_bind.mpr ((notes_vmExists _ _ s hstart).mono (fun vm s hs => ?_) fun _ _ h => h)
  refine Prog.obeys_bind.mpr
    ((notes_succeeds rfl _ _ s hs).mono (fun jail s hs => ?_) fun _ _ h => h)
  refine Prog.obeys_bind.mpr
    ((notes_remainingEpair _ s hs).mono (fun epair s hs => ?_) fun _ _ h => h)
  refine Prog.obeys_bind.mpr ((notes_remainingMd _ s hs).mono (fun md s hs => ?_) fun _ _ h => h)
  refine Prog.obeys_bind.mpr
    ((notes_remainingDataset _ s hs).mono (fun recorded s hs => ?_) fun _ _ h => h)
  refine Prog.obeys_bind.mpr
    ((notes_succeeds rfl _ _ s hs).mono (fun dataset s hs => ?_) fun _ _ h => h)
  simpa using hs

/-! ### The whole of it -/

/-- The record is deleted in the end. -/
lemma forget_gone (hs : Tending name x s) :
    (forget name (x.getD {})).Obeys (alone m false "" fun _ _ => true)
      (fun _ s => s.world.registry.lookup name = none) (fun _ s => Sent (Troubled name) s.past)
      s := by
  have haddress : Survives m name x (forgetAddress name (x.getD {})) := by
    unfold forgetAddress
    split
    · refine Survives.ite (fun _ s hs => ?_) fun _ => survives_pure _
      refine Prog.obeys_bind.mpr (alone_op fun a r w' _ hexec => Prog.obeys_bind.mpr ?_)
      refine Prog.obeys_ofExcept.mpr ⟨fun _ _ => ?_, ?_⟩
      · have hnext := hs.step (o := .leaseRelease _ _) rfl rfl hexec
        exact ((survives_run _).bind fun _ => survives_pure _) _ hnext
      · rintro e rfl
        exact hs.troubled (o := .leaseRelease _ _) rfl
    · rename_i haddress
      exact fun s hs => hs.unencodable (.inr haddress)
    · exact survives_pure _
  refine Prog.obeys_bind.mpr ((haddress s hs).mono (fun _ s hs => ?_) fun _ _ h => h)
  refine Prog.obeys_bind.mpr (alone_op fun a r w' _ hexec => ?_)
  rcases deleteRegistry_cases hexec with ⟨rfl, -, rfl⟩ | ⟨⟨e, rfl⟩, -⟩
  · exact AList.lookup_erase _ _
  · exact hs.troubled (o := .deleteRegistry name) rfl

lemma destroyBody_gone (hname : isRuntimeName name = true)
    (hheld : s.world.held (.runtime name) ≠ none)
    {requesterUid : Option ℕ} :
    (destroyBody m name requesterUid true).Obeys (alone m false "" fun _ _ => true)
      (fun _ s => s.world.registry.lookup name = none)
      (fun _ s => Sent (Troubled name) s.past ∨ leftOver s.past = true) s := by
  have hvalid : validateName name = .ok name := validateName_eq_ok.mpr ⟨rfl, hname⟩
  refine Prog.obeys_bind.mpr (Prog.obeys_ofExcept.mpr ⟨fun name' hname' => ?_, fun e he => ?_⟩)
  swap
  · rw [hvalid] at he
    cases he
  obtain rfl := Except.ok.inj (hvalid.symm.trans hname')
  refine Prog.obeys_bind.mpr (Prog.obeys_bind.mpr (alone_op fun a r w' _ hexec => ?_))
  refine Prog.obeys_ofExcept.mpr ⟨fun x hx => ?_, ?_⟩
  swap
  · rintro e rfl
    exact .inl (sent_of_calls (.inl ⟨hheld, .inl rfl⟩))
  have hs : Tending name x ⟨w', ⟨s.world, .loadRegistry name, a, r⟩ :: s.past⟩ := by
    obtain ⟨hr, rfl⟩ := Prod.mk.inj (Option.some.inj hexec)
    subst hx
    split_ifs at hr
    refine ⟨hheld, hr, fun hunencodable => sent_of_calls (.inl ⟨hheld, .inr (.inr ?_)⟩)⟩
    cases x with
    | none => exact absurd hunencodable (by simp [RuntimeRecord.IsUnencodable])
    | some record => exact ⟨s.world, a, record, rfl, hunencodable⟩
  refine Prog.obeys_bind.mpr (obeys_when.mpr ⟨fun h => absurd h (by simp), fun _ => ?_⟩)
  have hblocks : ∀ {γ : Type} {p : Program γ} {f : γ → Program DestroyResult} {s},
    Survives m name x p →
      Tending name x s → (∀ a s, Tending name x s → (f a).Obeys (alone m false "" fun _ _ => true)
        (fun _ s => s.world.registry.lookup name = none)
        (fun _ s => Sent (Troubled name) s.past ∨ leftOver s.past = true) s) →
      (p >>= f).Obeys (alone m false "" fun _ _ => true)
        (fun _ s => s.world.registry.lookup name = none)
        (fun _ s => Sent (Troubled name) s.past ∨ leftOver s.past = true) s := fun hp hs hf =>
    Prog.obeys_bind.mpr ((hp _ hs).mono (fun a s hs => hf a s hs) fun _ _ h => .inl h)
  refine hblocks survives_destroyVm hs fun vm s hs => hblocks survives_destroyMd hs
    fun md s hs => ?_
  refine hblocks survives_destroyRecordedDataset hs fun recorded s hs => ?_
  refine hblocks survives_destroyJail hs fun jail s hs => hblocks survives_destroyEpair hs
    fun epair s hs => ?_
  refine hblocks (survives_destroyDataset _) hs fun dataset s hs => ?_
  refine Prog.obeys_bind.mpr ((remainingResources_noted hs).mono (fun remaining s hs => ?_)
    fun _ _ h => .inl h)
  refine Prog.obeys_bind.mpr (obeys_when.mpr ⟨fun hleft => .inr (hs.leftOver hleft), fun _ => ?_⟩)
  exact Prog.obeys_bind.mpr ((forget_gone hs.inside).mono (fun _ _ h => h) fun _ _ h => .inl h)

/-- **A `destroy` that returns has deleted the record, and one that raises was in trouble.** -/
lemma destroy_gone (hname : isRuntimeName name = true) (hs : s.world.held = collectorLock)
    {requesterUid : Option ℕ} : (destroy m name requesterUid true).Obeys (attentive m "" calls)
      (fun _ s => s.world.registry.lookup name = none) (fun _ s => Sent (Troubled name) s.past)
      s := by
  have hlocked : (op (.runtimeLock name)).Obeys (attentive m "" calls)
    (fun _ => Holding collectorLock)
      (fun _ s => Sent (Troubled name) s.past) s :=
    attentive_op rfl fun a r w' hexec =>
      ((exec_frame (o := .runtimeLock name) hexec).held rfl).trans hs
  refine Prog.obeys_bind.mpr (hlocked.mono (fun _ s hs => ?_) fun _ _ h => h)
  refine Prog.obeys_bind.mpr
    ((acquire_obeys lockFamily_holding rfl hs).mono (fun _ s hs => ?_) fun _ _ h => h)
  have hheld : s.world.held (.runtime name) ≠ none := by
    have hheld : s.world.held = Function.update collectorLock (.runtime name) (some (0, 1)) := hs
    rw [hheld, Function.update_self]
    simp
  have hperforms : (destroyBody m name requesterUid true).Performs fun o =>
      ∀ w, ¬ Blocked (exec m false 0 "") (fun _ _ => true) w o :=
    performs_destroyBody (not_blocked rfl) (not_blocked rfl) (fun _ _ => not_blocked rfl)
      (fun _ => not_blocked rfl) (not_blocked rfl)
  have hbody : (destroyBody m name requesterUid true).Obeys (attentive m "" calls)
      (fun _ s => s.world.registry.lookup name = none)
      (fun _ s => Sent (Troubled name) s.past ∨ leftOver s.past = true) s :=
    watched_of_solo hperforms (destroyBody_gone hname hheld)
  refine Prog.obeys_finallyDo.mpr (hbody.mono (fun _ s hs => ?_) fun _ s hs => ?_)
  · exact attentive_op rfl fun a r w' hexec =>
      ((congrArg (AList.lookup name) ((exec_frame (o := .release _) hexec).registry rfl))).trans hs
  · exact attentive_op rfl fun a r w' hexec => hs.elim .inr fun h => sent_of_calls (.inr ⟨rfl, h⟩)

/-! ## Every stale runtime -/

/-- The cleanup of the runtime was in trouble, or it is gone, and the report says so. -/
def Cleaned (name : String) (cleaned : List String) (s : Alone) : Prop :=
  Sent (Troubled name) s.past ∨ (s.world.registry.lookup name = none ∧ name ∈ cleaned)

lemma lasts_true : Lasts m fun _ => True := fun _ _ _ _ _ _ _ _ => trivial

lemma lasts_troubled : Lasts m fun s => Sent (Troubled name) s.past :=
  fun _ _ _ _ _ _ hs _ => .inr hs

/-- A record that is gone does not come back. -/
lemma lasts_gone : Lasts m fun s => s.world.registry.lookup name = none := by
  intro s o a r w' ho hs hexec
  cases o with
  | writeRegistry _ => cases ho
  | deleteRegistry name' =>
      have hdropped : (s.world.dropRecord name').registry.lookup name = none := by
        by_cases hname : name = name'
        · subst hname
          exact AList.lookup_erase _ _
        · exact (AList.lookup_erase_ne hname).trans hs
      rcases deleteRegistry_cases hexec with ⟨-, -, rfl⟩ | ⟨-, -, ⟨rfl, -⟩ | ⟨rfl, -⟩⟩
      · exact hdropped
      · exact hdropped
      · exact hs
  | _ => exact (congrArg (AList.lookup name) ((exec_frame hexec).registry rfl)).trans hs

/-- What has been cleaned stays so. -/
lemma Endures.cleaned {p : Program α} {cleaned : List String} {f : α → List String}
    (hp : ∀ I, Lasts m I → Endures m calls w I (fun a => cleaned ⊆ f a) p)
    (hs : Undisturbed w collectorLock s) (hcleaned : Cleaned name cleaned s) :
    p.Obeys (attentive m "" calls) (fun a s => Undisturbed w collectorLock s ∧ Cleaned name (f a) s)
      (fun _ s => Sent Escapes s.past) s := by
  rcases hcleaned with htroubled | ⟨hgone, hmem⟩
  · exact (hp _ lasts_troubled s ⟨hs, htroubled⟩).mono (fun _ _ h => ⟨h.1.1, .inl h.1.2⟩)
      fun _ _ h => h
  · exact (hp _ lasts_gone s ⟨hs, hgone⟩).mono (fun _ _ h => ⟨h.1.1, .inr ⟨h.1.2, h.2 hmem⟩⟩)
      fun _ _ h => h

/-- A runtime that is tried has been cleaned, unless it is in trouble. -/
lemma tried_cleaned (hname : isRuntimeName name = true) (hs : Undisturbed w collectorLock s)
    {requesterUid : Option ℕ} {st : GcState} {handler : PyError → GcState} :
    (Prog.tryCatch
      (do
        let _ ← destroy m name requesterUid true
        pure { st with cleaned := st.cleaned ++ [name] })
      fun e => pure (handler e)).Obeys (attentive m "" calls)
        (fun st s => Undisturbed w collectorLock s ∧ Cleaned name st.cleaned s)
        (fun _ s => Sent Escapes s.past) s := by
  have hinside : Stays m "" calls (fun s => Undisturbed w collectorLock s ∧ True)
      (destroy m name requesterUid true) := stays_destroy_inside lasts_true
  refine Prog.obeys_tryCatch.mpr (Prog.obeys_bind.mpr (((hinside s ⟨hs, trivial⟩).and
    (destroy_gone hname hs.held)).mono (fun _ s h => ?_) fun e s h => ?_))
  · exact ⟨h.1.1, .inr ⟨h.2, by simp⟩⟩
  · exact ⟨h.1.1, .inl h.2⟩

/-- **Every stale runtime in the list is cleaned**, whatever becomes of the others. -/
lemma gcRegistered_cleans (hname : isRuntimeName name = true) (hstale : w.Stale record)
    (staleOnly : Bool)
    (records : List (String × RuntimeRecord)) (hmem : (name, record) ∈ records)
    (hrecords : ∀ r, (name, r) ∈ records → r = record) (st : GcState)
    (hs : Undisturbed w collectorLock s) :
    (gcRegistered m staleOnly 0 records st).Obeys (attentive m "" calls)
      (fun st s => Undisturbed w collectorLock s ∧ Cleaned name st.cleaned s)
      (fun _ s => Sent Escapes s.past) s := by
  induction records generalizing st s with
  | nil => cases hmem
  | cons entry records ih =>
      obtain ⟨name', record'⟩ := entry
      have halive : (ownerAlive record').Obeys (attentive m "" calls)
          (fun alive s => Undisturbed w collectorLock s
            ∧ (alive = true → ∃ pid, w.OwnerAlive record' pid))
          (fun _ s => Sent Escapes s.past) s := by
        have hsound : (ownerAlive record').Obeys (attentive m "" calls)
            (fun alive _ => alive = true → ∃ pid, w.OwnerAlive record' pid) (fun _ _ => True) s :=
          watched_of_solo (performs_ownerAlive fun _ => ⟨not_blocked rfl, not_blocked rfl⟩)
            (ownerAlive_sound hs.processes)
        exact ((endures_ownerAlive lasts_true s ⟨hs, trivial⟩).and hsound).mono
          (fun _ _ h => ⟨h.1.1.1, h.2⟩) fun _ _ h => h.1
      rw [gcRegistered, if_neg (by simp)]
      refine Prog.obeys_bind.mpr (halive.mono (fun alive s hs => ?_) fun _ _ h => h)
      by_cases hsame : name' = name
      · obtain rfl := hsame
        obtain rfl := hrecords record' List.mem_cons_self
        have hdead : ¬ alive = true := fun h => (hs.2 h).elim hstale
        rw [if_neg (by simp [hdead])]
        refine Prog.obeys_bind.mpr
          ((tried_cleaned hname hs.1).mono (fun st s hs => ?_) fun _ _ h => h)
        exact Endures.cleaned (f := GcState.cleaned)
          (fun I hI => endures_gcRegistered hI staleOnly records st) hs.1 hs.2
      · have hmem : (name, record) ∈ records := by
          rcases List.mem_cons.mp hmem with heq | hmem
          · exact absurd (Prod.mk.inj heq).1.symm hsame
          · exact hmem
        have hrest :=
          fun st s hs => ih hmem (fun r hr => hrecords r (List.mem_cons_of_mem _ hr)) st (s := s) hs
        split_ifs
        · exact hrest _ _ hs.1
        refine Prog.obeys_bind.mpr
          ((endures_tried (P := fun _ => True) lasts_true trivial (fun _ => trivial) _
          ⟨hs.1, trivial⟩).mono (fun st s hs => hrest st s hs.1.1) fun _ _ h => h)

/-- A stale runtime whose record can be read has been cleaned, as far as the report goes. -/
def ReportsStale (w : World) (name : String) (record : RuntimeRecord) (cleaned : List String)
    (s : Alone) :
    Prop :=
  isRuntimeName name = true → w.load name = .ok (some record) → w.Stale record →
    Cleaned name cleaned s

lemma gcBody_reports (name : String) (record : RuntimeRecord) (staleOnly : Bool)
    (hs : Undisturbed w collectorLock s)
    (hregistry : s.world.registry = w.registry) :
    (gcBody m staleOnly 0).Obeys (attentive m "" calls)
      (fun report s => Undisturbed w collectorLock s ∧ ReportsStale w name record report.cleaned s)
      (fun _ s => Sent Escapes s.past) s := by
  by_cases hstale : isRuntimeName name = true ∧ w.load name = .ok (some record) ∧ w.Stale record
  · obtain ⟨hname, hload, hstale⟩ := hstale
    have hlists : registered.Obeys (attentive m "" calls)
        (fun records _ => Listed name record true records) (fun _ _ => True) s :=
      watched_of_solo (performs_registered (not_blocked rfl) fun _ => not_blocked rfl)
        (registered_lists hname ((load_congr hregistry name).trans hload))
    rw [gcBody_eq]
    refine Prog.obeys_bind.mpr (((endures_registered lasts_true s ⟨hs, trivial⟩).and hlists).mono
      (fun records s h => ?_) fun _ _ h => h.1)
    refine Prog.obeys_bind.mpr
      ((gcRegistered_cleans hname hstale staleOnly records (h.2.1 rfl) h.2.2 {}
      h.1.1.1).mono (fun st s h => ?_) fun _ _ h => h)
    exact Prog.Obeys.mono (Endures.cleaned (fun I hI => endures_gcAfter hI staleOnly st) h.1 h.2)
      (fun _ _ h => ⟨h.1, fun _ _ _ => h.2⟩) fun _ _ h => h
  · refine (endures_gcBody lasts_true staleOnly s ⟨hs, trivial⟩).mono
      (fun report s h => ⟨h.1.1, fun hname hload h => ?_⟩) fun _ _ h => h
    exact absurd ⟨hname, hload, h⟩ hstale

/-- Nothing has escaped; every stale runtime whose cleanup was not in trouble has been cleaned. -/
structure Reconciled (w : World) (report : GcReport) (s : Alone) : Prop where
  clear : ¬ Sent Escapes s.past
  cleaned : ∀ name record, ReportsStale w name record report.cleaned s

/-- The shared lock is taken, and given back. -/
lemma gc_reports (staleOnly : Bool) (hfree : ∀ lock, w.held lock = none) :
    (gc m staleOnly 0).Obeys (attentive m "" calls)
      (fun report s => ¬ Sent Escapes s.past ∧ ReportsStale w name record report.cleaned s)
      (fun _ s => Sent Escapes s.past) w.alone := by
  have hstart : Undisturbed w (fun _ => none) w.alone := ⟨funext hfree, rfl, id⟩
  have hfamily : LockFamily m "" fun held s => Undisturbed w held s
    ∧ s.world.registry = w.registry := by
    refine lockFamily_undisturbed fun s o a r w' ho hs hexec =>
      ((exec_frame hexec).registry ?_).trans hs
    cases o <;> first | rfl | cases ho
  refine Prog.obeys_bind.mpr
    ((acquire_obeys hfamily rfl ⟨hstart, rfl⟩).mono (fun _ s hs => ?_) fun _ _ h => h)
  refine Prog.obeys_finallyDo.mpr ((gcBody_reports name record staleOnly hs.1 hs.2).mono
    (fun report s h => ?_) fun e s h => ?_)
  · refine attentive_op rfl fun a r w' hexec => ⟨?_, fun hname hload hstale => ?_⟩
    · exact not_sent_cons.mpr ⟨not_escapes_of_not_interrupted rfl, h.1.clear⟩
    · refine (h.2 hname hload hstale).imp .inr fun h => ⟨?_, h.2⟩
      exact lasts_gone (m := m) _ (.release .shared) a r w' rfl h.1 hexec
  · exact attentive_op rfl fun a r w' _ => .inr h

/-- **A collection by root never waits; it returns a report where nothing escapes, and raises where
something does.** -/
lemma gc_reconciles (staleOnly : Bool) (hfree : ∀ lock, w.held lock = none) :
    (gc m staleOnly 0).Obeys (attentive m "" calls) (Reconciled w) (fun _ s => Sent Escapes s.past)
    w.alone := by
  have hindex : Nonempty (String × RuntimeRecord) := ⟨("", {})⟩
  have hall : (gc m staleOnly 0).Obeys (attentive m "" calls)
      (fun report s => ∀ i : String × RuntimeRecord,
        ¬ Sent Escapes s.past ∧ ReportsStale w i.1 i.2 report.cleaned s)
      (fun _ s => (String × RuntimeRecord) → Sent Escapes s.past) w.alone :=
    Prog.Obeys.all fun i => gc_reports staleOnly hfree
  exact hall.mono (fun report s h => ⟨(h ("", {})).1, fun name record => (h (name, record)).2⟩)
    fun _ s h => h ("", {})

/-! ## The startup of the daemon -/

/-- The collection is over with a report, and every stale runtime has been destroyed whose own
record can be read and whose own cleanup has gone through. -/
def Completes (w : World) (p : Program GcReport) (s : Alone) : Prop :=
  ∃ report, p = .ret report ∧ ∀ name record, isRuntimeName name = true →
    w.load name = .ok (some record) → w.Stale record → ¬ Sent (Troubled name) s.past →
      name ∈ report.cleaned ∧ s.world.registry.lookup name = none

/-- **A collection by root comes to a stop; and where it has stopped, it has returned its report and
destroyed every stale runtime whose own cleanup has gone through, if and only if nothing has been
raised outside of a `destroy`.**  So it is with the daemon's way to `serve_forever`. -/
theorem gc_returns_iff (m : RuntimeManager) (w : World) (hfree : ∀ lock, w.held lock = none) :
    (∀ staleOnly choices p s, follow (exec m false 0 "") (fun _ _ => true) choices
      (gc m staleOnly 0) w.alone
        = some (p, s) →
      (∃ more p' s', follow (exec m false 0 "") (fun _ _ => true) more p s = some (p', s')
          ∧ Stopped (exec m false 0 "") (fun _ _ => true) p' s')
        ∧ (Stopped (exec m false 0 "") (fun _ _ => true) p s →
          (Completes w p s ↔ ¬ Sent Escapes s.past)))
      ∧ ∀ choices p s, follow (exec m false 0 "") (fun _ _ => true) choices
        (reconcileAtStartup m false) w.alone
          = some (p, s) → Stopped (exec m false 0 "") (fun _ _ => true) p s →
        ((∃ lines, p = .ret lines) ↔ ¬ Sent Escapes s.past) := by
  have hnever : ∀ past : List Taken, ¬ ¬ ¬ Sent (fun _ _ => False) past :=
    fun past h => h (not_sent fun _ _ => id)
  refine ⟨fun staleOnly choices p s hrun => ⟨exists_stopped p s, fun hstopped => ?_⟩,
    fun choices p s hrun hstopped => ?_⟩
  · have hobeys :=
      follow_obeys (T := attentive m "" fun _ _ => False) rfl (gc_reconciles staleOnly hfree) hrun
    rcases stopped_cases hobeys hstopped with ⟨report, rfl, hs⟩ | ⟨e, rfl, hs⟩ | ⟨-, hs⟩
    · refine iff_of_true ⟨report, rfl, fun name record hname hload hstale hclear => ?_⟩ hs.clear
      exact (hs.cleaned name record hname hload hstale).elim (fun h => absurd h hclear) And.symm
    · refine iff_of_false ?_ (not_not_intro hs)
      rintro ⟨report, heq, -⟩
      cases heq
    · exact absurd hs (hnever _)
  · have hstartup : (reconcileAtStartup m false).Obeys (attentive m "" fun _ _ => False)
        (fun _ s => ¬ Sent Escapes s.past) (fun _ s => Sent Escapes s.past) w.alone :=
      Prog.obeys_bind.mpr ((gc_reconciles true hfree).mono (fun _ _ h => h.clear) fun _ _ h => h)
    have hobeys := follow_obeys (T := attentive m "" fun _ _ => False) rfl hstartup hrun
    rcases stopped_cases hobeys hstopped with ⟨lines, rfl, hs⟩ | ⟨e, rfl, hs⟩ | ⟨-, hs⟩
    · exact iff_of_true ⟨lines, rfl⟩ hs
    · refine iff_of_false ?_ (not_not_intro hs)
      rintro ⟨lines, heq⟩
      cases heq
    · exact absurd hs (hnever _)

/-- A jail whose owner is gone. -/
def staleJail : World :=
  sampleWorld.storeRecord "freebsd-lab-b"
    (sampleRecord "freebsd-lab-b" formerJupyter (.ofOctets 172 31 254 11))

/-- Startup destroys the jail. -/
theorem gc_returns_iff_stale : ∃ p s, follow (exec .standard false 0 "") (fun _ _ => true)
      (List.replicate 32 {}) (gc .standard true 0) staleJail.alone = some (p, s)
    ∧ (Completes staleJail p s ↔ ¬ Sent Escapes s.past) := by
  have hends : (follow (exec .standard false 0 "") (fun _ _ => true) (List.replicate 32 {})
      (gc .standard true 0) staleJail.alone).map (fun x => pending x.1) = some none := by
    decide +kernel
  obtain ⟨⟨p, s⟩, hrun, hpending⟩ := Option.map_eq_some_iff.mp hends
  refine ⟨p, s, hrun, ((gc_returns_iff .standard staleJail fun _ => rfl).1 true _ p s hrun).2 ?_⟩
  cases p with
  | perform o k => cases hpending
  | _ => trivial

/-- Next to it, a registry file that is no record. -/
def brokenRegistry : World :=
  { staleJail with
    registry := staleJail.registry.insert "freebsd-lab-a"
      (.invalid (.runtimeError "Invalid runtime registry record")) }

/-- Nothing is destroyed and nothing is reported. -/
theorem broken_record_escapes : ¬ ∀ choices p s,
    follow (exec .standard false 0 "") (fun _ _ => true) choices (gc .standard true 0)
      brokenRegistry.alone
      = some (p, s) →
    Stopped (exec .standard false 0 "") (fun _ _ => true) p s → Completes brokenRegistry p s := by
  intro h
  have hrun : ∃ e s, follow (exec .standard false 0 "") (fun _ _ => true) (List.replicate 4 {})
      (gc .standard true 0) brokenRegistry.alone = some (.raise e, s) := ⟨_, _, rfl⟩
  obtain ⟨e, s, hrun⟩ := hrun
  obtain ⟨report, heq, -⟩ := h _ _ s hrun trivial
  cases heq

end FreebsdLaboratory
