import FreebsdLaboratory.Protocol.Knowledge

/-!
# The daemon's code follows the protocol

Every function of the lifecycle manager, run from a state of knowledge in which it is called, asks
only for operations its thread is permitted.  The proofs go through the text of each function once,
in the order of the source; callers use the lemma about a function and never its text.

Most functions leave the knowledge of their thread as it is; `Keeps` says so.
-/

namespace FreebsdLaboratory

open Library Program

variable {m : RuntimeManager} {c : Connection} {s : Known} {α β : Type}

/-- The protocol of a connection's thread. -/
abbrev rules (m : RuntimeManager) (c : Connection) : Protocol Op.Resp Known :=
  Protocol.ofNext (Permits m c) Admits Known.learn

/-- Permitted from `s`, and the knowledge afterwards is `s` again, however it ends. -/
def Keeps (m : RuntimeManager) (c : Connection) (s : Known) (p : Program α) : Prop :=
  p.Obeys (rules m c) (fun _ s' => s' = s) (fun _ s' => s' = s) s

theorem Keeps.obeys {p : Program α} {Q : α → Known → Prop} {R : PyError → Known → Prop}
    (h : Keeps m c s p) (hQ : ∀ a, Q a s) (hR : ∀ e, R e s) : p.Obeys (rules m c) Q R s := by
  refine Prog.Obeys.mono h ?_ ?_
  · rintro a _ rfl; exact hQ a
  · rintro e _ rfl; exact hR e

/-- One operation from `s`. -/
theorem obeys_op_iff {o : Op} {Q : o.Resp → Known → Prop} {R : PyError → Known → Prop} :
    (op o).Obeys (rules m c) Q R s
      ↔ Permits m c s o ∧ ∀ r, Admits s o r → Q r (s.learn o r) := by
  simp [op, Protocol.ofNext]

/-- A computed outcome from `s`. -/
theorem obeys_ofExcept {x : Except PyError α} {Q : α → Known → Prop} {R : PyError → Known → Prop} :
    (ofExcept x).Obeys (rules m c) Q R s
      ↔ (∀ a, x = .ok a → Q a s) ∧ ∀ e, x = .error e → R e s :=
  Prog.obeys_ofExcept

/-! ## Functions that keep what is known -/

@[simp] theorem keeps_pure (a : α) : Keeps m c s (pure a) := rfl

@[simp] theorem keeps_raise (e : PyError) : Keeps m c s (raise e : Program α) := rfl

@[simp] theorem keeps_ofExcept (x : Except PyError α) : Keeps m c s (ofExcept x) := by
  cases x <;> rfl

theorem keeps_bind {p : Program α} {f : α → Program β} (hp : Keeps m c s p)
    (hf : ∀ a, Keeps m c s (f a)) : Keeps m c s (p >>= f) :=
  Prog.obeys_bind.mpr (hp.obeys hf fun _ => rfl)

theorem keeps_ite {P : Prop} [Decidable P] {p q : Program α} (hp : P → Keeps m c s p)
    (hq : ¬ P → Keeps m c s q) : Keeps m c s (if P then p else q) := by
  split_ifs with h
  · exact hp h
  · exact hq h

theorem keeps_finallyDo {p : Program α} {q : Program Unit} (hp : Keeps m c s p)
    (hq : Keeps m c s q) : Keeps m c s (Prog.finallyDo p q) :=
  Prog.obeys_finallyDo.mpr
    (hp.obeys (fun _ => hq.obeys (fun _ => rfl) fun _ => rfl)
      fun _ => hq.obeys (fun _ => rfl) fun _ => rfl)

/-- An operation that is permitted and teaches nothing. -/
theorem keeps_op (o : Op) (hp : Permits m c s o) (hl : ∀ r, s.learn o r = s) :
    Keeps m c s (op o) :=
  obeys_op_iff.mpr ⟨hp, fun r _ => hl r⟩

theorem keeps_run (command : Command) (check : Bool) (hp : PermitsRun m c s command)
    (hl : ∀ r, s.learn (.run command) r = s) : Keeps m c s (run command check) := by
  refine keeps_bind (keeps_op (.run command) hp hl) fun outcome => ?_
  cases outcome with
  | timeoutExpired => exact keeps_raise _
  | raises error => exact keeps_raise _
  | osError => exact keeps_ite (fun _ => keeps_raise _) fun _ => keeps_pure _
  | completed returncode stdout =>
      exact keeps_ite (fun _ => keeps_raise _) fun _ => keeps_pure _

theorem keeps_succeeds (command : Command) (hp : PermitsRun m c s command)
    (hl : ∀ r, s.learn (.run command) r = s) : Keeps m c s (succeeds command) :=
  keeps_bind (keeps_run command false hp hl) fun _ => keeps_pure _

theorem keeps_retry {attempt : Program Bool} (h : Keeps m c s attempt) :
    ∀ attempts, Keeps m c s (retry attempt attempts)
  | 0 => keeps_pure _
  | attempts + 1 =>
      keeps_bind h fun _ => keeps_ite (fun _ => keeps_pure _) fun _ => keeps_retry h attempts

theorem arpDelete_obeys (address : String) (hp : PermitsRun m c s (.arpDelete address)) :
    (run (.arpDelete address) false).Obeys (rules m c) (fun _ s' => s' = s)
      (fun _ s' => s' = { s with forgetting := false }) s := by
  rw [run, Prog.obeys_bind]
  refine obeys_op_iff.mpr ⟨hp, fun outcome _ => ?_⟩
  cases outcome with
  | timeoutExpired => exact rfl
  | raises error => exact rfl
  | osError => exact rfl
  | completed returncode stdout =>
      rw [if_neg (by simp)]
      exact rfl

theorem keeps_arpDelete (address : String) (h : s.forgetting = false) :
    Keeps m c s (run (.arpDelete address) false) :=
  (arpDelete_obeys address fun hforgetting => absurd hforgetting (by simp [h])).mono
  (fun _ _ h => h)
    fun _ _ hs => by rw [hs, ← h]

theorem keeps_file (effect : FileEffect) : Keeps m c s (file effect) :=
  keeps_bind (keeps_op (.file effect) trivial fun _ => rfl) fun _ => keeps_ofExcept _

theorem keeps_resolve (path : String) : Keeps m c s (resolve path) :=
  keeps_bind (keeps_op (.resolve path) trivial fun _ => rfl) fun _ => keeps_ofExcept _

theorem keeps_ask (question : FileQuery) : Keeps m c s (op (.ask question)) :=
  keeps_op _ trivial fun _ => rfl

theorem keeps_vmAvailable : Keeps m c s (op .vmAvailable) := keeps_op _ trivial fun _ => rfl

theorem keeps_requireVmBackend : Keeps m c s (requireVmBackend m) :=
  keeps_bind keeps_vmAvailable fun _ => keeps_ite (fun _ => keeps_pure _) fun _ => keeps_raise _

theorem keeps_jailExists (name : String) : Keeps m c s (jailExists name) :=
  keeps_succeeds _ trivial fun _ => rfl

theorem keeps_vmExists (name : String) : Keeps m c s (vmExists name) :=
  keeps_bind keeps_vmAvailable fun _ =>
    keeps_ite (fun _ => keeps_succeeds _ trivial fun _ => rfl) fun _ => keeps_pure _

theorem keeps_datasetExists (dataset : String) : Keeps m c s (datasetExists dataset) :=
  keeps_succeeds _ trivial fun _ => rfl

theorem keeps_interfaceExists (interface : String) : Keeps m c s (interfaceExists interface) :=
  keeps_succeeds _ trivial fun _ => rfl

theorem keeps_mdExists (md : String) : Keeps m c s (mdExists md) :=
  keeps_ite (fun _ => keeps_succeeds _ trivial fun _ => rfl) fun _ => keeps_pure _

theorem keeps_snapshotExists (snapshot : String) : Keeps m c s (snapshotExists snapshot) :=
  keeps_ite (fun _ => keeps_pure _) fun _ => keeps_succeeds _ trivial fun _ => rfl

theorem keeps_removeWith (command : Command) (hp : PermitsRun m c s command)
    (hl : ∀ r, s.learn (.run command) r = s) (attempts : ℕ) (label : String) :
    Keeps m c s (removeWith attempts command label) :=
  keeps_bind (keeps_retry (keeps_succeeds command hp hl) attempts) fun _ => keeps_pure _

theorem keeps_when {P : Prop} [Decidable P] {p : Program Unit} (hp : P → Keeps m c s p) :
    Keeps m c s (when P p) :=
  keeps_ite hp fun _ => keeps_pure _

theorem keeps_labelIf {probe : Program Bool} (h : Keeps m c s probe) (label : String) :
    Keeps m c s (labelIf probe label) :=
  keeps_bind h fun _ => keeps_pure _

/-! ## Destroy -/

section Destroy

variable {name : String} {record : RuntimeRecord} {x : Option RuntimeRecord}

theorem keeps_destroyVm (h : s.Working c name x) : Keeps m c s (destroyVm m name record) := by
  refine keeps_bind (keeps_when fun _ => keeps_requireVmBackend) fun _ => ?_
  refine keeps_bind (keeps_ite (fun _ => keeps_pure _) fun _ => keeps_vmExists name) fun _ => ?_
  refine keeps_ite (fun _ => ?_) fun _ => keeps_pure _
  exact keeps_bind (keeps_run _ _ trivial fun _ => rfl) fun _ =>
    keeps_removeWith (.vmDestroy name) ⟨x, h⟩ (fun _ => rfl) 5 "bhyve"

theorem keeps_destroyMd (h : s.Working c name x) (hx : x.getD {} = record) :
    Keeps m c s (destroyMd record) := by
  unfold destroyMd
  split
  · rename_i md hmd
    refine keeps_ite (fun hunit => ?_) fun _ => keeps_pure _
    cases x with
    | none => subst hx; simp at hmd
    | some r =>
        obtain rfl : r = record := hx
        exact keeps_removeWith (.mdconfigDetach (unitNumber md)) ⟨name, r, md, h, hmd, hunit, rfl⟩
           (fun _ => rfl) 5 md
  · exact keeps_pure _

theorem keeps_destroyDataset {dataset : String} (h : s.Working c name x)
    (hd : dataset = m.jailDataset name ∨ ∃ r, x = some r ∧ r.dataset = .str dataset) :
    Keeps m c s (destroyDataset dataset) :=
  keeps_bind (keeps_datasetExists dataset) fun _ =>
    keeps_ite (fun _ => keeps_removeWith (.zfsDestroyRecursive dataset) ⟨name, .inl ⟨x, h, hd⟩⟩
      (fun _ => rfl) 10 dataset)
      fun _ => keeps_pure _

theorem keeps_destroyRecordedDataset (h : s.Working c name x) (hx : x.getD {} = record) :
    Keeps m c s (destroyRecordedDataset record) := by
  unfold destroyRecordedDataset
  split
  · rename_i dataset hdataset
    cases x with
    | none => subst hx; simp at hdataset
    | some r =>
        obtain rfl : r = record := hx
        exact keeps_destroyDataset h (.inr ⟨r, rfl, hdataset⟩)
  · exact keeps_raise _
  · exact keeps_pure _

theorem keeps_destroyJail (h : s.Working c name x) : Keeps m c s (destroyJail name record) :=
  keeps_bind (keeps_ite (fun _ => keeps_pure _) fun _ => keeps_jailExists name) fun _ =>
    keeps_ite (fun _ => keeps_removeWith (.jailRemove name) ⟨x, h⟩ (fun _ => rfl) 5 "jail")
      fun _ => keeps_pure _

theorem keeps_destroyEpair (h : s.Working c name x) (hx : x.getD {} = record) :
    Keeps m c s (destroyEpair record) := by
  unfold destroyEpair
  split
  · rename_i epair hepair
    refine keeps_ite (fun hhost => ?_) fun _ => keeps_pure _
    cases x with
    | none => subst hx; simp at hepair
    | some r =>
        obtain rfl : r = record := hx
        exact keeps_removeWith (.ifconfigDestroy epair) (.inl ⟨name, r, h, hepair, hhost⟩)
           (fun _ => rfl) 5 epair
  · exact keeps_pure _

theorem keeps_remainingResources : Keeps m c s (remainingResources m name record) := by
  refine keeps_bind (keeps_labelIf (keeps_vmExists name) _) fun _ => ?_
  refine keeps_bind (keeps_labelIf (keeps_jailExists name) _) fun _ => ?_
  refine keeps_bind ?_ fun _ => ?_
  · unfold remainingEpair
    split
    · exact keeps_ite (fun _ => keeps_labelIf (keeps_interfaceExists _) _) fun _ => keeps_pure _
    · exact keeps_pure _
  refine keeps_bind ?_ fun _ => ?_
  · unfold remainingMd
    split
    · exact keeps_ite (fun _ => keeps_labelIf (keeps_mdExists _) _) fun _ => keeps_pure _
    · exact keeps_pure _
  refine keeps_bind ?_ fun _ => ?_
  · unfold remainingDataset
    split
    · exact keeps_labelIf (keeps_datasetExists _) _
    · exact keeps_raise _
    · exact keeps_pure _
  exact keeps_bind (keeps_labelIf (keeps_datasetExists _) _) fun _ => keeps_pure _

/-- What a destroy may leave different: the knowledge about the record. -/
def SameButRecord (s s' : Known) : Prop :=
  ∃ record, s' = { s with record := record }

theorem SameButRecord.refl (s : Known) : SameButRecord s s := ⟨s.record, rfl⟩

/-- What is known once the record of the runtime is deleted. -/
def Known.forgot (s : Known) (name : String) : Known :=
  { s with record := some (name, [none]) }

/-- Between two operations, when no lease is taken or given up. -/
structure Known.Calm (s : Known) : Prop where
  asked : s.asked = none
  lease : s.lease = none
  forgetting : s.forgetting = false

theorem forgetAddress_obeys (h : s.Working c name x) (hx : x.getD {} = record) (hcalm : s.Calm) :
    (forgetAddress name record).Obeys (rules m c)
      (fun _ s' => ∃ forgetting, s' = { s with forgetting := forgetting })
      (fun _ => SameButRecord s) s := by
  unfold forgetAddress
  split
  · rename_i guestIp hguest
    unfold when
    split_ifs with hne
    · cases x with
      | none => subst hx; simp at hguest
      | some r =>
          obtain rfl : r = record := hx
          rw [Prog.obeys_bind, obeys_op_iff]
          refine ⟨.inr ⟨hcalm.lease, r, h, hguest⟩, fun resp _ => ?_⟩
          cases resp with
          | error e =>
              exact ⟨s.record, show { s with lease := none } = s by rw [← hcalm.lease]⟩
          | ok released =>
              have hlearn : s.learn (.leaseRelease guestIp name) (.ok released)
                  = { s with forgetting := true } := by
                simp [Known.learn, hcalm.lease]
              rw [hlearn]
              change (run (.arpDelete guestIp) false >>= fun _ => pure ()).Obeys _ _ _ _
              rw [Prog.obeys_bind]
              have hwork : Known.Working c { s with forgetting := true } name (some r) :=
                ⟨h.destroying, h.named, h.knows, h.mayDestroy⟩
              refine (arpDelete_obeys guestIp fun _ => ⟨name, r, hwork, hguest⟩).mono ?_ ?_
              · rintro - _ rfl
                exact ⟨true, rfl⟩
              · rintro - _ rfl
                exact ⟨s.record, show { s with forgetting := false } = s by
                  rw [← hcalm.forgetting]⟩
    · exact ⟨s.forgetting, rfl⟩
  · exact SameButRecord.refl s
  · exact ⟨s.forgetting, rfl⟩

/-- The last phase of destroy. -/
theorem forget_obeys (h : s.Working c name x) (hx : x.getD {} = record) (hcalm : s.Calm) :
    (forget name record).Obeys (rules m c) (fun _ s' => s' = s.forgot name)
      (fun _ => SameButRecord s) s := by
  rw [forget, Prog.obeys_bind]
  refine (forgetAddress_obeys h hx hcalm).mono ?_ fun _ _ hs => hs
  rintro - - ⟨forgetting, rfl⟩
  rw [deleteRegistry, Prog.obeys_bind, obeys_op_iff]
  refine ⟨⟨x, h.destroying, h.named, h.knows, h.mayDestroy⟩, fun r _ => ?_⟩
  cases r with
  | ok u =>
      show { s with record := some (name, [none]), forgetting := false } = s.forgot name
      rw [Known.forgot, ← hcalm.forgetting]
  | error e =>
      refine ⟨s.record.map fun entry => (entry.1, none :: entry.2), ?_⟩
      rw [hcalm.forgetting]
      rfl

theorem validateName_eq_ok {n : String} :
    validateName name = .ok n ↔ n = name ∧ isRuntimeName name = true := by
  unfold validateName
  split_ifs with h
  · simp [h, eq_comm]
  · simp [h]

/-- Only root and the owner get past the check of a record. -/
theorem mayDestroy_of_authorizeRecord
    (h : authorizeRecord (x.getD {}) (some c.peer.uid) = .ok ()) : c.MayDestroy name x := by
  simp only [authorizeRecord] at h
  split_ifs at h with hroot howner
  · cases x with
    | none => exact .inl hroot
    | some r => exact .inl hroot
  · cases x with
    | none => simp at howner
    | some r => exact .inr howner

theorem obeys_when {σ : Type} {T : Protocol Op.Resp σ} {P : Prop} [Decidable P] {p : Program Unit}
    {Q : Unit → σ → Prop} {R : PyError → σ → Prop} {s : σ} :
    (when P p).Obeys T Q R s ↔ (P → p.Obeys T Q R s) ∧ (¬ P → Q () s) := by
  unfold when
  split_ifs with h <;> simp [h]

/-- Reading the registry entry of a runtime whose lock is held. -/
theorem loadRegistry_obeys {Q : Option RuntimeRecord → Known → Prop}
    {R : PyError → Known → Prop} (hhold : .runtime name ∈ s.holds)
    (hok : ∀ x, (∀ xs, s.record = some (name, xs) → x ∈ xs) →
      Q x { s with record := some (name, [x]) })
    (herror : ∀ e, R e s) : (loadRegistry name).Obeys (rules m c) Q R s := by
  rw [loadRegistry, Prog.obeys_bind, obeys_op_iff]
  refine ⟨.inl hhold, fun r hr => ?_⟩
  cases r with
  | error e => exact herror e
  | ok x =>
      have hlearn : s.learn (.loadRegistry name) (.ok x) = { s with record := some (name, [x]) } :=
        if_pos hhold
      rw [hlearn]
      exact hok x hr

variable (s) in
theorem destroyBody_obeys {requesterUid : Option ℕ} {force : Bool}
    (hdestroying : s.Destroying c name)
    (hcalm : s.Calm)
    (hforce : force = true → ∀ x, (∀ xs, s.record = some (name, xs) → x ∈ xs) →
      c.MayDestroy name x)
    (huid : force = false → requesterUid = some c.peer.uid) :
    (destroyBody m name requesterUid force).Obeys (rules m c) (fun _ s' => s' = s.forgot name)
      (fun _ => SameButRecord s) s := by
  rw [destroyBody, Prog.obeys_bind]
  refine obeys_ofExcept.mpr ⟨fun n hn => ?_, fun _ _ => SameButRecord.refl s⟩
  obtain ⟨rfl, hname⟩ := validateName_eq_ok.mp hn
  rw [Prog.obeys_bind]
  refine loadRegistry_obeys hdestroying.1 (fun x hx => ?_) fun _ => SameButRecord.refl s
  have hraise : ∀ s', SameButRecord { s with record := some (n, [x]) } s' → SameButRecord s s' := by
    rintro s' ⟨record, rfl⟩
    exact ⟨record, rfl⟩
  rw [Prog.obeys_bind, obeys_when]
  -- past the check the request has authority over what it has read
  suffices hrest : c.MayDestroy n x → _ by
    refine ⟨fun hf => ?_, fun hf => hrest (hforce (by simpa using hf) x hx)⟩
    rw [huid hf]
    refine obeys_ofExcept.mpr ⟨fun u hu => ?_, fun _ _ => hraise _ (SameButRecord.refl _)⟩
    exact hrest (mayDestroy_of_authorizeRecord hu)
  intro hmay
  have hwork : Known.Working c { s with record := some (n, [x]) } n x :=
    ⟨hdestroying, hname, rfl, hmay⟩
  have herr : ∀ (e : PyError), SameButRecord s { s with record := some (n, [x]) } :=
    fun _ => hraise _ (SameButRecord.refl _)
  refine Prog.obeys_bind.mpr ((keeps_destroyVm hwork).obeys (fun vm => ?_) herr)
  refine Prog.obeys_bind.mpr ((keeps_destroyMd hwork rfl).obeys (fun md => ?_) herr)
  refine Prog.obeys_bind.mpr
    ((keeps_destroyRecordedDataset hwork rfl).obeys (fun recorded => ?_) herr)
  refine Prog.obeys_bind.mpr ((keeps_destroyJail hwork).obeys (fun jail => ?_) herr)
  refine Prog.obeys_bind.mpr ((keeps_destroyEpair hwork rfl).obeys (fun epair => ?_) herr)
  refine Prog.obeys_bind.mpr
    ((keeps_destroyDataset hwork (.inl rfl)).obeys (fun dataset => ?_) herr)
  refine Prog.obeys_bind.mpr (keeps_remainingResources.obeys (fun remaining => ?_) herr)
  refine Prog.obeys_bind.mpr ((keeps_when fun _ => keeps_raise _).obeys (fun _ => ?_) herr)
  refine Prog.obeys_bind.mpr ((forget_obeys hwork rfl ⟨hcalm.asked, hcalm.lease,
    hcalm.forgetting⟩).mono ?_ fun _ => hraise)
  rintro - _ rfl
  exact rfl

/-- `with` on a lock: the body runs with the lock among those held, and gives it back. -/
theorem withLock_obeys {l : LockId} {body : Program α} {Q : α → Known → Prop}
    {R : PyError → Known → Prop} (hperm : Permits m c s (.acquire l))
    (hbody : body.Obeys (rules m c)
      (fun a s' => (s'.holds.head? = some l ∧ s'.forgetting = false) ∧ Q a (s'.releasing l))
      (fun e s' => (s'.holds.head? = some l ∧ s'.forgetting = false) ∧ R e (s'.releasing l))
      { s with holds := l :: s.holds, asked := none }) :
    (withLock l body).Obeys (rules m c) Q R s := by
  rw [withLock, Prog.obeys_bind]
  refine obeys_op_iff.mpr ⟨hperm, fun _ _ => Prog.obeys_finallyDo.mpr ?_⟩
  refine Prog.Obeys.mono hbody (fun a s' hs' => ?_) fun e s' hs' => ?_
  · exact obeys_op_iff.mpr ⟨hs'.1, fun _ _ => hs'.2⟩
  · exact obeys_op_iff.mpr ⟨hs'.1, fun _ _ => hs'.2⟩

theorem serializedByName_obeys {body : Program α} {Q : α → Known → Prop}
    {R : PyError → Known → Prop}
    (h : (withLock (.runtime name) body).Obeys (rules m c) Q R { s with asked := some name }) :
    (serializedByName name body).Obeys (rules m c) Q R s := by
  rw [serializedByName, Prog.obeys_bind]
  exact obeys_op_iff.mpr ⟨trivial, fun _ _ => h⟩

theorem not_creates_of_collects {staleOnly : Bool} (h : c.Collects staleOnly) :
    ¬ c.Creates name := by
  rintro (⟨pid, key, h'⟩ | ⟨pid, key, profile, h'⟩)
  all_goals
    rw [Connection.Collects] at h
    simp [h] at h'

theorem not_creates_of_destroys {name' : String} (h : c.action = .ok (.destroy name')) :
    ¬ c.Creates name := by
  rintro (⟨pid, key, h'⟩ | ⟨pid, key, profile, h'⟩)
  all_goals simp [h] at h'

/-- Giving back the lock of a runtime that is held twice. -/
theorem releasing_nested (hholds : s.holds = [.runtime name]) (hasked : s.asked = none)
    (record : Option (String × List (Option RuntimeRecord))) :
    Known.releasing
      { s with holds := .runtime name :: s.holds, asked := none, record := record }
      (.runtime name) = { s with record := record } := by
  obtain ⟨holds, asked, slow, record', lease, epair, md, forgetting, snapshot, verdicts⟩ := s
  subst hholds hasked
  simp [Known.releasing, Known.leaving]

/-- `destroy` called by a create request inside its own lock. -/
theorem destroy_obeys_nested {requesterUid : Option ℕ} {force : Bool} (hcreates : c.Creates name)
    (hholds : s.holds = [.runtime name]) (hcalm : s.Calm)
    (hforce : force = true → ∀ x, (∀ xs, s.record = some (name, xs) → x ∈ xs) →
      c.MayDestroy name x)
    (huid : force = false → requesterUid = some c.peer.uid) :
    (destroy m name requesterUid force).Obeys (rules m c) (fun _ s' => s' = s.forgot name)
      (fun _ => SameButRecord s) s := by
  have hback : ∀ s', SameButRecord { s with holds := .runtime name :: s.holds, asked := none } s' →
      (s'.holds.head? = some (.runtime name) ∧ s'.forgetting = false)
        ∧ SameButRecord s (s'.releasing (.runtime name)) := by
    rintro _ ⟨record, rfl⟩
    exact ⟨⟨rfl, hcalm.forgetting⟩, record, releasing_nested hholds hcalm.asked record⟩
  refine serializedByName_obeys (withLock_obeys ⟨rfl, .inr (.inl ⟨hcreates, .inr hholds⟩)⟩ ?_)
  refine (destroyBody_obeys { s with holds := .runtime name :: s.holds, asked := none }
    ⟨List.mem_cons_self .., fun _ => by simp [hholds]⟩ ⟨rfl, hcalm.lease, hcalm.forgetting⟩
    hforce huid).mono ?_ fun _ => hback
  rintro - _ rfl
  exact ⟨⟨rfl, hcalm.forgetting⟩, releasing_nested hholds hcalm.asked _⟩

/-- `destroy` called by the collector, which holds nothing but the shared lock. -/
theorem keeps_destroy_collecting {requesterUid : Option ℕ} {force staleOnly : Bool}
    (hcollects : c.Collects staleOnly) (hholds : s.holds = [.shared]) (hrecord : s.record = none)
    (hepair : s.epair = none) (hmd : s.md = none) (hcalm : s.Calm)
    (htargets : staleOnly = true → c.peer.uid = 0 → s.Targets name)
    (hforce : force = true → c.peer.uid = 0)
    (huid : force = false → requesterUid = some c.peer.uid) :
    Keeps m c s (destroy m name requesterUid force) := by
  have hback : ∀ s', SameButRecord { s with holds := .runtime name :: s.holds, asked := none } s' →
      (s'.holds.head? = some (.runtime name) ∧ s'.forgetting = false)
        ∧ s'.releasing (.runtime name) = s := by
    rintro _ ⟨record, rfl⟩
    refine ⟨⟨rfl, hcalm.forgetting⟩, ?_⟩
    obtain ⟨holds, asked, slow, record', lease, epair, md, forgetting, snapshot, verdicts⟩ := s
    obtain ⟨hasked, hlease, -⟩ := hcalm
    subst hholds hrecord hasked hlease hepair hmd
    simp [Known.releasing, Known.leaving]
  refine serializedByName_obeys
    (withLock_obeys ⟨rfl, .inr (.inr ⟨staleOnly, hcollects, hholds, htargets⟩)⟩ ?_)
  refine (destroyBody_obeys { s with holds := .runtime name :: s.holds, asked := none }
    ⟨List.mem_cons_self .., fun h => absurd h (not_creates_of_collects hcollects)⟩
    ⟨rfl, hcalm.lease, hcalm.forgetting⟩ (fun hf x _ => ?_) huid).mono ?_ fun _ => hback
  · cases x with
    | none => exact .inl (hforce hf)
    | some r => exact .inl (hforce hf)
  · rintro - _ rfl
    exact hback _ ⟨_, rfl⟩

/-- `destroy` as a request of its own. -/
theorem keeps_destroy_request (haction : c.action = .ok (.destroy name)) :
    Keeps m c {} (destroy m name (some c.peer.uid) false) := by
  refine serializedByName_obeys (withLock_obeys ⟨rfl, .inl ⟨haction, rfl⟩⟩ ?_)
  refine (destroyBody_obeys { holds := [.runtime name] }
    ⟨List.mem_cons_self .., fun h => absurd h (not_creates_of_destroys haction)⟩ ⟨rfl, rfl, rfl⟩
    (by simp) fun _ => rfl).mono ?_ ?_
  · rintro - _ rfl
    exact ⟨⟨rfl, rfl⟩, by simp [Known.releasing, Known.forgot]⟩
  · rintro - _ ⟨record, rfl⟩
    exact ⟨⟨rfl, rfl⟩, by simp [Known.releasing]⟩

end Destroy

end FreebsdLaboratory
