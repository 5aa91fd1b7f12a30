import FreebsdLaboratory.Lifecycle.Writes

/-!
# Stopping before storage is removed

`destroy` is one text for jails and VMs.  For a VM the order is right: `vm destroy` comes before
every removal of its storage.  The record of a jail names the jail's root in the same field in which
the record of a VM names the VM's dataset, and the block for that field stands in front of
`jail -r`: a jail's root is removed from under it exactly if it is seen to be there at that point
(`stopped_first_iff`).
-/

namespace FreebsdLaboratory

open Library Program

variable {m : RuntimeManager} {reentrant : Bool} {runtime name : String} {record : RuntimeRecord}
variable {w w' : World} {s : Alone} {o : Op} {a : Answer} {r : o.Resp} {ok : Op → Answer → Bool}

/-! ## Storage -/

/-- The dataset is the root of the jail, or a disk of the VM, that the record is about. -/
def RuntimeRecord.Stores (m : RuntimeManager) (name : String) (record : RuntimeRecord)
    (dataset : String) : Prop :=
  record.type = .str "jail" ∧ dataset = m.jailDataset name
    ∨ record.type = .str "bhyve" ∧
      (dataset = m.vmDataset name ∨ dataset = m.vmDataset name ++ "/disk0")

/-- The step goes to remove storage of the runtime. -/
def RemovesStorage (m : RuntimeManager) (name : String) (record : RuntimeRecord) (st : Taken) :
    Prop :=
  (∃ dataset, record.Stores m name dataset
      ∧ (st.op = .run (.zfsDestroy dataset) ∨ st.op = .run (.zfsDestroyRecursive dataset)))
    ∨ ∃ md, record.mdUnit = .str md ∧ st.op = .run (.mdconfigDetach (unitNumber md))

/-- The step tries to stop the runtime. -/
def Stops (name : String) (record : RuntimeRecord) (st : Taken) : Prop :=
  record.type = .str "jail" ∧ st.op = .run (.jailRemove name)
    ∨ record.type = .str "bhyve" ∧ st.op = .run (.vmDestroy name)

/-- Storage is removed only after an attempt to stop the runtime. -/
def StoppedFirst (m : RuntimeManager) (name : String) (record : RuntimeRecord) (s : Alone) : Prop :=
  Preceded (RemovesStorage m name record) (Stops name record) s.past

/-- The dataset is listed, and shown to be there. -/
def Shows (dataset : String) (st : Taken) : Prop :=
  ∃ before a out, st = ⟨before, .run (.zfsListDataset dataset), a, .completed 0 out⟩

/-- The jail's root is not seen to be there before `jail -r`. -/
def SeenLate (m : RuntimeManager) (name : String) (record : RuntimeRecord) (s : Alone) : Prop :=
  Preceded (Shows (m.jailDataset name)) (Stops name record) s.past

/-! ## What a step changes -/

/-- An operation that neither removes storage, nor lists a dataset, nor stops a runtime. -/
def Op.isIdle : Op → Bool
  | .run (.zfsDestroy _) | .run (.zfsDestroyRecursive _) | .run (.mdconfigDetach _)
  | .run (.zfsListDataset _) | .run (.jailRemove _) | .run (.vmDestroy _) => false
  | _ => true

/-- Nothing of that kind has happened. -/
def Idle (m : RuntimeManager) (name : String) (record : RuntimeRecord) (s : Alone) : Prop :=
  ∀ st ∈ s.past, ¬ RemovesStorage m name record st ∧ ¬ Shows (m.jailDataset name) st
    ∧ ¬ Stops name record st

lemma not_removes {st : Taken} (h : st.op.isIdle = true) : ¬ RemovesStorage m name record st := by
  rintro (⟨dataset, -, hop | hop⟩ | ⟨md, -, hop⟩) <;> simp [hop, Op.isIdle] at h

lemma not_shows {st : Taken} (h : st.op.isIdle = true) (dataset : String) : ¬ Shows dataset st := by
  rintro ⟨before, a, out, rfl⟩
  simp [Op.isIdle] at h

lemma not_stops {st : Taken} (h : st.op.isIdle = true) : ¬ Stops name record st := by
  rintro (⟨-, hop⟩ | ⟨-, hop⟩) <;> simp [hop, Op.isIdle] at h

lemma Idle.step (hs : Idle m name record s) (ho : o.isIdle = true) :
    Idle m name record ⟨w', ⟨w, o, a, r⟩ :: s.past⟩ :=
  List.forall_mem_cons.mpr ⟨⟨not_removes ho, not_shows ho _, not_stops ho⟩, hs⟩

lemma Idle.stoppedFirst (hs : Idle m name record s) : StoppedFirst m name record s :=
  preceded_of_none fun st hst => (hs st hst).1

lemma Idle.seenLate (hs : Idle m name record s) : SeenLate m name record s :=
  preceded_of_none fun st hst => (hs st hst).2.1

lemma Settled.idle (hs : Settled w s) : Idle m name record s := by
  intro st hst
  have hidle : st.op.isIdle = true := by
    have hprelude := hs.prelude st hst
    cases hop : st.op <;> simp_all [Op.isPrelude, Op.isIdle]
  exact ⟨not_removes hidle, not_shows hidle _, not_stops hidle⟩

/-- An attempt to stop the runtime has been made, and nothing was removed before. -/
structure Stopped (m : RuntimeManager) (name : String) (record : RuntimeRecord) (s : Alone) :
    Prop where
  first : StoppedFirst m name record s
  late : SeenLate m name record s
  stopped : ∃ st ∈ s.past, Stops name record st

/-- The runtime was stopped first, or its root was seen and removed first. -/
def Decided (m : RuntimeManager) (name : String) (record : RuntimeRecord) (s : Alone) : Prop :=
  Stopped m name record s ∨ ¬ StoppedFirst m name record s ∧ ¬ SeenLate m name record s

/-- From then on nothing changes about it. -/
lemma Stopped.step (hs : Stopped m name record s) (st : Taken) :
    Stopped m name record ⟨w', st :: s.past⟩ := by
  refine ⟨preceded_cons.mpr ⟨fun _ => hs.stopped, hs.first⟩,
    preceded_cons.mpr ⟨fun _ => hs.stopped, hs.late⟩, ?_⟩
  obtain ⟨st', hst', hstops⟩ := hs.stopped
  exact ⟨st', List.mem_cons_of_mem _ hst', hstops⟩

lemma Decided.step (hs : Decided m name record s) (st : Taken) :
    Decided m name record ⟨w', st :: s.past⟩ := by
  rcases hs with hs | ⟨hfirst, hlate⟩
  · exact .inl (hs.step st)
  · exact .inr ⟨fun h => hfirst (preceded_cons.mp h).2, fun h => hlate (preceded_cons.mp h).2⟩

/-- The first attempt to stop the runtime. -/
lemma Idle.stopped (hs : Idle m name record s) {st : Taken} (hst : Stops name record st) :
    Stopped m name record ⟨w', st :: s.past⟩ := by
  have hremoves : ¬ RemovesStorage m name record st := by
    rintro (⟨dataset, -, hop | hop⟩ | ⟨md, -, hop⟩) <;>
      rcases hst with ⟨-, hst⟩ | ⟨-, hst⟩ <;> simp [hop] at hst
  have hshows : ¬ Shows (m.jailDataset name) st := by
    rintro ⟨before, a, out, rfl⟩
    rcases hst with ⟨-, hst⟩ | ⟨-, hst⟩ <;> simp at hst
  exact ⟨preceded_cons.mpr ⟨fun h => absurd h hremoves, hs.stoppedFirst⟩,
    preceded_cons.mpr ⟨fun h => absurd h hshows, hs.seenLate⟩, st, List.mem_cons_self, hst⟩

lemma Decided.iff (hs : Decided m name record s) :
    StoppedFirst m name record s ↔ SeenLate m name record s := by
  rcases hs with hs | ⟨hfirst, hlate⟩
  · exact iff_of_true hs.first hs.late
  · exact iff_of_false hfirst hlate

/-! ## The blocks of `destroy` -/

lemma stopped_step : ∀ (s : Alone) (o : Op) a r w', Stopped m name record s →
    exec m reentrant 0 runtime s.world o a = some (r, w') →
    Stopped m name record ⟨w', ⟨s.world, o, a, r⟩ :: s.past⟩ :=
  fun _ _ _ _ _ hs _ => hs.step _

lemma decided_step : ∀ (s : Alone) (o : Op) a r w', Decided m name record s →
    exec m reentrant 0 runtime s.world o a = some (r, w') →
    Decided m name record ⟨w', ⟨s.world, o, a, r⟩ :: s.past⟩ :=
  fun _ _ _ _ _ hs _ => hs.step _

lemma idle_keeps {α : Type} {p : Program α} (hp : p.Performs fun o => o.isIdle = true)
    (hs : Idle m name record s) :
    p.Obeys (alone m reentrant runtime ok) (fun _ => Idle m name record)
      (fun _ => Idle m name record) s :=
  performs_keeps hp (fun _ _ _ _ _ ho hs _ => hs.step ho) hs

/-- Of a VM, nothing is removed before `vm destroy`. -/
lemma destroyVm_stopped (htype : record.type = .str "bhyve") (hs : Idle m name record s) :
    (destroyVm m name record).Obeys (alone m reentrant runtime ok) (fun _ => Stopped m name record)
      (fun _ s => Idle m name record s ∨ Stopped m name record s) s := by
  have hbhyve : record.type.eqStr "bhyve" = true := by simp [htype]
  refine Prog.obeys_bind.mpr (obeys_when.mpr ⟨fun _ => ?_, fun h => absurd hbhyve h⟩)
  refine (idle_keeps (performs_requireVmBackend rfl) hs).mono (fun _ s hs => ?_)
    fun _ _ hs => .inl hs
  rw [if_pos hbhyve]
  refine Prog.obeys_bind.mpr (Prog.obeys_pure.mpr ?_)
  rw [if_pos rfl]
  refine Prog.obeys_bind.mpr ((idle_keeps (performs_run rfl) hs).mono (fun _ s hs => ?_)
    fun _ _ hs => .inl hs)
  exact (removeWith_obeys stopped_step (fun a r w' _ => hs.stopped (.inr ⟨htype, rfl⟩)) 4).mono
    (fun _ _ hs => hs) fun _ _ hs => .inr hs

/-- A listing that does not show the root. -/
lemma Idle.listed (hs : Idle m name record s) {dataset : String} {outcome : RunOutcome}
    (houtcome : ∀ out, outcome ≠ .completed 0 out) :
    Idle m name record ⟨w', ⟨w, .run (.zfsListDataset dataset), a, outcome⟩ :: s.past⟩ := by
  refine List.forall_mem_cons.mpr ⟨⟨?_, ?_, ?_⟩, hs⟩
  · rintro (⟨dataset, -, hop | hop⟩ | ⟨md, -, hop⟩) <;> simp at hop
  · rintro ⟨before, a, out, heq⟩
    injection heq with _ hop _ hresp
    obtain rfl := Command.zfsListDataset.inj (Op.run.inj hop)
    exact houtcome out hresp
  · rintro (⟨-, hop⟩ | ⟨-, hop⟩) <;> simp at hop

/-- The root is seen before `jail -r`, and its removal follows. -/
lemma Idle.spoilt (hs : Idle m name record s) (htype : record.type = .str "jail") {w₁ w₂ w₃ : World}
    {a₁ a₂ : Answer} {out : String} {outcome : RunOutcome} :
    Decided m name record ⟨w₃, ⟨w₂, .run (.zfsDestroyRecursive (m.jailDataset name)), a₂, outcome⟩
      :: ⟨w₁, .run (.zfsListDataset (m.jailDataset name)), a₁, .completed 0 out⟩ :: s.past⟩ := by
  have hnone : ¬ ∃ st ∈ s.past, Stops name record st :=
    fun ⟨st, hst, hstops⟩ => (hs st hst).2.2 hstops
  refine .inr ⟨fun hfirst => ?_, fun hlate => ?_⟩
  · obtain ⟨st, hst, hstops⟩ :=
      (preceded_cons.mp hfirst).1 (.inl ⟨_, .inl ⟨htype, rfl⟩, .inr rfl⟩)
    rcases List.mem_cons.mp hst with rfl | hst
    · rcases hstops with ⟨-, hop⟩ | ⟨-, hop⟩ <;> simp at hop
    · exact hnone ⟨st, hst, hstops⟩
  · exact hnone ((preceded_cons.mp (preceded_cons.mp hlate).2).1 ⟨w₁, a₁, out, rfl⟩)

/-- The block for the recorded dataset, for a jail. -/
lemma destroyRecordedDataset_jail (htype : record.type = .str "jail")
    (hdataset : record.dataset = .str (m.jailDataset name)) (hs : Idle m name record s) :
    (destroyRecordedDataset record).Obeys (alone m reentrant runtime ok)
      (fun _ s => Idle m name record s ∨ Decided m name record s)
      (fun _ s => Idle m name record s ∨ Decided m name record s) s := by
  unfold destroyRecordedDataset
  rw [hdataset]
  refine Prog.obeys_bind.mpr (Prog.obeys_bind.mpr (Prog.obeys_bind.mpr ?_))
  refine alone_op fun a r w' _ _ => ?_
  cases r with
  | timeoutExpired | osError | raises e => exact .inl (hs.listed (by simp))
  | completed code out =>
      rw [if_neg (by simp)]
      by_cases hcode : code = 0
      · subst hcode
        refine Prog.obeys_pure.mpr (Prog.obeys_pure.mpr ?_)
        rw [if_pos (by simp)]
        exact (removeWith_obeys decided_step (fun _ _ _ _ => hs.spoilt htype) 9).mono
          (fun _ _ hs => .inr hs) fun _ _ hs => .inr hs
      · refine Prog.obeys_pure.mpr (Prog.obeys_pure.mpr ?_)
        rw [if_neg (by simpa using hcode)]
        exact .inl (hs.listed (by simp [hcode]))

/-- With the block for the jail it is decided. -/
lemma destroyJail_decided (htype : record.type = .str "jail")
    (hs : Idle m name record s ∨ Decided m name record s) :
    (destroyJail name record).Obeys (alone m reentrant runtime ok) (fun _ => Decided m name record)
      (fun _ => Decided m name record) s := by
  unfold destroyJail
  rw [if_pos (by simp [htype])]
  refine Prog.obeys_bind.mpr (Prog.obeys_pure.mpr ?_)
  rw [if_pos rfl]
  refine removeWith_obeys decided_step (fun a r w' _ => ?_) 4
  rcases hs with hs | hs
  · exact .inl (hs.stopped (.inl ⟨htype, rfl⟩))
  · exact hs.step _

/-- For a jail, the block for a VM stops nothing and removes nothing of it. -/
lemma destroyVm_idle (htype : record.type = .str "jail") (hs : Idle m name record s) :
    (destroyVm m name record).Obeys (alone m reentrant runtime ok) (fun _ => Idle m name record)
      (fun _ => Idle m name record) s := by
  have hperforms : (destroyVm m name record).Performs
      fun o => o.isIdle = true ∨ o = .run (.vmDestroy name) :=
    performs_destroyVm (.inl rfl) (.inl rfl) (.inl rfl) (.inr rfl)
  refine performs_keeps hperforms ?_ hs
  rintro s o a r w' (ho | rfl) hs -
  · exact hs.step ho
  · refine List.forall_mem_cons.mpr ⟨⟨?_, ?_, ?_⟩, hs⟩
    · rintro (⟨dataset, -, hop | hop⟩ | ⟨md, -, hop⟩) <;> simp at hop
    · rintro ⟨before, a, out, heq⟩
      injection heq with _ hop
      simp at hop
    · rintro (⟨-, hop⟩ | ⟨hbhyve, -⟩)
      · simp at hop
      · simp [htype] at hbhyve

/-- For a jail, the root is seen and removed before `jail -r`, or neither. -/
lemma destroyRecord_jail (htype : record.type = .str "jail")
    (hdataset : record.dataset = .str (m.jailDataset name)) (hmd : record.mdUnit = .null)
    (hs : Idle m name record s) :
    (destroyRecord m name record).Obeys (alone m reentrant runtime ok)
      (fun _ s => Idle m name record s ∨ Decided m name record s)
      (fun _ s => Idle m name record s ∨ Decided m name record s) s := by
  refine Prog.obeys_bind.mpr (Prog.obeys_bind.mpr ?_)
  refine (destroyVm_idle htype hs).mono (fun _ s hs => ?_) fun _ _ hs => .inl hs
  refine Prog.obeys_bind.mpr ?_
  rw [destroyMd, hmd]
  refine Prog.obeys_pure.mpr (Prog.obeys_bind.mpr ?_)
  refine (destroyRecordedDataset_jail htype hdataset hs).mono (fun _ s hs => ?_) fun _ _ hs => hs
  refine Prog.obeys_bind.mpr ?_
  refine (destroyJail_decided htype hs).mono (fun _ s hs => ?_) fun _ _ hs => .inr hs
  refine (alone_keeps decided_step hs _).mono (fun _ s hs => ?_) fun _ _ hs => .inr hs
  exact (alone_keeps decided_step hs _).mono (fun _ _ hs => .inr hs) fun _ _ hs => .inr hs

/-- For a VM, everything comes after `vm destroy`. -/
lemma destroyRecord_bhyve (htype : record.type = .str "bhyve") (hs : Idle m name record s) :
    (destroyRecord m name record).Obeys (alone m reentrant runtime ok)
      (fun _ s => Idle m name record s ∨ Stopped m name record s)
      (fun _ s => Idle m name record s ∨ Stopped m name record s) s := by
  refine Prog.obeys_bind.mpr (Prog.obeys_bind.mpr ?_)
  refine (destroyVm_stopped htype hs).mono (fun _ s hs => ?_) fun _ _ hs => hs
  refine (alone_keeps stopped_step hs _).mono (fun _ s hs => ?_) fun _ _ hs => .inr hs
  exact (alone_keeps stopped_step hs _).mono (fun _ _ hs => .inr hs) fun _ _ hs => .inr hs

/-- **Storage is removed only after an attempt to stop the runtime, if and only if** the runtime is
a VM or the root of the jail is not seen to be there before `jail -r`. -/
theorem stopped_first_iff (m : RuntimeManager) (reentrant : Bool) (runtime name : String)
    (w : World)
    (record : RuntimeRecord) (hrecord : w.registry.get? name = some record)
    (hwritten : Written m name record) (requesterUid : Option ℕ) (force : Bool) :
    (destroy m name requesterUid force).Obeys (alone m reentrant runtime fun _ _ => true)
      (fun _ s => StoppedFirst m name record s
        ↔ record.type = .str "bhyve" ∨ SeenLate m name record s)
      (fun _ s => StoppedFirst m name record s
        ↔ record.type = .str "bhyve" ∨ SeenLate m name record s) w.alone := by
  have hget : w.recordOf name = record := by rw [World.recordOf, hrecord]; rfl
  rcases hwritten.cases with ⟨htype, hdataset, hmd⟩ | htype
  · have hiff : ∀ s, Idle m name record s ∨ Decided m name record s →
        (StoppedFirst m name record s ↔ record.type = .str "bhyve" ∨ SeenLate m name record s) := by
      intro s hs
      rw [or_iff_right (by simp [htype])]
      exact hs.elim (fun hs => iff_of_true hs.stoppedFirst hs.seenLate) Decided.iff
    have hrelease : KeptByRelease m reentrant runtime
        fun s => Idle m name record s ∨ Decided m name record s :=
      fun s lock a r w' _ hs => hs.imp (fun hs => hs.step rfl) fun hs => hs.step _
    refine Prog.Obeys.mono ?_ (fun _ => hiff) fun _ => hiff
    refine destroy_alone (fun _ => hrelease) (fun _ => hrelease) (fun _ _ hs => .inl hs.idle) ?_
    intro s hs _
    rw [hget]
    exact destroyRecord_jail htype hdataset hmd hs.idle
  · have hiff : ∀ s, Idle m name record s ∨ Stopped m name record s →
        (StoppedFirst m name record s ↔ record.type = .str "bhyve" ∨ SeenLate m name record s) :=
      fun s hs => iff_of_true (hs.elim Idle.stoppedFirst Stopped.first) (.inl htype)
    have hrelease : KeptByRelease m reentrant runtime
        fun s => Idle m name record s ∨ Stopped m name record s :=
      fun s lock a r w' _ hs => hs.imp (fun hs => hs.step rfl) fun hs => hs.step _
    refine Prog.Obeys.mono ?_ (fun _ => hiff) fun _ => hiff
    refine destroy_alone (fun _ => hrelease) (fun _ => hrelease) (fun _ _ hs => .inl hs.idle) ?_
    intro s hs _
    rw [hget]
    exact destroyRecord_bhyve htype hs.idle

/-- The record of a jail that is being created. -/
def newJailRecord : RuntimeRecord :=
  jailRecord .standard "freebsd-lab-a"
    { pid := 200, uid := 1001, gid := 1001, startedAt := "Mon", processDigest := "d" }
    (.ofOctets 172 31 254 10) (RuntimeManager.standard.jailDataset "freebsd-lab-a")
    "/usr/local/jails/containers/freebsd-lab-a"

/-- The jail runs on its root. -/
def jailAtWork : World :=
  { ({} : World).storeRecord "freebsd-lab-a" newJailRecord with
    host :=
      { jails := ["freebsd-lab-a"]
        datasets := [RuntimeManager.standard.jailDataset "freebsd-lab-a"] } }

theorem stopped_first_iff_of_jail : (destroy .standard "freebsd-lab-a" none true).Obeys
    (alone .standard false "freebsd-lab-a" fun _ _ => true)
    (fun _ s => StoppedFirst .standard "freebsd-lab-a" newJailRecord s
      ↔ newJailRecord.type = .str "bhyve" ∨ SeenLate .standard "freebsd-lab-a" newJailRecord s)
    (fun _ s => StoppedFirst .standard "freebsd-lab-a" newJailRecord s
      ↔ newJailRecord.type = .str "bhyve" ∨ SeenLate .standard "freebsd-lab-a" newJailRecord s)
    jailAtWork.alone :=
  stopped_first_iff .standard false "freebsd-lab-a" "freebsd-lab-a" jailAtWork newJailRecord rfl
    (.jail _ _ _) none true

set_option maxRecDepth 10000 in
/-- Where all goes well, the root of a running jail is removed before `jail -r`. -/
theorem root_removed_first : ¬ (destroy .standard "freebsd-lab-a" none true).Obeys
    (alone .standard false "freebsd-lab-a" fun _ _ => true)
    (fun _ => StoppedFirst .standard "freebsd-lab-a" newJailRecord)
    (fun _ => StoppedFirst .standard "freebsd-lab-a" newJailRecord) jailAtWork.alone := by
  intro h
  let done : Answer := {}
  let root := RuntimeManager.standard.jailDataset "freebsd-lab-a"
  have hrun : ∃ result s later, Solo.follow (exec .standard false 0 "freebsd-lab-a")
    (fun _ _ => true)
      (List.replicate 16 done) (destroy .standard "freebsd-lab-a" none true) jailAtWork.alone
        = some (.ret result, s) ∧
      s.past.map Step.op = later ++ .run (.zfsDestroyRecursive root)
        :: [.run (.zfsListDataset root), .vmAvailable, .loadRegistry "freebsd-lab-a",
          .acquire (.runtime "freebsd-lab-a"), .runtimeLock "freebsd-lab-a"] :=
    ⟨_, _, List.take 10 _, rfl, (List.take_append_drop 10 _).symm⟩
  obtain ⟨result, s, later, hfollow, hops⟩ := hrun
  have hfirst : StoppedFirst _ _ newJailRecord s := Solo.obeys_of_follow h hfollow
  obtain ⟨newer, rest, heq, -, hrest⟩ := List.map_eq_append_iff.mp hops
  obtain ⟨st, older, rfl, hst, holder⟩ := List.map_eq_cons_iff.mp hrest
  have hremoves : RemovesStorage .standard "freebsd-lab-a" newJailRecord st :=
    .inl ⟨root, .inl ⟨rfl, rfl⟩, .inr hst⟩
  obtain ⟨st', hst', hstops⟩ := hfirst newer st older heq hremoves
  have hop : st'.op ∈ older.map Step.op := List.mem_map_of_mem hst'
  rcases hstops with ⟨-, hstop⟩ | ⟨htype, -⟩
  · simp [holder, hstop] at hop
  · simp [newJailRecord, jailRecord, RuntimeOwner.registryFields] at htype

end FreebsdLaboratory
