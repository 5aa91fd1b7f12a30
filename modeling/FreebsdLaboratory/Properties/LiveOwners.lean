import FreebsdLaboratory.Lifecycle.Alone
import FreebsdLaboratory.Model.RuntimeClient
import FreebsdLaboratory.Protocol.Collecting

/-!
# Collection and live owners

A stale-only collection spares the runtimes whose owner is alive, as far as `ps` tells it so: an
owner that `ps` has nothing readable to say of counts as dead.  `live_owners_spared` is about the
collections in which `ps` answers for the owner.
-/

namespace FreebsdLaboratory

open Library Program

variable {m : RuntimeManager} {reentrant : Bool} {name : String} {record : RuntimeRecord} {pid : ℤ}
variable {w w' : World} {s : Alone} {o : Op} {a : Answer} {r : o.Resp} {α β : Type}

/-- The record's owner is alive: `ps` would show its user and its start time. -/
structure World.OwnerAlive (w : World) (record : RuntimeRecord) (pid : ℤ) : Prop where
  ownerPid : record.ownerPid = .int pid
  one_lt : 1 < pid
  identified : ∃ (uid : ℕ) (startedAt : String), record.ownerUid = .int uid
    ∧ record.ownerProcessDigest = .str (processDigest uid startedAt)
    ∧ w.identityOf pid = some ⟨pid, uid, startedAt, processDigest uid startedAt⟩

/-- `ps` has been asked about the process, and nothing readable has come of it. -/
def PsFailed (pid : ℤ) (st : Taken) : Prop :=
  ∃ before a outcome, st = ⟨before, .ps pid, a, outcome⟩
    ∧ ∀ out, outcome = .completed 0 out → parseProcessIdentity pid out = none

/-- A `destroy` of the runtime has been entered. -/
def Doomed (name : String) (past : List Taken) : Prop := ∃ st ∈ past, st.op = .runtimeLock name

/-- The runtime is registered as before, and no `destroy` of it has been entered. -/
structure Unharmed (name : String) (record : RuntimeRecord) (w : World) (s : Alone) : Prop where
  load : s.world.load name = .ok (some record)
  processes : s.world.processes = w.processes
  notDoomed : ¬ Doomed name s.past

/-- So it is, unless `ps` has failed. -/
def Spared (name : String) (record : RuntimeRecord) (pid : ℤ) (w : World) (s : Alone) : Prop :=
  (∃ st ∈ s.past, PsFailed pid st) ∨ Unharmed name record w s

/-- Code that keeps the runtime from harm as long as `ps` answers, and what it returns then. -/
def Spares (m : RuntimeManager) (reentrant : Bool) (name : String) (record : RuntimeRecord)
    (pid : ℤ)
    (w : World) (P : α → Prop) (p : Program α) : Prop :=
  ∀ s, Unharmed name record w s → p.Obeys (alone m reentrant "" fun _ _ => true)
    (fun a s => (∃ st ∈ s.past, PsFailed pid st) ∨ Unharmed name record w s ∧ P a)
    (fun _ => Spared name record pid w) s

/-! ## One step -/

/-- The operation has nothing to do with the record of the runtime or its destruction. -/
def Op.passesBy (name : String) : Op → Bool
  | .runtimeLock name' | .deleteRegistry name' => name' ≠ name
  | .writeRegistry _ => false
  | _ => true

lemma Unharmed.step (h : Unharmed name record w s) (ho : o.passesBy name = true)
    (hexec : exec m reentrant 0 "" s.world o a = some (r, w')) :
    Unharmed name record w ⟨w', ⟨s.world, o, a, r⟩ :: s.past⟩ := by
  refine ⟨?_, (exec_frame hexec).processes.trans h.processes, ?_⟩
  · have hsame : w'.load name = s.world.load name := by
      cases o with
      | writeRegistry _ => cases ho
      | deleteRegistry name' =>
          have hne : name ≠ name' := by
            rintro rfl
            simp [Op.passesBy] at ho
          rcases deleteRegistry_cases hexec with ⟨-, -, rfl⟩ | ⟨-, -, ⟨rfl, -⟩ | ⟨rfl, -⟩⟩
          · exact load_dropRecord_of_ne hne
          · exact load_dropRecord_of_ne hne
          · rfl
      | _ => exact load_congr ((exec_frame hexec).registry rfl) name
    exact hsame.trans h.load
  · rintro ⟨st, hst, hop⟩
    rcases List.mem_cons.mp hst with rfl | hst
    · obtain rfl : o = .runtimeLock name := hop
      simp [Op.passesBy] at ho
    · exact h.notDoomed ⟨st, hst, hop⟩

/-- Where `ps` has failed, nothing is asked of what follows. -/
lemma failed_keeps {p : Program α} (h : ∃ st ∈ s.past, PsFailed pid st) :
    p.Obeys (alone m reentrant "" fun _ _ => true) (fun _ s => ∃ st ∈ s.past, PsFailed pid st)
      (fun _ s => ∃ st ∈ s.past, PsFailed pid st) s := by
  refine alone_keeps (fun s o a r w' hs _ => ?_) h p
  obtain ⟨st, hst, hfailed⟩ := hs
  exact ⟨st, List.mem_cons_of_mem _ hst, hfailed⟩

lemma Spares.bind {P : α → Prop} {Q : β → Prop} {p : Program α} {f : α → Program β}
    (hp : Spares m reentrant name record pid w P p)
    (hf : ∀ a, P a → Spares m reentrant name record pid w Q (f a)) :
    Spares m reentrant name record pid w Q (p >>= f) := by
  intro s hs
  refine Prog.obeys_bind.mpr ((hp s hs).mono (fun a s hs => ?_) fun _ _ h => h)
  rcases hs with hfailed | ⟨hs, ha⟩
  · exact (failed_keeps hfailed).mono (fun _ _ h => .inl h) fun _ _ h => .inl h
  · exact hf a ha s hs

lemma Spares.mono {P Q : α → Prop} {p : Program α} (hp : Spares m reentrant name record pid w P p)
    (h : ∀ a, P a → Q a) : Spares m reentrant name record pid w Q p :=
  fun s hs => (hp s hs).mono (fun a _ hs => hs.imp_right fun hs => ⟨hs.1, h a hs.2⟩) fun _ _ h => h

/-- Code that passes the runtime by. -/
lemma spares_of_performs {p : Program α} (hp : p.Performs fun o => o.passesBy name = true) :
    Spares m reentrant name record pid w (fun _ => True) p :=
  fun _ hs => (performs_keeps hp (fun _ _ _ _ _ ho hs hexec => hs.step ho hexec) hs).mono
    (fun _ _ hs => .inr ⟨hs, trivial⟩) fun _ _ hs => .inr hs

lemma spares_pure {P : α → Prop} {a : α} (h : P a) :
    Spares m reentrant name record pid w P (pure a) :=
  fun _ hs => .inr ⟨hs, h⟩

/-! ## The owner -/

/-- **An owner that is alive is found alive**, unless `ps` fails. -/
lemma spares_ownerAlive (halive : w.OwnerAlive record pid) :
    Spares m reentrant name record pid w (fun alive => alive = true) (ownerAlive record) := by
  intro s hs
  obtain ⟨hpid, hone, uid, startedAt, huid, hdigest, hidentity⟩ := halive
  have hpidle : ¬ pid ≤ 1 := by omega
  have hexists : (w.processOf pid).isSome = true := by
    unfold World.identityOf at hidentity
    cases hprocess : w.processOf pid with
    | none => simp [hprocess] at hidentity
    | some p => rfl
  have hprocess : ∀ s : Alone, Unharmed name record w s →
    s.world.processOf pid = w.processOf pid := by
    intro s hs
    rw [World.processOf, hs.processes, World.processOf]
  rw [ownerAlive, hpid, huid, hdigest]
  simp only [RecordValue.asInt, RecordValue.asStr]
  rw [if_neg (by simp [hpidle, processDigest, Sha256.hexDigest_ne_empty]), processMatches,
    if_neg (by simp [hpidle, processDigest, Sha256.hexDigest_ne_empty]),
    queryProcessIdentity, pidExists, if_neg hpidle]
  refine Prog.obeys_bind.mpr
    (Prog.obeys_bind.mpr (Prog.obeys_bind.mpr (alone_op fun a r w' _ hexec => ?_)))
  have hkilled := hs.step (o := .kill pid) rfl hexec
  refine Prog.obeys_ofExcept.mpr ⟨fun found hfound => ?_, fun _ _ => .inr hkilled⟩
  obtain rfl : found = true := by
    obtain ⟨hr, -⟩ := Prod.mk.inj (Option.some.inj hexec)
    rw [hfound, hprocess s hs, hexists] at hr
    split_ifs at hr
    exact (Except.ok.inj hr).symm
  rw [if_pos rfl]
  refine Prog.obeys_bind.mpr (alone_op fun a' outcome w'' _ hps => ?_)
  have hasked := hkilled.step (o := .ps pid) rfl hps
  obtain ⟨houtcome, -⟩ := Prod.mk.inj (Option.some.inj hps)
  have hfailed : (∀ out, outcome = .completed 0 out → parseProcessIdentity pid out = none) →
      ∃ st ∈ (⟨w', .ps pid, a', outcome⟩ :: ⟨s.world, .kill pid, a, r⟩ :: s.past : List Taken),
        PsFailed pid st :=
    fun h => ⟨_, List.mem_cons_self, _, _, _, rfl, h⟩
  split
  · rename_i out
    cases hparse : parseProcessIdentity pid out with
    | none =>
        refine .inl (hfailed fun out' hout => ?_)
        obtain ⟨-, rfl⟩ := RunOutcome.completed.inj hout
        exact hparse
    | some identity =>
        have hfound := identityOf_of_ps houtcome hparse
        rw [identityOf_congr hkilled.processes, hidentity] at hfound
        obtain rfl := Option.some.inj hfound
        exact .inr ⟨hasked, by simp⟩
  · exact .inr hasked
  · rename_i hnot _
    exact .inl (hfailed fun out hout => absurd hout (hnot out))

/-! ## The registry -/

/-- The runtime is in the list, with its record. -/
def Listed (name : String) (record : RuntimeRecord) (listed : Bool)
    (records : List (String × RuntimeRecord)) : Prop :=
  (listed = true → (name, record) ∈ records) ∧ ∀ r, (name, r) ∈ records → r = record

/-- A record that is read is the one that is registered. -/
lemma loadRegistry_reads (hload : s.world.load name = .ok (some record)) (name' : String) :
    (loadRegistry name').Obeys (alone m reentrant "" fun _ _ => true)
      (fun x s => s.world.load name = .ok (some record) ∧ (name' = name → x = some record))
      (fun _ _ => True) s := by
  refine Prog.obeys_bind.mpr (alone_op fun a r w' _ hexec => ?_)
  refine Prog.obeys_ofExcept.mpr ⟨fun x hx => ⟨?_, ?_⟩, fun _ _ => trivial⟩
  · exact (load_congr ((exec_frame (o := .loadRegistry name') hexec).registry rfl) name).trans hload
  · rintro rfl
    obtain ⟨hr, -⟩ := Prod.mk.inj (Option.some.inj hexec)
    rw [hx, hload] at hr
    split_ifs at hr
    exact (Except.ok.inj hr).symm

lemma registeredLoop_lists (hname : isRuntimeName name = true) (names : List String)
    (hload : s.world.load name = .ok (some record)) :
    (registeredLoop names).Obeys (alone m reentrant "" fun _ _ => true)
      (fun records _ => Listed name record (name ∈ names) records) (fun _ _ => True) s := by
  induction names generalizing s with
  | nil => exact ⟨by simp, by simp⟩
  | cons name' names ih =>
      rw [registeredLoop]
      by_cases hvalid : isRuntimeName name' = true
      · rw [if_pos hvalid]
        refine Prog.obeys_bind.mpr
          ((loadRegistry_reads hload name').mono (fun x s hs => ?_) fun _ _ h => h)
        obtain ⟨hload, hx⟩ := hs
        cases x with
        | some x =>
            refine Prog.obeys_bind.mpr
              ((ih hload).mono (fun records _ hrecords => ⟨fun hmem => ?_, fun r hr => ?_⟩)
              fun _ _ h => h)
            · rcases List.mem_cons.mp (of_decide_eq_true hmem) with rfl | hmem
              · rw [Option.some.inj (hx rfl)]
                exact List.mem_cons_self
              · exact List.mem_cons_of_mem _ (hrecords.1 (by simpa using hmem))
            · rcases List.mem_cons.mp hr with hr | hr
              · obtain ⟨rfl, rfl⟩ := Prod.mk.inj hr
                exact Option.some.inj (hx rfl)
              · exact hrecords.2 r hr
        | none =>
            refine (ih hload).mono (fun records _ hrecords => ⟨fun hmem => ?_, hrecords.2⟩)
              fun _ _ h => h
            rcases List.mem_cons.mp (of_decide_eq_true hmem) with rfl | hmem
            · cases hx rfl
            · exact hrecords.1 (by simpa using hmem)
      · rw [if_neg hvalid]
        refine (ih hload).mono (fun records _ hrecords => ⟨fun hmem => ?_, hrecords.2⟩)
          fun _ _ h => h
        rcases List.mem_cons.mp (of_decide_eq_true hmem) with rfl | hmem
        · exact absurd hname hvalid
        · exact hrecords.1 (by simpa using hmem)

/-- **The runtime is among the registered ones.** -/
lemma registered_lists (hname : isRuntimeName name = true)
    (hload : s.world.load name = .ok (some record)) :
    registered.Obeys (alone m reentrant "" fun _ _ => true)
      (fun records _ => Listed name record true records) (fun _ _ => True) s := by
  refine Prog.obeys_bind.mpr (alone_op fun a names w' _ hexec => ?_)
  obtain ⟨rfl, rfl⟩ := Prod.mk.inj (Option.some.inj hexec)
  have hkey : name ∈ s.world.registry.keys := by
    by_contra hkey
    rw [World.load, AList.lookup_eq_none.mpr hkey] at hload
    cases hload
  have hpre : Text.startsWith RUNTIME_PREFIX name = true := by
    simp only [isRuntimeName, Bool.and_eq_true] at hname
    exact hname.1.1.1
  have hmem : name ∈ (s.world.registry.keys.filter (Text.startsWith RUNTIME_PREFIX)).insertionSort
    (· ≤ ·) := by
    rw [List.mem_insertionSort, List.mem_filter]
    exact ⟨hkey, hpre⟩
  refine Prog.Obeys.mono (registeredLoop_lists hname _ hload) (fun records _ hrecords => ?_)
    fun _ _ h => h
  rwa [decide_eq_true hmem] at hrecords

lemma spares_registered (hname : isRuntimeName name = true) :
    Spares m reentrant name record pid w (Listed name record true) registered := by
  intro s hs
  have hpasses : registered.Performs fun o => o.passesBy name = true :=
    performs_registered rfl fun _ => rfl
  have hkept : registered.Obeys (alone m reentrant "" fun _ _ => true)
      (fun _ => Unharmed name record w) (fun _ => Unharmed name record w) s :=
    performs_keeps hpasses (fun _ _ _ _ _ ho hs hexec => hs.step ho hexec) hs
  exact (hkept.and (registered_lists hname hs.load)).mono (fun _ _ h => .inr h)
    fun _ _ h => .inr h.1

/-! ## The collection -/

/-- A `destroy` of another runtime passes this one by. -/
lemma performs_destroy_other {name' : String} (hne : name' ≠ name) (requesterUid : Option ℕ)
    (force : Bool) :
    (destroy m name' requesterUid force).Performs fun o => o.passesBy name = true :=
  performs_destroy (by simp [Op.passesBy, hne]) (fun _ => ⟨rfl, rfl⟩) rfl rfl (fun _ _ => rfl)
    (fun _ => rfl) (by simp [Op.passesBy, hne])

lemma spares_gcRegistered (halive : w.OwnerAlive record pid) (requesterUid : ℕ)
    (records : List (String × RuntimeRecord)) (hrecords : ∀ r, (name, r) ∈ records → r = record)
    (st : GcState) :
    Spares m reentrant name record pid w (fun _ => True)
      (gcRegistered m true requesterUid records st) := by
  induction records generalizing st with
  | nil => exact spares_pure trivial
  | cons entry records ih =>
      obtain ⟨name', record'⟩ := entry
      have hrest := ih fun r hr => hrecords r (List.mem_cons_of_mem _ hr)
      rw [gcRegistered]
      split_ifs
      · exact hrest _
      by_cases hname : name' = name
      · obtain rfl := hname
        obtain rfl := hrecords record' List.mem_cons_self
        refine (spares_ownerAlive halive).bind fun alive hlive => ?_
        rw [hlive, if_pos (by simp)]
        exact hrest _
      · refine (spares_of_performs (performs_ownerAlive fun _ => ⟨rfl, rfl⟩)).bind fun alive _ => ?_
        split_ifs
        · exact hrest _
        refine Spares.bind (P := fun _ => True) (spares_of_performs (.tryCatch ?_ fun _ => trivial))
          fun st _ => hrest st
        exact .bind (performs_destroy_other hname _ _) fun _ => trivial

lemma spares_gcDiscovered {names : List String} (hnames : name ∉ names) (st : GcState) :
    Spares m reentrant name record pid w (fun _ => True) (gcDiscovered m names st) := by
  induction names generalizing st with
  | nil => exact spares_pure trivial
  | cons name' names ih =>
      rw [List.mem_cons, not_or] at hnames
      refine Spares.bind (P := fun _ => True) (spares_of_performs (.tryCatch ?_ fun _ => trivial))
        fun st _ => ih hnames.2 st
      exact .bind (performs_destroy_other (Ne.symm hnames.1) _ _) fun _ => trivial

/-- Names that are retained are not taken for orphans. -/
lemma spares_gcOrphans (hname : isRuntimeName name = true) {st : GcState}
    (hst : name ∈ st.retained) :
    Spares m reentrant name record pid w (fun _ => True) (gcOrphans m st) := by
  have hprobe : ∀ (p : Program (List String)), p.Performs (fun o => o.passesBy name = true) →
      Spares m reentrant name record pid w (fun _ => True) p := fun _ hp => spares_of_performs hp
  refine (hprobe _ (performs_discoverJails rfl)).bind fun jails _ => ?_
  refine (hprobe _ (performs_discoverVms rfl rfl)).bind fun vms _ => ?_
  refine (hprobe _ (performs_discoverDatasets rfl)).bind fun datasets _ => ?_
  refine (spares_gcDiscovered ?_ st).bind fun st _ => ?_
  · simp [mem_sortedSet, hst]
  refine (spares_registered hname).bind fun records _ => ?_
  refine (hprobe _ (performs_bridgeEpairs rfl)).bind fun members _ => ?_
  exact (hprobe _ (performs_gcEpairs (fun _ => rfl) _)).bind fun _ _ => spares_pure trivial

lemma spares_gcBody (hname : isRuntimeName name = true) (halive : w.OwnerAlive record pid)
    (requesterUid : ℕ) :
    Spares m reentrant name record pid w (fun _ => True) (gcBody m true requesterUid) := by
  refine (spares_registered hname).bind fun records hrecords => ?_
  refine (spares_gcRegistered halive requesterUid records hrecords.2 _).bind fun st _ => ?_
  refine (spares_registered hname).bind fun after hafter => ?_
  have hretained : name ∈ after.map Prod.fst ++ st.retained :=
    List.mem_append_left _ (List.mem_map_of_mem (hafter.1 rfl))
  refine Spares.bind (P := fun _ => True) ?_ fun x _ => ?_
  · split_ifs
    · exact spares_gcOrphans hname hretained
    · exact spares_pure trivial
  refine (spares_registered hname).bind fun active _ => ?_
  refine Spares.bind (P := fun _ => True) (spares_of_performs ?_) fun released _ => ?_
  · exact .ite (fun _ => .bind (performs_op rfl) fun _ => performs_ofExcept) fun _ => trivial
  refine (spares_of_performs (performs_forgetAddresses (fun _ => rfl) _)).bind fun _ _ => ?_
  exact spares_pure trivial

/-- Every runtime whose owner is alive is spared, unless a `ps` for the owner has failed. -/
def LiveSpared (w : World) (s : Alone) : Prop :=
  ∀ name record pid, isRuntimeName name = true → w.load name = .ok (some record) →
    w.OwnerAlive record pid → (∀ st ∈ s.past, ¬ PsFailed pid st) → ¬ Doomed name s.past

/-- **A stale-only collection destroys no runtime whose owner is alive**, whoever asks for it and
however it ends, unless a `ps` for this owner fails. -/
theorem live_owners_spared (m : RuntimeManager) (reentrant : Bool) (w : World) (requesterUid : ℕ) :
    (gc m true requesterUid).Obeys (alone m reentrant "" fun _ _ => true) (fun _ => LiveSpared w)
      (fun _ => LiveSpared w) w.alone := by
  have hindex : Nonempty (String × RuntimeRecord × ℤ) := ⟨("", {}, 0)⟩
  have hall := Prog.Obeys.all (ι := String × RuntimeRecord × ℤ) (p := gc m true requesterUid)
    (T := alone m reentrant "" fun _ _ => true) (s := w.alone)
    (Q := fun i _ s => isRuntimeName i.1 = true → w.load i.1 = .ok (some i.2.1) →
      w.OwnerAlive i.2.1 i.2.2 → (∀ st ∈ s.past, ¬ PsFailed i.2.2 st) → ¬ Doomed i.1 s.past)
    (R := fun i _ s => isRuntimeName i.1 = true → w.load i.1 = .ok (some i.2.1) →
      w.OwnerAlive i.2.1 i.2.2 → (∀ st ∈ s.past, ¬ PsFailed i.2.2 st) → ¬ Doomed i.1 s.past)
  refine (hall ?_).mono (fun _ s h name record pid => h (name, record, pid))
    fun _ s h name record pid => h (name, record, pid)
  rintro ⟨name, record, pid⟩
  by_cases hlive : isRuntimeName name = true ∧ w.load name = .ok (some record)
    ∧ w.OwnerAlive record pid
  · obtain ⟨hname, hload, halive⟩ := hlive
    have hstart : Unharmed name record w w.alone :=
      ⟨hload, rfl, fun ⟨st, hst, _⟩ => by cases hst⟩
    have hgc : (gc m true requesterUid).Obeys (alone m reentrant "" fun _ _ => true)
        (fun _ => Spared name record pid w) (fun _ => Spared name record pid w) w.alone := by
      refine Prog.obeys_bind.mpr (alone_op fun a r w' _ hexec => Prog.obeys_finallyDo.mpr ?_)
      have hrelease : ∀ s, Spared name record pid w s → (op (.release .shared)).Obeys
          (alone m reentrant "" fun _ _ => true) (fun _ => Spared name record pid w)
          (fun _ => Spared name record pid w) s := by
        rintro s (hfailed | hs)
        · exact (failed_keeps hfailed).mono (fun _ _ h => .inl h) fun _ _ h => .inl h
        · exact alone_op fun a r w' _ hexec => .inr (hs.step (o := .release .shared) rfl hexec)
      exact (spares_gcBody hname halive requesterUid _
        (hstart.step (o := .acquire .shared) rfl hexec)).mono
        (fun _ s hs => hrelease s (hs.imp_right And.left)) fun _ s hs => hrelease s hs
    have hspared : ∀ s, Spared name record pid w s → (∀ st ∈ s.past, ¬ PsFailed pid st) →
        ¬ Doomed name s.past := by
      rintro s (⟨st, hst, hfailed⟩ | hs) hpast
      · exact absurd hfailed (hpast st hst)
      · exact hs.notDoomed
    exact hgc.mono (fun _ s hs _ _ _ => hspared s hs) fun _ s hs _ _ _ => hspared s hs
  · refine (Solo.obeys_trivial _).mono (fun _ s _ hname hload halive => ?_)
      fun _ s _ hname hload halive => ?_
    · exact absurd ⟨hname, hload, halive⟩ hlive
    · exact absurd ⟨hname, hload, halive⟩ hlive

/-- The record of a jail of the Jupyter server. -/
def ownedJail : RuntimeRecord :=
  sampleRecord "freebsd-lab-a" jupyter (.ofOctets 172 31 254 10)

/-- The server and its jail. -/
def oneOwnedJail : World :=
  { sampleWorld.storeRecord "freebsd-lab-a" ownedJail with host := { jails := ["freebsd-lab-a"] } }

/-- The answers to a collection where `ps` does not end in time. -/
def withSlowPs : List Answer :=
  let done : Answer := {}
  List.replicate 4 done ++ { done with exit := .timeoutExpired false } :: List.replicate 18 done

set_option maxRecDepth 10000 in
/-- The collection destroys the jail of the server, which is alive. -/
theorem slow_ps_dooms_live :
    ¬ (gc .standard true 1001).Obeys (alone .standard false "" fun _ _ => true)
    (fun _ s => ∀ name record pid, isRuntimeName name = true →
      oneOwnedJail.load name = .ok (some record) → oneOwnedJail.OwnerAlive record pid →
      ¬ Doomed name s.past)
    (fun _ _ => True) oneOwnedJail.alone := by
  intro h
  have hrun : ∃ report s, Solo.follow (exec .standard false 0 "") (fun _ _ => true) withSlowPs
      (gc .standard true 1001) oneOwnedJail.alone = some (.ret report, s) ∧
      Doomed "freebsd-lab-a" s.past :=
    ⟨_, _, rfl, _, List.mem_of_getElem? (i := 17) rfl, rfl⟩
  obtain ⟨report, s, hfollow, hdoomed⟩ := hrun
  have halive : oneOwnedJail.OwnerAlive ownedJail 100 := ⟨rfl, by decide, 1001, _, rfl, rfl, rfl⟩
  exact Solo.obeys_of_follow h hfollow "freebsd-lab-a" ownedJail 100 (by decide) rfl halive hdoomed

end FreebsdLaboratory
