import FreebsdLaboratory.Lifecycle.Watched

/-!
# What a collection withstands

A collection by root catches what a `destroy` raises, and goes on with the next runtime.  What is
raised outside of every `destroy` ends it: a registry file that cannot be read, a process id that is
out of range, a probe that does not end in time or prints what is no text, a lease file that cannot
be read.

`Endures` says of the code of a collection that it raises exactly there, and keeps a condition
meanwhile.
-/

namespace FreebsdLaboratory

open Library Program Solo

variable {m : RuntimeManager} {name : String} {record : RuntimeRecord} {w w' : World} {s : Alone}
variable {o : Op} {a : Answer} {r : o.Resp} {α β : Type} {calls : Taken → List Taken → Prop}
variable {st : Taken} {past : List Taken} {held : LockId → Option (ℕ × ℕ)} {I : Alone → Prop}

/-! ## What is raised -/

/-- The answer makes the code raise. -/
def Interrupted : Taken → Bool
  | ⟨_, .loadRegistry _, _, .error _⟩ => true
  | ⟨_, .deleteRegistry _, _, .error _⟩ => true
  | ⟨_, .leaseRelease _ _, _, .error _⟩ => true
  | ⟨_, .leaseClearOrphans _, _, .error _⟩ => true
  | ⟨_, .kill _, _, .error _⟩ => true
  | ⟨_, .run _, _, .timeoutExpired⟩ => true
  | ⟨_, .run _, _, .raises _⟩ => true
  | ⟨_, .ps _, _, .raises _⟩ => true
  | _ => false

/-- The code raises outside of every `destroy`. -/
def Escapes (st : Taken) (_ : List Taken) : Prop :=
  (∀ name, st.before.held (.runtime name) = none) ∧ Interrupted st = true

/-! ## Outside of `destroy` -/

/-- The locks that are held, where nothing has been raised outside of `destroy`. -/
structure Undisturbed (w : World) (held : LockId → Option (ℕ × ℕ)) (s : Alone) : Prop where
  held : s.world.held = held
  processes : s.world.processes = w.processes
  clear : ¬ Sent Escapes s.past

/-- No record is written. -/
def Op.keepsRecords : Op → Bool
  | .writeRegistry _ => false
  | _ => true

/-- Whatever a collection does keeps the condition. -/
def Lasts (m : RuntimeManager) (I : Alone → Prop) : Prop :=
  ∀ (s : Alone) (o : Op) a r w', o.keepsRecords = true → I s →
    exec m false 0 "" s.world o a = some (r, w') → I ⟨w', ⟨s.world, o, a, r⟩ :: s.past⟩

lemma Undisturbed.step (h : Undisturbed w held s) (hescapes : ¬ Escapes ⟨s.world, o, a, r⟩ s.past)
    (hexec : exec m false 0 "" s.world o a = some (r, w')) :
    Undisturbed w w'.held ⟨w', ⟨s.world, o, a, r⟩ :: s.past⟩ :=
  ⟨rfl, (exec_frame hexec).processes.trans h.processes, not_sent_cons.mpr ⟨hescapes, h.clear⟩⟩

lemma Undisturbed.next (h : Undisturbed w held s) (hlocks : o.touchesLocks = false)
    (hescapes : ¬ Escapes ⟨s.world, o, a, r⟩ s.past)
    (hexec : exec m false 0 "" s.world o a = some (r, w')) :
    Undisturbed w held ⟨w', ⟨s.world, o, a, r⟩ :: s.past⟩ := by
  have hnext := h.step hescapes hexec
  rwa [(exec_frame hexec).held hlocks, h.held] at hnext

lemma not_interrupted_of_touchesLocks (ho : o.touchesLocks = true) :
    Interrupted ⟨w, o, a, r⟩ = false := by
  cases o <;> first | rfl | cases ho

lemma not_escapes_of_not_interrupted (h : Interrupted st = false) : ¬ Escapes st past := by
  rintro ⟨-, hinterrupted⟩
  rw [h] at hinterrupted
  cases hinterrupted

lemma lockFamily_undisturbed (hI : ∀ (s : Alone) (o : Op) a r w', o.touchesLocks = true → I s →
      exec m false 0 "" s.world o a = some (r, w') → I ⟨w', ⟨s.world, o, a, r⟩ :: s.past⟩) :
    LockFamily m "" fun held s => Undisturbed w held s ∧ I s where
  held h := h.1.held
  step ho h hexec :=
    ⟨h.1.step (not_escapes_of_not_interrupted (not_interrupted_of_touchesLocks ho)) hexec,
      hI _ _ _ _ _ ho h.2 hexec⟩

lemma keepsRecords_of_touchesLocks (ho : o.touchesLocks = true) : o.keepsRecords = true := by
  cases o <;> first | rfl | cases ho

/-- Inside a `destroy` nothing escapes. -/
lemma stays_inside (hI : Lasts m I) (hheld : held (.runtime name) ≠ none) {p : Program α}
    (hp : p.Performs fun o => o.touchesLocks = false ∧ o.keepsRecords = true) :
    Stays m "" calls (fun s => Undisturbed w held s ∧ I s) p := by
  refine fun s hs => attentive_keeps hp (fun o ho => waits_of_touchesLocks ho.1) ?_ hs
  intro s o a r w' ho hs hexec
  refine ⟨hs.1.next ho.1 ?_ hexec, hI _ _ _ _ _ ho.2 hs.2 hexec⟩
  rintro ⟨hfree, -⟩
  exact hheld (hs.1.held ▸ hfree name)

/-- **Nothing that a `destroy` raises escapes.** -/
lemma stays_destroy_inside (hI : Lasts m I) {requesterUid : Option ℕ} {force : Bool} :
    Stays m "" calls (fun s => Undisturbed w collectorLock s ∧ I s)
      (destroy m name requesterUid force) := by
  have hfamily : LockFamily m "" fun held s => Undisturbed w held s ∧ I s :=
    lockFamily_undisturbed fun _ _ _ _ _ ho => hI _ _ _ _ _ (keepsRecords_of_touchesLocks ho)
  refine Stays.bind (fun s hs => ?_) fun _ => stays_withLock hfamily rfl ?_
  · refine attentive_op rfl fun a r w' hexec => ?_
    exact ⟨hs.1.next (o := .runtimeLock name) rfl (not_escapes_of_not_interrupted rfl) hexec,
      hI _ (.runtimeLock name) _ _ _ rfl hs.2 hexec⟩
  · have hheld : Function.update collectorLock (.runtime name) (some (0, 1)) (.runtime name)
      ≠ none := by
      rw [Function.update_self]
      simp
    refine stays_inside hI hheld ?_
    exact performs_destroyBody ⟨rfl, rfl⟩ ⟨rfl, rfl⟩ (fun _ _ => ⟨rfl, rfl⟩)
      (fun _ => ⟨rfl, rfl⟩) ⟨rfl, rfl⟩

/-- Code that keeps `I`, and raises exactly where something escapes; what it returns has `P`. -/
def Endures (m : RuntimeManager) (calls : Taken → List Taken → Prop) (w : World) (I : Alone → Prop)
    (P : α → Prop) (p : Program α) : Prop :=
  ∀ s, Undisturbed w collectorLock s ∧ I s → p.Obeys (attentive m "" calls)
    (fun a s => (Undisturbed w collectorLock s ∧ I s) ∧ P a) (fun _ s => Sent Escapes s.past) s

section Endures

variable {P : α → Prop} {Q : β → Prop}

lemma Endures.bind {p : Program α} {f : α → Program β} (hp : Endures m calls w I P p)
    (hf : ∀ a, P a → Endures m calls w I Q (f a)) : Endures m calls w I Q (p >>= f) :=
  fun s hs => Prog.obeys_bind.mpr ((hp s hs).mono (fun a s h => hf a h.2 s h.1) fun _ _ h => h)

lemma Endures.mono {P' : α → Prop} {p : Program α} (hp : Endures m calls w I P p)
    (h : ∀ a, P a → P' a) : Endures m calls w I P' p :=
  fun s hs => (hp s hs).mono (fun a _ hs => ⟨hs.1, h a hs.2⟩) fun _ _ h => h

lemma Endures.ite {c : Prop} [Decidable c] {p q : Program α} (hp : Endures m calls w I P p)
    (hq : Endures m calls w I P q) : Endures m calls w I P (if c then p else q) := by
  split_ifs
  · exact hp
  · exact hq

lemma endures_pure {a : α} (h : P a) : Endures m calls w I P (pure a) := fun _ hs => ⟨hs, h⟩

end Endures

/-- No answer to the operation makes the code raise. -/
def Op.isCalm : Op → Bool
  | .vmAvailable | .registryNames => true
  | _ => false

lemma endures_op (hI : Lasts m I) (ho : o.isCalm = true) :
    Endures m calls w I (fun _ => True) (op o) := by
  have hparts : o.waits = false ∧ o.touchesLocks = false ∧ o.keepsRecords = true := by
    cases o <;> first | exact ⟨rfl, rfl, rfl⟩ | cases ho
  refine fun s hs => attentive_op hparts.1 fun a r w' hexec =>
    ⟨⟨hs.1.next hparts.2.1 ?_ hexec, ?_⟩, trivial⟩
  · exact not_escapes_of_not_interrupted (by cases o <;> first | rfl | cases ho)
  · exact hI _ _ _ _ _ hparts.2.2 hs.2 hexec

lemma Undisturbed.escapes (hs : Undisturbed w collectorLock s)
    (h : Interrupted ⟨s.world, o, a, r⟩ = true) :
    Sent Escapes (⟨s.world, o, a, r⟩ :: s.past) := by
  refine sent_of_calls ⟨fun name => ?_, h⟩
  show s.world.held (.runtime name) = none
  rw [hs.held]
  rfl

/-- A command whose status is not checked. -/
lemma endures_run (hI : Lasts m I) {command : Command} :
    Endures m calls w I (fun _ => True) (run command false) := by
  refine fun s hs => Prog.obeys_bind.mpr (attentive_op rfl fun a outcome w' hexec => ?_)
  have hkeeps : I ⟨w', ⟨s.world, .run command, a, outcome⟩ :: s.past⟩ :=
    hI _ (.run command) _ _ _ rfl hs.2 hexec
  cases outcome with
  | timeoutExpired => exact hs.1.escapes (o := .run command) rfl
  | raises error => exact hs.1.escapes (o := .run command) rfl
  | osError =>
      exact ⟨⟨hs.1.next (o := .run command) rfl (not_escapes_of_not_interrupted rfl) hexec, hkeeps⟩,
        trivial⟩
  | completed code out =>
      dsimp only
      rw [if_neg (by simp)]
      exact ⟨⟨hs.1.next (o := .run command) rfl (not_escapes_of_not_interrupted rfl) hexec, hkeeps⟩,
        trivial⟩

/-- An operation that may itself raise. -/
lemma endures_except (hI : Lasts m I) {o : Op} {β : Type} (f : o.Resp → Except PyError β)
    (hlocks : o.touchesLocks = false) (hrecords : o.keepsRecords = true)
    (hraises : ∀ before a r, Interrupted ⟨before, o, a, r⟩ = true ↔ ∃ e, f r = .error e) :
    Endures m calls w I (fun _ => True) (do ofExcept (f (← op o))) := by
  refine fun s hs => Prog.obeys_bind.mpr (attentive_op (waits_of_touchesLocks hlocks)
    fun a r w' hexec => Prog.obeys_ofExcept.mpr ⟨fun x hx => ?_, fun e he => ?_⟩)
  · refine ⟨⟨hs.1.next hlocks (not_escapes_of_not_interrupted ?_) hexec,
      hI _ _ _ _ _ hrecords hs.2 hexec⟩, trivial⟩
    rw [Bool.eq_false_iff, ne_eq, hraises, hx]
    rintro ⟨e, he⟩
    cases he
  · exact hs.1.escapes ((hraises _ _ _).mpr ⟨e, he⟩)

lemma endures_load (hI : Lasts m I) (name : String) :
    Endures m calls w I (fun _ => True) (loadRegistry name) :=
  endures_except hI (o := .loadRegistry name) id rfl rfl
    fun _ _ r => by cases r <;> simp [Interrupted]

lemma endures_clearOrphans (hI : Lasts m I) (active : List String) :
    Endures m calls w I (fun _ => True) (do ofExcept (← op (.leaseClearOrphans active))) :=
  endures_except hI (o := .leaseClearOrphans active) id rfl rfl fun _ _ r => by
    cases r <;> simp [Interrupted]

/-- What `ps` prints is read, if it is text. -/
lemma endures_queryProcessIdentity (hI : Lasts m I) (pid : ℤ) :
    Endures m calls w I (fun _ => True) (queryProcessIdentity pid) := by
  refine Endures.bind (P := fun _ => True) ((endures_pure trivial).ite ?_) fun alive _ => ?_
  · exact endures_except hI (o := .kill _) id rfl rfl fun _ _ r => by cases r <;> simp [Interrupted]
  refine Endures.ite
    (fun s hs => Prog.obeys_bind.mpr (attentive_op rfl fun a outcome w' hexec => ?_))
    (endures_pure trivial)
  have hkeeps : I ⟨w', ⟨s.world, .ps pid, a, outcome⟩ :: s.past⟩ :=
    hI _ (.ps pid) _ _ _ rfl hs.2 hexec
  have hnext : Interrupted ⟨s.world, .ps pid, a, outcome⟩ = false →
      Undisturbed w collectorLock ⟨w', ⟨s.world, .ps pid, a, outcome⟩ :: s.past⟩ := fun hcalm =>
    hs.1.next (o := .ps pid) rfl (not_escapes_of_not_interrupted hcalm) hexec
  cases outcome with
  | raises error => exact hs.1.escapes (o := .ps pid) rfl
  | timeoutExpired => exact ⟨⟨hnext rfl, hkeeps⟩, trivial⟩
  | osError => exact ⟨⟨hnext rfl, hkeeps⟩, trivial⟩
  | completed code stdout =>
      cases code with
      | zero => exact ⟨⟨hnext rfl, hkeeps⟩, trivial⟩
      | succ n => exact ⟨⟨hnext rfl, hkeeps⟩, trivial⟩

lemma endures_ownerAlive (hI : Lasts m I) :
    Endures m calls w I (fun _ => True) (ownerAlive record) := by
  unfold ownerAlive
  split
  · refine (endures_pure trivial).ite ((endures_pure trivial).ite ?_)
    refine (endures_queryProcessIdentity hI _).bind fun found _ => ?_
    cases found <;> exact endures_pure trivial
  · refine (endures_pure trivial).ite ?_
    exact (endures_queryProcessIdentity hI _).bind fun _ _ => endures_pure trivial
  · exact endures_pure trivial

lemma endures_registeredLoop (hI : Lasts m I) (names : List String) :
    Endures m calls w I (fun _ => True) (registeredLoop names) := by
  induction names with
  | nil => exact endures_pure trivial
  | cons name names ih =>
      refine Endures.ite ((endures_load hI name).bind fun x _ => ?_) ih
      cases x with
      | none => exact ih
      | some record => exact ih.bind fun _ _ => endures_pure trivial

lemma endures_registered (hI : Lasts m I) : Endures m calls w I (fun _ => True) registered :=
  (endures_op hI rfl).bind fun names _ => endures_registeredLoop hI names

/-- A destruction that is tried: whether it returns or raises, the collection goes on. -/
lemma endures_tried {P : GcState → Prop} (hI : Lasts m I) {requesterUid : Option ℕ}
    {force : Bool} {st : GcState}
    {handler : PyError → GcState} (hcleaned : P { st with cleaned := st.cleaned ++ [name] })
    (hfailed : ∀ e, P (handler e)) :
    Endures m calls w I P (Prog.tryCatch
      (do
        let _ ← destroy m name requesterUid force
        pure { st with cleaned := st.cleaned ++ [name] })
      fun e => pure (handler e)) :=
  fun s hs => Prog.obeys_tryCatch.mpr (Prog.obeys_bind.mpr ((stays_destroy_inside hI s hs).mono
    (fun _ _ hs => ⟨hs, hcleaned⟩) fun e _ hs => ⟨hs, hfailed e⟩))

/-- What has been cleaned stays so. -/
lemma endures_gcRegistered (hI : Lasts m I) (staleOnly : Bool)
    (records : List (String × RuntimeRecord))
    (st : GcState) : Endures m calls w I (fun st' => st.cleaned ⊆ st'.cleaned)
      (gcRegistered m staleOnly 0 records st) := by
  induction records generalizing st with
  | nil => exact endures_pure (List.Subset.refl _)
  | cons entry records ih =>
      have hretained := ih { st with retained := entry.1 :: st.retained }
      refine hretained.ite ((endures_ownerAlive hI).bind fun alive _ => hretained.ite ?_)
      refine (endures_tried (P := fun st' => st.cleaned ⊆ st'.cleaned) hI ?_ fun e => ?_).bind
        fun st' hst' => ?_
      · exact List.subset_append_left _ _
      · exact List.Subset.refl _
      · exact (ih st').mono fun st'' hst'' => List.Subset.trans hst' hst''

lemma endures_gcDiscovered (hI : Lasts m I) (names : List String) (st : GcState) :
    Endures m calls w I (fun st' => st.cleaned ⊆ st'.cleaned) (gcDiscovered m names st) := by
  induction names generalizing st with
  | nil => exact endures_pure (List.Subset.refl _)
  | cons name names ih =>
      refine (endures_tried (P := fun st' => st.cleaned ⊆ st'.cleaned) hI ?_ fun e => ?_).bind
        fun st' hst' => ?_
      · exact List.subset_append_left _ _
      · exact List.Subset.refl _
      · exact (ih st').mono fun st'' hst'' => List.Subset.trans hst' hst''

lemma endures_succeeds (hI : Lasts m I) {command : Command} :
    Endures m calls w I (fun _ => True) (succeeds command) :=
  (endures_run hI).bind fun _ _ => endures_pure trivial

lemma endures_gcEpairs (hI : Lasts m I) (interfaces : List String) :
    Endures m calls w I (fun _ => True) (gcEpairs interfaces) := by
  induction interfaces with
  | nil => exact endures_pure trivial
  | cons interface interfaces ih =>
      exact (endures_succeeds hI).bind fun _ _ => ih.bind fun _ _ => endures_pure trivial

lemma endures_forgetAddresses (hI : Lasts m I) (addresses : List String) :
    Endures m calls w I (fun _ => True) (forgetAddresses addresses) := by
  induction addresses with
  | nil => exact endures_pure trivial
  | cons address addresses ih =>
      refine Endures.bind (P := fun _ => True) ?_ fun _ _ => ih
      exact (endures_run hI).bind fun _ _ => endures_pure trivial

lemma endures_gcOrphans (hI : Lasts m I) (st : GcState) : Endures m calls w I
    (fun x => st.cleaned ⊆ x.1.cleaned) (gcOrphans m st) := by
  have hlisted : ∀ {γ : Type} (command : Command) (f : Completed → List γ),
      Endures m calls w I (fun _ => True) (do
        let result ← run command false
        if result.returncode ≠ 0 then pure [] else pure (f result)) := fun command f =>
    (endures_run hI).bind fun _ _ => (endures_pure trivial).ite (endures_pure trivial)
  refine Endures.bind (hlisted _ _) fun jails _ => Endures.bind (P := fun _ => True)
    ?_ fun vms _ => ?_
  · exact (endures_op hI rfl).bind fun _ _ => Endures.ite (hlisted _ _) (endures_pure trivial)
  refine Endures.bind (hlisted _ _) fun datasets _ => (endures_gcDiscovered hI _ _).bind
    fun st' hst' => ?_
  refine (endures_registered hI).bind fun records _ => Endures.bind (hlisted _ _)
    fun members _ => ?_
  exact (endures_gcEpairs hI _).bind fun _ _ => endures_pure hst'

/-! ## The whole collection -/

/-- The collection behind its loop over the registered runtimes. -/
def gcAfter (m : RuntimeManager) (staleOnly : Bool) (st : GcState) : Program GcReport := do
  let registeredAfter ← registered
  let st := { st with retained := registeredAfter.map Prod.fst ++ st.retained }
  let (st, removedEpairs) ← gcOrphans m st
  let activeOwners := (← registered).map Prod.fst
  let releasedAddresses ← ofExcept (← op (.leaseClearOrphans activeOwners))
  forgetAddresses releasedAddresses
  pure
    { cleaned := sortedSet st.cleaned
      retained := sortedSet activeOwners
      removedEpairs := removedEpairs
      releasedAddresses := releasedAddresses
      errors := st.errors
      staleOnly := staleOnly }

lemma gcBody_eq (staleOnly : Bool) : gcBody m staleOnly 0 = (do
    let records ← registered
    gcAfter m staleOnly (← gcRegistered m staleOnly 0 records {})) := rfl

lemma endures_gcAfter (hI : Lasts m I) (staleOnly : Bool) (st : GcState) :
    Endures m calls w I (fun report => st.cleaned ⊆ report.cleaned) (gcAfter m staleOnly st) := by
  refine (endures_registered hI).bind fun after _ => (endures_gcOrphans hI _).bind fun x hx => ?_
  refine (endures_registered hI).bind fun active _ => (endures_clearOrphans hI _).bind
    fun released _ => ?_
  refine (endures_forgetAddresses hI released).bind fun _ _ => endures_pure fun name hname => ?_
  exact mem_sortedSet.mpr (hx hname)

lemma endures_gcBody (hI : Lasts m I) (staleOnly : Bool) :
    Endures m calls w I (fun _ => True) (gcBody m staleOnly 0) := by
  rw [gcBody_eq]
  refine (endures_registered hI).bind fun records _ => (endures_gcRegistered hI _ _ _).bind
    fun st _ => ?_
  exact (endures_gcAfter hI staleOnly st).mono fun _ _ => trivial

end FreebsdLaboratory
