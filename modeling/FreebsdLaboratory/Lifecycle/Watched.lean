import FreebsdLaboratory.Library.Waiting
import FreebsdLaboratory.Lifecycle.Alone

/-!
# Requests that may have to wait

`attentive` watches a request that has the daemon to itself, with locks that are not reentrant: it
may wait for a lock only after a step that `calls` for it.  Most requests never wait: they take
locks that are free and give them back (`stays_withLock`), as `destroy` and `gc` do.

A request that calls `destroy` for the runtime whose lock it holds waits for ever (`destroy_waits`).
-/

namespace FreebsdLaboratory

open Library Program Solo

variable {m : RuntimeManager} {runtime name : String} {w w' : World} {s : Alone}
    {o : Op} {a : Answer}
variable {r : o.Resp} {α β : Type} {calls : Taken → List Taken → Prop}
variable {held : LockId → Option (ℕ × ℕ)}

/-- One of the steps, with those before it, is of the kind. -/
def Sent (calls : Taken → List Taken → Prop) : List Taken → Prop
  | [] => False
  | st :: past => calls st past ∨ Sent calls past

lemma sent_of_calls {st : Taken} {past : List Taken} (h : calls st past) :
    Sent calls (st :: past) := .inl h

lemma not_sent_cons {st : Taken} {past : List Taken} :
    ¬ Sent calls (st :: past) ↔ ¬ calls st past ∧ ¬ Sent calls past := not_or

lemma not_sent {past : List Taken} (h : ∀ st past, ¬ calls st past) : ¬ Sent calls past := by
  induction past with
  | nil => exact id
  | cons st past ih => exact not_sent_cons.mpr ⟨h st past, ih⟩

/-! ## Operations under watch -/

/-- A request that may wait only after an answer that sends it to `destroy`. -/
abbrev attentive (m : RuntimeManager) (runtime : String) (calls : Taken → List Taken → Prop) :
    Protocol Op.Resp Alone :=
  watched (exec m false 0 runtime) (fun _ _ => true) fun past => ¬ Sent calls past

/-- The operation may have to wait. -/
def Op.waits : Op → Bool
  | .acquire _ => true
  | _ => false

lemma not_blocked (ho : o.waits = false) (w : World) :
    ¬ Blocked (exec m false 0 runtime) (fun _ _ => true) w o := by
  intro h
  have hnone := h {} rfl
  cases o <;> cases ho <;> cases hnone

lemma waits_of_touchesLocks (ho : o.touchesLocks = false) : o.waits = false := by
  cases o <;> first | rfl | cases ho

section Operations

variable {Q : o.Resp → Alone → Prop} {R : PyError → Alone → Prop}

lemma attentive_op (ho : o.waits = false)
    (h : ∀ a r w', exec m false 0 runtime s.world o a = some (r, w') →
      Q r ⟨w', ⟨s.world, o, a, r⟩ :: s.past⟩) :
    (op o).Obeys (attentive m runtime calls) Q R s :=
  watched_op (fun _ => not_blocked ho _) fun a r w' _ hexec => h a r w' hexec

end Operations

/-- What every operation of the code keeps, the code keeps. -/
lemma attentive_keeps {P : Op → Prop} {I : Alone → Prop} {p : Program α} (hp : p.Performs P)
    (hwaits : ∀ o, P o → o.waits = false)
    (hstep : ∀ (s : Alone) (o : Op) a r w', P o → I s →
      exec m false 0 runtime s.world o a = some (r, w') → I ⟨w', ⟨s.world, o, a, r⟩ :: s.past⟩)
    (hs : I s) : p.Obeys (attentive m runtime calls) (fun _ => I) (fun _ => I) s := by
  refine hp.keeps (fun s o ho _ => not_blocked (hwaits o ho) _) ?_ hs
  rintro s o r s' ho hs ⟨a, w', -, hexec, rfl⟩
  exact hstep s o a r w' ho hs hexec

/-- The code keeps `I`, whether it returns or raises. -/
def Stays (m : RuntimeManager) (runtime : String) (calls : Taken → List Taken → Prop)
    (I : Alone → Prop) (p : Program α) : Prop :=
  ∀ s, I s → p.Obeys (attentive m runtime calls) (fun _ => I) (fun _ => I) s

section Stays

variable {I : Alone → Prop}

lemma Stays.bind {p : Program α} {f : α → Program β} (hp : Stays m runtime calls I p)
    (hf : ∀ a, Stays m runtime calls I (f a)) : Stays m runtime calls I (p >>= f) :=
  fun s hs => Prog.obeys_bind.mpr ((hp s hs).mono (fun a s hs => hf a s hs) fun _ _ h => h)

lemma Stays.tryCatch {p : Program α} {h : PyError → Program α} (hp : Stays m runtime calls I p)
    (hh : ∀ e, Stays m runtime calls I (h e)) : Stays m runtime calls I (p.tryCatch h) :=
  fun s hs => Prog.obeys_tryCatch.mpr ((hp s hs).mono (fun _ _ h => h) fun e s hs => hh e s hs)

lemma Stays.ite {c : Prop} [Decidable c] {p q : Program α} (hp : Stays m runtime calls I p)
    (hq : Stays m runtime calls I q) : Stays m runtime calls I (if c then p else q) := by
  split_ifs
  · exact hp
  · exact hq

lemma stays_pure (a : α) : Stays m runtime calls I (pure a) := fun _ hs => hs

end Stays

/-! ## Locks -/

/-- A family of conditions on the way, by the locks that are held: every step at a lock keeps
them. -/
structure LockFamily (m : RuntimeManager) (runtime : String)
    (I : (LockId → Option (ℕ × ℕ)) → Alone → Prop) : Prop where
  held : ∀ {held s}, I held s → s.world.held = held
  step : ∀ {held s o a r w'}, o.touchesLocks = true → I held s →
    exec m false 0 runtime s.world o a = some (r, w') → I w'.held ⟨w', ⟨s.world, o, a, r⟩ :: s.past⟩

lemma acquire_free {lock : LockId} (hfree : w.held lock = none) :
    w.acquire false 0 lock = some { w with held := Function.update w.held lock (some (0, 1)) } := by
  rw [World.acquire, hfree]

/-- Giving back a lock that has been taken once. -/
lemma release_taken {lock : LockId} (hfree : held lock = none)
    (hheld : w.held = Function.update held lock (some (0, 1))) : (w.release lock).held = held := by
  have hlock : w.held lock = some (0, 1) := by rw [hheld, Function.update_self]
  have hrelease : w.release lock = { w with held := Function.update w.held lock none } := by
    rw [World.release, hlock]
  rw [hrelease, hheld]
  show Function.update (Function.update held lock _) lock none = held
  rw [Function.update_idem, ← hfree, Function.update_eq_self]

/-- A lock that is free is taken. -/
lemma acquire_obeys {I : (LockId → Option (ℕ × ℕ)) → Alone → Prop} (hI : LockFamily m runtime I)
    {lock : LockId} {R : PyError → Alone → Prop} (hfree : held lock = none) (hs : I held s) :
    (op (.acquire lock)).Obeys (attentive m runtime calls)
      (fun _ => I (Function.update held lock (some (0, 1)))) R s := by
  have hfree' : s.world.held lock = none := by rw [hI.held hs, hfree]
  have hnotBlocked : ¬ Blocked (exec m false 0 runtime) (fun _ _ => true) s.world
    (.acquire lock) := by
    intro h
    have hnone := h {} rfl
    simp [exec, acquire_free hfree'] at hnone
  refine watched_op (fun _ => hnotBlocked) fun a r w' _ hexec => ?_
  have htaken := hI.step (o := .acquire lock) rfl hs hexec
  have hheld : w'.held = Function.update held lock (some (0, 1)) := by
    simp only [exec, acquire_free hfree', Option.map_some, Option.some.injEq,
      Prod.mk.injEq] at hexec
    rw [← hexec.2, hI.held hs]
  rwa [hheld] at htaken

/-- A lock that is free is taken, and given back. -/
lemma stays_withLock {I : (LockId → Option (ℕ × ℕ)) → Alone → Prop} (hI : LockFamily m runtime I)
    {lock : LockId} {body : Program α} (hfree : held lock = none)
    (hbody : Stays m runtime calls (I (Function.update held lock (some (0, 1)))) body) :
    Stays m runtime calls (I held) (withLock lock body) := by
  intro s hs
  refine Prog.obeys_bind.mpr ((acquire_obeys hI hfree hs).mono (fun _ s hs => ?_) fun _ _ h => h)
  have hrelease : ∀ s, I (Function.update held lock (some (0, 1))) s →
      (op (.release lock)).Obeys (attentive m runtime calls) (fun _ => I held)
      (fun _ => I held) s := by
    refine fun s hs => attentive_op rfl fun a r w' hexec => ?_
    have hreleased := hI.step (o := .release lock) rfl hs hexec
    obtain ⟨-, rfl⟩ := Prod.mk.inj (Option.some.inj hexec)
    rwa [release_taken hfree (hI.held hs)] at hreleased
  exact Prog.obeys_finallyDo.mpr ((hbody s hs).mono (fun _ => hrelease) fun _ => hrelease)

/-! ## Requests that take their locks one after another -/

/-- The locks that are held. -/
def Holding (held : LockId → Option (ℕ × ℕ)) (s : Alone) : Prop := s.world.held = held

lemma lockFamily_holding : LockFamily m runtime Holding where
  held h := h
  step _ _ _ := rfl

lemma stays_of_performs {p : Program α} (hp : p.Performs fun o => o.touchesLocks = false) :
    Stays m runtime calls (Holding held) p := by
  refine fun s hs => attentive_keeps hp (fun o => waits_of_touchesLocks) ?_ hs
  intro s o a r w' ho hs hexec
  exact ((exec_frame hexec).held ho).trans hs

/-- `destroy` takes a lock that is free. -/
lemma stays_destroy {requesterUid : Option ℕ} {force : Bool} (hfree : held (.runtime name) = none) :
    Stays m runtime calls (Holding held) (destroy m name requesterUid force) := by
  refine (stays_of_performs (performs_op rfl)).bind fun _ =>
    stays_withLock lockFamily_holding hfree ?_
  exact stays_of_performs (performs_destroyBody rfl rfl (fun _ _ => rfl) (fun _ => rfl) rfl)

/-- A collector holds the shared lock only. -/
def collectorLock : LockId → Option (ℕ × ℕ) := Function.update (fun _ => none) .shared (some (0, 1))

lemma stays_gcRegistered (staleOnly : Bool) (requesterUid : ℕ)
    (records : List (String × RuntimeRecord))
    (st : GcState) : Stays m runtime calls (Holding collectorLock)
      (gcRegistered m staleOnly requesterUid records st) := by
  induction records generalizing st with
  | nil => exact stays_pure st
  | cons entry records ih =>
      obtain ⟨name, record⟩ := entry
      refine (ih _).ite ((stays_of_performs (performs_ownerAlive fun _ => ⟨rfl, rfl⟩)).bind
        fun alive => ?_)
      refine (ih _).ite (Stays.bind (Stays.tryCatch ?_ fun e => stays_pure _) fun st => ih _)
      exact (stays_destroy rfl).bind fun _ => stays_pure _

lemma stays_gcDiscovered (names : List String) (st : GcState) :
    Stays m runtime calls (Holding collectorLock) (gcDiscovered m names st) := by
  induction names generalizing st with
  | nil => exact stays_pure st
  | cons name names ih =>
      refine Stays.bind (Stays.tryCatch ?_ fun e => stays_pure _) fun st => ih _
      exact (stays_destroy rfl).bind fun _ => stays_pure _

lemma stays_registered : Stays m runtime calls (Holding held) registered :=
  stays_of_performs (performs_registered rfl fun _ => rfl)

lemma stays_gcOrphans (st : GcState) :
    Stays m runtime calls (Holding collectorLock) (gcOrphans m st) := by
  refine (stays_of_performs (performs_discoverJails rfl)).bind fun jails => ?_
  refine (stays_of_performs (performs_discoverVms rfl rfl)).bind fun vms => ?_
  refine (stays_of_performs (performs_discoverDatasets rfl)).bind fun datasets => ?_
  refine (stays_gcDiscovered _ _).bind fun st => stays_registered.bind fun records => ?_
  refine (stays_of_performs (performs_bridgeEpairs rfl)).bind fun members => ?_
  exact (stays_of_performs (performs_gcEpairs (fun _ => rfl) _)).bind fun _ => stays_pure _

/-- **`gc` never waits** for a lock that its own thread holds. -/
lemma stays_gc (staleOnly : Bool) (requesterUid : ℕ) :
    Stays m runtime calls (Holding fun _ => none) (gc m staleOnly requesterUid) := by
  refine stays_withLock lockFamily_holding rfl ?_
  refine stays_registered.bind fun records => (stays_gcRegistered _ _ _ _).bind fun st => ?_
  refine stays_registered.bind fun registeredAfter => ?_
  refine ((stays_gcOrphans _).ite (stays_pure _)).bind fun result => ?_
  obtain ⟨st, removedEpairs⟩ := result
  refine stays_registered.bind fun active => ?_
  refine (Stays.ite (stays_of_performs (.bind (performs_op rfl) fun _ => performs_ofExcept))
    (stays_pure _)).bind fun released => ?_
  exact (stays_of_performs (performs_forgetAddresses (fun _ => rfl) _)).bind fun _ => stays_pure _

/-- The locks of a create request, and of `destroy`. -/
def ownLock (name : String) : LockId → Option (ℕ × ℕ) :=
  Function.update (fun _ => none) (.runtime name) (some (0, 1))

/-! ## `destroy` under its own lock -/

/-- The request holds the lock of its runtime, and has been sent to `destroy`. -/
structure Trapped (calls : Taken → List Taken → Prop) (name : String) (s : Alone) : Prop where
  held : s.world.held = ownLock name
  sent : Sent calls s.past

lemma Trapped.next (h : Trapped calls name s) (ho : o.touchesLocks = false)
    (hexec : exec m false 0 runtime s.world o a = some (r, w')) :
    Trapped calls name ⟨w', ⟨s.world, o, a, r⟩ :: s.past⟩ :=
  ⟨((exec_frame hexec).held ho).trans h.held, .inr h.sent⟩

/-- **`destroy` never returns to a request that holds its lock.** -/
lemma destroy_waits (hs : Trapped calls name s) {requesterUid : Option ℕ} {force : Bool}
    {Q : DestroyResult → Alone → Prop} {R : PyError → Alone → Prop} :
    (destroy m name requesterUid force).Obeys (attentive m runtime calls) Q R s := by
  refine Prog.obeys_bind.mpr (attentive_op rfl fun a r w' hexec => ?_)
  have hs := hs.next (o := .runtimeLock name) rfl hexec
  refine Prog.obeys_bind.mpr (watched_blocked (fun h => h hs.sent) fun a _ => ?_)
  have hheld : w'.held (.runtime name) = some (0, 1) := by
    have hheld : w'.held = ownLock name := hs.held
    rw [hheld, ownLock, Function.update_self]
  simp [exec, World.acquire, hheld]

/-- What comes after such a call is never reached. -/
lemma destroy_bind_waits (hs : Trapped calls name s) {requesterUid : Option ℕ} {force : Bool}
    {f : DestroyResult → Program α} {Q : α → Alone → Prop} {R : PyError → Alone → Prop} :
    (destroy m name requesterUid force >>= f).Obeys (attentive m runtime calls) Q R s :=
  Prog.obeys_bind.mpr (destroy_waits hs)

end FreebsdLaboratory
