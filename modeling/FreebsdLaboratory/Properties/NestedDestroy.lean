import FreebsdLaboratory.Lifecycle.Watched
import FreebsdLaboratory.Properties.MemoryDisk
import FreebsdLaboratory.Properties.Refusals

/-!
# A request that waits for itself

The create requests hold the lock of their runtime and call `destroy`, which takes the same lock:
for a runtime that the requester has already, for what is left of a jail without a record, and to
clean up after a failure.  The lock is not reentrant, so such a request waits for ever, and nobody
else is there to let it go on.

`NeedsDestroy` lists the answers after which a create request calls `destroy`.  A request on its own
ends with a reply exactly if it has been given none of them (`replies_iff`).
-/

namespace FreebsdLaboratory

open Library Program Solo

variable {m : RuntimeManager} {runtime name : String} {w w' : World} {s : Alone}
    {o : Op} {a : Answer}
variable {r : o.Resp} {α β : Type} {peer : PeerCredentials} {calls : Taken → List Taken → Prop}
variable {isJail : Bool} {st : Taken} {past : List Taken} {held : LockId → Option (ℕ × ℕ)}

/-! ## What sends a create request to `destroy` -/

/-- The name is registered for the peer's process. -/
def FindsOwn (peer : PeerCredentials) (name : String) (st : Taken) : Prop :=
  ∃ before a record identity, st = ⟨before, .loadRegistry name, a, .ok (some record)⟩
    ∧ before.identityOf peer.pid = some identity ∧ recordOwnedBy record (peer.owner identity) = true

/-- The host has a jail of the name, or its dataset. -/
def FindsOrphan (m : RuntimeManager) (name : String) (st : Taken) : Prop :=
  Done (.jlsName name) st ∨ Done (.zfsListDataset (m.jailDataset name)) st

/-- A record has been written. -/
def Recorded (past : List Taken) : Prop :=
  ∃ before record a, (⟨before, .writeRegistry record, a, .ok ()⟩ : Taken) ∈ past

/-- A user of the jail for whom a key can be installed. -/
def isJailUser (stdout : String) : Bool :=
  match Text.splitAt ':' (Text.strip stdout) with
  | [_, _, uid, gid, _, home, _] =>
      (Text.parseInt uid).isSome && (Text.parseInt gid).isSome && Text.startsWith "/" home
        && decide (home ≠ "/")
  | _ => false

/-- The output does not say what the command has been run for. -/
def Command.isUnreadable : Command → String → Bool
  | pwUsershow _, stdout => !isJailUser stdout
  | ifconfigEpairCreate, stdout => (newEpairHost stdout).toOption.isNone
  | mdconfigAttach, stdout => (newMdUnit stdout).toOption.isNone
  | _, _ => false

/-- The commands of the `try` blocks whose status is not checked. -/
def Command.isUnchecked : Command → Bool
  | zfsListSnapshot _ | zfsListDataset _ | zfsDestroyRecursive _ | vmSet _ _ => true
  | _ => false

/-- The path that has just been resolved. -/
def lastResolved : List Taken → Option String
  | ⟨_, .resolve _, _, .ok path⟩ :: _ => some path
  | _ => none

/-- A `try` block raises on the answer; of two paths resolved in a row, the second is the jail's
root. -/
def Raises : Taken → List Taken → Bool
  | ⟨_, .run command, _, .completed code stdout⟩, _ =>
      if code = 0 then command.isUnreadable stdout else !command.isUnchecked
  | ⟨_, .run command, _, .osError⟩, _ => !command.isUnchecked
  | ⟨_, .run _, _, .timeoutExpired⟩, _ => true
  | ⟨_, .run _, _, .raises _⟩, _ => true
  | ⟨_, .writeRegistry _, _, .error _⟩, _ => true
  | ⟨_, .file _, _, .error _⟩, _ => true
  | ⟨_, .resolve _, _, .error _⟩, _ => true
  | ⟨_, .resolve _, _, .ok path⟩, past =>
      match lastResolved past with
      | some home => !pathWithin path home
      | none => false
  | _, _ => false

/-- **The answers that send a create request to `destroy`**: the runtime is the requester's already,
a jail is left of it, or the `try` block raises.  The key file of a VM is removed outside of it. -/
def NeedsDestroy (m : RuntimeManager) (peer : PeerCredentials) (isJail : Bool) (name : String)
    (st : Taken) (past : List Taken) : Prop :=
  FindsOwn peer name st ∨ (isJail = true ∧ FindsOrphan m name st)
    ∨ (Recorded past ∧ Raises st past = true
      ∧ (isJail = true ∨ st.op ≠ .file (.unlink (publicKeyPath name))))

/-- Only the create requests call `destroy` under its lock. -/
def Connection.NeedsDestroy (m : RuntimeManager) (c : Connection) (st : Taken) (past : List Taken) :
    Prop :=
  match c.action with
  | .ok (.createJail name _ _) => FreebsdLaboratory.NeedsDestroy m c.peer true name st past
  | .ok (.createBhyve name _ _ _) => FreebsdLaboratory.NeedsDestroy m c.peer false name st past
  | _ => False

/-! ## A create request up to its record -/

/-- Nothing of the kind so far, and no record has been written. -/
structure Early (calls : Taken → List Taken → Prop) (w : World) (held : LockId → Option (ℕ × ℕ))
    (s : Alone) : Prop where
  held : s.world.held = held
  registry : s.world.registry = w.registry
  processes : s.world.processes = w.processes
  clear : ¬ Sent calls s.past
  unrecorded : ¬ Recorded s.past

/-- An answer that says nothing about the runtime. -/
def Op.isQuiet : Op → Bool
  | .loadRegistry _ | .run (.jlsName _) | .run (.zfsListDataset _) => false
  | _ => true

lemma recorded_cons {past : List Taken} (h : Recorded past) (st : Taken) :
    Recorded (st :: past) := by
  obtain ⟨before, record, a, hmem⟩ := h
  exact ⟨before, record, a, List.mem_cons_of_mem st hmem⟩

lemma not_recorded_cons (h : ¬ Recorded past) (hst : st.op.touchesRegistry = false) :
    ¬ Recorded (st :: past) := by
  rintro ⟨before, record, a, hmem⟩
  rcases List.mem_cons.mp hmem with rfl | hmem
  · cases hst
  · exact h ⟨before, record, a, hmem⟩

/-- Before the record, only the questions about the runtime count. -/
lemma not_needsDestroy (hunrecorded : ¬ Recorded past) (hquiet : st.op.isQuiet = true) :
    ¬ NeedsDestroy m peer isJail name st past := by
  rintro (⟨before, a, record, identity, rfl, -⟩ | ⟨-, ⟨before, a, out, rfl⟩ | ⟨before, a, out, rfl⟩⟩
    | ⟨hrecorded, -⟩)
  · cases hquiet
  · cases hquiet
  · cases hquiet
  · exact hunrecorded hrecorded

lemma Early.step (h : Early calls w held s) (hregistry : o.touchesRegistry = false)
    (hcalls : ¬ calls ⟨s.world, o, a, r⟩ s.past)
    (hexec : exec m false 0 runtime s.world o a = some (r, w')) :
    Early calls w w'.held ⟨w', ⟨s.world, o, a, r⟩ :: s.past⟩ where
  held := rfl
  registry := ((exec_frame hexec).registry hregistry).trans h.registry
  processes := (exec_frame hexec).processes.trans h.processes
  clear := not_or.mpr ⟨hcalls, h.clear⟩
  unrecorded := not_recorded_cons h.unrecorded hregistry

/-- An operation that takes no lock. -/
lemma Early.next (h : Early calls w held s) (hlocks : o.touchesLocks = false)
    (hregistry : o.touchesRegistry = false) (hcalls : ¬ calls ⟨s.world, o, a, r⟩ s.past)
    (hexec : exec m false 0 runtime s.world o a = some (r, w')) :
    Early calls w held ⟨w', ⟨s.world, o, a, r⟩ :: s.past⟩ := by
  have hnext := h.step hregistry hcalls hexec
  rwa [(exec_frame hexec).held hlocks, h.held] at hnext

lemma lockFamily_early : LockFamily m runtime (Early (NeedsDestroy m peer isJail name) w) where
  held h := h.held
  step := by
    intro held s o a r w' ho hs hexec
    refine hs.step ?_ (not_needsDestroy hs.unrecorded ?_) hexec <;> cases o <;>
      first | rfl | cases ho

/-- An operation in front of the record that neither takes a lock nor asks for the runtime. -/
def Op.isPreparation (o : Op) : Bool := !o.touchesLocks && !o.touchesRegistry && o.isQuiet

lemma waits_of_isPreparation (ho : o.isPreparation = true) : o.waits = false := by
  cases o <;> first | rfl | cases ho

lemma stays_early {p : Program α} (hp : p.Performs fun o => o.isPreparation = true) :
    Stays m runtime (NeedsDestroy m peer isJail name)
      (Early (NeedsDestroy m peer isJail name) w held) p := by
  have hparts : ∀ o : Op, o.isPreparation = true →
      (o.touchesLocks = false ∧ o.touchesRegistry = false) ∧ o.isQuiet = true := by
    intro o ho
    simpa [Op.isPreparation] using ho
  refine fun s hs => attentive_keeps hp (fun o ho => waits_of_touchesLocks (hparts o ho).1.1) ?_ hs
  intro s o a r w' ho hs hexec
  obtain ⟨⟨hlocks, hregistry⟩, hquiet⟩ := hparts o ho
  exact hs.next hlocks hregistry (not_needsDestroy hs.unrecorded hquiet) hexec

/-! ## Looking for what is there -/

section Reconciling

variable {owner : RuntimeOwner} {identity : ProcessIdentity}

/-- The owner is the peer, as `ps` knows it. -/
lemma ownerFromPeer_early {pid : ℤ}
    (hs : Early (NeedsDestroy m peer isJail name) w held s) :
    (ownerFromPeer peer pid).Obeys (attentive m runtime (NeedsDestroy m peer isJail name))
      (fun owner s => Early (NeedsDestroy m peer isJail name) w held s
        ∧ ∃ identity, w.identityOf peer.pid = some identity ∧ owner = peer.owner identity)
      (fun _ s => Early (NeedsDestroy m peer isJail name) w held s) s := by
  have hlooks : (ownerFromPeer peer pid).Performs fun o => o.isPreparation = true :=
    performs_ownerFromPeer rfl rfl
  have hknown :
    (ownerFromPeer peer pid).Obeys (attentive m runtime (NeedsDestroy m peer isJail name))
      (fun owner _ => pid = peer.pid
        ∧ ∃ identity, w.identityOf peer.pid = some identity ∧ owner = peer.owner identity)
      (fun _ _ => True) s :=
    watched_of_solo (hlooks.mono fun o ho w => not_blocked (waits_of_isPreparation ho) w)
      (ownerFromPeer_known hs.processes)
  exact ((stays_early hlooks s hs).and hknown).mono (fun _ _ h => ⟨h.1, h.2.2⟩) fun _ _ h => h.1

/-- What a look at the registry says. -/
lemma needsDestroy_load_iff {r : Except PyError (Option RuntimeRecord)}
    (hunrecorded : ¬ Recorded past) :
    NeedsDestroy m peer isJail name ⟨w, .loadRegistry name, a, r⟩ past
      ↔ ∃ record identity, r = .ok (some record) ∧ w.identityOf peer.pid = some identity
        ∧ recordOwnedBy record (peer.owner identity) = true := by
  constructor
  · rintro (⟨before, a, record, identity, heq, hid, howned⟩ | ⟨-,
      ⟨before, a, out, heq⟩ | ⟨before, a, out, heq⟩⟩
      | ⟨hrecorded, -⟩)
    · cases heq
      exact ⟨record, identity, rfl, hid, howned⟩
    · cases heq
    · cases heq
    · exact absurd hrecorded hunrecorded
  · rintro ⟨record, identity, rfl, hid, howned⟩
    exact .inl ⟨w, a, record, identity, rfl, hid, howned⟩

/-- A record of the requester's own is not reconciled. -/
lemma reconcileRegistered_early (hidentity : w.identityOf peer.pid = some identity)
    (hs : Early (NeedsDestroy m peer isJail name) w (ownLock name) s) :
    (reconcileRegisteredBeforeCreate m name (peer.owner identity)).Obeys
      (attentive m runtime (NeedsDestroy m peer isJail name))
      (fun _ s => Early (NeedsDestroy m peer isJail name) w (ownLock name) s
        ∧ w.load name = .ok none)
      (fun _ => Early (NeedsDestroy m peer isJail name) w (ownLock name)) s := by
  have hsame : s.world.identityOf peer.pid = some identity := by
    rw [identityOf_congr hs.processes, hidentity]
  refine Prog.obeys_bind.mpr (Prog.obeys_bind.mpr (attentive_op rfl fun a r w' hexec => ?_))
  have hnext := fun hcalls => hs.next (o := .loadRegistry name) rfl rfl hcalls hexec
  rw [needsDestroy_load_iff hs.unrecorded] at hnext
  refine Prog.obeys_ofExcept.mpr ⟨fun x hx => ?_, fun e he => hnext (by simp [he])⟩
  subst hx
  cases x with
  | none =>
      refine ⟨hnext (by simp), ?_⟩
      obtain ⟨hr, -⟩ := Prod.mk.inj (Option.some.inj hexec)
      split_ifs at hr
      exact (load_congr hs.registry name).symm.trans hr
  | some record =>
      show Prog.Obeys _ _ _ (if _ then _ else _) _
      split_ifs with howned
      · refine hnext ?_
        rintro ⟨record', identity', heq, hid, howned'⟩
        obtain rfl := Option.some.inj (hsame.symm.trans hid)
        cases heq
        rw [howned] at howned'
        cases howned'
      · refine destroy_bind_waits ⟨((exec_frame hexec).held rfl).trans hs.held, sent_of_calls ?_⟩
        exact (needsDestroy_load_iff hs.unrecorded).mpr
          ⟨record, identity, rfl, hsame, by simpa using howned⟩

/-- A question whether something is left of a jail: with a yes, the request is sent to `destroy`. -/
lemma orphan_early {command : Command} (horphan : ∀ st, Done command st → FindsOrphan m name st)
    (honly : ∀ before a outcome, FindsOrphan m name ⟨before, .run command, a, outcome⟩ →
      ∃ out, outcome = .completed 0 out)
    (hs : Early (NeedsDestroy m peer true name) w (ownLock name) s) :
    (succeeds command).Obeys (attentive m runtime (NeedsDestroy m peer true name))
      (fun found s => (found = true → Trapped (NeedsDestroy m peer true name) name s)
        ∧ (found = false → Early (NeedsDestroy m peer true name) w (ownLock name) s))
      (fun _ => Early (NeedsDestroy m peer true name) w (ownLock name)) s := by
  refine Prog.obeys_bind.mpr (Prog.obeys_bind.mpr (attentive_op rfl fun a outcome w' hexec => ?_))
  have hnext : (∀ out, outcome ≠ .completed 0 out) →
    Early (NeedsDestroy m peer true name) w (ownLock name)
      ⟨w', ⟨s.world, .run command, a, outcome⟩ :: s.past⟩ := by
    intro hfailed
    refine hs.next rfl rfl ?_ hexec
    rintro (⟨before, a, record, identity, heq, -⟩ | ⟨-, hfinds⟩ | ⟨hrecorded, -⟩)
    · cases heq
    · obtain ⟨out, rfl⟩ := honly _ _ _ hfinds
      exact hfailed out rfl
    · exact hs.unrecorded hrecorded
  cases outcome with
  | timeoutExpired => exact hnext (by simp)
  | osError => exact ⟨fun h => absurd (of_decide_eq_true h) (by simp), fun _ => hnext (by simp)⟩
  | raises e => exact hnext (by simp)
  | completed code out =>
      dsimp only
      rw [if_neg (by simp)]
      by_cases hcode : code = 0
      · subst hcode
        have hdone : Done command ⟨s.world, .run command, a, .completed 0 out⟩ := ⟨_, _, _, rfl⟩
        exact ⟨fun _ => ⟨((exec_frame hexec).held rfl).trans hs.held,
          sent_of_calls (.inr (.inl ⟨rfl, horphan _ hdone⟩))⟩,
          fun h => absurd rfl (of_decide_eq_false h)⟩
      · exact ⟨fun h => absurd (of_decide_eq_true h) hcode,
          fun _ => hnext fun out heq => hcode (RunOutcome.completed.inj heq).1⟩

/-- What is left of a jail is not reconciled. -/
lemma reconcileOrphaned_early (hload : w.load name = .ok none)
    (hs : Early (NeedsDestroy m peer true name) w (ownLock name) s) :
    (reconcileOrphanedJailBeforeCreate m name (m.jailDataset name)).Obeys
      (attentive m runtime (NeedsDestroy m peer true name))
      (fun _ => Early (NeedsDestroy m peer true name) w (ownLock name))
      (fun _ => Early (NeedsDestroy m peer true name) w (ownLock name)) s := by
  refine Prog.obeys_bind.mpr (Prog.obeys_bind.mpr (attentive_op rfl fun a r w' hexec => ?_))
  obtain ⟨hr, -⟩ := Prod.mk.inj (Option.some.inj hexec)
  have hnone : ∀ record, r ≠ .ok (some record) := by
    rintro record rfl
    split_ifs at hr
    rw [load_congr hs.registry name, hload] at hr
    cases hr
  have hnext := hs.next (o := .loadRegistry name) (r := r) rfl rfl (fun hcalls => by
    obtain ⟨record, -, hread, -⟩ := (needsDestroy_load_iff hs.unrecorded).mp hcalls
    exact hnone record hread) hexec
  refine Prog.obeys_ofExcept.mpr ⟨fun x hx => ?_, fun _ _ => hnext⟩
  cases x with
  | some record => exact absurd hx (hnone record)
  | none =>
      rw [Option.isSome_none, if_neg (by simp)]
      refine Prog.obeys_bind.mpr ((orphan_early (fun _ => .inl) ?_ hnext).mono (fun jail s hs => ?_)
        fun _ _ hs => hs)
      · rintro before a outcome (⟨_, _, out, heq⟩ | ⟨_, _, out, heq⟩) <;> cases heq
        exact ⟨out, rfl⟩
      cases jail with
      | true => exact destroy_bind_waits (hs.1 rfl)
      | false =>
          refine Prog.obeys_bind.mpr
            ((orphan_early (fun _ => .inr) ?_ (hs.2 rfl)).mono (fun present s hs => ?_)
            fun _ _ hs => hs)
          · rintro before a outcome (⟨_, _, out, heq⟩ | ⟨_, _, out, heq⟩) <;> cases heq
            exact ⟨out, rfl⟩
          cases present with
          | true => exact destroy_bind_waits (hs.1 rfl)
          | false => exact hs.2 rfl

end Reconciling

/-! ## The `try` blocks -/

/-- The record has been written, and nothing has sent the request to `destroy`. -/
structure Late (calls : Taken → List Taken → Prop) (name : String) (s : Alone) : Prop where
  held : s.world.held = ownLock name
  recorded : Recorded s.past
  clear : ¬ Sent calls s.past

/-- An operation of the `try` blocks. -/
def Op.isTry (isJail : Bool) (name : String) : Op → Bool
  | .loadRegistry _ | .run (.jlsName _) | .acquire _ | .release _ => false
  | .run (.zfsListDataset _) => !isJail
  | .file effect => isJail || decide (effect ≠ .unlink (publicKeyPath name))
  | _ => true

lemma touchesLocks_of_isTry (ho : o.isTry isJail name = true) : o.touchesLocks = false := by
  cases o <;> first | rfl | cases ho

/-- In a `try` block, what sends the request to `destroy` is what raises. -/
lemma needsDestroy_iff (ho : o.isTry isJail name = true) (hrecorded : Recorded past) :
    NeedsDestroy m peer isJail name ⟨w, o, a, r⟩ past ↔ Raises ⟨w, o, a, r⟩ past = true := by
  constructor
  · rintro (⟨before, a, record, identity, heq, -⟩ | ⟨hjail,
      ⟨before, a, out, heq⟩ | ⟨before, a, out, heq⟩⟩
      | ⟨-, hraises, -⟩)
    · cases heq
      cases ho
    · cases heq
      cases ho
    · cases heq
      rw [hjail] at ho
      cases ho
    · exact hraises
  · refine fun hraises => .inr (.inr ⟨hrecorded, hraises, ?_⟩)
    cases isJail with
    | true => exact .inl rfl
    | false =>
        refine .inr fun heq => ?_
        obtain rfl : o = .file (.unlink (publicKeyPath name)) := heq
        simp [Op.isTry] at ho

/-- An operation of a `try` block, which raises after it or goes on. -/
lemma try_op {Q : o.Resp → Alone → Prop} {R : PyError → Alone → Prop}
    (hs : Late (NeedsDestroy m peer isJail name) name s) (ho : o.isTry isJail name = true)
    (hquiet : ∀ a r w', Raises ⟨s.world, o, a, r⟩ s.past = false →
      Late (NeedsDestroy m peer isJail name) name ⟨w', ⟨s.world, o, a, r⟩ :: s.past⟩ →
      Q r ⟨w', ⟨s.world, o, a, r⟩ :: s.past⟩)
    (hraises : ∀ a r w', Raises ⟨s.world, o, a, r⟩ s.past = true →
      Trapped (NeedsDestroy m peer isJail name) name ⟨w', ⟨s.world, o, a, r⟩ :: s.past⟩ →
      Q r ⟨w', ⟨s.world, o, a, r⟩ :: s.past⟩) :
    (op o).Obeys (attentive m runtime (NeedsDestroy m peer isJail name)) Q R s := by
  have hlocks := touchesLocks_of_isTry ho
  refine attentive_op (waits_of_touchesLocks hlocks) fun a r w' hexec => ?_
  have hheld := ((exec_frame hexec).held hlocks).trans hs.held
  have hiff : NeedsDestroy m peer isJail name ⟨s.world, o, a, r⟩ s.past
      ↔ Raises ⟨s.world, o, a, r⟩ s.past = true := needsDestroy_iff ho hs.recorded
  cases h : Raises ⟨s.world, o, a, r⟩ s.past with
  | true => exact hraises a r w' h ⟨hheld, .inl (hiff.mpr h)⟩
  | false =>
      refine hquiet a r w' h ⟨hheld, recorded_cons hs.recorded _, not_or.mpr ⟨?_, hs.clear⟩⟩
      rw [hiff, h]
      simp

/-- A piece of a `try` block: it raises only after an answer that sends the request to `destroy`. -/
def Tries (m : RuntimeManager) (runtime : String) (peer : PeerCredentials) (isJail : Bool)
    (name : String) (p : Program α) : Prop :=
  ∀ s, Late (NeedsDestroy m peer isJail name) name s →
    p.Obeys (attentive m runtime (NeedsDestroy m peer isJail name))
      (fun _ => Late (NeedsDestroy m peer isJail name) name)
      (fun _ => Trapped (NeedsDestroy m peer isJail name) name) s

section Tries

variable {command : Command} {check : Bool}

lemma Tries.bind {p : Program α} {f : α → Program β} (hp : Tries m runtime peer isJail name p)
    (hf : ∀ a, Tries m runtime peer isJail name (f a)) :
    Tries m runtime peer isJail name (p >>= f) :=
  fun s hs => Prog.obeys_bind.mpr ((hp s hs).mono (fun a s hs => hf a s hs) fun _ _ h => h)

lemma Tries.ite {c : Prop} [Decidable c] {p q : Program α} (hp : Tries m runtime peer isJail name p)
    (hq : Tries m runtime peer isJail name q) :
    Tries m runtime peer isJail name (if c then p else q) := by
  split_ifs
  · exact hp
  · exact hq

lemma tries_pure (a : α) : Tries m runtime peer isJail name (pure a) := fun _ hs => hs

lemma tries_when {c : Prop} [Decidable c] {p : Program Unit}
    (hp : Tries m runtime peer isJail name p) :
    Tries m runtime peer isJail name (when c p) :=
  hp.ite (tries_pure ())

/-- The second part is run in any case. -/
lemma Tries.finallyDo {p : Program α} {q : Program Unit} (hp : Tries m runtime peer isJail name p)
    (hq : Tries m runtime peer isJail name q)
    (hlocks : q.Performs fun o => o.touchesLocks = false) :
    Tries m runtime peer isJail name (p.finallyDo q) := by
  refine fun s hs => Prog.obeys_finallyDo.mpr
    ((hp s hs).mono (fun a s hs => hq s hs) fun e s hs => ?_)
  exact attentive_keeps hlocks (fun o => waits_of_touchesLocks)
    (fun s o a r w' ho hs hexec => hs.next ho hexec) hs

/-- An operation whose answer is never an exception. -/
lemma tries_op (ho : o.isTry isJail name = true)
    (hquiet : ∀ w a r past, Raises ⟨w, o, a, r⟩ past = false) :
    Tries m runtime peer isJail name (op o) := by
  refine fun s hs => try_op hs ho (fun _ _ _ _ hs => hs) fun a r w' hraises => ?_
  rw [hquiet] at hraises
  cases hraises

/-- The commands whose status does not count print nothing of interest. -/
lemma isUnreadable_of_isUnchecked (h : command.isUnchecked = true) (stdout : String) :
    command.isUnreadable stdout = false := by
  cases command with
  | zfsListSnapshot _ | zfsListDataset _ | zfsDestroyRecursive _ | vmSet _ _ => rfl
  | _ => cases h

/-- A command of a `try` block. -/
lemma run_obeys (command : Command) (hs : Late (NeedsDestroy m peer isJail name) name s)
    (ho : (Op.run command).isTry isJail name = true) (hcheck : check = !command.isUnchecked) :
    (run command check).Obeys (attentive m runtime (NeedsDestroy m peer isJail name))
      (fun c s => lastResolved s.past = none ∧
        (command.isUnreadable c.stdout = true → Trapped (NeedsDestroy m peer isJail name) name s)
        ∧ (command.isUnreadable c.stdout = false → Late (NeedsDestroy m peer isJail name) name s))
      (fun _ => Trapped (NeedsDestroy m peer isJail name) name) s := by
  refine Prog.obeys_bind.mpr (try_op hs ho (fun a outcome w' hquiet hs => ?_)
    fun a outcome w' hraises hs => ?_)
  · cases outcome with
    | timeoutExpired | raises e => cases hquiet
    | osError =>
        have hunchecked : command.isUnchecked = true := by simpa [Raises] using hquiet
        have hread := isUnreadable_of_isUnchecked hunchecked ""
        dsimp only
        rw [hcheck, hunchecked, if_neg (by simp)]
        exact ⟨rfl, by simp [hread], fun _ => hs⟩
    | completed code stdout =>
        dsimp only
        by_cases hcode : code = 0
        · subst hcode
          have hread : command.isUnreadable stdout = false := by simpa [Raises] using hquiet
          rw [if_neg (by simp)]
          exact ⟨rfl, by simp [hread], fun _ => hs⟩
        · have hunchecked : command.isUnchecked = true := by simpa [Raises, hcode] using hquiet
          have hread := isUnreadable_of_isUnchecked hunchecked stdout
          rw [hcheck, hunchecked, if_neg (by simp)]
          exact ⟨rfl, by simp [hread], fun _ => hs⟩
  · cases outcome with
    | timeoutExpired | raises e => exact hs
    | osError =>
        have hchecked : command.isUnchecked = false := by simpa [Raises] using hraises
        dsimp only
        rw [hcheck, hchecked, if_pos (by simp)]
        exact hs
    | completed code stdout =>
        dsimp only
        by_cases hcode : code = 0
        · subst hcode
          have hread : command.isUnreadable stdout = true := by simpa [Raises] using hraises
          rw [if_neg (by simp)]
          exact ⟨rfl, fun _ => hs, by simp [hread]⟩
        · have hchecked : command.isUnchecked = false := by simpa [Raises, hcode] using hraises
          rw [hcheck, hchecked, if_pos (by simpa using hcode)]
          exact hs

/-- A command whose output is not looked at. -/
lemma tries_run (ho : (Op.run command).isTry isJail name = true)
    (hcheck : check = !command.isUnchecked)
    (hread : ∀ stdout, command.isUnreadable stdout = false) :
    Tries m runtime peer isJail name (run command check) :=
  fun _ hs => (run_obeys command hs ho hcheck).mono (fun c _ hs => hs.2.2 (hread c.stdout))
    fun _ _ h => h

/-- A command whose output is read. -/
lemma tries_read {ρ : Type} {read : String → Except PyError ρ} {f : ρ → Program α}
    (ho : (Op.run command).isTry isJail name = true) (hcheck : check = !command.isUnchecked)
    (hread : ∀ stdout, command.isUnreadable stdout = (read stdout).toOption.isNone)
    (hf : ∀ x, Tries m runtime peer isJail name (f x)) : Tries m runtime peer isJail name
      (run command check >>= fun c => ofExcept (read c.stdout) >>= f) := by
  refine fun s hs =>
    Prog.obeys_bind.mpr ((run_obeys command hs ho hcheck).mono (fun c s hs => ?_) fun _ _ h => h)
  obtain ⟨-, htrapped, hlate⟩ := hs
  rw [hread] at htrapped hlate
  refine Prog.obeys_bind.mpr (Prog.obeys_ofExcept.mpr ⟨fun x hx => ?_, fun e he => ?_⟩)
  · exact hf x s (hlate (by rw [hx]; rfl))
  · exact htrapped (by rw [he]; rfl)

lemma tries_succeeds (ho : (Op.run command).isTry isJail name = true)
    (hunchecked : command.isUnchecked = true) :
    Tries m runtime peer isJail name (succeeds command) :=
  (tries_run ho (by simp [hunchecked]) (isUnreadable_of_isUnchecked hunchecked)).bind
  fun _ => tries_pure _

lemma tries_file {effect : FileEffect} (ho : (Op.file effect).isTry isJail name = true) :
    Tries m runtime peer isJail name (file effect) := by
  refine fun s hs => Prog.obeys_bind.mpr (try_op hs ho (fun a r w' hquiet hs => ?_)
    fun a r w' hraises hs => ?_)
  · cases r with
    | ok u => exact hs
    | error e => cases hquiet
  · cases r with
    | ok u => cases hraises
    | error e => exact hs

lemma tries_writeRegistry {record : RuntimeRecord} :
    Tries m runtime peer isJail name (writeRegistry record) := by
  refine fun s hs => Prog.obeys_bind.mpr (try_op hs rfl (fun a r w' hquiet hs => ?_)
    fun a r w' hraises hs => ?_)
  · cases r with
    | ok u => exact hs
    | error e => cases hquiet
  · cases r with
    | ok u => cases hraises
    | error e => exact hs

end Tries

section Blocks

/-- The first of two paths. -/
lemma resolve_obeys {path : String} (hs : Late (NeedsDestroy m peer isJail name) name s)
    (hlast : lastResolved s.past = none) :
    (resolve path).Obeys (attentive m runtime (NeedsDestroy m peer isJail name))
      (fun home s => Late (NeedsDestroy m peer isJail name) name s
        ∧ lastResolved s.past = some home)
      (fun _ => Trapped (NeedsDestroy m peer isJail name) name) s := by
  refine Prog.obeys_bind.mpr
    (try_op hs rfl (fun a r w' hquiet hs => ?_) fun a r w' hraises hs => ?_)
  · cases r with
    | ok home => exact ⟨hs, rfl⟩
    | error e => cases hquiet
  · cases r with
    | ok home => simp [Raises, hlast] at hraises
    | error e => exact hs

/-- The second path is the root. -/
lemma resolveRoot_obeys {path home : String} (hs : Late (NeedsDestroy m peer isJail name) name s)
    (hlast : lastResolved s.past = some home) :
    (resolve path).Obeys (attentive m runtime (NeedsDestroy m peer isJail name))
      (fun root s => (pathWithin root home = true → Late (NeedsDestroy m peer isJail name) name s)
        ∧ (pathWithin root home = false → Trapped (NeedsDestroy m peer isJail name) name s))
      (fun _ => Trapped (NeedsDestroy m peer isJail name) name) s := by
  refine Prog.obeys_bind.mpr
    (try_op hs rfl (fun a r w' hquiet hs => ?_) fun a r w' hraises hs => ?_)
  · cases r with
    | ok root =>
        have hwithin : pathWithin root home = true := by simpa [Raises, hlast] using hquiet
        exact ⟨fun _ => hs, by simp [hwithin]⟩
    | error e => cases hquiet
  · cases r with
    | ok root =>
        have hwithin : pathWithin root home = false := by simpa [Raises, hlast] using hraises
        exact ⟨by simp [hwithin], fun _ => hs⟩
    | error e => exact hs

lemma tries_installJailAuthorizedKey {jailRoot publicKey : String} :
    Tries m runtime peer true name (installJailAuthorizedKey m jailRoot publicKey) := by
  intro s hs
  unfold installJailAuthorizedKey
  refine Prog.obeys_bind.mpr ?_
  refine (run_obeys (.pwUsershow jailRoot) hs rfl rfl).mono (fun user s hs => ?_) fun _ _ h => h
  have hlast := hs.1
  have htrapped := hs.2.1
  have hlate := hs.2.2
  clear hs
  simp only [Command.isUnreadable, isJailUser, Bool.not_eq_true',
    Bool.not_eq_false'] at htrapped hlate
  dsimp only
  generalize Text.splitAt ':' (Text.strip user.stdout) = fields at htrapped hlate ⊢
  split
  · rename_i uidText gidText _ home _
    dsimp only at htrapped hlate
    split
    · rename_i uid gid huid hgid
      rw [huid, hgid] at htrapped hlate
      split_ifs with hhome
      · refine htrapped ?_
        rcases hhome with habsolute | hroot
        · simp [habsolute]
        · simp [hroot]
      rw [not_or, Bool.not_eq_false] at hhome
      have hs := hlate (by simp [hhome])
      refine Prog.obeys_bind.mpr
        ((resolve_obeys hs hlast).mono (fun homePath s hs => ?_) fun _ _ h => h)
      refine Prog.obeys_bind.mpr
        ((resolveRoot_obeys hs.1 hs.2).mono (fun root s hs => ?_) fun _ _ h => h)
      refine Prog.obeys_bind.mpr (obeys_when.mpr ⟨fun hescapes => hs.2 hescapes, fun hwithin => ?_⟩)
      have hs := hs.1 (by simpa using hwithin)
      have hask : ∀ path, Tries m runtime peer true name (op (.ask (.isSymlink path))) :=
        fun path => tries_op rfl fun _ _ _ _ => rfl
      refine Tries.bind (hask _) (fun _ => (tries_when (tries_file rfl)).bind fun _ => ?_) s hs
      refine (tries_file rfl).bind fun _ => (tries_file rfl).bind fun _ =>
        (tries_file rfl).bind fun _ => ?_
      refine (hask _).bind fun _ => (tries_when (tries_file rfl)).bind fun _ => ?_
      exact (tries_file rfl).bind fun _ => (tries_file rfl).bind fun _ => tries_file rfl
    · rename_i hnumbers
      refine htrapped ?_
      cases huid : Text.parseInt uidText with
      | none => simp
      | some uid =>
          cases hgid : Text.parseInt gidText with
          | none => simp
          | some gid => exact absurd hgid (hnumbers uid gid huid)
  · rename_i hfields
    refine htrapped ?_
    split
    · exact (hfields _ _ _ _ _ _ _ rfl).elim
    · rfl

lemma tries_createJailTry {publicKey dataset jailRoot : String} {address : IPv4Address}
    {record : RuntimeRecord} :
    Tries m runtime peer true name
      (createJailTry m name publicKey address dataset jailRoot record) := by
  refine (tries_run rfl rfl fun _ => rfl).bind fun _ => tries_installJailAuthorizedKey.bind
    fun _ => ?_
  refine tries_read rfl rfl (fun _ => rfl) fun epairHost => ?_
  refine (tries_run rfl rfl fun _ => rfl).bind fun _ => (tries_run rfl rfl fun _ => rfl).bind
    fun _ => ?_
  refine (tries_run rfl rfl fun _ => rfl).bind fun _ => (tries_run rfl rfl fun _ => rfl).bind
    fun _ => ?_
  refine (tries_run rfl rfl fun _ => rfl).bind fun _ => ?_
  exact tries_writeRegistry.bind fun _ => tries_pure _

lemma tries_snapshotExists (snapshot : String) :
    Tries m runtime peer false name (snapshotExists snapshot) :=
  (tries_pure false).ite (tries_succeeds rfl rfl)

lemma tries_copySnapshot (snapshot md : String) :
    Tries m runtime peer false name (copySnapshot m name snapshot md) := by
  have hdestroy : Tries m runtime peer false name
      (do let _ ← run (.zfsDestroyRecursive (m.srcDataset name)) false) :=
    (tries_run rfl rfl fun _ => rfl).bind fun _ => tries_pure ()
  refine (tries_succeeds rfl rfl).bind fun _ => (tries_when hdestroy).bind fun _ => ?_
  refine (tries_run rfl rfl fun _ => rfl).bind fun _ => Tries.finallyDo ?_ hdestroy ?_
  · exact (tries_run rfl rfl fun _ => rfl).bind fun _ => tries_pure ()
  · exact .bind (performs_run rfl) fun _ => trivial

lemma tries_copyImage (image md : String) : Tries m runtime peer false name (copyImage image md) :=
  (tries_op rfl fun _ _ _ _ => rfl).bind fun _ =>
    tries_when ((tries_run rfl rfl fun _ => rfl).bind fun _ => tries_pure ())

lemma tries_createMemdisk (snapshot image : String) :
    Tries m runtime peer false name (createMemdisk m name snapshot image) := by
  refine tries_read rfl rfl (fun _ => rfl) fun md => (tries_snapshotExists _).bind fun _ => ?_
  exact ((tries_copySnapshot _ _).ite (tries_copyImage _ _)).bind fun _ => tries_pure _

lemma tries_createVmDisk {key netconfig : String} {guestProfile : BhyveGuestProfile}
    {record : RuntimeRecord} :
    Tries m runtime peer false name (createVmDisk m name key netconfig guestProfile record) := by
  refine Tries.bind ((tries_snapshotExists _).ite (tries_pure _)) fun _ =>
    Tries.ite ?_ (Tries.ite ?_ ?_)
  · refine (tries_run rfl rfl fun _ => rfl).bind fun _ => (tries_succeeds rfl rfl).bind fun _ => ?_
    refine (tries_when ((tries_run rfl rfl fun _ => rfl).bind fun _ => tries_pure ())).bind
      fun _ => ?_
    exact (tries_run rfl rfl fun _ => rfl).bind fun _ => tries_pure _
  · refine (tries_createMemdisk _ _).bind fun md => (tries_run rfl rfl fun _ => rfl).bind
      fun _ => ?_
    refine Tries.bind ?_ fun _ => tries_pure _
    exact (tries_run rfl rfl fun _ => rfl).bind fun _ =>
      (tries_run rfl rfl fun _ => rfl).bind fun _ => tries_pure ()
  · exact (tries_run rfl rfl fun _ => rfl).bind fun _ => tries_pure _

lemma tries_createBhyveTry {address : IPv4Address} {profile : String}
    {guestProfile : BhyveGuestProfile}
    {record : RuntimeRecord} :
    Tries m runtime peer false name (createBhyveTry m name address profile guestProfile record) :=
  tries_createVmDisk.bind fun _ => tries_writeRegistry.bind fun _ =>
    (tries_run rfl rfl fun _ => rfl).bind fun _ => tries_pure _

/-- **A `try` block that raises sends the request to `destroy`**, and is never left. -/
lemma cleaningUp_watched {p : Program α} (hp : Tries m runtime peer isJail name p)
    (hs : Late (NeedsDestroy m peer isJail name) name s) :
    (cleaningUp m name p).Obeys (attentive m runtime (NeedsDestroy m peer isJail name))
      (fun _ => Late (NeedsDestroy m peer isJail name) name) (fun _ _ => False) s :=
  Prog.obeys_tryCatch.mpr ((hp s hs).mono (fun _ _ h => h) fun _ _ hs => destroy_bind_waits hs)

/-- The key file of a VM is removed behind the `try` block. -/
lemma removePublicKey_obeys (hs : ¬ Sent (NeedsDestroy m peer false name) s.past) :
    (removePublicKey name).Obeys (attentive m runtime (NeedsDestroy m peer false name))
      (fun _ s => ¬ Sent (NeedsDestroy m peer false name) s.past)
      (fun _ s => ¬ Sent (NeedsDestroy m peer false name) s.past) s := by
  have hask : ∀ (w : World) (question : FileQuery) (a : Answer) (r : Bool) (past : List Taken),
      ¬ NeedsDestroy m peer false name ⟨w, .ask question, a, r⟩ past := by
    rintro w question a r past (⟨_, _, _, _, heq, -⟩ | ⟨hjail, -⟩ | ⟨-, hraises, -⟩)
    · cases heq
    · cases hjail
    · cases hraises
  refine Prog.obeys_bind.mpr (attentive_op rfl fun a r w' _ => ?_)
  have hs := not_sent_cons.mpr ⟨hask s.world (.exists (publicKeyPath name)) a r _, hs⟩
  split_ifs
  · refine Prog.obeys_bind.mpr (attentive_op rfl fun a r w'' _ => ?_)
    have hunlink : ∀ past, ¬ NeedsDestroy m peer false name
        ⟨w', .file (.unlink (publicKeyPath name)), a, r⟩ past := by
      rintro past (⟨_, _, _, _, heq, -⟩ | ⟨hjail, -⟩ | ⟨-, -, hjail | hother⟩)
      · cases heq
      · cases hjail
      · cases hjail
      · exact hother rfl
    have hs := not_sent_cons.mpr ⟨hunlink _, hs⟩
    exact Prog.obeys_ofExcept.mpr ⟨fun _ _ => hs, fun _ _ => hs⟩
  · exact hs

end Blocks

/-! ## The create requests -/

section Creating

variable {publicKey : String} {ownerPid : ℤ}

/-- The record is written, or the request ends in front of its `try` block. -/
lemma writeRegistry_early {record : RuntimeRecord}
    (hs : Early (NeedsDestroy m peer isJail name) w (ownLock name) s) :
    (writeRegistry record).Obeys (attentive m runtime (NeedsDestroy m peer isJail name))
      (fun _ => Late (NeedsDestroy m peer isJail name) name)
      (fun _ s => ¬ Sent (NeedsDestroy m peer isJail name) s.past) s := by
  refine Prog.obeys_bind.mpr (attentive_op rfl fun a r w' hexec => ?_)
  have hclear : ¬ Sent (NeedsDestroy m peer isJail name)
      (⟨s.world, .writeRegistry record, a, r⟩ :: s.past) :=
    not_or.mpr ⟨not_needsDestroy hs.unrecorded rfl, hs.clear⟩
  cases r with
  | error e => exact hclear
  | ok u =>
      exact ⟨((exec_frame hexec).held rfl).trans hs.held, ⟨_, _, _, List.mem_cons_self⟩, hclear⟩

lemma stays_ensureBridge : Stays m runtime (NeedsDestroy m peer isJail name)
    (Early (NeedsDestroy m peer isJail name) w (ownLock name)) (ensureBridge m) := by
  refine (stays_early (performs_op rfl)).bind fun _ => (stays_pure ()).ite ?_
  refine stays_withLock lockFamily_early (by simp [ownLock]) (stays_early ?_)
  refine .bind (performs_op rfl) fun _ => .ite (fun _ => trivial) fun _ => ?_
  refine .bind (performs_run rfl) fun shown => .bind (.ite (fun _ => ?_) fun _ => trivial)
    fun result => ?_
  · exact .bind (performs_run rfl) fun _ => performs_run rfl
  · refine .bind (performs_run ?_) fun _ => performs_op rfl
    split_ifs <;> rfl

lemma stays_ensureVmSwitch : Stays m runtime (NeedsDestroy m peer isJail name)
    (Early (NeedsDestroy m peer isJail name) w (ownLock name)) (ensureVmSwitch m) := by
  refine (stays_early (performs_op rfl)).bind fun _ => (stays_pure ()).ite ?_
  refine stays_withLock lockFamily_early (by simp [ownLock]) (stays_early ?_)
  refine .bind (performs_op rfl) fun _ => .ite (fun _ => trivial) fun _ => ?_
  refine .bind (performs_requireVmBackend rfl) fun _ => .bind (performs_run rfl) fun _ => ?_
  refine .bind (performs_when fun _ => .bind (performs_run rfl) fun _ => trivial) fun _ => ?_
  exact .bind (performs_run rfl) fun _ => performs_op rfl

lemma stays_allocate : Stays m runtime (NeedsDestroy m peer isJail name)
    (Early (NeedsDestroy m peer isJail name) w held) (allocate m name) := by
  refine stays_early (.bind (performs_op rfl) fun _ => .bind performs_ofExcept fun address => ?_)
  exact .ite (fun _ => .bind (performs_op rfl) fun _ => .bind performs_ofExcept fun _ => trivial)
    fun _ => trivial

/-- Where a request neither returns nor raises after an answer that sends it to `destroy`. -/
abbrev EndsClear (m : RuntimeManager) (runtime : String) (calls : Taken → List Taken → Prop)
    (p : Program α) (s : Alone) : Prop :=
  p.Obeys (attentive m runtime calls) (fun _ s => ¬ Sent calls s.past)
    (fun _ s => ¬ Sent calls s.past) s

/-- A piece in front of the record, and what comes after it. -/
lemma Stays.endsClear {p : Program α} {f : α → Program β}
    (hp : Stays m runtime (NeedsDestroy m peer isJail name)
      (Early (NeedsDestroy m peer isJail name) w held) p)
    (hs : Early (NeedsDestroy m peer isJail name) w held s)
    (hf : ∀ a s, Early (NeedsDestroy m peer isJail name) w held s →
      EndsClear m runtime (NeedsDestroy m peer isJail name) (f a) s) :
    EndsClear m runtime (NeedsDestroy m peer isJail name) (p >>= f) s :=
  Prog.obeys_bind.mpr ((hp s hs).mono (fun a s hs => hf a s hs) fun _ _ hs => hs.clear)

lemma createJailBody_endsClear (hs : Early (NeedsDestroy m peer true name) w (ownLock name) s) :
    EndsClear m runtime (NeedsDestroy m peer true name)
      (createJailBody m name ownerPid peer publicKey) s := by
  unfold createJailBody
  generalize validateSshPublicKey publicKey = key
  refine Prog.obeys_bind.mpr (Prog.obeys_ofExcept.mpr ⟨fun name' hname => ?_, fun _ _ => hs.clear⟩)
  obtain ⟨rfl, -⟩ := validateName_eq_ok.mp hname
  refine Prog.obeys_bind.mpr (Prog.obeys_ofExcept.mpr ⟨fun key _ => ?_, fun _ _ => hs.clear⟩)
  refine Prog.obeys_bind.mpr ((ownerFromPeer_early hs).mono ?_ fun _ _ hs => hs.clear)
  rintro owner s ⟨hs, identity, hidentity, rfl⟩
  refine Prog.obeys_bind.mpr ((reconcileRegistered_early hidentity hs).mono ?_
    fun _ _ hs => hs.clear)
  rintro - s ⟨hs, hload⟩
  refine Prog.obeys_bind.mpr ((reconcileOrphaned_early hload hs).mono (fun _ s hs => ?_)
    fun _ _ hs => hs.clear)
  refine stays_ensureBridge.endsClear hs fun _ s hs => ?_
  refine (stays_early (.bind (performs_op rfl) fun _ => performs_ofExcept)).endsClear hs
    fun jailRoot s hs => stays_allocate.endsClear hs fun address s hs => ?_
  refine (stays_early (performs_run rfl)).endsClear hs fun _ s hs => ?_
  refine Prog.obeys_bind.mpr ((writeRegistry_early hs).mono (fun _ s hs => ?_) fun _ _ hs => hs)
  exact (cleaningUp_watched tries_createJailTry hs).mono (fun _ _ hs => hs.clear)
    fun _ _ h => h.elim

lemma createBhyveBody_endsClear {profile : String}
    (hs : Early (NeedsDestroy m peer false name) w (ownLock name) s) :
    EndsClear m runtime (NeedsDestroy m peer false name)
      (createBhyveBody m name ownerPid peer publicKey profile) s := by
  unfold createBhyveBody
  generalize validateSshPublicKey publicKey = key
  refine Prog.obeys_bind.mpr (Prog.obeys_ofExcept.mpr ⟨fun name' hname => ?_, fun _ _ => hs.clear⟩)
  obtain ⟨rfl, -⟩ := validateName_eq_ok.mp hname
  refine Prog.obeys_bind.mpr (Prog.obeys_ofExcept.mpr ⟨fun key _ => ?_, fun _ _ => hs.clear⟩)
  cases BHYVE_PROFILES.lookup profile with
  | none => exact hs.clear
  | some guestProfile =>
      refine Prog.obeys_bind.mpr ((ownerFromPeer_early hs).mono ?_ fun _ _ hs => hs.clear)
      rintro owner s ⟨hs, identity, hidentity, rfl⟩
      refine (stays_early (performs_requireVmBackend rfl)).endsClear hs fun _ s hs => ?_
      refine Prog.obeys_bind.mpr ((reconcileRegistered_early hidentity hs).mono ?_
        fun _ _ hs => hs.clear)
      rintro - s ⟨hs, -⟩
      refine stays_ensureBridge.endsClear hs fun _ s hs => stays_ensureVmSwitch.endsClear hs
        fun _ s hs => ?_
      refine (stays_early (performs_succeeds rfl)).endsClear hs fun _ s hs => ?_
      refine (stays_early (performs_when fun _ => performs_raise _)).endsClear hs fun _ s hs => ?_
      refine stays_allocate.endsClear hs fun address s hs => ?_
      refine (stays_early (performs_run rfl)).endsClear hs fun _ s hs => ?_
      refine Prog.obeys_bind.mpr ((writeRegistry_early hs).mono (fun _ s hs => ?_) fun _ _ hs => hs)
      refine Prog.obeys_bind.mpr ((cleaningUp_watched (tries_file (by simp [Op.isTry])) hs).mono
        (fun _ s hs => ?_) fun _ _ h => h.elim)
      refine Prog.obeys_finallyDo.mpr ((cleaningUp_watched tries_createBhyveTry hs).mono
        (fun _ s hs => ?_) fun _ _ h => h.elim)
      exact (removePublicKey_obeys hs.clear).mono (fun _ _ h => h) fun _ _ h => h

/-- A create request takes the lock of its runtime, and gives it back. -/
lemma serialized_endsClear {body : Program α} (hfree : ∀ lock, w.held lock = none)
    (hbody : ∀ s, Early (NeedsDestroy m peer isJail name) w (ownLock name) s →
      EndsClear m runtime (NeedsDestroy m peer isJail name) body s) :
    EndsClear m runtime (NeedsDestroy m peer isJail name) (serializedByName name body) w.alone := by
  have hstart : Early (NeedsDestroy m peer isJail name) w (fun _ => none) w.alone :=
    ⟨funext hfree, rfl, rfl, id, by rintro ⟨_, _, _, hmem⟩; cases hmem⟩
  refine (stays_early (performs_op rfl)).endsClear hstart fun _ s hs => ?_
  refine Prog.obeys_bind.mpr
    ((acquire_obeys lockFamily_early rfl hs).mono (fun _ s hs => ?_) fun _ _ h => h)
  have hrelease : ∀ s : Alone, ¬ Sent (NeedsDestroy m peer isJail name) s.past →
      EndsClear m runtime (NeedsDestroy m peer isJail name) (op (.release (.runtime name))) s := by
    refine fun s hs => attentive_op rfl fun a r w' _ => not_or.mpr ⟨?_, hs⟩
    rintro (⟨_, _, _, _, heq, -⟩ | ⟨-, ⟨_, _, _, heq⟩ | ⟨_, _, _, heq⟩⟩ | ⟨-, hraises, -⟩)
    · cases heq
    · cases heq
    · cases heq
    · cases hraises
  exact Prog.obeys_finallyDo.mpr ((hbody s hs).mono (fun _ => hrelease) fun _ => hrelease)

end Creating

/-! ## The requests -/

/-- **No request ends after an answer that sends it to `destroy`, and none without one waits.** -/
theorem perform_endsClear {c : Connection} {action : Action} (haction : c.action = .ok action)
    (hfree : ∀ lock, w.held lock = none) :
    EndsClear m runtime (c.NeedsDestroy m) (perform m c.peer action) w.alone := by
  have hholding : ∀ {p : Program Result}, (∀ st past, ¬ c.NeedsDestroy m st past) →
      Stays m runtime (c.NeedsDestroy m) (Holding fun _ => none) p →
      EndsClear m runtime (c.NeedsDestroy m) p w.alone := by
    intro p hcalls hp
    exact (hp _ (funext hfree)).mono (fun _ _ _ => not_sent hcalls) fun _ _ _ => not_sent hcalls
  cases action with
  | ping => exact hholding (by simp [Connection.NeedsDestroy, haction]) (stays_pure _)
  | createJail name ownerPid key =>
      have hcalls : c.NeedsDestroy m = NeedsDestroy m c.peer true name := by
        funext st past
        simp [Connection.NeedsDestroy, haction]
      rw [hcalls]
      refine Prog.obeys_bind.mpr ?_
      exact serialized_endsClear hfree fun s hs => createJailBody_endsClear hs
  | createBhyve name ownerPid key profile =>
      have hcalls : c.NeedsDestroy m = NeedsDestroy m c.peer false name := by
        funext st past
        simp [Connection.NeedsDestroy, haction]
      rw [hcalls]
      refine Prog.obeys_bind.mpr ?_
      exact serialized_endsClear hfree fun s hs => createBhyveBody_endsClear hs
  | destroy name =>
      refine hholding (by simp [Connection.NeedsDestroy, haction]) ?_
      exact (stays_destroy rfl).bind fun _ => stays_pure _
  | gc staleOnly =>
      refine hholding (by simp [Connection.NeedsDestroy, haction]) ?_
      exact (stays_gc _ _).bind fun _ => stays_pure _

lemma handle_endsClear {c : Connection} (hfree : ∀ lock, w.held lock = none) :
    (handle m c).Obeys (attentive m runtime (c.NeedsDestroy m))
      (fun _ s => ¬ Sent (c.NeedsDestroy m) s.past) (fun _ _ => False) w.alone := by
  by_cases hline : c.request = .nothing
  · have hreply : handle m c = pure .none := by rw [handle, hline]
    rw [hreply]
    exact id
  rw [handle_eq hline]
  refine Prog.obeys_tryCatch.mpr (Prog.obeys_bind.mpr ?_)
  cases haction : c.action with
  | error e => exact id
  | ok action =>
      refine Prog.obeys_pure.mpr (Prog.obeys_bind.mpr ?_)
      exact (perform_endsClear haction hfree).mono (fun _ _ h => h) fun _ _ h => h

/-- **A request on its own comes to a stop; and where it has stopped, it has been answered if and
only if no answer has sent it to `destroy` under the lock that it holds.** -/
theorem replies_iff (m : RuntimeManager) (w : World) (c : Connection)
    (hfree : ∀ lock, w.held lock = none) {choices : List Answer} {p : Program Reply} {s : Alone}
    (hrun : follow (exec m false 0 c.runtime) (fun _ _ => true) choices (handle m c) w.alone
      = some (p, s)) :
    (∃ more p' s', follow (exec m false 0 c.runtime) (fun _ _ => true) more p s = some (p', s')
        ∧ Stopped (exec m false 0 c.runtime) (fun _ _ => true) p' s')
      ∧ (Stopped (exec m false 0 c.runtime) (fun _ _ => true) p s →
        ((∃ reply, p = .ret reply) ↔ ¬ Sent (c.NeedsDestroy m) s.past)) := by
  refine ⟨exists_stopped p s, fun hstopped => ?_⟩
  have hclear :=
    follow_obeys (T := attentive m c.runtime (c.NeedsDestroy m)) rfl (handle_endsClear hfree) hrun
  rcases stopped_cases hclear hstopped with ⟨reply, rfl, hs⟩ | ⟨e, -, hs⟩ | ⟨⟨o, k, rfl⟩, hs⟩
  · exact iff_of_true ⟨reply, rfl⟩ hs
  · exact hs.elim
  · refine iff_of_false ?_ hs
    rintro ⟨reply, heq⟩
    cases heq

/-- A server and its jail. -/
def jailOfServer : World :=
  sampleWorld.storeRecord "freebsd-lab-a"
    (sampleRecord "freebsd-lab-a" jupyter (.ofOctets 172 31 254 10))

/-- The server asks for the jail again. -/
def createAgain : Connection := fromJupyter (RuntimeClient.createJail "freebsd-lab-a" 100 sampleKey)

/-- Who waits for a lock that he holds waits for ever. -/
lemma stopped_of_held {p : Program Reply} (hpending : pending p = some (.acquire (.runtime name)))
    (hheld : s.world.held (.runtime name) = some (0, 1)) :
    Stopped (exec m false 0 runtime) (fun _ _ => true) p s :=
  stopped_of_blocked hpending fun a _ => by simp [exec, World.acquire, hheld]

/-- Where `jail -c` prints what is no text. -/
def jailPrintsNoText : List Answer :=
  let done : Answer := {}
  List.replicate 37 done ++ [{ done with exit := .undecodable false }, done]

/-- A server's first request for a jail is answered where all goes well; where `jail -c` prints what
is no text, its cleanup waits for the lock that the request holds. -/
theorem replies_iff_of_create :
    (∃ p s, follow (exec .standard false 0 createAgain.runtime) (fun _ _ => true)
      (List.replicate 41 {})
        (handle .standard createAgain) sampleWorld.alone = some (p, s)
      ∧ (∃ reply, p = .ret reply) ∧ ¬ Sent (createAgain.NeedsDestroy .standard) s.past)
    ∧ ∃ p s, follow (exec .standard false 0 createAgain.runtime) (fun _ _ => true) jailPrintsNoText
        (handle .standard createAgain) sampleWorld.alone = some (p, s)
      ∧ pending p = some (.acquire (.runtime "freebsd-lab-a"))
      ∧ Sent (createAgain.NeedsDestroy .standard) s.past := by
  have hreplies : ∀ {choices p s}, follow (exec .standard false 0 createAgain.runtime)
    (fun _ _ => true) choices
        (handle .standard createAgain) sampleWorld.alone = some (p, s) →
      Stopped (exec .standard false 0 createAgain.runtime) (fun _ _ => true) p s →
        ((∃ reply, p = .ret reply) ↔ ¬ Sent (createAgain.NeedsDestroy .standard) s.past) :=
    fun hrun => (replies_iff .standard sampleWorld createAgain (fun _ => rfl) hrun).2
  constructor
  · have hends :
      (follow (exec .standard false 0 createAgain.runtime) (fun _ _ => true) (List.replicate 41 {})
        (handle .standard createAgain) sampleWorld.alone).map
          (fun x => match x.1 with
            | .ret _ => true
            | _ => false)
        = some true := by
      decide +kernel
    obtain ⟨⟨p, s⟩, hrun, hret⟩ := Option.map_eq_some_iff.mp hends
    cases p with
    | ret reply => exact ⟨_, s, hrun, ⟨reply, rfl⟩, (hreplies hrun trivial).mp ⟨reply, rfl⟩⟩
    | _ => cases hret
  · have hwaits :
      (follow (exec .standard false 0 createAgain.runtime) (fun _ _ => true) jailPrintsNoText
        (handle .standard createAgain) sampleWorld.alone).map
          (fun x => (pending x.1, x.2.world.held (.runtime "freebsd-lab-a")))
        = some (some (.acquire (.runtime "freebsd-lab-a")), some (0, 1)) := by
      decide +kernel
    obtain ⟨⟨p, s⟩, hrun, hstate⟩ := Option.map_eq_some_iff.mp hwaits
    obtain ⟨hpending, hheld⟩ := Prod.mk.inj hstate
    refine ⟨p, s, hrun, hpending, not_not.mp fun hclear => ?_⟩
    obtain ⟨reply, rfl⟩ := (hreplies hrun (stopped_of_held hpending hheld)).mpr hclear
    cases hpending

/-- It is never answered: its call of `destroy` waits for the lock that it holds. -/
theorem create_again_waits : ¬ ∀ choices p s,
    follow (exec .standard false 0 createAgain.runtime) (fun _ _ => true) choices
      (handle .standard createAgain) jailOfServer.alone = some (p, s) →
    Stopped (exec .standard false 0 createAgain.runtime) (fun _ _ => true) p s →
    ∃ reply, p = .ret reply := by
  intro h
  have hrun : (follow (exec .standard false 0 createAgain.runtime) (fun _ _ => true)
      (List.replicate 6 {}) (handle .standard createAgain) jailOfServer.alone).map
        (fun x => (pending x.1, x.2.world.held (.runtime "freebsd-lab-a")))
      = some (some (.acquire (.runtime "freebsd-lab-a")), some (0, 1)) := by
    decide +kernel
  obtain ⟨⟨p, s⟩, hfollow, hstate⟩ := Option.map_eq_some_iff.mp hrun
  obtain ⟨hpending, hheld⟩ := Prod.mk.inj hstate
  obtain ⟨reply, rfl⟩ := h _ p s hfollow (stopped_of_held hpending hheld)
  cases hpending

end FreebsdLaboratory
