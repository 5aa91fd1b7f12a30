import FreebsdLaboratory.Protocol.Collecting

/-!
# What an operation leaves alone

Most operations change one part of the world and one part of what their thread knows.  The lemmas
here say which parts stay, once for all operations; the invariants use them for every operation
but the few they are about.
-/

namespace FreebsdLaboratory

open Library

namespace Op

def touchesLocks : Op → Bool
  | .acquire _ | .release _ => true
  | _ => false

def touchesRegistry : Op → Bool
  | .writeRegistry _ | .deleteRegistry _ => true
  | _ => false

def touchesLeases : Op → Bool
  | .leaseAllocate _ | .leaseRelease _ _ | .leaseClearOrphans _ => true
  | _ => false

def touchesHost : Op → Bool
  | .run _ => true
  | _ => false

/-- The operations by which a thread takes, gives back or goes for a lock. -/
def steersLocks : Op → Bool
  | .runtimeLock _ | .acquire _ | .release _ | .readFlag _ => true
  | _ => false

/-- The operations after which a thread may be forgetting a runtime or not any more. -/
def marksForgetting : Op → Bool
  | .release _ | .deleteRegistry _ | .leaseRelease _ _ | .run (.arpDelete _) => true
  | _ => false

/-- The operations after which a thread may have an unrecorded address or none. -/
def teachesLease : Op → Bool
  | .leaseAllocate _ | .leaseRelease _ _ | .writeRegistry _ | .release _ => true
  | _ => false

/-- The operations after which a thread may have an unrecorded unit or none. -/
def teachesUnits : Op → Bool
  | .run .ifconfigEpairCreate | .run .mdconfigAttach | .writeRegistry _ | .release _ => true
  | _ => false

/-- The operations after which a thread knows something else about a registry entry. -/
def teachesRecord : Op → Bool
  | .loadRegistry _ | .writeRegistry _ | .deleteRegistry _ | .release _ => true
  | _ => false

end Op

variable {m : RuntimeManager} {reentrant : Bool} {i : ℕ} {runtime : String} {w w' : World} {o : Op}
variable {a : Answer} {r : o.Resp} {s : Known}

/-! ## The world -/

/-- The parts of the world an operation does not touch are as before.  No operation starts or ends a
process. -/
structure Op.Frame (o : Op) (w w' : World) : Prop where
  held : o.touchesLocks = false → w'.held = w.held
  registry : o.touchesRegistry = false → w'.registry = w.registry
  leases : o.touchesLeases = false → w'.leases = w.leases
  host : o.touchesHost = false → w'.host = w.host
  processes : w'.processes = w.processes
  departed : w'.departed = w.departed

theorem Op.Frame.refl (o : Op) (w : World) : o.Frame w w :=
  ⟨fun _ => rfl, fun _ => rfl, fun _ => rfl, fun _ => rfl, rfl, rfl⟩

/-- A world that differs in the locks only. -/
theorem Op.Frame.of_held {held : LockId → Option (ℕ × ℕ)} (ho : o.touchesLocks = true) :
    o.Frame w { w with held := held } :=
  ⟨by simp [ho], fun _ => rfl, fun _ => rfl, fun _ => rfl, rfl, rfl⟩

theorem Op.Frame.of_registry {registry : Registry} (ho : o.touchesRegistry = true) :
    o.Frame w { w with registry := registry } :=
  ⟨fun _ => rfl, by simp [ho], fun _ => rfl, fun _ => rfl, rfl, rfl⟩

theorem Op.Frame.of_leases {leases : LeaseDir} (ho : o.touchesLeases = true) :
    o.Frame w { w with leases := leases } :=
  ⟨fun _ => rfl, fun _ => rfl, by simp [ho], fun _ => rfl, rfl, rfl⟩

theorem fileStep_frame (hw : o.Frame w w') (x : Except PyError Unit) {w'' : World}
    (h : w.fileStep a w' = (x, w'')) : o.Frame w w'' := by
  unfold World.fileStep at h
  split_ifs at h
  all_goals
    obtain ⟨-, rfl⟩ := Prod.mk.inj h
    first
      | exact hw
      | exact .refl o w

/-- **What an operation leaves alone.** -/
theorem exec_frame (h : exec m reentrant i runtime w o a = some (r, w')) : o.Frame w w' := by
  cases o with
  | acquire l =>
      obtain ⟨w'', hw, hr⟩ := Option.map_eq_some_iff.mp h
      obtain ⟨-, rfl⟩ := Prod.mk.inj hr
      unfold World.acquire at hw
      split at hw
      · obtain rfl := Option.some.inj hw
        exact .of_held rfl
      · split_ifs at hw
        obtain rfl := Option.some.inj hw
        exact .of_held rfl
  | release l =>
      obtain ⟨-, rfl⟩ := Prod.mk.inj (Option.some.inj h)
      unfold World.release
      split <;> exact .of_held rfl
  | setFlag flag =>
      obtain ⟨-, rfl⟩ := Prod.mk.inj (Option.some.inj h)
      cases flag <;> exact ⟨fun _ => rfl, fun _ => rfl, fun _ => rfl, fun _ => rfl, rfl, rfl⟩
  | runtimeLock name =>
      obtain ⟨-, rfl⟩ := Prod.mk.inj (Option.some.inj h)
      exact ⟨fun _ => rfl, fun _ => rfl, fun _ => rfl, fun _ => rfl, rfl, rfl⟩
  | writeRegistry record =>
      have h : w.writeRecord record a = (r, w') := Option.some.inj h
      unfold World.writeRecord at h
      split at h
      · split at h
        · exact fileStep_frame (.of_registry rfl) r h
        · obtain ⟨-, rfl⟩ := Prod.mk.inj h
          exact .refl _ w
      · obtain ⟨-, rfl⟩ := Prod.mk.inj h
        exact .refl _ w
  | deleteRegistry name => exact fileStep_frame (.of_registry rfl) r (Option.some.inj h)
  | leaseAllocate owner =>
      have h : w.allocate m owner a = (r, w') := Option.some.inj h
      unfold World.allocate at h
      split_ifs at h
      · obtain ⟨-, rfl⟩ := Prod.mk.inj h
        exact .refl _ w
      · split at h
        rename_i result leases _
        cases result with
        | ok address =>
            dsimp only at h
            obtain ⟨-, rfl⟩ := Prod.mk.inj h
            exact .of_leases rfl
        | error e =>
            obtain ⟨-, rfl⟩ := Prod.mk.inj h
            exact .refl _ w
      · split at h
        rename_i result leases _
        cases result with
        | ok address =>
            obtain ⟨-, rfl⟩ := Prod.mk.inj h
            exact .of_leases rfl
        | error e =>
            obtain ⟨-, rfl⟩ := Prod.mk.inj h
            exact .refl _ w
  | leaseRelease address owner =>
      have h : w.releaseLease m address owner a = (r, w') := Option.some.inj h
      unfold World.releaseLease at h
      split_ifs at h
      · obtain ⟨-, rfl⟩ := Prod.mk.inj h
        exact .refl _ w
      all_goals
        obtain ⟨-, rfl⟩ := Prod.mk.inj h
        exact .of_leases rfl
  | leaseClearOrphans active =>
      have h : w.clearOrphans active a = (r, w') := Option.some.inj h
      unfold World.clearOrphans at h
      split_ifs at h
      · obtain ⟨-, rfl⟩ := Prod.mk.inj h
        exact .refl _ w
      all_goals
        obtain ⟨-, rfl⟩ := Prod.mk.inj h
        exact .of_leases rfl
  | run command =>
      obtain ⟨-, rfl⟩ := Prod.mk.inj (Option.some.inj h)
      exact ⟨fun _ => rfl, fun _ => rfl, fun _ => rfl, by simp [Op.touchesHost], rfl, rfl⟩
  | _ =>
      obtain ⟨-, rfl⟩ := Prod.mk.inj (Option.some.inj h)
      exact .refl _ w

/-- What running a command gives. -/
theorem run_eq {command : Command} {r : RunOutcome}
    (he : exec m reentrant i runtime w (.run command) a = some (r, w')) :
    r = (w.host.respond m runtime a.unit a.exit command).1
      ∧ w' = { w with host := (w.host.respond m runtime a.unit a.exit command).2 } := by
  obtain ⟨rfl, rfl⟩ := Prod.mk.inj (Option.some.inj he)
  exact ⟨rfl, rfl⟩

/-- A command times out only if it is made to. -/
theorem timeout_of_respond {h : Host} {unit : ℕ} {exit : Exit} {command : Command}
    (ho : (h.respond m runtime unit exit command).1 = .timeoutExpired) :
    ∃ effect, exit = .timeoutExpired effect := by
  rcases h.respond_cases m runtime unit exit command with ⟨-, heq⟩ | heq
  · rw [heq] at ho
    cases ho
  rw [heq] at ho
  cases exit with
  | timeoutExpired effect => exact ⟨effect, rfl⟩
  | status code stdout effect =>
      cases code with
      | zero =>
          simp only [Host.answer] at ho
          split_ifs at ho
      | succ n => simp [Host.answer] at ho
  | _ => simp [Host.answer] at ho

/-- A command raises something else only if its output is no text, or no program can be started with
its arguments. -/
theorem raises_of_respond {h : Host} {unit : ℕ} {exit : Exit} {command : Command} {e : PyError}
    (ho : (h.respond m runtime unit exit command).1 = .raises e) :
    (∃ effect, exit = .undecodable effect) ∨ command.embedsNull m = true := by
  rcases h.respond_cases m runtime unit exit command with ⟨hnull, -⟩ | heq
  · exact .inr hnull
  rw [heq] at ho
  refine .inl ?_
  cases exit with
  | undecodable effect => exact ⟨effect, rfl⟩
  | status code stdout effect =>
      cases code with
      | zero =>
          simp only [Host.answer] at ho
          split_ifs at ho
      | succ n => simp [Host.answer] at ho
  | _ => simp [Host.answer] at ho

/-! ## What the thread knows -/

namespace Known

@[simp] theorem releasing_holds (l : LockId) : (s.releasing l).holds = s.holds.erase l := by
  unfold releasing
  split_ifs with hempty
  · exact hempty.symm
  · rfl
  · rfl

@[simp] theorem releasing_asked (l : LockId) : (s.releasing l).asked = none := by
  unfold releasing
  split_ifs <;> rfl

/-- A thread in a slow section after giving back a lock was in it before, and still holds one. -/
theorem releasing_slow {l : LockId} (h : (s.releasing l).slow = true) :
    s.holds.erase l ≠ [] ∧ l ≠ .shared ∧ s.slow = true := by
  by_cases hempty : s.holds.erase l = []
  · simp [releasing, hempty] at h
  · have hslow : (s.slow && decide (l ≠ .shared)) = true := by
      unfold releasing at h
      split_ifs at h <;> exact h
    rw [Bool.and_eq_true, decide_eq_true_eq] at hslow
    exact ⟨hempty, hslow.2, hslow.1⟩

/-- What is known about a runtime after giving back a lock was known before, and the lock of a
runtime that was held still is. -/
theorem releasing_kept {l : LockId}
    (h : (s.releasing l).record ≠ none ∨ (s.releasing l).lease ≠ none
      ∨ (s.releasing l).epair ≠ none ∨ (s.releasing l).md ≠ none) :
    s.releasing l = s.leaving l ∧ ∀ name, .runtime name ∈ s.holds →
      .runtime name ∈ s.holds.erase l := by
  unfold releasing at h ⊢
  split_ifs at h ⊢ with hempty hkept
  · simp at h
  · refine ⟨rfl, fun name hmem => ?_⟩
    by_cases heq : .runtime name = l
    · rcases hkept with hshared | hkept
      · rw [hshared] at heq
        simp at heq
      · rwa [heq]
    · exact (List.mem_erase_of_ne heq).mpr hmem
  · simp at h

theorem learn_holds (ho : o.touchesLocks = false) : (s.learn o r).holds = s.holds := by
  unfold learn
  split <;> simp_all [Op.touchesLocks]
  all_goals split <;> rfl

theorem learn_asked (ho : o.steersLocks = false) : (s.learn o r).asked = s.asked := by
  unfold learn
  split <;> simp_all [Op.steersLocks]
  all_goals split <;> rfl

theorem learn_slow (ho : o.steersLocks = false) : (s.learn o r).slow = s.slow := by
  unfold learn
  split <;> simp_all [Op.steersLocks]
  all_goals split <;> rfl

theorem learn_forgetting (ho : o.marksForgetting = false) :
    (s.learn o r).forgetting = s.forgetting := by
  unfold learn
  split <;> simp_all [Op.marksForgetting]
  all_goals split <;> rfl

theorem learn_lease (ho : o.teachesLease = false) : (s.learn o r).lease = s.lease := by
  unfold learn
  split <;> simp_all [Op.teachesLease]
  split <;> rfl

theorem learn_units (ho : o.teachesUnits = false) :
    (s.learn o r).epair = s.epair ∧ (s.learn o r).md = s.md := by
  unfold learn
  split <;> simp_all [Op.teachesUnits]
  all_goals split <;> exact ⟨rfl, rfl⟩

theorem learn_record (ho : o.teachesRecord = false) : (s.learn o r).record = s.record := by
  unfold learn
  split <;> simp_all [Op.teachesRecord]
  split <;> rfl

end Known

end FreebsdLaboratory
