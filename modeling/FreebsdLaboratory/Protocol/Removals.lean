import FreebsdLaboratory.Protocol.Datasets

/-!
# Which command removes what

A jail, a VM, a dataset, an epair or a memory disk that is there before a command and not after it
was removed by a command of one kind, about that very object.  Nothing the host decides (a failure,
a timeout, a false status) makes another command remove it.
-/

namespace FreebsdLaboratory

open Library

variable {m : RuntimeManager} {h h' : Host} {runtime name d : String} {unit n : ℕ} {exit : Exit}
variable {c : Command} {outcome : RunOutcome}

/-- A command leaves the host as it was, or does what it does when it works. -/
theorem respond_host (he : h.respond m runtime unit exit c = (outcome, h')) :
    h' = h ∨ h' = (h.perform m runtime unit c).2.2 := by
  rcases h.respond_cases m runtime unit exit c with ⟨-, heq⟩ | heq
  · exact .inl (Prod.mk.inj (heq.symm.trans he)).2.symm
  rw [heq] at he
  unfold Host.answer at he
  generalize h.perform m runtime unit c = result at he ⊢
  obtain ⟨code, out, h''⟩ := result
  cases exit with
  | truthful => exact .inr (Prod.mk.inj he).2.symm
  | cannotExecute => exact .inl (Prod.mk.inj he).2.symm
  | timeoutExpired effect | undecodable effect =>
      cases effect
      · exact .inl (Prod.mk.inj he).2.symm
      · exact .inr (Prod.mk.inj he).2.symm
  | status code' stdout effect =>
      cases code' with
      | succ k =>
          cases effect
          · exact .inl (Prod.mk.inj he).2.symm
          · exact .inr (Prod.mk.inj he).2.symm
      | zero =>
          simp only at he
          split_ifs at he
          all_goals
            first
              | exact .inl (Prod.mk.inj he).2.symm
              | exact .inr (Prod.mk.inj he).2.symm

/-- What holds before a command and is not undone when it works, holds after it. -/
theorem holds_after_respond (P : Host → Prop) (hold : P h)
    (hperform : P (h.perform m runtime unit c).2.2) :
    P (h.respond m runtime unit exit c).2 := by
  rcases respond_host (Prod.mk.eta.symm : h.respond m runtime unit exit c = _) with heq | heq
  · rwa [heq]
  · rwa [heq]

theorem perform_jails (hold : name ∈ h.jails) (hc : c ≠ .jailRemove name) :
    name ∈ (h.perform m runtime unit c).2.2.jails := by
  cases c with
  | jailRemove name' =>
      have hne : name ≠ name' := fun heq => hc (by rw [heq])
      simp only [Host.perform, Host.doIf]
      split_ifs
      · simp [hold, hne]
      · exact hold
  | _ =>
      simp only [Host.perform, Host.doIf, Host.withDataset, Host.withoutDatasets]
      repeat' split
      all_goals first
        | exact hold
        | exact List.mem_insert_of_mem hold

theorem perform_vms (hold : name ∈ h.vms) (hc : c ≠ .vmDestroy name) :
    name ∈ (h.perform m runtime unit c).2.2.vms := by
  cases c with
  | vmDestroy name' =>
      have hne : name ≠ name' := fun heq => hc (by rw [heq])
      simp only [Host.perform, Host.doIf]
      split_ifs
      · simp [hold, hne]
      · exact hold
  | _ =>
      simp only [Host.perform, Host.doIf, Host.withDataset, Host.withoutDatasets]
      repeat' split
      all_goals first
        | exact hold
        | exact List.mem_insert_of_mem hold

/-- The root from which a command destroys datasets. -/
def Command.destroysBelow (m : RuntimeManager) : Command → Option String
  | .zfsDestroy p | .zfsDestroyRecursive p => some p
  | .vmDestroy name => some (m.vmDataset name)
  | _ => none

theorem perform_datasets (hold : d ∈ h.datasets)
    (hc : ∀ root, c.destroysBelow m = some root → Text.isBelow root d = false) :
    d ∈ (h.perform m runtime unit c).2.2.datasets := by
  cases c
  case zfsDestroy p =>
      simp only [Host.perform, Host.doIf, Host.withoutDatasets]
      split_ifs
      · simp [hold, hc p rfl]
      · exact hold
  case zfsDestroyRecursive p =>
      simp only [Host.perform, Host.doIf, Host.withoutDatasets]
      split_ifs
      · simp [hold, hc p rfl]
      · exact hold
  case vmDestroy name =>
      simp only [Host.perform, Host.doIf, Host.withoutDatasets]
      split_ifs
      · simp [hold, hc _ rfl]
      · exact hold
  all_goals
    simp only [Host.perform, Host.doIf, Host.withDataset]
    repeat' split
    all_goals first
      | exact hold
      | exact List.mem_insert_of_mem hold
      | exact List.mem_insert_of_mem (List.mem_insert_of_mem hold)

theorem epairNumber_eq_some {interface : String} (h : epairNumber interface = some n) :
    interface = epairHost n := by
  unfold epairNumber at h
  split at h
  · dsimp only at h
    split_ifs at h with heq
    obtain rfl := Option.some.inj h
    exact heq
  · simp at h

theorem perform_epairs (hold : n ∈ h.epairs) (hc : c ≠ .ifconfigDestroy (epairHost n)) :
    n ∈ (h.perform m runtime unit c).2.2.epairs := by
  cases c with
  | ifconfigDestroy interface =>
      simp only [Host.perform, Host.doIf]
      split
      · rename_i k hk
        obtain rfl := epairNumber_eq_some hk
        have hne : n ≠ k := fun heq => hc (by rw [heq])
        split_ifs
        · exact AList.mem_erase.mpr ⟨hne, hold⟩
        · exact hold
      · exact hold
  | _ =>
      simp only [Host.perform, Host.doIf, Host.withDataset, Host.withoutDatasets]
      repeat' split
      all_goals first
        | exact hold
        | exact (AList.mem_insert _).mpr (.inr hold)

theorem perform_mds (hold : n ∈ h.mds)
    (hc : ∀ number, c = .mdconfigDetach number → mdNumber number ≠ some n) :
    n ∈ (h.perform m runtime unit c).2.2.mds := by
  cases c with
  | mdconfigDetach number =>
      simp only [Host.perform, Host.doIf]
      split
      · rename_i k hk
        have hne : n ≠ k := fun heq => hc number rfl (by rw [hk, heq])
        split_ifs
        · exact AList.mem_erase.mpr ⟨hne, hold⟩
        · exact hold
      · exact hold
  | _ =>
      simp only [Host.perform, Host.doIf, Host.withDataset, Host.withoutDatasets]
      repeat' split
      all_goals first
        | exact hold
        | exact (AList.mem_insert _).mpr (.inr hold)

/-! ## One step of the daemon -/

section Step

variable {reentrant : Bool} {i : ℕ} {w w' : World} {o : Op} {a : Answer} {r : o.Resp}

/-- A step that changes the host runs a command. -/
theorem run_of_host_ne (he : exec m reentrant i runtime w o a = some (r, w'))
    (hne : w'.host ≠ w.host) :
    ∃ command, o = .run command ∧ w'.host = (w.host.respond m runtime a.unit a.exit command).2 := by
  cases htouch : o.touchesHost with
  | false => exact absurd ((exec_frame he).host htouch) hne
  | true =>
      cases o with
      | run command =>
          obtain ⟨-, rfl⟩ := Prod.mk.inj (Option.some.inj he)
          exact ⟨command, rfl, rfl⟩
      | _ => simp [Op.touchesHost] at htouch

theorem step_loses_jail (he : exec m reentrant i runtime w o a = some (r, w'))
    (hold : name ∈ w.host.jails) (hnew : name ∉ w'.host.jails) : o = .run (.jailRemove name) := by
  obtain ⟨command, rfl, hhost⟩ := run_of_host_ne he fun heq => hnew (heq ▸ hold)
  by_contra hne
  rw [hhost] at hnew
  refine hnew (holds_after_respond (name ∈ ·.jails) hold (perform_jails hold fun heq => hne ?_))
  rw [heq]

theorem step_loses_vm (he : exec m reentrant i runtime w o a = some (r, w'))
    (hold : name ∈ w.host.vms) (hnew : name ∉ w'.host.vms) : o = .run (.vmDestroy name) := by
  obtain ⟨command, rfl, hhost⟩ := run_of_host_ne he fun heq => hnew (heq ▸ hold)
  by_contra hne
  rw [hhost] at hnew
  refine hnew (holds_after_respond (name ∈ ·.vms) hold (perform_vms hold fun heq => hne ?_))
  rw [heq]

theorem step_loses_dataset (he : exec m reentrant i runtime w o a = some (r, w'))
    (hold : d ∈ w.host.datasets) (hnew : d ∉ w'.host.datasets) :
    ∃ command root, o = .run command ∧ command.destroysBelow m = some root
      ∧ Text.isBelow root d = true := by
  obtain ⟨command, rfl, hhost⟩ := run_of_host_ne he fun heq => hnew (heq ▸ hold)
  by_contra hne
  rw [hhost] at hnew
  refine hnew (holds_after_respond (d ∈ ·.datasets) hold (perform_datasets hold ?_))
  intro root hroot
  by_contra hbelow
  exact hne ⟨command, root, rfl, hroot, by simpa using hbelow⟩

theorem step_loses_epair (he : exec m reentrant i runtime w o a = some (r, w'))
    (hold : n ∈ w.host.epairs) (hnew : n ∉ w'.host.epairs) :
    o = .run (.ifconfigDestroy (epairHost n)) := by
  obtain ⟨command, rfl, hhost⟩ := run_of_host_ne he fun heq => hnew (heq ▸ hold)
  by_contra hne
  rw [hhost] at hnew
  refine hnew (holds_after_respond (n ∈ ·.epairs) hold (perform_epairs hold fun heq => hne ?_))
  rw [heq]

theorem step_loses_md (he : exec m reentrant i runtime w o a = some (r, w'))
    (hold : n ∈ w.host.mds) (hnew : n ∉ w'.host.mds) :
    ∃ number, o = .run (.mdconfigDetach number) ∧ mdNumber number = some n := by
  obtain ⟨command, rfl, hhost⟩ := run_of_host_ne he fun heq => hnew (heq ▸ hold)
  by_contra hne
  rw [hhost] at hnew
  refine hnew (holds_after_respond (n ∈ ·.mds) hold (perform_mds hold fun number heq hn => ?_))
  exact hne ⟨number, by rw [heq], hn⟩

end Step

end FreebsdLaboratory
