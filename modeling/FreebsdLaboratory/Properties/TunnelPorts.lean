import FreebsdLaboratory.Tunnels.Vacancy

/-!
# Tunnel ports of live processes

Whatever callers do and whichever processes start and end, no port belongs to two reservations of
live processes.  Sockets play no part in it: the environment says whether a port can be bound, so
the time between `release_reservations` and the bind of OpenSSH is covered.  And a lease whose
process has ended is in nobody's way.
-/

namespace FreebsdLaboratory

open Library Library.Unicode

/-- Processes and a directory, before any call. -/
structure LeaseWorld.Started (w : LeaseWorld) : Prop where
  distinct : ∀ p ∈ w.processes, ∀ q ∈ w.processes, p.pid = q.pid → p = q
  credible : ∀ p ∈ w.processes, p.Plausible
  departed : w.departed = []
  locked : w.locked = none
  held : w.held = []

variable {w : LeaseWorld} {p : leases.Pool}

lemma LeaseWorld.Started.leaseInv (hw : w.Started) : LeaseInv w [] := by
  have hnone : claims w.held [] = [] := by simp [claims, heldClaims, hw.held]
  refine ⟨hw.distinct, hw.credible, by simp [hw.departed], ?_, by simp, by simp⟩
  rw [hnone]
  exact ⟨by simp, by simp, by simp, List.nodup_nil, by simp⟩

/-- **The run lemma.** -/
theorem leaseInv_of_reaches (hw : w.Started) (h : Machine.Reaches PsAnswers ⟨w, []⟩ p) :
    LeaseInv p.world p.views := by
  have hstart : Machine.Pool.Sound (M := leases) (fun _ => True) LeaseInv ⟨w, []⟩ :=
    ⟨hw.leaseInv, by simp⟩
  exact (h.sound leaseInv_preserves callers_sound hstart).holds

def holder : Process := ⟨100, 1001, "Mon Nov 17 10:00:00 2026"⟩

end FreebsdLaboratory
