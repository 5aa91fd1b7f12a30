import FreebsdLaboratory.Model.RuntimeClient
import FreebsdLaboratory.Protocol.Removals

/-!
# Who may change what

Every thread of the daemon, whatever the others do, destroys or overwrites what is registered under
a name only for the registered owner or for root, and every record carries the credentials of the
peer whose create request wrote it.

The argument has two halves.  A thread changes the entry, the jail, the VM or a dataset of a runtime
only while it holds the runtime's lock and has read the entry (`Known.Working`, `PermitsWrite`); and
what it has read is still what the registry holds (`RecordsKnown`).
-/

namespace FreebsdLaboratory

open Library

variable {m : RuntimeManager} {reentrant : Bool} {i : ℕ} {runtime name : String} {w w₀ w' : World}
variable {o : Op} {a : Answer} {c : Connection} {s : Known} {vs : List (Connection × Known)}

/-- The record names this peer as its owner. -/
def RuntimeRecord.Carries (r : RuntimeRecord) (peer : PeerCredentials) : Prop :=
  r.ownerPid = .int peer.pid ∧ r.ownerUid = .int peer.uid ∧ r.ownerGid = .int peer.gid

theorem Connection.Wrote.carries {r : RuntimeRecord} (h : c.Wrote m name r) : r.Carries c.peer :=
  ⟨h.ownerPid, h.ownerUid, h.ownerGid⟩

/-- The jail, the VM or a part of the jail dataset of the runtime is there before and not after. -/
def Destroys (m : RuntimeManager) (name : String) (w w' : World) : Prop :=
  (name ∈ w.host.jails ∧ name ∉ w'.host.jails) ∨ (name ∈ w.host.vms ∧ name ∉ w'.host.vms)
    ∨ ∃ d, Text.isBelow (m.jailDataset name) d = true ∧ d ∈ w.host.datasets ∧ d ∉ w'.host.datasets

/-! ## Authority -/

/-- Who works on a runtime has authority over what is registered for it. -/
theorem authority_of_working {x : Option RuntimeRecord} {r : RuntimeRecord} {u : ℤ}
    (hcoherent : Coherent w vs) (hi : vs[i]? = some (c, s)) (h : s.Working c name x)
    (hr : w.load name = .ok (some r)) (hu : r.ownerUid = .int u) :
    c.peer.uid = 0 ∨ (c.peer.uid : ℤ) = u := by
  obtain rfl : some r = x := by simpa [hr] using hcoherent.load_of_knows hi h.knows
  rcases h.mayDestroy with hroot | howner
  · exact .inl hroot
  · exact .inr (by simpa [hu] using howner.symm)

/-- So has the create request that wrote it. -/
theorem authority_of_wrote {r₀ r : RuntimeRecord} {u : ℤ} (hcoherent : Coherent w vs)
    (hi : vs[i]? = some (c, s)) (hknows : s.Knows name (some r₀)) (hwrote : c.Wrote m name r₀)
    (hr : w.load name = .ok (some r)) (hu : r.ownerUid = .int u) : (c.peer.uid : ℤ) = u := by
  obtain rfl : r = r₀ := by simpa [hr] using hcoherent.load_of_knows hi hknows
  simpa [hu] using hwrote.ownerUid.symm

/-- Writing or deleting an entry takes authority over it. -/
theorem authority_of_entry {r : RuntimeRecord} {u : ℤ} (hcoherent : Coherent w vs)
    (hi : vs[i]? = some (c, s)) (hp : Permits m c s o) (hentry : o.entry = some name)
    (hr : w.load name = .ok (some r)) (hu : r.ownerUid = .int u) :
    c.peer.uid = 0 ∨ (c.peer.uid : ℤ) = u := by
  cases o with
  | writeRegistry y =>
      obtain ⟨name', -, -, hwrote, -, hknows⟩ := hp
      obtain rfl : name' = name := by simpa [Op.entry, hwrote.named, RecordValue.asStr] using hentry
      rcases hknows with ⟨hnone, -⟩ | ⟨r₀, hknows, hwrote₀, -⟩
      · have := hcoherent.load_of_knows hi hnone
        simp [hr] at this
      · exact .inr (authority_of_wrote hcoherent hi hknows hwrote₀ hr hu)
  | deleteRegistry name' =>
      obtain ⟨x, hwork⟩ := hp
      obtain rfl : name' = name := by simpa [Op.entry] using hentry
      exact authority_of_working hcoherent hi hwork hr hu
  | _ => simp [Op.entry] at hentry

/-- Destroying a part of a runtime takes authority over what is registered for it. -/
theorem authority_of_destroys {r : RuntimeRecord} {u : ℤ} {x : o.Resp} (hcoherent : Coherent w vs)
    (hwritten : RecordsWritten m w₀ w vs) (hi : vs[i]? = some (c, s)) (hp : Permits m c s o)
    (he : exec m reentrant i runtime w o a = some (x, w')) (hdestroys : Destroys m name w w')
    (hr : w.load name = .ok (some r)) (hu : r.ownerUid = .int u) :
    c.peer.uid = 0 ∨ (c.peer.uid : ℤ) = u := by
  have hname := (hwritten name r hr).1
  rcases hdestroys with ⟨hold, hnew⟩ | ⟨hold, hnew⟩ | ⟨d, hbelow, hold, hnew⟩
  · obtain rfl := step_loses_jail he hold hnew
    obtain ⟨y, hwork⟩ := hp
    exact authority_of_working hcoherent hi hwork hr hu
  · obtain rfl := step_loses_vm he hold hnew
    obtain ⟨y, hwork⟩ := hp
    exact authority_of_working hcoherent hi hwork hr hu
  · obtain ⟨command, root, rfl, hroot, hd⟩ := step_loses_dataset he hold hnew
    have howns : m.Owns name d := .inl hbelow
    cases command <;> simp only [Command.destroysBelow, Option.some.injEq, reduceCtorEq] at hroot
    case zfsDestroy p =>
        subst hroot
        obtain ⟨name', r₀, -, hname', hknows, hwrote, rfl⟩ := hp
        obtain rfl := howns.unique hname hname' (owns_of_below_vmDataset isBelow_disk0 hd)
        exact .inr (authority_of_wrote hcoherent hi hknows hwrote hr hu)
    case zfsDestroyRecursive p =>
        subst hroot
        obtain ⟨name', ⟨y, hwork, hp⟩ | ⟨-, hname', rfl⟩⟩ := hp
        · have howns' : m.Owns name' d := by
            rcases hp with rfl | ⟨r₀, rfl, hdataset⟩
            · exact .inl hd
            · obtain ⟨-, c', hwrote, -⟩ :=
                hwritten name' r₀ (hcoherent.load_of_knows hi hwork.knows)
              exact hwrote.owns_of_dataset hdataset hd
          obtain rfl := howns.unique hname hwork.named howns'
          exact authority_of_working hcoherent hi hwork hr hu
        · exact absurd howns (not_owns_of_src hname hname' hd)
    case vmDestroy name' =>
        subst hroot
        obtain ⟨y, hwork⟩ := hp
        obtain rfl := howns.unique hname hwork.named (.inr hd)
        exact authority_of_working hcoherent hi hwork hr hu

/-- Every record carries the credentials of the peer whose create request wrote it: of a thread of
the pool, or of a peer of an earlier daemon. -/
def RecordsCarryPeers (w₀ : World) (p : Pool m reentrant) : Prop :=
  ∀ name r, World.load p.world name = .ok (some r) → ∃ c : Connection, r.Carries c.peer
    ∧ (w₀.load name = .ok (some r) ∨ c ∈ p.threads.map (·.context) ∧ c.Creates name)

/-- A step that writes or deletes the entry of a runtime, or destroys its jail, VM or jail dataset,
belongs to a request of root or of the uid the record names; a record that is new after a step
carries the credentials of the peer of the create request the step belongs to. -/
def StepsAreAuthorized (p : Pool m reentrant) : Prop :=
  ∀ i a p' t o, p.next (.step i a) = some p' → p.threads[i]? = some t → t.pending = some o →
    (∀ name r u, World.load p.world name = .ok (some r) → r.ownerUid = .int u →
      (o.entry = some name ∨ Destroys m name p.world p'.world) →
        t.context.peer.uid = 0 ∨ (t.context.peer.uid : ℤ) = u) ∧
    ∀ name r, World.load p'.world name = .ok (some r) →
      World.load p.world name ≠ .ok (some r) →
        Connection.Creates t.context name ∧ r.Carries t.context.peer

/-- **Only root and the owner change what is registered, and every record names the peer that
registered it**, in every pool the daemon reaches from its start, whatever its threads, the
commands and the peers do. -/
theorem requests_are_authorized (m : RuntimeManager) (reentrant : Bool) {w₀ : World}
    (hw₀ : w₀.Started m) {p : Pool m reentrant}
    (hp : Machine.Reaches (fun _ _ => True) ⟨w₀, []⟩ p) :
    RecordsCarryPeers w₀ p ∧ StepsAreAuthorized p := by
  have hsound := sound_of_reaches
    ((coherent_preserved m reentrant _).and (recordsWritten_preserved m reentrant w₀ _))
    ⟨hw₀.coherent, hw₀.recordsWritten⟩ (reaches_whenStep_true hp)
  obtain ⟨hcoherent, hwritten⟩ := hsound.holds
  constructor
  · intro name r hr
    obtain ⟨-, c, hwrote, hfrom⟩ := hwritten name r hr
    refine ⟨c, hwrote.carries, hfrom.imp_right fun ⟨hmem, hcreates⟩ => ⟨?_, hcreates⟩⟩
    obtain ⟨v, hv, rfl⟩ := List.mem_map.mp hmem
    obtain ⟨t, ht, rfl⟩ := List.mem_map.mp hv
    exact List.mem_map.mpr ⟨t, ht, rfl⟩
  · intro i a p' t o hnext ht ho
    obtain ⟨t', o', k, x, w, ht', hrest, he, rfl⟩ := Machine.Pool.next_step hnext
    obtain rfl : t' = t := by simpa [ht] using ht'.symm
    obtain rfl : o' = o := by simpa [Machine.Thread.pending, hrest] using ho
    have hperm : Permits m t'.context t'.known o' := hsound.permits ht ho
    have hi := views_getElem? ht
    refine ⟨fun name r u hr hu => ?_, fun name r hr hnew => ?_⟩
    · rintro (hentry | hdestroys)
      · exact authority_of_entry hcoherent hi hperm hentry hr hu
      · exact authority_of_destroys hcoherent hwritten hi hperm he hdestroys hr hu
    · obtain ⟨-, hcreating, -, hwrote, -⟩ := write_of_new_record hperm he hr hnew
      exact ⟨hcreating.creates, hwrote.carries⟩

/-- A create request that runs to its end, next to a destroy request of another user. -/
theorem requests_are_authorized_of_create : ∃ p : Pool .standard false,
    (⟨sampleWorld, []⟩ : Pool .standard false).run
        (.arrive (fromJupyter (RuntimeClient.createJail "freebsd-lab-a" 100 sampleKey))
          :: turns 0 41 { path := "/usr/local/jails/containers/freebsd-lab-a" }
          ++ [.arrive ⟨⟨200, 1002, 1002⟩, RuntimeClient.destroy "freebsd-lab-a"⟩]) = some p ∧
      RecordsCarryPeers sampleWorld p ∧ StepsAreAuthorized p := by
  have hrun : ((⟨sampleWorld, []⟩ : Pool .standard false).run
      (.arrive (fromJupyter (RuntimeClient.createJail "freebsd-lab-a" 100 sampleKey))
        :: turns 0 41 { path := "/usr/local/jails/containers/freebsd-lab-a" }
        ++ [.arrive ⟨⟨200, 1002, 1002⟩, RuntimeClient.destroy "freebsd-lab-a"⟩])).isSome
          = true := by
    decide +kernel
  obtain ⟨p, hp⟩ := Option.isSome_iff_exists.mp hrun
  exact ⟨p, hp, requests_are_authorized .standard false (.of_empty rfl rfl)
    (Machine.reaches_of_free_run _ hp)⟩

end FreebsdLaboratory
