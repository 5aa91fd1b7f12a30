import FreebsdLaboratory.Lifecycle.Resources
import FreebsdLaboratory.Protocol.Removals

/-!
# What a destroy leaves behind

`destroy` returns once its final probes have found nothing.  A probe that cannot be executed finds
nothing either: exactly such a probe lets `destroy` return, and delete the record, while a resource
is still there (`returns_gone_iff`).
-/

namespace FreebsdLaboratory

open Library Program

variable {m : RuntimeManager} {reentrant : Bool} {runtime name : String} {record : RuntimeRecord}
variable {w w' : World} {s : Alone} {o : Op} {a : Answer} {r : o.Resp} {h : Host} {P : Op → Prop}
variable {looked : List Resource}

/-! ## Behind the probes -/

/-- The operations behind the final probes. -/
def Op.isClosing : Op → Bool
  | .leaseRelease _ _ | .run (.arpDelete _) | .deleteRegistry _ | .release _ => true
  | _ => false

lemma host_of_closing (ho : o.isClosing = true)
    (hexec : exec m reentrant 0 runtime w o a = some (r, w')) : w'.host = w.host := by
  cases o with
  | run command =>
      cases command with
      | arpDelete address =>
          obtain ⟨-, rfl⟩ := run_eq hexec
          rcases respond_host (Prod.mk.eta.symm :
            w.host.respond m runtime a.unit a.exit (.arpDelete address) = _) with heq | heq
          · exact heq
          · exact heq
      | _ => cases ho
  | _ => exact (exec_frame hexec).host rfl

lemma overlooked_of_closing (ho : o.isClosing = true) (x : Resource) :
    Overlooked (⟨w, o, a, r⟩ :: s.past) x ↔ Overlooked s.past x := by
  have hsought : ¬ x.soughtBy ⟨w, o, a, r⟩ = true := by
    intro hsought
    rcases soughtBy_spec hsought with rfl | ⟨command, rfl, hprobe⟩
    · cases ho
    · cases command <;> first | cases ho; done | cases hprobe
  rw [overlooked_cons, if_neg hsought]

/-- What is behind the final probes changes nothing about what they have found. -/
lemma Looked.closing (hs : Looked h looked s) (ho : o.isClosing = true)
    (hexec : exec m reentrant 0 runtime s.world o a = some (r, w')) :
    Looked h looked ⟨w', ⟨s.world, o, a, r⟩ :: s.past⟩ :=
  ⟨(host_of_closing ho hexec).trans hs.host, fun x hx =>
    (hs.found x hx).trans (overlooked_of_closing ho x).symm⟩

/-! ## A destroy that returns -/

lemma forget_looked (hs : Looked h looked s) :
    (forget name record).Obeys (alone m reentrant runtime honest) (fun _ => Looked h looked)
      (fun _ _ => True) s := by
  have hperforms : (forget name record).Performs fun o => o.isClosing = true :=
    performs_forget (fun _ _ => rfl) (fun _ _ => rfl) rfl
  exact (performs_keeps hperforms (fun _ _ _ _ _ ho hs hexec => hs.closing ho hexec) hs).mono
    (fun _ _ h => h) fun _ _ _ => trivial

/-- When `destroy` has returned, what is still there has been overlooked. -/
lemma destroyRecord_looked :
    (destroyRecord m name record).Obeys (alone m reentrant runtime honest)
      (fun _ s => Looked s.world.host (record.resources m name) s) (fun _ _ => True) s := by
  have htrue : ∀ (e : PyError) (s : Alone), True := fun _ _ => trivial
  refine Prog.obeys_bind.mpr ?_
  refine Solo.obeys_after htrue fun vm s => Solo.obeys_after htrue fun md s => ?_
  refine Solo.obeys_after htrue fun recorded s => Solo.obeys_after htrue fun jail s => ?_
  refine Solo.obeys_after htrue fun epair s => Solo.obeys_after htrue fun dataset s => ?_
  refine Prog.obeys_bind.mpr
    ((remaining_looked rfl).mono (fun remaining s' hs' => ?_) fun _ _ h => h)
  refine Prog.obeys_bind.mpr (obeys_when.mpr ⟨fun _ => trivial, fun hremaining => ?_⟩)
  refine Prog.obeys_bind.mpr
    ((forget_looked (hs' (not_not.mp hremaining))).mono (fun _ s₁ hs₁ => ?_)
    fun _ _ h => h)
  exact ⟨rfl, hs₁.host ▸ hs₁.found⟩

/-- None of the resources is there. -/
def Gone (resources : List Resource) (s : Alone) : Prop := ∀ x ∈ resources, ¬ x.Exists s.world.host

/-- **A `destroy` that returns leaves nothing of the runtime on the host if and only if** no
resource that was there has been overlooked: for each one, the last look for it could be carried
out. -/
theorem returns_gone_iff (m : RuntimeManager) (reentrant : Bool) (runtime name : String) (w : World)
    (requesterUid : Option ℕ) (force : Bool) :
    (destroy m name requesterUid force).Obeys (alone m reentrant runtime honest)
      (fun _ s => Gone ((w.recordOf name).resources m name) s
        ↔ ∀ x ∈ (w.recordOf name).resources m name, ¬ Overlooked s.past x)
      (fun _ _ => True) w.alone := by
  refine destroy_alone ?_ (fun _ _ _ _ _ _ _ _ => trivial) (fun _ _ _ => trivial) fun s hs _ => ?_
  · intro _ s lock a r w' hexec hQ
    have hhost : w'.host = s.world.host := host_of_closing (o := .release lock) rfl hexec
    simp only [Gone, hhost, overlooked_of_closing (o := .release lock) rfl]
    exact hQ
  · exact destroyRecord_looked.mono
      (fun _ s hs => forall₂_congr fun x hx => not_congr (hs.found x hx)) fun _ _ h => h

/-- A jail that is registered and runs. -/
def oneJail : World :=
  { ({} : World).storeRecord "freebsd-lab-a"
      { name := .str "freebsd-lab-a", type := .str "jail" } with
    host := { jails := ["freebsd-lab-a"] } }

/-- The answers where neither `jail` nor `jls` can be executed. -/
def withoutJailTools : List Answer :=
  let done : Answer := {}
  let cannotExecute : Answer := { exit := .cannotExecute }
  -- the locks, the record and `vm`; five times `jail -r`; the dataset and `vm`; `jls`; the dataset,
  -- the record and the lock
  List.replicate 4 done ++ List.replicate 5 cannotExecute ++ [done, done, cannotExecute]
    ++ List.replicate 3 done

set_option maxRecDepth 10000 in
/-- `destroy` returns, and the jail still runs. -/
theorem unseen_jail_not_gone : ¬ (destroy .standard "freebsd-lab-a" none true).Obeys
    (alone .standard false "freebsd-lab-a" honest)
    (fun _ s => Gone ((oneJail.recordOf "freebsd-lab-a").resources .standard "freebsd-lab-a") s)
    (fun _ _ => True) oneJail.alone := by
  intro h
  have hrun : ∃ result s, Solo.follow (exec .standard false 0 "freebsd-lab-a") honest
    withoutJailTools
      (destroy .standard "freebsd-lab-a" none true) oneJail.alone = some (.ret result, s) ∧
      s.world.host.jails = ["freebsd-lab-a"] :=
    ⟨_, _, rfl, rfl⟩
  obtain ⟨result, s, hfollow, hjails⟩ := hrun
  have hgone : Gone _ s := Solo.obeys_of_follow h hfollow
  refine hgone (.jail "freebsd-lab-a") (by simp [RuntimeRecord.resources]) ?_
  simp [Resource.Exists, hjails]

/-! ## A destroy that raises -/

/-- What `release` finds under the address is removed: a symbolic link, or a lease of this owner
that can be read and unlinked. -/
def IPv4LeasePool.Removable (pool : IPv4LeasePool) (unreadable stuck : List String) (dir : LeaseDir)
    (address owner : String) : Prop :=
  owner ≠ "" ∧ ∃ b, IPv4Address.parse address = some b ∧ pool.network.contains b = true ∧
    pool.InRange b ∧ (dir.lookup (leaseName b) = some .symlink ∨
      ∃ text, dir.lookup (leaseName b) = some (.owner text) ∧ leaseName b ∉ unreadable ∧
        Text.strip text = owner ∧ leaseName b ∉ stuck)

lemma erase_ne_of_lookup {dir : LeaseDir} {file : String} {x : LeaseFile}
    (hfile : dir.lookup file = some x) : dir.erase file ≠ dir := by
  intro heq
  have hnone : (dir.erase file).lookup file = none := by simp
  rw [heq, hfile] at hnone
  cases hnone

lemma release_unchanged_iff {pool : IPv4LeasePool} {unreadable stuck : List String} {dir : LeaseDir}
    {address owner : String} : (pool.release unreadable stuck dir address owner).2 = dir
      ↔ ¬ pool.Removable unreadable stuck dir address owner := by
  unfold IPv4LeasePool.release IPv4LeasePool.Removable
  by_cases howner : owner = ""
  · simp [howner]
  rw [if_neg howner]
  cases IPv4Address.parse address with
  | none => simp
  | some b =>
      dsimp only
      by_cases hout : pool.network.contains b = false ∨ ¬ pool.InRange b
      · rw [if_pos hout]
        simp only [true_iff]
        rintro ⟨-, b', hb', hcontains, hrange, -⟩
        obtain rfl := Option.some.inj hb'
        rcases hout with hout | hout
        · simp [hcontains] at hout
        · exact hout hrange
      · rw [if_neg hout]
        have hin : pool.network.contains b = true ∧ pool.InRange b := by simpa using hout
        cases hfile : dir.lookup (leaseName b) with
        | none => simp [hfile]
        | some file =>
            cases file with
            | symlink => simp [hfile, howner, hin, erase_ne_of_lookup hfile]
            | undecodable =>
                dsimp only
                split_ifs <;> simp [hfile]
            | owner text =>
                dsimp only
                have hkept := erase_ne_of_lookup hfile
                split_ifs with hskip hstuck
                · have hother : leaseName b ∉ unreadable → Text.strip text ≠ owner := by tauto
                  simp only [true_iff]
                  rintro ⟨-, b', hb', -, -, hlink | ⟨text', htext', hreadable, hsame, -⟩⟩
                  · obtain rfl := Option.some.inj hb'
                    simp [hfile] at hlink
                  · obtain rfl := Option.some.inj hb'
                    obtain rfl : text = text' := by simpa [hfile] using htext'
                    exact hother hreadable hsame
                · simp [hfile, hstuck]
                · simp_all

/-- The step is a release that removes something, where these are the leases. -/
def Releases (m : RuntimeManager) (dir : LeaseDir) (st : Taken) : Prop :=
  ∃ address owner, st.op = .leaseRelease address owner ∧ st.choice.fails = false
    ∧ m.pool.Removable st.choice.unreadable st.choice.stuck dir address owner

/-- A file operation that raises has had no effect; commands end in any way. -/
def wholeOrNothing : Op → Answer → Bool
  | .leaseRelease _ _, a | .deleteRegistry _, a => !(a.fails && a.effect)
  | _, _ => true

/-- The record and the lease are as they were, unless the lease has been released. -/
structure Kept (m : RuntimeManager) (w : World) (s : Alone) : Prop where
  registry : s.world.registry = w.registry
  leases : s.world.leases = w.leases ↔ ∀ st ∈ s.past, ¬ Releases m w.leases st

lemma kept_step (hs : Kept m w s) (ho : o.touchesRegistry = false ∧ o.touchesLeases = false)
    (hexec : exec m reentrant 0 runtime s.world o a = some (r, w')) :
    Kept m w ⟨w', ⟨s.world, o, a, r⟩ :: s.past⟩ := by
  have hframe := exec_frame hexec
  refine ⟨(hframe.registry ho.1).trans hs.registry, ?_⟩
  have hother : ¬ Releases m w.leases ⟨s.world, o, a, r⟩ := by
    rintro ⟨address, owner, rfl, -⟩
    cases ho.2
  simp only [List.forall_mem_cons, hother, not_false_eq_true, true_and]
  rw [hframe.leases ho.2, hs.leases]

lemma kept_of_releases (hregistry : s.world.registry = w.registry)
    (hleases : s.world.leases = w.leases)
    (hpast : ∀ st ∈ s.past, ¬ Releases m w.leases st) {guestIp : String}
    {r : (Op.leaseRelease guestIp name).Resp}
    (hok : wholeOrNothing (.leaseRelease guestIp name) a = true)
    (hexec : exec m reentrant 0 runtime s.world (.leaseRelease guestIp name) a = some (r, w')) :
    Kept m w ⟨w', ⟨s.world, .leaseRelease guestIp name, a, r⟩ :: s.past⟩ := by
  refine ⟨((exec_frame hexec).registry rfl).trans hregistry, ?_⟩
  simp only [List.forall_mem_cons]
  rw [and_iff_left hpast]
  have hreleases : Releases m w.leases ⟨s.world, .leaseRelease guestIp name, a, r⟩
      ↔ a.fails = false ∧ m.pool.Removable a.unreadable a.stuck w.leases guestIp name := by
    constructor
    · rintro ⟨address, owner, heq, hreleases⟩
      obtain ⟨rfl, rfl⟩ := Op.leaseRelease.inj heq
      exact hreleases
    · exact fun hreleases => ⟨guestIp, name, rfl, hreleases⟩
  have hstep : s.world.releaseLease m guestIp name a = (r, w') := Option.some.inj hexec
  rw [hreleases]
  unfold World.releaseLease at hstep
  cases hfails : a.fails with
  | true =>
      have heffect : a.effect = false := by simpa [wholeOrNothing, hfails] using hok
      rw [if_pos ⟨hfails, by simp [heffect]⟩] at hstep
      obtain ⟨-, rfl⟩ := Prod.mk.inj hstep
      simp [hleases]
  | false =>
      have hsame : (m.pool.release a.unreadable a.stuck w.leases guestIp name).2 = w.leases ↔ _ :=
        release_unchanged_iff
      rw [if_neg (by simp [hfails]), hleases] at hstep
      generalize m.pool.release a.unreadable a.stuck w.leases guestIp name = released at hstep hsame
      obtain ⟨-, rfl⟩ := Prod.mk.inj hstep
      simpa using hsame

lemma forget_kept (hregistry : s.world.registry = w.registry) (hleases : s.world.leases = w.leases)
    (hpast : ∀ st ∈ s.past, ¬ Releases m w.leases st) :
    (forget name record).Obeys (alone m reentrant runtime wholeOrNothing) (fun _ _ => True)
      (fun _ => Kept m w) s := by
  have hdelete : ∀ s, Kept m w s →
    (deleteRegistry name).Obeys (alone m reentrant runtime wholeOrNothing)
      (fun _ _ => True) (fun _ => Kept m w) s := by
    intro s hs
    refine Prog.obeys_bind.mpr (alone_op fun a r w' hok hexec => ?_)
    refine Prog.obeys_ofExcept.mpr ⟨fun _ _ => trivial, fun e he => ?_⟩
    rcases deleteRegistry_cases hexec with ⟨hr, -⟩ | ⟨-, hfails, ⟨-, heffect⟩ | ⟨rfl, -⟩⟩
    · cases hr.symm.trans he
    · simp [wholeOrNothing, hfails, heffect] at hok
    · refine ⟨hs.registry, hs.leases.trans ?_⟩
      simp [Releases]
  have hkept : Kept m w s := ⟨hregistry, iff_of_true hleases hpast⟩
  refine Prog.obeys_bind.mpr ?_
  unfold forgetAddress
  cases record.guestIp with
  | str guestIp =>
      refine obeys_when.mpr ⟨fun _ => ?_, fun _ => hdelete s hkept⟩
      refine Prog.obeys_bind.mpr (alone_op fun a r w' hok hexec => ?_)
      have hreleased := kept_of_releases hregistry hleases hpast hok hexec
      refine Prog.obeys_bind.mpr (Prog.obeys_ofExcept.mpr ⟨fun _ _ => ?_, fun _ _ => hreleased⟩)
      have harp : (do let _ ← run (.arpDelete guestIp) false : Program Unit).Performs
          fun o => o.touchesRegistry = false ∧ o.touchesLeases = false :=
        .bind (performs_run ⟨rfl, rfl⟩) fun _ => trivial
      exact (performs_keeps harp (fun _ _ _ _ _ ho hs hexec => kept_step hs ho hexec)
        hreleased).mono
        (fun _ s hs => hdelete s hs) fun _ _ h => h
  | surrogate => exact hkept
  | _ => exact hdelete s hkept

/-- Nothing is registered or leased in another way, and nothing has been released. -/
structure Untouched (m : RuntimeManager) (w : World) (s : Alone) : Prop where
  registry : s.world.registry = w.registry
  leases : s.world.leases = w.leases
  past : ∀ st ∈ s.past, ¬ Releases m w.leases st

lemma Untouched.kept (hs : Untouched m w s) : Kept m w s :=
  ⟨hs.registry, iff_of_true hs.leases hs.past⟩

lemma Untouched.step (hs : Untouched m w s)
    (ho : o.touchesRegistry = false ∧ o.touchesLeases = false)
    (hexec : exec m reentrant 0 runtime s.world o a = some (r, w')) :
    Untouched m w ⟨w', ⟨s.world, o, a, r⟩ :: s.past⟩ := by
  have hkept := kept_step hs.kept ho hexec
  have hleases : w'.leases = w.leases := ((exec_frame hexec).leases ho.2).trans hs.leases
  exact ⟨hkept.registry, hleases, hkept.leases.mp hleases⟩

lemma Settled.untouched (hs : Settled w s) : Untouched m w s := by
  refine ⟨hs.registry, hs.leases, ?_⟩
  rintro st hst ⟨address, owner, hop, -⟩
  have hprelude := hs.prelude st hst
  rw [hop] at hprelude
  cases hprelude

/-- **A `destroy` that raises leaves the record and the lease as they were if and only if** it has
not released the lease before. -/
theorem raises_kept_iff (m : RuntimeManager) (reentrant : Bool) (runtime name : String) (w : World)
    (requesterUid : Option ℕ) (force : Bool) :
    (destroy m name requesterUid force).Obeys (alone m reentrant runtime wholeOrNothing)
      (fun _ _ => True)
      (fun _ s => s.world.registry = w.registry ∧ s.world.leases = w.leases
        ↔ ∀ st ∈ s.past, ¬ Releases m w.leases st) w.alone := by
  have hkept : ∀ (e : PyError) (s : Alone), Kept m w s → (s.world.registry = w.registry ∧
      s.world.leases = w.leases ↔ ∀ st ∈ s.past, ¬ Releases m w.leases st) := by
    intro _ s hs
    rw [and_iff_right hs.registry, hs.leases]
  refine Prog.Obeys.mono ?_ (fun _ _ h => h) hkept
  refine destroy_alone (fun _ _ _ _ _ _ _ _ => trivial)
    (fun _ _ _ _ _ _ hexec hs => kept_step hs ⟨rfl, rfl⟩ hexec) (fun _ _ hs => hs.untouched.kept) ?_
  intro s hs _
  refine Prog.obeys_bind.mpr ((performs_keeps performs_tearDown ?_ hs.untouched).mono
    (fun blocks s hs => ?_) fun _ _ hs => hs.kept)
  · intro s o a r w' ho hs hexec
    refine hs.step ?_ hexec
    rcases ho with rfl | ⟨command, rfl⟩ <;> exact ⟨rfl, rfl⟩
  · refine Prog.obeys_bind.mpr (obeys_when.mpr ⟨fun _ => hs.kept, fun _ => ?_⟩)
    exact Prog.obeys_bind.mpr (forget_kept hs.registry hs.leases hs.past)

/-- A jail with an address. -/
def oneLeasedJail : World :=
  { ({} : World).storeRecord "freebsd-lab-a"
      { name := .str "freebsd-lab-a", type := .str "jail", guestIp := .str "172.31.254.10" } with
    leases := (∅ : LeaseDir).insert "172.31.254.10.lease" (.owner "freebsd-lab-a\n")
    host := { jails := ["freebsd-lab-a"] } }

/-- The answers where `arp -d` does not end; behind it the lock is given back. -/
def withSlowArp : List Answer :=
  let done : Answer := {}
  List.replicate 10 done ++ [{ done with exit := .timeoutExpired false }, done]

set_option maxRecDepth 10000 in
/-- All goes well until `arp -d` runs into its time limit: `destroy` raises, the runtime stays
registered and its address is free. -/
theorem slow_arp_not_kept : ¬ (destroy .standard "freebsd-lab-a" none true).Obeys
    (alone .standard false "freebsd-lab-a" wholeOrNothing) (fun _ _ => True)
    (fun _ s => s.world.registry = oneLeasedJail.registry ∧ s.world.leases = oneLeasedJail.leases)
    oneLeasedJail.alone := by
  intro h
  have hrun : ∃ e s, Solo.follow (exec .standard false 0 "freebsd-lab-a") wholeOrNothing withSlowArp
      (destroy .standard "freebsd-lab-a" none true) oneLeasedJail.alone = some (.raise e, s) ∧
      s.world.leases = ∅ :=
    ⟨_, _, rfl, rfl⟩
  obtain ⟨e, s, hfollow, hleases⟩ := hrun
  have hkept : s.world.registry = _ ∧ s.world.leases = _ := Solo.obeys_of_follow h hfollow
  rw [hleases] at hkept
  have hentries := congrArg (fun dir : LeaseDir => dir.entries.length) hkept.2
  cases hentries

end FreebsdLaboratory
