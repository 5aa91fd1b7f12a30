import FreebsdLaboratory.Model.RuntimeClient
import FreebsdLaboratory.Protocol.Leases

/-!
# Registered addresses are leased

A runtime's address is leased before its record is written, released before its record is deleted,
and cleared by root's collector if it names an owner the collector has not read.  So a registered
runtime holds the lease of its address, except while a destroy is between the two steps
(`Known.Forgets`).

That is an invariant of runs in which the collector clears leases only when it has read everything
there is, and no destroy gives up between releasing the lease and deleting the record
(`KeepsLeases`).
-/

namespace FreebsdLaboratory

open Library

variable {m : RuntimeManager} {reentrant : Bool} {i : ℕ} {name : String} {w w₀ w' : World}
variable {o : Op} {a : Answer} {c : Connection} {s : Known} {vs : List (Connection × Known)}

/-- The record's address lies in the pool's range, is not the host's, and is leased to the name. -/
def HasAddress (m : RuntimeManager) (w : World) (name : String) (r : RuntimeRecord) : Prop :=
  ∃ address : IPv4Address, r.guestIp = .str address.text ∧ m.pool.InRange address
    ∧ address ≠ m.hostAddress ∧ w.leases.Holds name address

/-- The address can be an argument of a command. -/
def RuntimeRecord.HasPlainAddress (r : RuntimeRecord) : Prop :=
  ∀ address, r.guestIp = .str address → Char.ofNat 0 ∉ address.toList

/-- A destroy that has released the runtime's lease and not yet deleted its record. -/
structure Known.Forgets (c : Connection) (s : Known) (name : String) : Prop where
  forgetting : s.forgetting = true
  destroying : s.Destroying c name
  record : ∃ r, s.Knows name (some r) ∧ r.HasPlainAddress

/-! ## The condition -/

/-- The collector clears leases only when it has read every registered runtime, but those being
forgotten, and every runtime a create request has leased an address for; a release that raises has
removed nothing; and no destroy fails between releasing the lease and deleting the record. -/
def KeepsLeases : StepCondition := fun w vs _ _ s o a =>
  match o with
  | .leaseClearOrphans active =>
      (∀ name r, w.load name = .ok (some r) → (∀ v ∈ vs, ¬ v.2.Forgets v.1 name) → name ∈ active)
        ∧ ∀ v ∈ vs, v.2.lease ≠ none → ∀ name, v.1.Creates name → name ∈ active
  | .leaseRelease _ _ => s.lease = none → a.fails = true → a.effect = false
  | .run (.arpDelete _) =>
      s.forgetting = true → ∀ effect, a.exit ≠ .timeoutExpired effect ∧ a.exit ≠ .undecodable effect
  | .deleteRegistry _ => s.forgetting = true → a.fails = true → a.effect = true
  | _ => True

/-! ## The invariant -/

structure Leasing (m : RuntimeManager) (w : World) (vs : List (Connection × Known)) : Prop where
  registered : ∀ name r, w.load name = .ok (some r) →
    (∃ v ∈ vs, v.2.Forgets v.1 name) ∨ HasAddress m w name r
  /-- An address leased and not yet recorded. -/
  inFlight : ∀ v ∈ vs, ∀ address, v.2.lease = some address →
    ∃ name, v.1.Creates name ∧ (∃ xs, v.2.record = some (name, xs))
      ∧ m.pool.InRange address ∧ w.leases.Holds name address

/-- A lease of a runtime another thread works on stays, unless the collector clears it. -/
theorem holds_step {address : IPv4Address} {r : o.Resp} (h : w.leases.Holds name address)
    (hrelease : ∀ b, o ≠ .leaseRelease b name)
    (hclear : ∀ active, o = .leaseClearOrphans active → name ∈ active)
    (he : exec m reentrant i c.runtime w o a = some (r, w')) : w'.leases.Holds name address := by
  cases o with
  | leaseAllocate owner => exact holds_of_leaseAllocate h he
  | leaseRelease b owner =>
      exact holds_of_leaseRelease h (fun heq => hrelease b (heq ▸ rfl)) he
  | leaseClearOrphans active => exact holds_of_leaseClearOrphans h (hclear active rfl) he
  | _ => rwa [(exec_frame he).leases rfl]

theorem HasAddress.step {r : RuntimeRecord} {x : o.Resp} (h : HasAddress m w name r)
    (hrelease : ∀ b, o ≠ .leaseRelease b name)
    (hclear : ∀ active, o = .leaseClearOrphans active → name ∈ active)
    (he : exec m reentrant i c.runtime w o a = some (x, w')) : HasAddress m w' name r := by
  obtain ⟨address, hip, hrange, hhost, hholds⟩ := h
  exact ⟨address, hip, hrange, hhost, holds_step hholds hrelease hclear he⟩

/-- A thread that works on a runtime does so with more locks. -/
theorem Known.Destroying.mono {s' : Known} (h : s.Destroying c name)
    (hsub : s.holds.Sublist s'.holds) : s'.Destroying c name :=
  ⟨hsub.subset h.1, fun hcreates => (h.2 hcreates).trans (hsub.count_le _)⟩

/-- A destroy that forgets a runtime goes on doing so until the record is gone. -/
theorem forgets_of_learn (hcoherent : Coherent w vs) (hcond : KeepsLeases w vs i c s o a)
    (hi : vs[i]? = some (c, s)) {r : o.Resp} (hp : Permits m c s o)
    (he : exec m reentrant i c.runtime w o a = some (r, w')) (h : s.Forgets c name) :
    (s.learn o r).Forgets c name ∨ w'.load name = .ok none := by
  obtain ⟨hforgetting, hdestroying, x, hknows, hplain⟩ := h
  have hstill : (s.learn o r).forgetting = true → s.holds.Sublist (s.learn o r).holds →
      (s.learn o r).record = s.record → (s.learn o r).Forgets c name :=
    fun hforgetting hsub hrecord =>
      ⟨hforgetting, hdestroying.mono hsub, x, hrecord.trans hknows, hplain⟩
  cases o with
  | release l => simp [hp.2] at hforgetting
  | acquire l => exact .inl (hstill hforgetting (List.sublist_cons_self _ _) rfl)
  | loadRegistry name' =>
      refine .inl (hstill (by rw [Known.learn_forgetting rfl, hforgetting])
        (by rw [Known.learn_holds rfl]) ?_)
      cases r with
      | error e => rfl
      | ok y =>
          simp only [Known.learn]
          split_ifs with hhold
          · obtain rfl := hcoherent.single _ (List.mem_of_getElem? hi) _ _ hdestroying.1 hhold
            obtain ⟨hload, -⟩ := Prod.mk.inj (Option.some.inj he)
            have hloaded : w.load name = .ok y := by
              split_ifs at hload
              exact hload
            rw [hcoherent.load_of_knows hi hknows] at hloaded
            rw [← Except.ok.inj hloaded]
            exact hknows.symm
          · rfl
  | writeRegistry y =>
      -- a create request that destroys its own runtime holds the lock twice, and writes nothing
      -- meanwhile
      obtain ⟨name', hcreating, -⟩ := hp
      obtain ⟨hhold, htwice⟩ := hdestroying
      rw [hcreating.holds] at hhold htwice
      obtain rfl : name = name' := by simpa using hhold
      have := htwice hcreating.creates
      simp at this
  | deleteRegistry name' =>
      obtain ⟨x', hwork⟩ := hp
      have hsame := hwork.knows
      rw [Known.Knows, hknows] at hsame
      obtain ⟨rfl, -⟩ := by simpa using hsame
      rcases deleteRegistry_cases he with ⟨-, -, rfl⟩ | ⟨-, hfails, ⟨rfl, -⟩ | ⟨-, heffect⟩⟩
      · exact .inr load_dropRecord_self
      · exact .inr load_dropRecord_self
      · simp [hcond hforgetting hfails] at heffect
  | leaseRelease b owner =>
      refine .inl (hstill ?_ (by rw [Known.learn_holds rfl]) (by rw [Known.learn_record rfl]))
      cases r with
      | error e => exact hforgetting
      | ok removed =>
          simp only [Known.learn]
          split_ifs
          · exact hforgetting
          · rfl
  | run command =>
      cases command with
      | arpDelete b =>
          refine .inl (hstill ?_ (by rw [Known.learn_holds rfl]) (by rw [Known.learn_record rfl]))
          cases r with
          | timeoutExpired =>
              obtain ⟨effect, hexit⟩ := timeout_of_respond (run_eq he).1.symm
              exact absurd hexit (hcond hforgetting effect).1
          | raises e =>
              rcases raises_of_respond (run_eq he).1.symm with ⟨effect, hexit⟩ | hnull
              · exact absurd hexit (hcond hforgetting effect).2
              · obtain ⟨name', x', hwork, hip⟩ := hp hforgetting
                have hsame := hwork.knows
                rw [Known.Knows, hknows] at hsame
                obtain ⟨rfl, rfl⟩ := by simpa using hsame
                exact absurd hnull (by simpa [Command.embedsNull, Command.argv] using hplain b hip)
          | completed returncode stdout => exact hforgetting
          | osError => exact hforgetting
      | _ =>
          exact .inl (hstill (by rw [Known.learn_forgetting rfl, hforgetting])
            (by rw [Known.learn_holds rfl]) (by rw [Known.learn_record rfl]))
  | _ =>
      exact .inl (hstill (by rw [Known.learn_forgetting rfl, hforgetting])
        (by rw [Known.learn_holds rfl]) (by rw [Known.learn_record rfl]))

/-- **What a step does to a registered runtime's address.** -/
theorem Leasing.registered_step (h : Leasing m w vs) (hcoherent : Coherent w vs)
    (hcond : KeepsLeases w vs i c s o a) (hi : vs[i]? = some (c, s)) {x : o.Resp}
    (hp : Permits m c s o) (he : exec m reentrant i c.runtime w o a = some (x, w'))
    {r : RuntimeRecord} (hr : w'.load name = .ok (some r)) :
    (∃ v ∈ vs.set i (c, s.learn o x), v.2.Forgets v.1 name) ∨ HasAddress m w' name r := by
  have hlt : i < vs.length := (List.getElem?_eq_some_iff.mp hi).1
  -- a thread that forgets the runtime still does
  have hforgets : ∀ v ∈ vs, v.2.Forgets v.1 name →
      ∃ v ∈ vs.set i (c, s.learn o x), v.2.Forgets v.1 name := by
    intro v hv hf
    obtain ⟨j, hj⟩ := List.mem_iff_getElem?.mp hv
    by_cases hij : j = i
    · subst hij
      obtain rfl : v = (c, s) := by simpa [hi] using hj.symm
      rcases forgets_of_learn hcoherent hcond hi hp he hf with hf | hgone
      · exact ⟨_, List.mem_set hlt _, hf⟩
      · simp [hr] at hgone
    · refine ⟨v, List.mem_of_getElem? (i := j) ?_, hf⟩
      rw [List.getElem?_set_ne (Ne.symm hij), hj]
  by_cases hold : w.load name = .ok (some r)
  · rcases h.registered name r hold with ⟨v, hv, hf⟩ | haddress
    · exact .inl (hforgets v hv hf)
    by_cases hsome : ∃ v ∈ vs, v.2.Forgets v.1 name
    · obtain ⟨v, hv, hf⟩ := hsome
      exact .inl (hforgets v hv hf)
    by_cases hrelease : ∃ b, o = .leaseRelease b name
    · obtain ⟨b, rfl⟩ := hrelease
      obtain ⟨hlease, r', hwork⟩ : s.lease = none ∧ ∃ r', s.Working c name (some r') := by
        rcases hp with ⟨-, hnone, -⟩ | ⟨hlease, r', hwork, -⟩
        · have := hcoherent.load_of_knows hi hnone
          simp [hold] at this
        · exact ⟨hlease, r', hwork⟩
      cases x with
      | error e =>
          refine .inr ?_
          obtain ⟨address, hip, hrange, hhost, hholds⟩ := haddress
          exact ⟨address, hip, hrange, hhost,
            by rwa [leases_of_release_error he rfl (hcond hlease)]⟩
      | ok removed =>
          refine .inl ⟨_, List.mem_set hlt _, ?_, ?_, r', ?_, ?_⟩
          · simp [Known.learn, hlease]
          · exact hwork.destroying.mono (by rw [Known.learn_holds rfl])
          · exact (Known.learn_record rfl).trans hwork.knows
          · obtain ⟨address, hip, -⟩ := haddress
            have hsame := hcoherent.load_of_knows hi hwork.knows
            rw [hold] at hsame
            obtain rfl : r = r' := by simpa using hsame
            intro text htext
            rw [hip] at htext
            exact RecordValue.str.inj htext ▸ address.nul_notMem_text
    · refine .inr (haddress.step (not_exists.mp hrelease) ?_ he)
      rintro active rfl
      exact hcond.1 name r hold fun v hv hf => hsome ⟨v, hv, hf⟩
  · obtain ⟨rfl, hcreating, hname, hwrote, -, hknows⟩ := write_of_new_record hp he hr hold
    have hleases : w'.leases = w.leases := (exec_frame he).leases rfl
    rcases hknows with ⟨-, -, -, address, hlease, hhost, hip⟩ | ⟨r₀, hknows, -, hip, -⟩
    · obtain ⟨name', hcreates, -, hrange, hholds⟩ :=
        h.inFlight _ (List.mem_of_getElem? hi) address hlease
      obtain rfl := creates_unique hcreating.creates hcreates
      exact .inr ⟨address, hip, hrange, hhost, hleases ▸ hholds⟩
    · rcases h.registered name r₀ (hcoherent.load_of_knows hi hknows) with ⟨v, hv, hf⟩ | haddress
      · exact .inl (hforgets v hv hf)
      · obtain ⟨address, hip₀, hrange, hhost, hholds⟩ := haddress
        exact .inr ⟨address, hip.trans hip₀, hrange, hhost, hleases ▸ hholds⟩

/-- **What a step does to an address that is leased and not yet recorded.** -/
theorem Leasing.inFlight_step (h : Leasing m w vs) (hcoherent : Coherent w vs)
    (hcond : KeepsLeases w vs i c s o a) (hi : vs[i]? = some (c, s)) {x : o.Resp}
    (hp : Permits m c s o) (he : exec m reentrant i c.runtime w o a = some (x, w'))
    {v : Connection × Known} (hv : v ∈ vs.set i (c, s.learn o x)) {address : IPv4Address}
    (hlease : v.2.lease = some address) :
    ∃ name, v.1.Creates name ∧ (∃ xs, v.2.record = some (name, xs))
      ∧ m.pool.InRange address ∧ w'.leases.Holds name address := by
  obtain ⟨j, hj⟩ := List.mem_iff_getElem?.mp hv
  rcases getElem?_set_cases hj with ⟨rfl, rfl⟩ | ⟨hji, hother⟩
  · -- what the thread itself has leased
    have hold : s.lease = some address → (∀ b owner, o ≠ .leaseRelease b owner) →
        (∀ l, o = .release l → (s.releasing l).record = s.record) →
        ∃ name, c.Creates name ∧ (∃ xs, (s.learn o x).record = some (name, xs))
          ∧ m.pool.InRange address ∧ w'.leases.Holds name address := by
      intro hlease hrelease hback
      obtain ⟨name, hcreates, ⟨xs, hrecord⟩, hrange, hholds⟩ :=
        h.inFlight _ (List.mem_of_getElem? hi) address hlease
      refine ⟨name, hcreates, ?_, hrange, holds_step hholds (fun b => hrelease b name) ?_ he⟩
      · by_cases ho : ∃ l, o = .release l
        · obtain ⟨l, rfl⟩ := ho
          exact ⟨xs, (hback l rfl).trans hrecord⟩
        · exact hcoherent.record_of_learn hi hp hrecord (not_exists.mp ho)
      · rintro active rfl
        exact hcond.2 _ (List.mem_of_getElem? hi) (Option.ne_none_iff_exists'.mpr ⟨address, hlease⟩)
          name hcreates
    cases o with
    | leaseAllocate owner =>
        obtain ⟨hcreating, hname, hknows, hnone⟩ := hp
        cases x with
        | error e =>
            have hlease : s.lease = some address := hlease
            simp [hnone] at hlease
        | ok b =>
            obtain rfl : b = address := by simpa [Known.learn] using hlease
            obtain ⟨hrange, hholds⟩ := holds_of_allocated hname he rfl
            exact ⟨owner, hcreating.creates, ⟨[none], hknows⟩, hrange, hholds⟩
    | leaseRelease b owner =>
        cases x with
        | error e => simp [Known.learn] at hlease
        | ok removed =>
            simp only [Known.learn] at hlease
            split_ifs at hlease with hsome
            have hlease : s.lease = some address := hlease
            simp [hlease] at hsome
    | writeRegistry y =>
        cases x with
        | error e => exact hold hlease (by simp) (by simp)
        | ok u => simp [Known.learn] at hlease
    | release l =>
        have hlease : (s.releasing l).lease = some address := hlease
        have hkeeps : (s.releasing l).lease ≠ none := by simp [hlease]
        obtain ⟨hsame, -⟩ := Known.releasing_kept (.inr (.inl hkeeps))
        rw [hsame] at hlease
        refine hold hlease (by simp) fun l' heq => ?_
        obtain rfl := Op.release.inj heq
        rw [hsame]
        rfl
    | _ =>
        rw [Known.learn_lease rfl] at hlease
        exact hold hlease (by simp) (by simp)
  · -- another thread holds the lock of its runtime
    have hmem := List.mem_of_getElem? hother
    obtain ⟨name, hcreates, ⟨xs, hrecord⟩, hrange, hholds⟩ := h.inFlight v hmem address hlease
    refine ⟨name, hcreates, ⟨xs, hrecord⟩, hrange, holds_step hholds ?_ ?_ he⟩
    · rintro b rfl
      have hhold : .runtime name ∈ s.holds := by
        rcases hp with ⟨hcreating, -⟩ | ⟨-, r, hwork, -⟩
        · simp [hcreating.holds]
        · exact hwork.destroying.1
      exact hji (hcoherent.locks.unique hother hi (hcoherent.records j v hother _ _ hrecord).1
        hhold)
    · rintro active rfl
      exact hcond.2 v hmem (by simp [hlease]) name hcreates

theorem leasing_preserved (m : RuntimeManager) (reentrant : Bool) :
    Machine.PreservesWith (whenStep KeepsLeases : LabelCondition m reentrant) Coherent
      (Leasing m) := by
  refine preserves_of_steps ?_ ?_ ?_
  · intro w vs c _ h
    refine ⟨fun name r hr => ?_, fun v hv address hlease => ?_⟩
    · refine (h.registered name r hr).imp_left fun ⟨v, hv, hf⟩ => ⟨v, ?_, hf⟩
      exact List.mem_append_left _ hv
    · rcases List.mem_append.mp hv with hv | hv
      · exact h.inFlight v hv address hlease
      · obtain rfl := List.mem_singleton.mp hv
        simp at hlease
  · intro w vs e w' _ h he
    rw [environment_eq he]
    exact ⟨h.registered, h.inFlight⟩
  · intro w vs i c s o a r w' hcond hcoherent h hi hp he _
    exact ⟨fun name r hr => h.registered_step hcoherent hcond hi hp he hr,
      fun v hv address hlease => h.inFlight_step hcoherent hcond hi hp he hv hlease⟩

/-! ## The addresses of registered runtimes -/

/-- A destroy works on the runtime. -/
def Pool.DestroyWorksOn (p : Pool m reentrant) (name : String) : Prop :=
  ∃ t ∈ p.threads, Known.Destroying t.context t.known name

instance (p : Pool m reentrant) (name : String) : Decidable (p.DestroyWorksOn name) :=
  inferInstanceAs (Decidable (∃ _ ∈ _, _))

/-- The daemon has just started, and every registered runtime has its address. -/
structure World.Settled (m : RuntimeManager) (w : World) : Prop extends w.Started m where
  addresses : ∀ name r, w.load name = .ok (some r) → HasAddress m w name r

/-- **Registered runtimes have distinct addresses of the pool, leased to them**, but those a destroy
is working on, in every run whose steps keep the leases. -/
theorem addresses_leased (m : RuntimeManager) (reentrant : Bool) {w₀ : World} (hw₀ : w₀.Settled m)
    {p : Pool m reentrant} (hp : Machine.Reaches (whenStep KeepsLeases) ⟨w₀, []⟩ p) :
    (∀ name r, World.load p.world name = .ok (some r) → ¬ Pool.DestroyWorksOn p name →
        HasAddress m p.world name r) ∧
      ∀ name name' r r', World.load p.world name = .ok (some r) →
        World.load p.world name' = .ok (some r') → ¬ Pool.DestroyWorksOn p name →
        ¬ Pool.DestroyWorksOn p name' → r.guestIp = r'.guestIp → name = name' := by
  have hsound := sound_of_reaches
    ((coherent_preserved m reentrant _).and (leasing_preserved m reentrant))
    ⟨hw₀.coherent, fun name r hr => .inr (hw₀.addresses name r hr), by simp⟩ hp
  have haddress : ∀ name r, World.load p.world name = .ok (some r) →
      ¬ Pool.DestroyWorksOn p name → HasAddress m p.world name r := by
    intro name r hr hidle
    rcases hsound.holds.2.registered name r hr with ⟨v, hv, hf⟩ | h
    · obtain ⟨t, ht, rfl⟩ := List.mem_map.mp hv
      exact absurd ⟨t, ht, hf.destroying⟩ hidle
    · exact h
  refine ⟨haddress, fun name name' r r' hr hr' hidle hidle' heq => ?_⟩
  obtain ⟨address, hip, -, -, hholds⟩ := haddress name r hr hidle
  obtain ⟨address', hip', -, -, hholds'⟩ := haddress name' r' hr' hidle'
  have htext : address.text = address'.text := by simpa [hip, hip'] using heq
  obtain rfl := IPv4Address.text_injective htext
  exact hholds.unique hholds'

/-- Steps that keep the leases: the collector has read everything there is, and nothing fails. -/
def sparesLeases (w : World) (vs : List (Connection × Known)) (_ : ℕ) (_ : Connection) (s : Known)
    (o : Op)
    (a : Answer) : Bool :=
  match o with
  | .leaseClearOrphans active =>
      w.registry.keys.all active.contains && vs.all fun v => v.2.lease.isNone
  | .leaseRelease _ _ | .deleteRegistry _ => !a.fails
  | .run (.arpDelete _) => !s.forgetting || decide (a.exit = .truthful)
  | _ => true

lemma keepsLeases_of_sparesLeases (h : sparesLeases w vs i c s o a = true) :
    KeepsLeases w vs i c s o a := by
  cases o with
  | leaseClearOrphans active =>
      simp only [sparesLeases, Bool.and_eq_true, List.all_eq_true, List.contains_eq_mem,
        decide_eq_true_eq, Option.isNone_iff_eq_none] at h
      exact ⟨fun name r hr _ => h.1 name (mem_keys_of_load hr), fun v hv hlease =>
        absurd (h.2 v hv) hlease⟩
  | leaseRelease _ _ | deleteRegistry _ =>
      intro _ hfails
      simp [sparesLeases, hfails] at h
  | run command =>
      cases command with
      | arpDelete address =>
          intro hforgetting effect
          simp only [sparesLeases, hforgetting, Bool.not_true, Bool.false_or,
            decide_eq_true_eq] at h
          simp [h]
      | _ => trivial
  | _ => trivial

/-- Two jails are created.  While root's collector is at work, the first of them is destroyed; the
collector clears the leases, and a third jail is created. -/
def reusingAddress : List (daemon .standard false).Label :=
  .arrive (fromJupyter (RuntimeClient.createJail "freebsd-lab-a" 100 sampleKey)) :: turns 0 41
    ++ .arrive (fromJupyter (RuntimeClient.createJail "freebsd-lab-b" 100 sampleKey)) :: turns 1 33
    ++ .arrive (fromJupyter (RuntimeClient.destroy "freebsd-lab-a")) :: turns 2 14
    ++ .arrive (fromRoot RuntimeClient.gc) :: turns 3 21 ++ turns 2 4 ++ turns 3 2
    ++ .arrive (fromJupyter (RuntimeClient.createJail "freebsd-lab-c" 100 sampleKey)) :: turns 4 33

/-- The third jail is given the address of the first, and the second keeps its own. -/
theorem addresses_leased_of_reuse : ∃ p : Pool .standard false,
    Machine.Reaches (whenStep KeepsLeases) ⟨sampleWorld, []⟩ p ∧
      ∃ r r', World.load p.world "freebsd-lab-b" = .ok (some r)
        ∧ World.load p.world "freebsd-lab-c" = .ok (some r') ∧ r'.guestIp = .str "172.31.254.10"
        ∧ HasAddress .standard p.world "freebsd-lab-b" r
        ∧ HasAddress .standard p.world "freebsd-lab-c" r' ∧ r.guestIp ≠ r'.guestIp := by
  have hrun : ((⟨sampleWorld, []⟩ : Pool .standard false).checkedRun (passesStep sparesLeases)
        reusingAddress).map
      (fun p => ((World.registry p.world |>.get? "freebsd-lab-b").isSome,
        World.registry p.world |>.get? "freebsd-lab-c" |>.map (·.guestIp),
        decide (Pool.DestroyWorksOn p "freebsd-lab-b"),
          decide (Pool.DestroyWorksOn p "freebsd-lab-c")))
      = some (true, some (.str "172.31.254.10"), false, false) := by
    decide +kernel
  obtain ⟨p, hp, hstate⟩ := Option.map_eq_some_iff.mp hrun
  simp only [Prod.mk.injEq, Option.map_eq_some_iff, decide_eq_false_iff_not] at hstate
  obtain ⟨hsome, ⟨r', hr', hip⟩, hidle, hidle'⟩ := hstate
  obtain ⟨r, hr⟩ := Option.isSome_iff_exists.mp hsome
  have hreaches : Machine.Reaches (whenStep KeepsLeases) ⟨sampleWorld, []⟩ p :=
    Machine.reaches_of_checkedRun
      (fun _ _ => whenStep_of_passesStep fun _ _ _ _ _ _ _ => keepsLeases_of_sparesLeases) _ .start
      hp
  obtain ⟨haddress, hdistinct⟩ := addresses_leased .standard false
    ⟨.of_empty rfl rfl, by simp [World.load, sampleWorld]⟩ hreaches
  refine ⟨p, hreaches, r, r', load_of_get? hr, load_of_get? hr', hip,
    haddress _ r (load_of_get? hr) hidle, haddress _ r' (load_of_get? hr') hidle', fun heq => ?_⟩
  exact absurd (hdistinct _ _ r r' (load_of_get? hr) (load_of_get? hr') hidle hidle' heq)
    (by decide)

/-! ## Two runtimes with one address -/

/-- A create request gets past the bridge; root's collector reads the registry for the last time;
the create request leases its address and registers its runtime; the collector clears the lease; and
a second create request is given the same address. -/
def clearingSchedule : List (daemon .standard false).Label :=
  .arrive (fromJupyter (RuntimeClient.createJail "freebsd-lab-a" 100 sampleKey)) :: turns 0 17
    ++ .arrive (fromRoot RuntimeClient.gc) :: turns 1 9
    ++ turns 0 4 ++ turns 1 1
    ++ .arrive (fromJupyter (RuntimeClient.createJail "freebsd-lab-b" 100 sampleKey)) :: turns 2 13

/-- Two registered runtimes, neither being destroyed, have one address. -/
theorem gc_clears_new_lease : sampleWorld.Settled .standard ∧ ∃ p : Pool .standard false,
    Machine.Reaches (fun _ _ => True) ⟨sampleWorld, []⟩ p ∧
      ∃ r r', World.load p.world "freebsd-lab-a" = .ok (some r)
        ∧ World.load p.world "freebsd-lab-b" = .ok (some r') ∧ r.guestIp = r'.guestIp
        ∧ ¬ Pool.DestroyWorksOn p "freebsd-lab-a" ∧ ¬ Pool.DestroyWorksOn p "freebsd-lab-b" := by
  refine ⟨⟨.of_empty rfl rfl, by simp [World.load, sampleWorld]⟩, ?_⟩
  have hrun : ((⟨sampleWorld, []⟩ : Pool .standard false).run clearingSchedule).map
      (fun p => (World.registry p.world |>.get? "freebsd-lab-a" |>.map (·.guestIp),
        World.registry p.world |>.get? "freebsd-lab-b" |>.map (·.guestIp),
        decide (Pool.DestroyWorksOn p "freebsd-lab-a"),
        decide (Pool.DestroyWorksOn p "freebsd-lab-b")))
      = some (some (.str "172.31.254.10"), some (.str "172.31.254.10"), false, false) := by
    decide +kernel
  obtain ⟨p, hp, hstate⟩ := Option.map_eq_some_iff.mp hrun
  simp only [Prod.mk.injEq, Option.map_eq_some_iff, decide_eq_false_iff_not] at hstate
  obtain ⟨⟨r, hr, hip⟩, ⟨r', hr', hip'⟩, hidle, hidle'⟩ := hstate
  exact ⟨p, Machine.reaches_of_free_run _ hp, r, r', load_of_get? hr, load_of_get? hr',
    hip.trans hip'.symm, hidle, hidle'⟩

end FreebsdLaboratory
