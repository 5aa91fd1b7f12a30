import FreebsdLaboratory.Tunnels.Names

/-!
# What a caller of the port pool knows

The protocol that every call follows, whatever the other callers do.  `LeaseKnown` is what the
responses so far have told: which leases a port had when the lock was taken, what has been found out
about the processes they name, which leases the call has written and which it is taking back.
`LeaseCaller.Permits` says when each operation may come: a lease is written only when all leases of
its port have been dismissed, and a name is unlinked only if it has been dismissed, or is the
caller's own.

`callers_sound` is the result: the code of all three methods follows the protocol.
-/

namespace FreebsdLaboratory

open Library Library.Unicode Library.Json

structure LeaseKnown where
  /-- The lock is held. -/
  inside : Bool := false
  /-- The port at hand, with the names of its leases. -/
  listing : Option (ℕ × List Str) := none
  /-- Names found to be symbolic links. -/
  links : List Str := []
  /-- Process ids asked about, with the identity found. -/
  answers : List (ℤ × Option ProcessIdentity) := []
  /-- Leases written, and not handed over. -/
  created : List Str := []
  /-- Leases of the reservation that is being released. -/
  releasing : List Str := []

/-- The names of the leases of a reservation. -/
def LocalPortReservation.names (r : LocalPortReservation) : List Str :=
  r.ports.map fun port =>
    portLeaseName port ((ownerDigest r.owner).getD []) r.pid r.uid r.processDigest

namespace LeaseKnown

/-- What is known about a lease directory goes with the lock. -/
def forgetting (k : LeaseKnown) : LeaseKnown :=
  { k with listing := none, links := [], answers := [] }

/-- What a response adds. -/
def learn (k : LeaseKnown) : (o : LeaseOp) → o.Resp → LeaseKnown
  | .lock, .ok _ => { k.forgetting with inside := true }
  | .unlock, _ => { k.forgetting with inside := false }
  | .glob port, .ok names => { k.forgetting with listing := some (port, names) }
  | .isSymlink name, .ok true => { k with links := name :: k.links }
  | .identify pid, .ok found => { k with answers := (pid, found) :: k.answers }
  | .unlink name, .ok _ =>
      { k with created := k.created.erase name, releasing := k.releasing.erase name }
  | .write name, .ok _ => { k.forgetting with created := k.created ++ [name] }
  | .write _, .error _ => k.forgetting
  | .hold _, _ => { k with created := [] }
  | .drop r, _ => { k with releasing := r.names }
  | _, _ => k

/-- The process that a lease names has been found not to be the one that is there. -/
def Mismatched (k : LeaseKnown) (pid uid : ℤ) (digest : Str) : Prop :=
  pid ≤ 1 ∨ uid < 0 ∨ digest = [] ∨ ∃ found, (pid, found) ∈ k.answers
    ∧ ∀ identity, found = some identity → ¬ (identity.uid = uid ∧ str identity.digest = digest)

/-- The name is not that of a lease that a live process has. -/
def Dismissed (k : LeaseKnown) (port : ℕ) (name : Str) : Prop :=
  name ∈ k.links ∨ ∀ pid uid digest, parseLeaseName name port = some (pid, uid, digest) →
    k.Mismatched pid uid digest

/-- All leases of the port at hand have been dismissed. -/
def Cleared (k : LeaseKnown) (port : ℕ) : Prop :=
  ∃ names, k.listing = some (port, names) ∧ ∀ name ∈ names, k.Dismissed port name

end LeaseKnown

/-- The name of a lease of a process. -/
def Process.leaseName (p : Process) (port : ℕ) (digest : Str) : Str :=
  portLeaseName port digest p.pid p.uid (str (processDigest p.uid p.startedAt))

namespace LeaseCaller

/-- When an operation may come. -/
def Permits (c : LeaseCaller) (k : LeaseKnown) : LeaseOp → Prop
  | .lock => k.inside = false
  | .unlock | .glob _ => k.inside = true
  | .unlink name => k.inside = true ∧ (name ∈ k.created ∨ name ∈ k.releasing
      ∨ ∃ port, isLeaseOf port name = true ∧ k.Dismissed port name)
  | .write name => k.inside = true ∧ 1 < c.process.pid ∧ ∃ port owner digest,
      ownerDigest owner = some digest ∧ name = c.process.leaseName port digest ∧ k.Cleared port
  | .hold r => k.inside = false ∧ r.names = k.created
  | .drop _ => k.inside = false ∧ k.releasing = []
  | _ => True

/-- What a response can be. -/
def Admits (c : LeaseCaller) (k : LeaseKnown) : (o : LeaseOp) → o.Resp → Prop
  | .identify pid, r => pid = c.process.pid → ∀ identity, r = .ok (some identity) →
      identity = c.process.identity ∧ 1 < pid
  | .write name, r => r = .ok () → name ∉ k.created
  | .glob port, r => ∀ names, r = .ok names → ∀ name ∈ names, isLeaseOf port name = true
  | .drop r, _ => r.names.Nodup
  | _, _ => True

end LeaseCaller

/-- The callers of the pool, as a machine. -/
abbrev leases : Machine LeaseOp.Resp PyError Unit where
  World := LeaseWorld
  Context := LeaseCaller
  Known := LeaseKnown
  Choice := LeaseChoice
  Event := ProcessEvent
  start := LeaseCaller.program
  initial := {}
  permits := LeaseCaller.Permits
  admits := LeaseCaller.Admits
  learn _ := LeaseKnown.learn
  exec := LeaseWorld.exec
  environment := LeaseWorld.environment

variable {c : LeaseCaller} {k k' : LeaseKnown} {port : ℕ} {owner name : Str} {α β : Type}

/-- The protocol of a caller. -/
abbrev leaseRules (c : LeaseCaller) : Protocol LeaseOp.Resp LeaseKnown :=
  Protocol.ofNext c.Permits c.Admits LeaseKnown.learn

/-! ## Finding out -/

/-- More has been found out about links and processes, and nothing else has changed. -/
structure LeaseKnown.Grows (k k' : LeaseKnown) : Prop where
  inside : k'.inside = k.inside
  listing : k'.listing = k.listing
  created : k'.created = k.created
  releasing : k'.releasing = k.releasing
  links : k.links ⊆ k'.links
  answers : k.answers ⊆ k'.answers

namespace LeaseKnown.Grows

lemma refl (k : LeaseKnown) : k.Grows k :=
  ⟨rfl, rfl, rfl, rfl, List.Subset.refl _, List.Subset.refl _⟩

lemma trans {k₁ k₂ k₃ : LeaseKnown} (h : k₁.Grows k₂) (h' : k₂.Grows k₃) : k₁.Grows k₃ :=
  ⟨h'.inside.trans h.inside, h'.listing.trans h.listing, h'.created.trans h.created,
    h'.releasing.trans h.releasing, List.Subset.trans h.links h'.links,
    List.Subset.trans h.answers h'.answers⟩

lemma mismatched (h : k.Grows k') {pid uid : ℤ} {digest : Str} (hk : k.Mismatched pid uid digest) :
    k'.Mismatched pid uid digest := by
  rcases hk with hk | hk | hk | ⟨found, hfound, hk⟩
  · exact .inl hk
  · exact .inr (.inl hk)
  · exact .inr (.inr (.inl hk))
  · exact .inr (.inr (.inr ⟨found, h.answers hfound, hk⟩))

lemma dismissed (h : k.Grows k') (hk : k.Dismissed port name) : k'.Dismissed port name := by
  rcases hk with hk | hk
  · exact .inl (h.links hk)
  · exact .inr fun pid uid digest hparse => h.mismatched (hk pid uid digest hparse)

end LeaseKnown.Grows

/-- One operation. -/
lemma lease_op {o : LeaseOp} {Q : o.Resp → LeaseKnown → Prop} {R : PyError → LeaseKnown → Prop}
    (hp : c.Permits k o) (hq : ∀ r, c.Admits k o r → Q r (k.learn o r)) :
    (Prog.op LeaseOp.Resp PyError o).Obeys (leaseRules c) Q R k := by
  refine ⟨hp, ?_⟩
  rintro r k' ⟨hadmits, rfl⟩
  exact hq r hadmits

lemma attempt_obeys {σ : Type} {T : Protocol LeaseOp.Resp σ} {s : σ}
    {p : LeaseProgram (Except PyError α)} {Q : α → σ → Prop} {R : PyError → σ → Prop} :
    (attempt p).Obeys T Q R s ↔
      p.Obeys T (fun r s => (∀ a, r = .ok a → Q a s) ∧ ∀ e, r = .error e → R e s) R s := by
  rw [attempt, Prog.obeys_bind]
  simp only [Prog.obeys_ofExcept]

/-- The identity that is found for the caller's own process is the caller's. -/
lemma identify_obeys (pid : ℤ) : (identify pid).Obeys (leaseRules c)
    (fun found k' => k' = { k with answers := (pid, found) :: k.answers } ∧
      (pid = c.process.pid → ∀ identity, found = some identity →
        identity = c.process.identity ∧ 1 < pid))
    (fun _ k' => k' = k) k := by
  refine attempt_obeys.mpr (lease_op trivial ?_)
  intro r hr
  constructor
  · rintro found rfl
    refine ⟨rfl, ?_⟩
    rintro hpid identity rfl
    exact hr hpid identity rfl
  · rintro e rfl
    rfl

lemma grows_answers (pid : ℤ) (found : Option ProcessIdentity) :
    k.Grows { k with answers := (pid, found) :: k.answers } :=
  ⟨rfl, rfl, rfl, rfl, List.Subset.refl _, List.subset_cons_self _ _⟩

lemma leaseIdentity_obeys (name : Str) (port : ℕ) : (leaseIdentity name port).Obeys (leaseRules c)
    (fun x k' => k.Grows k' ∧ (x = none → k'.Dismissed port name)
      ∧ ∀ t, x = some t → parseLeaseName name port = some t)
    (fun _ k' => k.Grows k') k := by
  refine Prog.obeys_bind.mpr (attempt_obeys.mpr (lease_op trivial fun r _ => ?_))
  refine ⟨?_, fun e he => he ▸ .refl k⟩
  rintro link rfl
  cases link with
  | true =>
      refine ⟨⟨rfl, rfl, rfl, rfl, List.subset_cons_self _ _, List.Subset.refl _⟩, ?_, ?_⟩
      · intro _
        exact .inl List.mem_cons_self
      · intro t ht
        cases ht
  | false =>
      refine ⟨.refl k, ?_, ?_⟩
      · intro hnone
        refine .inr fun pid uid digest hparse => ?_
        cases hparse.symm.trans hnone
      · intro t ht
        exact ht

lemma leaseMatches_obeys (pid uid : ℤ) (digest : Str) : (leaseMatches pid uid digest).Obeys
    (leaseRules c) (fun b k' => k.Grows k' ∧ (b = false → k'.Mismatched pid uid digest))
    (fun _ k' => k.Grows k') k := by
  unfold leaseMatches
  split_ifs with hbad
  · refine ⟨.refl k, fun _ => ?_⟩
    rcases hbad with h | h | h
    · exact .inl h
    · exact .inr (.inl h)
    · exact .inr (.inr (.inl h))
  · refine Prog.obeys_bind.mpr ((identify_obeys pid).mono ?_ ?_)
    · rintro found _ ⟨rfl, -⟩
      refine ⟨grows_answers pid found, fun hfalse =>
        .inr (.inr (.inr ⟨found, List.mem_cons_self, ?_⟩))⟩
      rintro identity rfl ⟨huid, hdigest⟩
      simp [huid, hdigest] at hfalse
    · rintro - _ rfl
      exact .refl _

/-- **A port without a live lease is cleared.** -/
lemma anyLive_obeys (port : ℕ) (names : List Str) : (anyLive port names).Obeys (leaseRules c)
    (fun b k' => k.Grows k' ∧ (b = false → ∀ name ∈ names, k'.Dismissed port name))
    (fun _ k' => k.Grows k') k := by
  induction names generalizing k with
  | nil => exact ⟨.refl k, fun _ => by simp⟩
  | cons name names ih =>
      refine Prog.obeys_bind.mpr ((leaseIdentity_obeys name port).mono ?_ fun _ _ h => h)
      rintro x k₁ ⟨hgrows, hnone, hsome⟩
      cases x with
      | none =>
          refine (ih (k := k₁)).mono ?_ fun _ _ h => hgrows.trans h
          rintro b k₂ ⟨hgrows', hrest⟩
          refine ⟨hgrows.trans hgrows', fun hb => List.forall_mem_cons.mpr ⟨?_, hrest hb⟩⟩
          exact hgrows'.dismissed (hnone rfl)
      | some t =>
          obtain ⟨pid, uid, digest⟩ := t
          refine Prog.obeys_bind.mpr ((leaseMatches_obeys pid uid digest).mono ?_
            fun _ _ h => hgrows.trans h)
          rintro b k₂ ⟨hgrows', hmismatched⟩
          cases b with
          | true =>
              refine ⟨hgrows.trans hgrows', fun h => ?_⟩
              cases h
          | false =>
              refine (ih (k := k₂)).mono ?_ fun _ _ h => (hgrows.trans hgrows').trans h
              rintro b k₃ ⟨hgrows'', hrest⟩
              refine ⟨(hgrows.trans hgrows').trans hgrows'', fun hb =>
                List.forall_mem_cons.mpr ⟨?_, hrest hb⟩⟩
              refine hgrows''.dismissed (.inr ?_)
              intro pid' uid' digest' hparse
              cases (hsome _ rfl).symm.trans hparse
              exact hmismatched rfl

/-! ## Taking a port -/

/-- The lock is held and nothing is being released; these leases have been written. -/
structure LeaseKnown.Taking (k : LeaseKnown) (names : List Str) : Prop where
  inside : k.inside = true
  created : k.created = names
  releasing : k.releasing = []

lemma LeaseKnown.Grows.taking {names : List Str} (h : k.Grows k') (hk : k.Taking names) :
    k'.Taking names :=
  ⟨h.inside.trans hk.inside, h.created.trans hk.created, h.releasing.trans hk.releasing⟩

/-- The dismissed leases of a port are unlinked, and what has been found out stays. -/
lemma unlinkStale_obeys {stale names : List Str} (hk : k.Taking names) (hcleared : k.Cleared port)
    (hstale : ∀ name ∈ stale, name ∉ names ∧ isLeaseOf port name = true ∧ k.Dismissed port name) :
    (Prog.forEach stale unlink).Obeys (leaseRules c)
      (fun _ k' => k'.Taking names ∧ k'.Cleared port) (fun _ k' => k'.Taking names) k := by
  obtain ⟨listed, hlisting, hlisted⟩ := hcleared
  have hloop : (Prog.forEach stale unlink).Obeys (leaseRules c) (fun _ k' => k' = k)
      (fun _ k' => k' = k) k := by
    refine Prog.obeys_forEach (I := fun k' => k' = k) rfl ?_
    intro name hname k₁ hk₁
    subst hk₁
    obtain ⟨hnot, hport, hdismissed⟩ := hstale name hname
    refine attempt_obeys.mpr (lease_op ⟨hk.inside, .inr (.inr ⟨port, hport, hdismissed⟩)⟩ ?_)
    intro r _
    constructor
    · rintro - rfl
      have hcreated : k₁.created.erase name = k₁.created :=
        List.erase_of_not_mem (by rwa [hk.created])
      have hreleasing : k₁.releasing.erase name = k₁.releasing := by
        rw [hk.releasing]
        rfl
      simp only [LeaseKnown.learn, hcreated, hreleasing]
    · rintro e rfl
      rfl
  refine hloop.mono ?_ ?_
  · rintro - _ rfl
    exact ⟨hk, listed, hlisting, hlisted⟩
  · rintro - _ rfl
    exact hk

lemma op_keeps {o : LeaseOp} {Q : o.Resp → LeaseKnown → Prop} {R : PyError → LeaseKnown → Prop}
    (hp : c.Permits k o) (hl : ∀ r, k.learn o r = k) (hq : ∀ r, Q r k) :
    (Prog.op LeaseOp.Resp PyError o).Obeys (leaseRules c) Q R k :=
  lease_op hp fun r _ => by rw [hl]; exact hq r

lemma requireDigest_obeys {σ : Type} {T : Protocol LeaseOp.Resp σ} {s : σ} {Q : Str → σ → Prop}
    {R : PyError → σ → Prop} (hq : ∀ digest, ownerDigest owner = some digest → Q digest s)
    (hr : ownerDigest owner = none → ∀ e, R e s) : (requireDigest owner).Obeys T Q R s := by
  unfold requireDigest
  cases hdigest : ownerDigest owner with
  | some digest => exact hq digest hdigest
  | none => exact hr hdigest _

/-- **One round of the loop**: the port is skipped, or its lease is written. -/
lemma takePort_obeys {identity : ProcessIdentity} {names : List Str} (hk : k.Taking names)
    (hpid : 1 < c.process.pid) (hidentity : identity = c.process.identity)
    (hport : ∀ name ∈ names, portOf name ≠ decimal port) :
    (takePort owner c.process.pid identity port).Obeys (leaseRules c)
      (fun x k' => match x with
        | none => k'.Taking names
        | some name => k'.Taking (names ++ [name]) ∧ name ∉ names
            ∧ ∃ digest, ownerDigest owner = some digest ∧ name = c.process.leaseName port digest)
      (fun _ k' => k'.Taking names) k := by
  subst hidentity
  refine Prog.obeys_bind.mpr (attempt_obeys.mpr (lease_op hk.inside fun r hlist => ?_))
  refine ⟨?_, fun e he => he ▸ hk⟩
  rintro listed rfl
  have hlisted := hlist listed rfl
  have hk₁ : (k.learn (.glob port) (.ok listed)).Taking names :=
    ⟨hk.inside, hk.created, hk.releasing⟩
  refine Prog.obeys_bind.mpr ((anyLive_obeys port listed).mono ?_ fun _ _ h => h.taking hk₁)
  rintro live k₂ ⟨hgrows, hdismissed⟩
  have hk₂ := hgrows.taking hk₁
  cases live with
  | true => exact hk₂
  | false =>
      have hcleared : k₂.Cleared port := ⟨listed, hgrows.listing, hdismissed rfl⟩
      refine Prog.obeys_bind.mpr (attempt_obeys.mpr (op_keeps trivial (fun _ => rfl) fun r => ?_))
      refine ⟨fun bound _ => ?_, fun _ _ => hk₂⟩
      cases bound with
      | false => exact hk₂
      | true =>
          refine Prog.obeys_tryCatch.mpr (Prog.obeys_bind.mpr ?_)
          refine (unlinkStale_obeys hk₂ hcleared fun name hname => ⟨fun hmem => ?_, ?_⟩).mono ?_ ?_
          · exact hport name hmem (portOf_of_isLeaseOf (hlisted name hname))
          · exact ⟨hlisted name hname, hdismissed rfl name hname⟩
          · rintro - k₃ ⟨hk₃, hcleared₃⟩
            refine Prog.obeys_bind.mpr
              (requireDigest_obeys (fun digest hdigest => ?_) fun _ _ => ?_)
            · refine Prog.obeys_bind.mpr (attempt_obeys.mpr (lease_op
                ⟨hk₃.inside, hpid, port, owner, digest, hdigest, rfl, hcleared₃⟩ fun r hr => ?_))
              constructor
              · rintro ⟨⟩ rfl
                have hnew := hr rfl
                rw [hk₃.created] at hnew
                refine ⟨⟨hk₃.inside, ?_, hk₃.releasing⟩, hnew, digest, hdigest, rfl⟩
                exact congrArg (· ++ [_]) hk₃.created
              · rintro e rfl
                exact Prog.obeys_bind.mpr (op_keeps trivial (fun _ => rfl)
                  fun _ => ⟨hk₃.inside, hk₃.created, hk₃.releasing⟩)
            · exact Prog.obeys_bind.mpr (op_keeps trivial (fun _ => rfl) fun _ => hk₃)
          · rintro e k₃ hk₃
            exact Prog.obeys_bind.mpr (op_keeps trivial (fun _ => rfl) fun _ => hk₃)

/-- What has been written can be taken back. -/
lemma takeBack_obeys {names : List Str} (hk : k.Taking names) (hnodup : names.Nodup)
    (ports : List ℕ) :
    (takeBack ports names).Obeys (leaseRules c) (fun _ k' => k'.inside = true)
      (fun _ k' => k'.inside = true) k := by
  have hclose : (Prog.forEach ports fun port =>
      Prog.op LeaseOp.Resp PyError (.close port)).Obeys (leaseRules c) (fun _ k' => k' = k)
      (fun _ k' => k' = k) k := by
    refine Prog.obeys_forEach (I := fun k' => k' = k) rfl ?_
    intro port _ k₁ hk₁
    exact op_keeps trivial (fun _ => rfl) fun _ => hk₁
  refine Prog.obeys_bind.mpr (hclose.mono ?_ ?_)
  · intro _ k₁ hk₁
    subst hk₁
    clear hclose
    induction names generalizing k₁ with
    | nil => exact hk.inside
    | cons name names ih =>
        have hmem : name ∈ k₁.created := by
          rw [hk.created]
          exact List.mem_cons_self
        refine Prog.obeys_bind.mpr
          (attempt_obeys.mpr (lease_op ⟨hk.inside, .inl hmem⟩ fun r _ => ?_))
        constructor
        · rintro - rfl
          refine ih (List.nodup_cons.mp hnodup).2 _ ⟨hk.inside, ?_, ?_⟩
          · simp [LeaseKnown.learn, hk.created]
          · simp [LeaseKnown.learn, hk.releasing]
        · rintro e rfl
          exact hk.inside
  · intro _ k₁ hk₁
    rw [hk₁]
    exact hk.inside

/-- **The loop of `allocate`** returns the ports whose leases it has written. -/
lemma takePorts_obeys {pool : LocalPortLeasePool} {digest : Str} (hpid : 1 < c.process.pid)
    (hdigest : ownerDigest owner = some digest)
    (count : ℤ) (rest : List ℕ) (ports : List ℕ) (hports : (ports ++ rest).Nodup)
    (hk : k.Taking (ports.map fun port => c.process.leaseName port digest)) :
    (takePorts pool owner c.process.pid c.process.identity count rest ports
        (ports.map fun port => c.process.leaseName port digest)).Obeys (leaseRules c)
      (fun taken k' => k'.Taking (taken.map fun port => c.process.leaseName port digest))
      (fun _ k' => k'.inside = true) k := by
  have hnames : ∀ ports : List ℕ, ports.Nodup →
      (ports.map fun port => c.process.leaseName port digest).Nodup := by
    intro ports hports
    refine hports.map fun port port' h => ?_
    have hsame := congrArg portOf h
    rw [Process.leaseName, Process.leaseName, portOf_portLeaseName, portOf_portLeaseName] at hsame
    exact decimal_injective hsame
  have hdistinct := (List.nodup_append.mp hports).1
  induction rest generalizing ports k with
  | nil =>
      refine Prog.obeys_bind.mpr ((takeBack_obeys hk (hnames ports hdistinct) ports).mono ?_
        fun _ _ h => h)
      intro _ _ h
      exact h
  | cons port rest ih =>
      have hport : ∀ name ∈ ports.map fun port => c.process.leaseName port digest,
          portOf name ≠ decimal port := by
        intro name hname
        obtain ⟨port', hport', rfl⟩ := List.mem_map.mp hname
        rw [Process.leaseName, portOf_portLeaseName]
        intro h
        rw [decimal_injective h] at hport'
        exact (List.nodup_append.mp hports).2.2 port hport' port List.mem_cons_self rfl
      refine Prog.obeys_bind.mpr (Prog.obeys_tryCatch.mpr
        ((takePort_obeys hk hpid rfl hport).mono ?_ ?_))
      · intro x k₁ hx
        cases x with
        | none =>
            refine ih ports (hports.sublist ?_) hx hdistinct
            exact List.Sublist.append_left (List.sublist_cons_self port rest) ports
        | some name =>
            obtain ⟨hk₁, -, digest', hdigest', rfl⟩ := hx
            obtain rfl := Option.some.inj (hdigest.symm.trans hdigest')
            have hmap : (ports.map fun port => c.process.leaseName port digest)
                ++ [c.process.leaseName port digest]
                = (ports ++ [port]).map fun port => c.process.leaseName port digest := by
              rw [List.map_append, List.map_singleton]
            rw [hmap] at hk₁
            dsimp only
            split_ifs
            · exact hk₁
            · rw [hmap]
              have happend : (ports ++ [port]) ++ rest = ports ++ port :: rest := by simp
              refine ih (ports ++ [port]) (by rwa [happend]) hk₁ ?_
              exact (List.nodup_append.mp (by rwa [happend] : ((ports ++ [port]) ++ rest).Nodup)).1
      · intro e k₁ hk₁
        exact Prog.obeys_bind.mpr ((takeBack_obeys hk₁ (hnames ports hdistinct) ports).mono
          (fun _ _ h => h) fun _ _ h => h)

/-! ## The three methods -/

/-- The lock is taken in front of the body and given back behind it. -/
lemma locked_obeys {body : LeaseProgram α} {Q : α → LeaseKnown → Prop} (hk : k.inside = false)
    (hbody : body.Obeys (leaseRules c)
      (fun a k' => k'.inside = true ∧ Q a (k'.learn .unlock ()))
      (fun _ k' => k'.inside = true) (k.learn .lock (.ok ()))) :
    (locked body).Obeys (leaseRules c) Q (fun _ _ => True) k := by
  refine Prog.obeys_bind.mpr (attempt_obeys.mpr (lease_op hk fun r _ => ?_))
  refine ⟨?_, fun _ _ => trivial⟩
  rintro - rfl
  refine Prog.obeys_finallyDo.mpr (hbody.mono ?_ ?_)
  · intro a k₁ hq
    exact lease_op hq.1 fun _ _ => hq.2
  · intro e k₁ hk₁
    exact lease_op hk₁ fun _ _ => trivial

/-- The candidates are the ports of the range, each once. -/
lemma nodup_candidatePorts (pool : LocalPortLeasePool) (bytes : Bytes) :
    (pool.candidatePorts bytes).Nodup := by
  refine List.Nodup.map_on ?_ List.nodup_range
  intro i hi j hj hij
  rw [List.mem_range] at hi hj
  have hmod := Nat.add_left_cancel hij
  have hsame : i ≡ j [MOD pool.capacity] := Nat.ModEq.add_left_cancel' _ hmod
  exact Nat.ModEq.eq_of_lt_of_lt hsame hi hj

/-- **A reservation is made of the leases that its call has written.** -/
theorem allocatePool_obeys (pool : LocalPortLeasePool) (owner : Str) (pid count : ℤ) :
    (pool.allocate c.process.pid c.process.uid owner pid count).Obeys (leaseRules c)
      (fun r k' => k'.inside = false ∧ r.names = k'.created) (fun _ _ => True) {} := by
  unfold LocalPortLeasePool.allocate
  split_ifs with howner hpid hcount
  · trivial
  · trivial
  · trivial
  · obtain rfl : pid = c.process.pid := not_not.mp hpid
    refine Prog.obeys_bind.mpr ((identify_obeys c.process.pid).mono ?_ fun _ _ _ => trivial)
    rintro found k₁ ⟨rfl, hown⟩
    cases found with
    | none => trivial
    | some identity =>
        obtain ⟨rfl, hpid⟩ := hown rfl identity rfl
        dsimp only
        split_ifs
        · trivial
        · refine Prog.obeys_bind.mpr (locked_obeys rfl ?_)
          unfold LocalPortLeasePool.reserve
          cases hencode : encode owner with
          | none => rfl
          | some bytes =>
              have hdigest : ownerDigest owner = some (sha256Bytes bytes) := by
                rw [ownerDigest, hencode, Option.map_some]
              refine (takePorts_obeys hpid hdigest count _ [] ?_ ⟨rfl, rfl, rfl⟩).mono ?_
                fun _ _ h => h
              · exact nodup_candidatePorts pool bytes
              · intro ports k₂ hk₂
                refine ⟨hk₂.inside, rfl, ?_⟩
                refine Eq.trans ?_ hk₂.created.symm
                simp only [LocalPortReservation.names, hdigest, Option.getD_some]
                rfl

lemma releaseReservations_obeys (r : LocalPortReservation) :
    r.releaseReservations.Obeys (leaseRules c) (fun _ k' => k' = k) (fun _ _ => True) k := by
  refine Prog.obeys_forEach (I := fun k' => k' = k) rfl ?_
  intro port _ k₁ hk₁
  exact op_keeps trivial (fun _ => rfl) fun _ => hk₁

/-- **A release unlinks the leases of its reservation only.** -/
theorem releasePool_obeys (r : LocalPortReservation) (hk : k.inside = false)
    (hreleasing : k.releasing = r.names) (hnodup : r.names.Nodup) :
    r.release.Obeys (leaseRules c) (fun _ _ => True) (fun _ _ => True) k := by
  refine Prog.obeys_bind.mpr ((releaseReservations_obeys r).mono ?_ fun _ _ h => h)
  intro _ k₁ hk₁
  subst hk₁
  unfold releaseLeases
  split_ifs
  · trivial
  · refine locked_obeys hk ?_
    have hloop : ∀ (ports : List ℕ) (k : LeaseKnown), k.inside = true →
        (ports.map fun port => portLeaseName port ((ownerDigest r.owner).getD []) r.pid r.uid
          r.processDigest) = k.releasing → k.releasing.Nodup →
        (Prog.forEach ports fun port => do
          let digest ← requireDigest r.owner
          unlink (portLeaseName port digest r.pid r.uid r.processDigest)).Obeys (leaseRules c)
          (fun _ k' => k'.inside = true) (fun _ k' => k'.inside = true) k := by
      intro ports
      induction ports with
      | nil => exact fun _ hinside _ _ => hinside
      | cons port ports ih =>
          intro k hinside hnames hnodup
          rw [List.map_cons] at hnames
          refine Prog.obeys_bind.mpr (Prog.obeys_bind.mpr
            (requireDigest_obeys (fun digest hdigest => ?_) fun _ _ => hinside))
          rw [hdigest, Option.getD_some] at hnames ih
          have hmem : portLeaseName port digest r.pid r.uid r.processDigest ∈ k.releasing := by
            rw [← hnames]
            exact List.mem_cons_self
          refine attempt_obeys.mpr (lease_op ⟨hinside, .inr (.inl hmem)⟩ fun r' _ => ?_)
          refine ⟨?_, ?_⟩
          swap
          · rintro e rfl
            exact hinside
          rintro - rfl
          refine ih _ hinside ?_ (hnodup.erase _)
          simp only [LeaseKnown.learn, ← hnames, List.erase_cons_head]
    refine (hloop r.ports (k₁.learn .lock (.ok ())) rfl hreleasing.symm ?_).mono
      (fun _ _ h => ⟨h, trivial⟩) fun _ _ h => h
    exact hreleasing ▸ hnodup
  · trivial

/-- **The code of the three methods follows the protocol.** -/
theorem callers_sound (c : LeaseCaller) :
    (Machine.Thread.fresh (M := leases) c).Sound fun _ => True := by
  change c.program.Obeys (leaseRules c) (fun _ _ => True) (fun _ _ => True) {}
  unfold LeaseCaller.program
  cases c.call with
  | allocate pool owner pid count =>
      refine Prog.obeys_bind.mpr ((allocatePool_obeys pool owner pid count).mono ?_ fun _ _ h => h)
      intro r k' hk'
      exact lease_op hk' fun _ _ => trivial
  | releaseReservations r =>
      exact (releaseReservations_obeys r).mono (fun _ _ _ => trivial) fun _ _ h => h
  | release r =>
      refine Prog.obeys_bind.mpr (lease_op ⟨rfl, rfl⟩ fun _ hnodup => ?_)
      exact releasePool_obeys r rfl rfl hnodup

end FreebsdLaboratory
