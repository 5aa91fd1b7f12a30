import FreebsdLaboratory.Tunnels.Rollback

/-!
# What a call has, and gives back

The sockets and lease files of one call of `allocate`, whatever `ps` says about other processes: a
call that returns has those of its reservation, one that raises has none (`allocatePool_makes`), and
`release` gives all of them back (`release_made`).
-/

namespace FreebsdLaboratory

open Library Library.Unicode Library.Json

/-- A thread of the process whose operations end as `ok` says. -/
def calling (ok : Attempt → LeaseOp → LeaseChoice → Prop) (i : ℕ) (p : Process) :
    Protocol LeaseOp.Resp Attempt where
  permits _ _ := True
  moves t o r t' := ∃ choice w', ok t o choice ∧ t.world.perform i p o choice = some (r, w') ∧
    t' = t.next w' o r

/-- The operation spoils the call: it raises behind the creation of a lease, or leaves an own lease
there. -/
def Attempt.Spoils (t : Attempt) : LeaseOp → LeaseChoice → Prop
  | .write name, choice => choice = .failsLate ∧ name ∉ t.world.files ++ t.world.links
  | .unlink name, choice => choice ≠ .succeeds ∧ name ∈ t.mine
  | _, _ => False

/-- Operations that do not spoil the call. -/
abbrev unspoilt (i : ℕ) (p : Process) : Protocol LeaseOp.Resp Attempt :=
  calling (fun t o choice => ¬ t.Spoils o choice) i p

/-- The lock is taken and files are unlinked without an error. -/
def Succeeds (o : LeaseOp) (choice : LeaseChoice) : Prop :=
  (o = .lock ∨ ∃ name, o = .unlink name) → choice = .succeeds

/-- Operations that succeed. -/
abbrev succeeding (i : ℕ) (p : Process) : Protocol LeaseOp.Resp Attempt :=
  calling (fun _ => Succeeds) i p

/-- The call has these sockets and these lease files, and has added no other file to the
directory. -/
structure Attempt.Made (t : Attempt) (w : LeaseWorld) (ports : List ℕ) (names : List Str) :
    Prop where
  sockets : t.sockets.Perm ports
  mine : t.mine.Perm names
  files : ∀ name ∈ t.world.files, name ∈ w.files ∨ name ∈ names

/-- What `release` looks at before it unlinks anything. -/
structure LocalPortReservation.Releasable (r : LocalPortReservation) : Prop where
  ports : r.ports ≠ []
  owner : r.owner ≠ []
  pid : 1 < r.pid
  uid : 0 ≤ r.uid
  processDigest : r.processDigest ≠ []
  range : ∀ port ∈ r.ports, 1024 ≤ port ∧ port ≤ 65535
  ownerDigest : (ownerDigest r.owner).isSome

variable {ok : Attempt → LeaseOp → LeaseChoice → Prop} {t t' : Attempt} {w : LeaseWorld} {i : ℕ}
variable {p : Process} {port : ℕ} {name owner : Str} {ports : List ℕ} {names : List Str}

/-! ## Operations -/

lemma calling_op {o : LeaseOp} {Q : o.Resp → Attempt → Prop} {R : PyError → Attempt → Prop}
    (hq : ∀ choice r w', ok t o choice → t.world.perform i p o choice = some (r, w') →
      Q r (t.next w' o r)) : (Prog.op LeaseOp.Resp PyError o).Obeys (calling ok i p) Q R t := by
  refine ⟨trivial, ?_⟩
  rintro r t' ⟨choice, w', hok, hperform, rfl⟩
  exact hq choice r w' hok hperform

namespace Attempt.Made

lemma of_same (h : t.Made w ports names) (hfiles : t'.world.files = t.world.files)
    (hsockets : t'.sockets = t.sockets) (hmine : t'.mine = t.mine) : t'.Made w ports names :=
  ⟨hsockets ▸ h.sockets, hmine ▸ h.mine, hfiles ▸ h.files⟩

lemma identify {pid : ℤ} {found : Except PyError (Option ProcessIdentity)}
    (h : t.Made w ports names) :
    (t.next t.world (.identify pid) found).Made w ports names := by
  rcases found with e | _ | identity <;> exact h.of_same rfl rfl rfl

lemma close (h : t.Made w (port :: ports) names) :
    (t.next t.world (.close port) ()).Made w ports names := by
  have herase := h.sockets.erase port
  rw [List.erase_cons_head] at herase
  exact ⟨herase, h.mine, h.files⟩

/-- An own lease is unlinked. -/
lemma unlink_own (h : t.Made w ports (name :: names)) (w' : LeaseWorld)
    (hw' : w' = { t.world with
      files := t.world.files.filter (· ≠ name), links := t.world.links.filter (· ≠ name) }) :
    (t.next w' (.unlink name) (.ok ())).Made w ports names := by
  have herase := h.mine.erase name
  rw [List.erase_cons_head] at herase
  refine ⟨h.sockets, herase, ?_⟩
  subst hw'
  intro name' hname'
  obtain ⟨hfile, hne⟩ := List.mem_filter.mp hname'
  rcases h.files name' hfile with hthere | hmine
  · exact .inl hthere
  · exact .inr ((List.mem_cons.mp hmine).resolve_left (by simpa using hne))

/-- A lease of somebody else is unlinked. -/
lemma unlink_other (h : t.Made w ports names) (hname : name ∉ names) (w' : LeaseWorld)
    (hw' : w' = { t.world with
      files := t.world.files.filter (· ≠ name), links := t.world.links.filter (· ≠ name) }) :
    (t.next w' (.unlink name) (.ok ())).Made w ports names := by
  have hmine : name ∉ t.mine := fun hmem => hname (h.mine.mem_iff.mp hmem)
  have hsame : (t.next w' (.unlink name) (.ok ())).mine = t.mine := List.erase_of_not_mem hmine
  refine ⟨h.sockets, hsame ▸ h.mine, ?_⟩
  subst hw'
  exact fun name' hname' => h.files name' (List.mem_filter.mp hname').1

lemma write (h : t.Made w ports names) (w' : LeaseWorld)
    (hw' : w' = { t.world with files := name :: t.world.files }) :
    (t.next w' (.write name) (.ok ())).Made w ports (name :: names) := by
  refine ⟨h.sockets, h.mine.cons name, ?_⟩
  subst hw'
  intro name' hname'
  rcases List.mem_cons.mp hname' with rfl | hfile
  · exact .inr List.mem_cons_self
  · exact (h.files name' hfile).imp_right (List.mem_cons_of_mem name)

end Attempt.Made

/-! ## Giving back -/

/-- The sockets are closed one after another. -/
lemma closeAll_made {R : PyError → Attempt → Prop} (h : t.Made w ports names) :
    (Prog.forEach ports fun port => Prog.op LeaseOp.Resp PyError (.close port)).Obeys
    (calling ok i p)
      (fun _ t' => t'.Made w [] names) R t := by
  induction ports generalizing t with
  | nil => exact h
  | cons port ports ih =>
      refine Prog.obeys_bind.mpr (calling_op fun choice r w' _ hperform => ?_)
      obtain ⟨rfl, rfl⟩ := Prod.mk.inj (Option.some.inj hperform)
      exact ih h.close

/-- An own lease is unlinked where that cannot fail. -/
lemma unlink_made {R : PyError → Attempt → Prop}
    (hok : ∀ t name choice, name ∈ t.mine → ok t (.unlink name) choice → choice = .succeeds)
    (h : t.Made w ports (name :: names)) :
    (unlink name).Obeys (calling ok i p) (fun _ t' => t'.Made w ports names) R t := by
  have hmem : name ∈ t.mine := h.mine.mem_iff.mpr List.mem_cons_self
  refine attempt_obeys.mpr (calling_op fun choice r w' hchoice hperform => ?_)
  obtain rfl := hok t name choice hmem hchoice
  obtain ⟨rfl, rfl⟩ := Prod.mk.inj (Option.some.inj hperform)
  exact ⟨fun _ _ => h.unlink_own _ rfl, fun e h => by cases h⟩

/-- **Taking back** leaves nothing where own leases can be unlinked. -/
lemma takeBack_made {R : PyError → Attempt → Prop}
    (hok : ∀ t name choice, name ∈ t.mine → ok t (.unlink name) choice → choice = .succeeds)
    (h : t.Made w ports names) :
    (takeBack ports names).Obeys (calling ok i p) (fun _ t' => t'.Made w [] []) R t := by
  refine Prog.obeys_bind.mpr ((closeAll_made h).mono ?_ fun _ _ h => h)
  intro _ t₁ ht₁
  clear h
  induction names generalizing t₁ with
  | nil => exact ht₁
  | cons name names ih =>
      exact Prog.obeys_bind.mpr
        ((unlink_made hok ht₁).mono (fun _ t₂ ht₂ => ih t₂ ht₂) fun _ _ h => h)

lemma unspoilt_unlink (t : Attempt) (name : Str) (choice : LeaseChoice) (hmem : name ∈ t.mine)
    (hok : ¬ t.Spoils (.unlink name) choice) : choice = .succeeds := by
  by_contra hchoice
  exact hok ⟨hchoice, hmem⟩

/-! ## The loop -/

/-- Looking for live leases changes nothing. -/
lemma anyLive_made (h : t.Made w ports names) (port : ℕ) (listed : List Str) :
    (anyLive port listed).Obeys (calling ok i p) (fun _ t' => t'.Made w ports names)
      (fun _ t' => t'.Made w ports names) t := by
  have hperforms : (anyLive port listed).Performs
      fun o => (∃ name, o = .isSymlink name) ∨ ∃ pid, o = .identify pid := by
    induction listed with
    | nil => trivial
    | cons name listed ih =>
        refine Prog.Performs.bind (Prog.Performs.bind (Prog.Performs.bind
          (Prog.performs_op.mpr (.inl ⟨_, rfl⟩)) fun _ => Prog.performs_ofExcept) fun _ => trivial)
          fun x => ?_
        cases x with
        | none => exact ih
        | some s =>
            obtain ⟨pid, uid, digest⟩ := s
            refine Prog.Performs.bind ?_ fun b => ?_
            · unfold leaseMatches
              split_ifs
              · trivial
              · exact Prog.Performs.bind (Prog.Performs.bind (Prog.performs_op.mpr (.inr ⟨_, rfl⟩))
                  fun _ => Prog.performs_ofExcept) fun _ => trivial
            · cases b with
              | true => trivial
              | false => exact ih
  refine hperforms.keeps (fun _ _ _ => trivial) ?_ h
  rintro t o r t' (⟨name, rfl⟩ | ⟨pid, rfl⟩) ht ⟨choice, w', -, hperform, rfl⟩
  · cases choice <;> obtain ⟨rfl, rfl⟩ := Prod.mk.inj (Option.some.inj hperform) <;>
      exact ht.of_same rfl rfl rfl
  · obtain rfl := (LeaseWorld.of_identify hperform).1
    exact ht.identify

/-- Leases of another port than the own ones are unlinked. -/
lemma unlinkStale_made {listed : List Str} (h : t.Made w ports names)
    (hlisted : ∀ name ∈ listed, name ∉ names) :
    (Prog.forEach listed unlink).Obeys (calling ok i p) (fun _ t' => t'.Made w ports names)
      (fun _ t' => t'.Made w ports names) t := by
  refine Prog.obeys_forEach h fun name hname t₁ ht₁ => ?_
  refine attempt_obeys.mpr (calling_op fun choice r w' _ hperform => ?_)
  cases choice with
  | succeeds =>
      obtain ⟨rfl, rfl⟩ := Prod.mk.inj (Option.some.inj hperform)
      exact ⟨fun _ _ => ht₁.unlink_other (hlisted name hname) _ rfl, fun e h => by cases h⟩
  | _ =>
      obtain ⟨rfl, rfl⟩ := Prod.mk.inj (Option.some.inj hperform)
      exact ⟨(fun _ h => by cases h), fun e _ => ht₁.of_same rfl rfl rfl⟩

/-- A write that does not spoil the call makes the lease or only raises. -/
lemma write_made (h : t.Made w ports names) (name : Str) :
    (attempt (Prog.op LeaseOp.Resp PyError (.write name))).Obeys (unspoilt i p)
      (fun _ t' => t'.Made w ports (name :: names)) (fun _ t' => t'.Made w ports names) t := by
  refine attempt_obeys.mpr (calling_op fun choice r w' hok hperform => ?_)
  have hfails : w' = t.world → (t.next w' (.write name) (.error .osError)).Made w ports names := by
    rintro rfl
    have hnext : t.next t.world (.write name) (.error .osError) = t := by
      simp [Attempt.next]
    rw [hnext]
    exact h
  simp only [LeaseWorld.perform] at hperform
  split_ifs at hperform with hthere
  · obtain ⟨rfl, rfl⟩ := Prod.mk.inj (Option.some.inj hperform)
    exact ⟨(fun _ h => by cases h), fun _ _ => hfails rfl⟩
  · cases choice with
    | succeeds =>
        obtain ⟨rfl, rfl⟩ := Prod.mk.inj (Option.some.inj hperform)
        exact ⟨fun _ _ => h.write _ rfl, fun e h => by cases h⟩
    | failsLate => exact absurd ⟨rfl, hthere⟩ hok
    | _ =>
        obtain ⟨rfl, rfl⟩ := Prod.mk.inj (Option.some.inj hperform)
        exact ⟨(fun _ h => by cases h), fun _ _ => hfails rfl⟩

/-- The name of the lease that a call writes for a port. -/
def ownLease (owner : Str) (pid : ℤ) (identity : ProcessIdentity) (port : ℕ) : Str :=
  portLeaseName port ((ownerDigest owner).getD []) pid identity.uid (str identity.digest)

/-- **A round of the loop** opens one socket and creates one lease, or neither. -/
lemma takePort_made {pid : ℤ} {identity : ProcessIdentity} (h : t.Made w ports names)
    (hnames : ∀ name ∈ names, portOf name ≠ decimal port) :
    (takePort owner pid identity port).Obeys (unspoilt i p)
      (fun x t' => match x with
        | none => t'.Made w ports names
        | some name =>
            t'.Made w (port :: ports) (name :: names) ∧ (ownerDigest owner).isSome = true ∧
            name = ownLease owner pid identity port)
      (fun _ t' => t'.Made w ports names) t := by
  refine Prog.obeys_bind.mpr (attempt_obeys.mpr (calling_op fun choice r w' _ hperform => ?_))
  obtain ⟨rfl, rfl⟩ | ⟨e, rfl, rfl⟩ := LeaseWorld.of_glob hperform
  on_goal 2 => exact ⟨(fun _ h => by cases h), fun _ _ => h.of_same rfl rfl rfl⟩
  refine ⟨?_, fun e h => by cases h⟩
  rintro _ ⟨⟩
  have hlists : (t.next t.world (.glob port) (.ok ((t.world.files ++ t.world.links).filter
      (isLeaseOf port)))).Made w ports names := h.of_same rfl rfl rfl
  refine Prog.obeys_bind.mpr ((anyLive_made hlists port
    ((t.world.files ++ t.world.links).filter (isLeaseOf port))).mono ?_ fun _ _ h => h)
  intro live t₁ ht₁
  cases live with
  | true => exact ht₁
  | false =>
      have hlisted : ∀ name ∈ (t.world.files ++ t.world.links).filter (isLeaseOf port),
          name ∉ names := by
        intro name hname hmem
        exact hnames name hmem (portOf_of_isLeaseOf (List.mem_filter.mp hname).2)
      have hgivesUp : ∀ {t₂ : Attempt} (e : PyError) {Q : Option Str → Attempt → Prop},
          t₂.Made w (port :: ports) names → ((do
            Prog.op LeaseOp.Resp PyError (.close port)
            Prog.raise e : LeaseProgram (Option Str))).Obeys (unspoilt i p) Q
              (fun _ t' => t'.Made w ports names) t₂ := by
        intro t₂ e Q ht₂
        refine Prog.obeys_bind.mpr (calling_op fun choice r w' _ hperform => ?_)
        obtain ⟨rfl, rfl⟩ := Prod.mk.inj (Option.some.inj hperform)
        exact ht₂.close
      refine Prog.obeys_bind.mpr (attempt_obeys.mpr (calling_op fun choice r w' _ hperform => ?_))
      cases choice with
      | succeeds =>
          obtain ⟨rfl, rfl⟩ := Prod.mk.inj (Option.some.inj hperform)
          refine ⟨?_, fun e h => by cases h⟩
          rintro _ ⟨⟩
          have hbound : (t₁.next t₁.world (.bind port) (.ok true)).Made w (port :: ports) names :=
            ⟨ht₁.sockets.cons port, ht₁.mine, ht₁.files⟩
          refine Prog.obeys_tryCatch.mpr (Prog.obeys_bind.mpr
            ((unlinkStale_made hbound hlisted).mono ?_ fun e _ ht₂ => hgivesUp e ht₂))
          intro _ t₂ ht₂
          refine Prog.obeys_bind.mpr (requireDigest_obeys (fun digest hdigest => ?_)
            fun _ e => hgivesUp e ht₂)
          refine Prog.obeys_bind.mpr ((write_made ht₂ _).mono ?_ fun e _ ht₃ => hgivesUp e ht₃)
          intro _ t₃ ht₃
          exact ⟨ht₃, by rw [hdigest]; rfl, by rw [ownLease, hdigest]; rfl⟩
      | refuses =>
          obtain ⟨rfl, rfl⟩ := Prod.mk.inj (Option.some.inj hperform)
          refine ⟨?_, fun e h => by cases h⟩
          rintro _ ⟨⟩
          exact ht₁.of_same rfl rfl rfl
      | _ =>
          obtain ⟨rfl, rfl⟩ := Prod.mk.inj (Option.some.inj hperform)
          exact ⟨(fun _ h => by cases h), fun e _ => ht₁.of_same rfl rfl rfl⟩

/-- **The loop of `allocate`** returns with a lease for each of its ports, or raises with none. -/
lemma takePorts_made {pool : LocalPortLeasePool} {pid count : ℤ} {identity : ProcessIdentity} :
    ∀ (rest ports : List ℕ) (t : Attempt), (ports ++ rest).Nodup →
      t.Made w ports (ports.map (ownLease owner pid identity)) →
      (takePorts pool owner pid identity count rest ports
        (ports.map (ownLease owner pid identity))).Obeys (unspoilt i p)
        (fun taken t' => t'.Made w taken (taken.map (ownLease owner pid identity)) ∧ taken ≠ [] ∧
          (ownerDigest owner).isSome = true ∧ ∀ port ∈ taken, port ∈ ports ++ rest)
        (fun _ t' => t'.Made w [] []) t := by
  intro rest
  induction rest with
  | nil =>
      intro ports t _ h
      exact Prog.obeys_bind.mpr
        ((takeBack_made unspoilt_unlink h).mono (fun _ _ h => h) fun _ _ h => h)
  | cons port rest ih =>
      intro ports t hnodup h
      have hfresh : ∀ name ∈ ports.map (ownLease owner pid identity), portOf name
        ≠ decimal port := by
        intro name hname hport
        obtain ⟨port', hmem, rfl⟩ := List.mem_map.mp hname
        obtain rfl := decimal_injective (portOf_portLeaseName.symm.trans hport)
        exact (List.nodup_append.mp hnodup).2.2 port' hmem port' List.mem_cons_self rfl
      have happend : (ports ++ [port]) ++ rest = ports ++ port :: rest := by simp
      refine Prog.obeys_bind.mpr (Prog.obeys_tryCatch.mpr ((takePort_made h hfresh).mono ?_ ?_))
      · intro x t₁ hx
        cases x with
        | none =>
            have hsub : (ports ++ rest).Sublist (ports ++ port :: rest) :=
              List.Sublist.append_left (List.sublist_cons_self port rest) ports
            refine (ih ports t₁ (hnodup.sublist hsub) hx).mono ?_ fun _ _ h => h
            rintro taken t₂ ⟨hmade, hne, hdigest, hmem⟩
            exact ⟨hmade, hne, hdigest, fun port' hport' => hsub.subset (hmem port' hport')⟩
        | some name =>
            obtain ⟨ht₁, hdigest, rfl⟩ := hx
            have hmap : ports.map (ownLease owner pid identity)
              ++ [ownLease owner pid identity port]
                = (ports ++ [port]).map (ownLease owner pid identity) := by
              rw [List.map_append, List.map_singleton]
            have hmade : t₁.Made w (ports ++ [port])
                ((ports ++ [port]).map (ownLease owner pid identity)) := by
              rw [← hmap]
              refine ⟨ht₁.sockets.trans (List.perm_append_singleton port ports).symm,
                ht₁.mine.trans (List.perm_append_singleton _ _).symm, fun name hname => ?_⟩
              exact (ht₁.files name hname).imp_right
                (List.perm_append_singleton _ _).symm.mem_iff.mp
            dsimp only
            split_ifs
            · refine ⟨hmade, by simp, hdigest, fun port' hport' => ?_⟩
              rw [← happend]
              exact List.mem_append_left _ hport'
            · rw [hmap, ← happend]
              exact ih (ports ++ [port]) t₁ (by rwa [happend]) hmade
      · intro e t₁ ht₁
        exact Prog.obeys_bind.mpr ((takeBack_made unspoilt_unlink ht₁).mono (fun _ _ h => h)
          fun _ _ h => h)

/-! ## `allocate` and `release` -/

/-- Taking and giving back the lock around what is done under it. -/
lemma locked_made {α : Type} {body : LeaseProgram α} {Q : α → Attempt → Prop}
    {R : PyError → Attempt → Prop}
    (hlock : ∀ choice e, choice ≠ .succeeds → ok t .lock choice → R e t)
    (hkeeps : ∀ t' : Attempt, ∀ a, Q a t' →
      ∀ l, Q a { t' with world := { t'.world with locked := l } })
    (hraises : ∀ t' : Attempt, ∀ e, R e t' →
      ∀ l, R e { t' with world := { t'.world with locked := l } })
    (hbody : ∀ l, body.Obeys (calling ok i p) Q R
      { t with world := { t.world with locked := l } }) :
    (locked body).Obeys (calling ok i p) Q R t := by
  refine Prog.obeys_bind.mpr (attempt_obeys.mpr (calling_op fun choice r w' hok hperform => ?_))
  have hunlock : ∀ {t : Attempt} {Q : Unit → Attempt → Prop} {R : PyError → Attempt → Prop},
      Q () { t with world := { t.world with locked := none } } →
      (Prog.op LeaseOp.Resp PyError .unlock).Obeys (calling ok i p) Q R t := by
    intro t Q R hq
    refine calling_op fun choice r w' _ hperform => ?_
    obtain ⟨rfl, rfl⟩ := Prod.mk.inj (Option.some.inj hperform)
    exact hq
  cases choice with
  | succeeds =>
      simp only [LeaseWorld.perform] at hperform
      split_ifs at hperform
      obtain ⟨rfl, rfl⟩ := Prod.mk.inj (Option.some.inj hperform)
      refine ⟨fun _ _ => ?_, fun e h => by cases h⟩
      exact Prog.obeys_finallyDo.mpr ((hbody (some (i, p))).mono
        (fun a t' hq => hunlock (hkeeps t' a hq none)) fun e t' hr =>
        hunlock (hraises t' e hr none))
  | _ =>
      obtain ⟨rfl, rfl⟩ := Prod.mk.inj (Option.some.inj hperform)
      exact ⟨(fun _ h => by cases h), fun e _ => hlock _ e (by simp) hok⟩

/-- The call has the sockets and leases of the reservation, which can be released. -/
structure Attempt.Owns (t : Attempt) (w : LeaseWorld) (r : LocalPortReservation) : Prop where
  made : t.Made w r.ports r.names
  releasable : r.Releasable

/-- A process that is found has an id, a user and a fingerprint. -/
lemma of_identified {pid : ℤ} {choice : LeaseChoice} {identity : ProcessIdentity} {w' : LeaseWorld}
    (h : t.world.perform i p (.identify pid) choice = some (.ok (some identity), w')) :
    1 < pid ∧ 0 ≤ identity.uid ∧ str identity.digest ≠ [] := by
  have hfound := (LeaseWorld.of_identify h).2 identity rfl
  rw [LeaseWorld.identify] at hfound
  split_ifs at hfound with hpid hmax
  · cases hfound
  · obtain ⟨q, -, rfl⟩ := Option.map_eq_some_iff.mp (Except.ok.inj hfound)
    refine ⟨by omega, Int.natCast_nonneg q.uid, fun hnil => ?_⟩
    have hlength := (isHexDigest_processDigest q.uid q.startedAt).1
    rw [show str (processDigest q.uid q.startedAt) = [] from hnil] at hlength
    cases hlength

lemma Attempt.made_fresh (w : LeaseWorld) : (Attempt.fresh w).Made w [] [] :=
  ⟨.nil, .nil, fun _ h => .inl h⟩

/-- **A call of `allocate` that nothing spoils** returns with what its reservation says, or raises
with nothing. -/
theorem allocatePool_makes {pool : LocalPortLeasePool} {pid uid count : ℤ} :
    (pool.allocate pid uid owner pid count).Obeys (unspoilt i p) (fun r t' => t'.Owns w r)
      (fun _ t' => t'.Made w [] []) (Attempt.fresh w) := by
  have hfresh := Attempt.made_fresh w
  unfold LocalPortLeasePool.allocate
  split_ifs with howner hpid hcount
  · exact hfresh
  · exact hfresh
  · exact hfresh
  · refine Prog.obeys_bind.mpr (attempt_obeys.mpr (calling_op fun choice r w' _ hperform => ?_))
    have hworld : w' = w := (LeaseWorld.of_identify hperform).1
    subst hworld
    refine ⟨fun found hfound => ?_, fun e _ => hfresh.identify⟩
    subst hfound
    cases found with
    | none => exact hfresh.of_same rfl rfl rfl
    | some identity =>
        obtain ⟨hpid, huid, hdigest⟩ := of_identified hperform
        dsimp only
        split_ifs
        · exact hfresh
        · refine Prog.obeys_bind.mpr (locked_made (t := Attempt.fresh w')
            (fun _ _ _ _ => hfresh) ?_ ?_ fun l => ?_)
          · exact fun t' a h l => ⟨h.made.of_same rfl rfl rfl, h.releasable⟩
          · exact fun t' e h l => h.of_same rfl rfl rfl
          · unfold LocalPortLeasePool.reserve
            cases hencode : encode owner with
            | none => exact hfresh.of_same rfl rfl rfl
            | some bytes =>
                refine (takePorts_made (pool.candidatePorts bytes) []
                  { Attempt.fresh w' with world := { w' with locked := l } }
                  (nodup_candidatePorts pool bytes) (hfresh.of_same rfl rfl rfl)).mono ?_
                  fun _ _ h => h
                rintro taken t' ⟨hmade, hne, hsome, hmem⟩
                refine ⟨hmade, ⟨hne, howner, hpid, huid, hdigest, fun port hport => ?_, hsome⟩⟩
                have hrange := mem_candidatePorts.mp (hmem port hport)
                have hstart := pool.start_ge
                have hstop := pool.stop_le
                omega

/-- **`release` gives everything back.** -/
theorem release_made {r : LocalPortReservation} (h : t.Owns w r) :
    r.release.Obeys (succeeding i p) (fun _ t' => t'.Made w [] []) (fun _ _ => False) t := by
  obtain ⟨hmade, hr⟩ := h
  refine Prog.obeys_bind.mpr ((closeAll_made hmade).mono ?_ fun _ _ h => h)
  intro _ t₁ ht₁
  obtain ⟨digest, hdigest⟩ := Option.isSome_iff_exists.mp hr.ownerDigest
  have hguard : ¬ (r.ports = [] ∨ r.owner = [] ∨ r.pid ≤ 1 ∨ r.uid < 0 ∨ r.processDigest = []) := by
    have hpid := hr.pid
    have huid := hr.uid
    simp only [hr.ports, hr.owner, hr.processDigest, or_false, false_or]
    omega
  have hloop : ∀ (ports : List ℕ) (t : Attempt), t.Made w [] (ports.map fun port =>
      portLeaseName port digest r.pid r.uid r.processDigest) →
      (Prog.forEach ports fun port => do
        let digest ← requireDigest r.owner
        unlink (portLeaseName port digest r.pid r.uid r.processDigest)).Obeys (succeeding i p)
        (fun _ t' => t'.Made w [] []) (fun _ _ => False) t := by
    intro ports
    induction ports with
    | nil => exact fun t ht => ht
    | cons port ports ih =>
        intro t ht
        refine Prog.obeys_bind.mpr (Prog.obeys_bind.mpr (requireDigest_obeys ?_ fun hnone => ?_))
        · intro digest' hdigest'
          obtain rfl := Option.some.inj (hdigest.symm.trans hdigest')
          refine (unlink_made (fun _ name _ _ h => h (.inr ⟨name, rfl⟩)) ht).mono
            (fun _ t₂ ht₂ => ?_)
            fun _ _ h => h
          exact ih t₂ ht₂
        · rw [hdigest] at hnone
          cases hnone
  unfold releaseLeases
  rw [if_neg hguard, if_neg (not_not.mpr hr.range)]
  refine locked_made (fun choice _ hne hok => hne (hok (.inl rfl)))
    (fun _ _ h _ => h.of_same rfl rfl rfl)
    (fun _ _ h _ => h) fun l => hloop r.ports _ ?_
  rw [LocalPortReservation.names, hdigest] at ht₁
  exact ht₁.of_same rfl rfl rfl

end FreebsdLaboratory
