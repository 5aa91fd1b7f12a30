import FreebsdLaboratory.Tunnels.Vacancy

/-!
# What a failed call leaves behind

One call of `allocate` whose operations may end in any way.  `Attempt` is the world together with
what the call has open: its sockets, and the lease files that it has created.  An attempt is spoilt
by a write that fails when its file is there, and by an own lease that cannot be unlinked; nothing
else keeps the call from taking everything back.  It is misled where `ps` does not tell of a live
process and a lease of that process is unlinked; nothing else takes a lease from a live process.
-/

namespace FreebsdLaboratory

open Library Library.Unicode Library.Json

/-- The world, with what the call has made and what it was told. -/
structure Attempt where
  world : LeaseWorld
  /-- Ports with a listening socket of the call. -/
  sockets : List ℕ := []
  /-- Lease files that the call has created. -/
  mine : List Str := []
  /-- A write has failed behind the creation of its file, or an own lease could not be unlinked. -/
  spoilt : Bool := false
  /-- The port whose leases were listed last. -/
  port : ℕ := 0
  /-- Ids for which `ps` has told of no process. -/
  unseen : List ℤ := []
  /-- A lease has been unlinked whose process lives, and of which `ps` has not told. -/
  misled : Bool := false

/-- The lease is one of a live process of which `ps` has not told. -/
def Attempt.Misjudges (t : Attempt) (name : Str) : Prop :=
  name ∉ t.mine ∧ name ∈ t.world.files ∧ t.world.hasLive t.port name = true
    ∧ ∃ l, parseLeaseName name t.port = some l ∧ l.1 ∈ t.unseen

instance (t : Attempt) (name : Str) : Decidable (t.Misjudges name) :=
  inferInstanceAs
    (Decidable (_ ∧ _ ∧ _ ∧ ∃ l, parseLeaseName name t.port = some l ∧ l.1 ∈ t.unseen))

/-- What an operation adds and takes away. -/
def Attempt.next (t : Attempt) (w' : LeaseWorld) : (o : LeaseOp) → o.Resp → Attempt
  | .glob port, _ => { t with world := w', port := port }
  | .identify pid, .ok none => { t with world := w', unseen := pid :: t.unseen }
  | .bind port, .ok true => { t with world := w', sockets := port :: t.sockets }
  | .close port, _ => { t with world := w', sockets := t.sockets.erase port }
  | .write name, .ok _ => { t with world := w', mine := name :: t.mine }
  | .write name, .error _ =>
      if name ∈ w'.files ∧ name ∉ t.world.files then
        { t with world := w', mine := name :: t.mine, spoilt := true }
      else { t with world := w' }
  | .unlink name, .ok _ =>
      { t with
        world := w'
        mine := t.mine.erase name
        misled := t.misled || decide (t.Misjudges name) }
  | .unlink name, .error _ => { t with world := w', spoilt := t.spoilt || decide (name ∈ t.mine) }
  | _, _ => { t with world := w' }

/-- One call whose operations end in any way. -/
def attempts (i : ℕ) (c : LeaseCaller) : Protocol LeaseOp.Resp Attempt where
  permits _ _ := True
  moves t o r t' := ∃ choice w', t.world.exec i c o choice = some (r, w') ∧ t' = t.next w' o r

/-- Leases of live processes that were there in `w` are there, unless the call was misled; then one
of them is gone, or the call has created it again. -/
structure Attempt.Spares (t : Attempt) (w : LeaseWorld) : Prop where
  processes : t.world.processes = w.processes
  links : ∀ name ∈ t.world.links, name ∈ w.links
  keptLinks : ∀ name ∈ w.links, name ∈ t.world.files → name ∉ t.mine → name ∈ t.world.links
  old : ∀ name ∈ t.world.files, name ∈ w.files ∨ name ∈ t.mine
  files : t.misled = false → ∀ name ∈ w.files, ∀ port, isLeaseOf port name = true →
    w.hasLive port name = true → name ∈ t.world.files ∧ name ∉ t.mine
  misled : t.misled = true → ∃ name ∈ w.files, ∃ port, isLeaseOf port name = true ∧
    w.hasLive port name = true ∧ (name ∈ t.world.files → name ∈ t.mine)

/-- The call has these sockets and these lease files, and is not spoilt. -/
structure Attempt.Has (t : Attempt) (w : LeaseWorld) (ports : List ℕ) (names : List Str) :
    Prop where
  spares : t.Spares w
  sockets : t.sockets.Perm ports
  mine : t.mine.Perm names
  spoilt : t.spoilt = false

/-- The call has these sockets and has created these lease files, one of which it does not know of
if it is spoilt. -/
structure Attempt.Leaves (t : Attempt) (w : LeaseWorld) (ports : List ℕ) (names : List Str) :
    Prop where
  spares : t.Spares w
  sockets : t.sockets.Perm ports
  mine : (t.spoilt = false ∧ t.mine.Perm names) ∨ t.spoilt = true ∧ ∃ late,
    t.mine.Perm (late :: names)

/-- Everything has been taken back, unless the call is spoilt. -/
structure Attempt.Over (t : Attempt) (w : LeaseWorld) : Prop where
  spares : t.Spares w
  sockets : t.sockets = []
  mine : t.mine = [] ↔ t.spoilt = false

variable {t t' : Attempt} {w w' : LeaseWorld} {i : ℕ} {c : LeaseCaller} {port : ℕ}
variable {name owner digest : Str} {ports : List ℕ} {names : List Str}

/-! ## Operations -/

lemma attempt_op {o : LeaseOp} {Q : o.Resp → Attempt → Prop} {R : PyError → Attempt → Prop}
    (hq : ∀ choice r w', t.world.perform i c.process o choice = some (r, w') →
      Q r (t.next w' o r)) :
    (Prog.op LeaseOp.Resp PyError o).Obeys (attempts i c) Q R t := by
  refine ⟨trivial, ?_⟩
  rintro r t' ⟨choice, w', hexec, rfl⟩
  rw [LeaseWorld.exec] at hexec
  split_ifs at hexec
  exact hq choice r w' hexec

namespace LeaseWorld

variable {p : Process} {choice : LeaseChoice}

/-- What `ps` tells of a process is so. -/
lemma of_identify {pid : ℤ} {r : Except PyError (Option ProcessIdentity)}
    (h : w.perform i p (.identify pid) choice = some (r, w')) :
    w' = w ∧ ∀ identity, r = .ok (some identity) → w.identify pid = .ok (some identity) := by
  cases choice with
  | succeeds =>
      obtain ⟨rfl, rfl⟩ := Prod.mk.inj (Option.some.inj h)
      exact ⟨rfl, fun _ h => h⟩
  | fails =>
      obtain ⟨rfl, rfl⟩ := Prod.mk.inj (Option.some.inj h)
      refine ⟨rfl, fun identity hfound => ?_⟩
      rcases hps : w.identify pid with e | _ | found <;> rw [hps] at hfound <;> cases hfound
  | _ =>
      obtain ⟨rfl, rfl⟩ := Prod.mk.inj (Option.some.inj h)
      refine ⟨rfl, fun identity hfound => ?_⟩
      rcases hps : w.identify pid with e | found <;> rw [hps] at hfound <;> cases hfound

/-- The leases of a port are listed, or that fails. -/
lemma of_glob {r : Except PyError (List Str)}
    (h : w.perform i p (.glob port) choice = some (r, w')) :
    (r = .ok ((w.files ++ w.links).filter (isLeaseOf port)) ∧ w' = w) ∨
      ∃ e, r = .error e ∧ w' = w := by
  cases choice with
  | succeeds =>
      obtain ⟨rfl, rfl⟩ := Prod.mk.inj (Option.some.inj h)
      exact .inl ⟨rfl, rfl⟩
  | _ =>
      obtain ⟨rfl, rfl⟩ := Prod.mk.inj (Option.some.inj h)
      exact .inr ⟨_, rfl, rfl⟩

end LeaseWorld

/-! ## Looking for live leases -/

/-- `ps` has told of no process that has the id of the lease. -/
def Attempt.Doubts (t : Attempt) (port : ℕ) (name : Str) : Prop :=
  ∃ l, parseLeaseName name port = some l ∧ l.1 ∈ t.unseen

/-- Nothing has changed, but `ps` may have been asked. -/
structure Attempt.Asks (t t' : Attempt) : Prop where
  same : t' = { t with unseen := t'.unseen }
  unseen : t.unseen ⊆ t'.unseen

namespace Attempt.Asks

lemma refl (t : Attempt) : t.Asks t := ⟨rfl, List.Subset.refl _⟩

lemma trans {t'' : Attempt} (h : t.Asks t') (h' : t'.Asks t'') : t.Asks t'' where
  same := by
    rw [h'.same, h.same]
  unseen := List.Subset.trans h.unseen h'.unseen

lemma world (h : t.Asks t') : t'.world = t.world := by rw [h.same]

lemma doubts (h : t.Asks t') (hname : t.Doubts port name) : t'.Doubts port name := by
  obtain ⟨l, hparse, hmem⟩ := hname
  exact ⟨l, hparse, h.unseen hmem⟩

lemma identify {pid : ℤ} {found : Except PyError (Option ProcessIdentity)} :
    t.Asks (t.next t.world (.identify pid) found) := by
  rcases found with e | _ | identity
  · exact .refl t
  · exact ⟨rfl, List.subset_cons_self _ _⟩
  · exact .refl t

end Attempt.Asks

/-- The verdict on the process of a lease is right, where `ps` tells of the process. -/
lemma leaseMatches_attempts (hdistinct : ∀ p ∈ t.world.processes, ∀ q ∈ t.world.processes,
    p.pid = q.pid → p = q) {pid uid : ℤ} {fingerprint : Str}
    (hparse : parseLeaseName name port = some (pid, uid, fingerprint)) :
    (leaseMatches pid uid fingerprint).Obeys (attempts i c)
      (fun b t' => t.Asks t' ∧ (b = false → t.world.hasLive port name = true → t'.Doubts port name))
      (fun _ t' => t.Asks t') t := by
  obtain ⟨hpid, huid, hdigest⟩ := of_parseLeaseName hparse
  rw [leaseMatches, if_neg (not_unmatchable hpid huid hdigest)]
  refine Prog.obeys_bind.mpr (attempt_obeys.mpr (attempt_op fun choice r w' hexec => ?_))
  obtain ⟨rfl, hfound⟩ := LeaseWorld.of_identify hexec
  refine ⟨?_, fun _ _ => .identify⟩
  rintro found rfl
  cases found with
  | none =>
      exact ⟨.identify, fun _ _ => ⟨_, hparse, List.mem_cons_self⟩⟩
  | some identity =>
      have hidentity := hfound identity rfl
      have hfind : (t.world.processes.find? fun p => p.pid = pid).map Process.identity
        = some identity := by
        rw [LeaseWorld.identify, if_neg (by omega)] at hidentity
        split_ifs at hidentity
        exact Except.ok.inj hidentity
      have hmatch : _ = t.world.processes.any fun p => p.pid = pid && (p.uid : ℤ) = uid
          && str (processDigest p.uid p.startedAt) = fingerprint := LeaseWorld.matches_eq hdistinct
      rw [hfind] at hmatch
      refine ⟨.identify, fun hb hlive => ?_⟩
      simp only [LeaseWorld.hasLive, hparse, ← hmatch, Bool.and_eq_true] at hlive
      simp only [hlive.2.1, hlive.2.2, Bool.and_self] at hb
      cases hb

/-- **A live lease is found**, unless `ps` does not tell of its process. -/
lemma anyLive_attempts (hdistinct : ∀ p ∈ t.world.processes, ∀ q ∈ t.world.processes,
    p.pid = q.pid → p = q) (port : ℕ) (listed : List Str) :
    (anyLive port listed).Obeys (attempts i c)
      (fun b t' => t.Asks t' ∧ (b = false → ∀ name ∈ listed, t.world.hasLive port name = true →
        t'.Doubts port name))
      (fun _ t' => t.Asks t') t := by
  induction listed generalizing t with
  | nil => exact ⟨.refl t, by simp⟩
  | cons name listed ih =>
      have hskip : ∀ t₁, t.Asks t₁ → (t.world.hasLive port name = true → t₁.Doubts port name) →
          (anyLive port listed).Obeys (attempts i c)
            (fun b t' => t.Asks t' ∧ (b = false → ∀ name' ∈ name :: listed,
              t.world.hasLive port name' = true → t'.Doubts port name'))
            (fun _ t' => t.Asks t') t₁ := by
        intro t₁ hasks hname
        refine (ih (t := t₁) (hasks.world ▸ hdistinct)).mono ?_ fun _ _ h => hasks.trans h
        rintro b t₂ ⟨hasks', hrest⟩
        rw [hasks.world] at hrest
        refine ⟨hasks.trans hasks', fun hb => List.forall_mem_cons.mpr ⟨?_, hrest hb⟩⟩
        exact fun hlive => hasks'.doubts (hname hlive)
      refine Prog.obeys_bind.mpr (Prog.obeys_bind.mpr (attempt_obeys.mpr
        (attempt_op fun choice r w' hexec => ?_)))
      cases choice with
      | succeeds =>
          obtain ⟨rfl, rfl⟩ := Prod.mk.inj (Option.some.inj hexec)
          refine ⟨?_, fun e h => by cases h⟩
          rintro _ ⟨⟩
          by_cases hlink : name ∈ t.world.links
          · rw [decide_eq_true hlink]
            exact hskip t (.refl t) fun hlive => by simp [LeaseWorld.hasLive, hlink] at hlive
          · rw [decide_eq_false hlink, if_neg Bool.false_ne_true]
            cases hparse : parseLeaseName name port with
            | none =>
                exact hskip t (.refl t) fun hlive => by simp [LeaseWorld.hasLive, hparse] at hlive
            | some s =>
                obtain ⟨pid, uid, fingerprint⟩ := s
                refine Prog.obeys_bind.mpr
                  ((leaseMatches_attempts hdistinct hparse).mono ?_ fun _ _ h => h)
                rintro b t₁ ⟨hasks, hverdict⟩
                cases b with
                | false => exact hskip t₁ hasks (hverdict rfl)
                | true => exact ⟨hasks, fun h => by cases h⟩
      | _ =>
          obtain ⟨rfl, rfl⟩ := Prod.mk.inj (Option.some.inj hexec)
          exact ⟨(fun _ h => by cases h), fun _ _ => .refl t⟩

/-! ## Taking back -/

namespace Attempt

lemma Has.leaves (h : t.Has w ports names) : t.Leaves w ports names :=
  ⟨h.spares, h.sockets, .inl ⟨h.spoilt, h.mine⟩⟩

namespace Spares

/-- Directory and own leases are the same. -/
lemma of_same (h : t.Spares w) (hprocesses : t'.world.processes = t.world.processes)
    (hlinks : t'.world.links = t.world.links) (hfiles : t'.world.files = t.world.files)
    (hmine : t'.mine = t.mine) (hmisled : t'.misled = t.misled) : t'.Spares w where
  processes := hprocesses.trans h.processes
  links := hlinks ▸ h.links
  keptLinks := by
    rw [hfiles, hmine, hlinks]
    exact h.keptLinks
  old := by
    rw [hfiles, hmine]
    exact h.old
  files := by
    rw [hmisled, hfiles, hmine]
    exact h.files
  misled := by
    rw [hmisled, hfiles, hmine]
    exact h.misled

lemma of_asks (h : t.Spares w) (hasks : t.Asks t') : t'.Spares w := by
  rw [hasks.same]
  exact h.of_same rfl rfl rfl rfl rfl

/-- A live lease that was there is one now. -/
lemma live (h : t.Spares w) (hlive : w.hasLive port name = true) :
    t.world.hasLive port name = true := by
  simp only [LeaseWorld.hasLive, Bool.and_eq_true, decide_eq_true_eq] at hlive
  have hlink : name ∉ t.world.links := fun hmem => hlive.1 (h.links name hmem)
  simp only [LeaseWorld.hasLive, h.processes, hlive.2, decide_eq_true hlink, Bool.and_true]

/-- The world and the own leases when a name is unlinked. -/
lemma unlink_step (h : t.Spares w) (name : Str)
    (hworld : t'.world = { t.world with
      files := t.world.files.filter (· ≠ name), links := t.world.links.filter (· ≠ name) })
    (hmine : t'.mine = t.mine.erase name)
    (hfiles : t'.misled = false → ∀ name' ∈ w.files, ∀ port, isLeaseOf port name' = true →
      w.hasLive port name' = true → name' ∈ t.world.files ∧ name' ∉ t.mine ∧ name' ≠ name)
    (hmisled : t'.misled = true → ∃ name' ∈ w.files, ∃ port, isLeaseOf port name' = true ∧
      w.hasLive port name' = true ∧ (name' ∈ t.world.files → name' ∈ t.mine ∨ name' = name)) :
    t'.Spares w where
  processes := by
    rw [hworld]
    exact h.processes
  links name' hname' := by
    rw [hworld] at hname'
    exact h.links name' (List.mem_filter.mp hname').1
  keptLinks name' hname' hfile hnot := by
    rw [hworld] at hfile ⊢
    obtain ⟨hfile, hne⟩ := List.mem_filter.mp hfile
    rw [hmine, List.mem_erase_of_ne (by simpa using hne)] at hnot
    exact List.mem_filter.mpr ⟨h.keptLinks name' hname' hfile hnot, hne⟩
  old name' hfile := by
    rw [hworld] at hfile
    obtain ⟨hfile, hne⟩ := List.mem_filter.mp hfile
    rw [hmine, List.mem_erase_of_ne (by simpa using hne)]
    exact h.old name' hfile
  files hgood name' hname' port hport hlive := by
    obtain ⟨hfile, hnot, hne⟩ := hfiles hgood name' hname' port hport hlive
    rw [hworld, hmine]
    exact ⟨List.mem_filter.mpr ⟨hfile, by simpa using hne⟩,
      fun hmem => hnot (List.mem_of_mem_erase hmem)⟩
  misled hbad := by
    obtain ⟨name', hname', port, hport, hlive, hgone⟩ := hmisled hbad
    refine ⟨name', hname', port, hport, hlive, fun hfile => ?_⟩
    rw [hworld] at hfile
    obtain ⟨hfile, hne⟩ := List.mem_filter.mp hfile
    rw [hmine, List.mem_erase_of_ne (by simpa using hne)]
    exact (hgone hfile).resolve_right (by simpa using hne)

/-- An own lease is unlinked. -/
lemma unlink_own (h : t.Spares w) (hmem : name ∈ t.mine) (w' : LeaseWorld)
    (hw' : w' = { t.world with
      files := t.world.files.filter (· ≠ name), links := t.world.links.filter (· ≠ name) }) :
    (t.next w' (.unlink name) (.ok ())).Spares w := by
  have hjudged : ¬ t.Misjudges name := fun hmisjudges => hmisjudges.1 hmem
  have hmisled : (t.next w' (.unlink name) (.ok ())).misled = t.misled := by
    simp [Attempt.next, hjudged]
  refine h.unlink_step name (hw' ▸ rfl) rfl ?_ ?_
  · intro hgood name' hname' port hport hlive
    obtain ⟨hfile, hnot⟩ := h.files (hmisled ▸ hgood) name' hname' port hport hlive
    refine ⟨hfile, hnot, ?_⟩
    rintro rfl
    exact hnot hmem
  · intro hbad
    obtain ⟨name', hname', port, hport, hlive, hgone⟩ := h.misled (hmisled ▸ hbad)
    exact ⟨name', hname', port, hport, hlive, fun hfile => .inl (hgone hfile)⟩

/-- A listed lease is unlinked: if it is one of a live process, the call is misled. -/
lemma unlink_listed (h : t.Spares w) (hmine : name ∉ t.mine) (hport : isLeaseOf t.port name = true)
    (hdoubts : w.hasLive t.port name = true → t.Doubts t.port name) (w' : LeaseWorld)
    (hw' : w' = { t.world with
      files := t.world.files.filter (· ≠ name), links := t.world.links.filter (· ≠ name) }) :
    (t.next w' (.unlink name) (.ok ())).Spares w := by
  have hmisled : (t.next w' (.unlink name) (.ok ())).misled
      = (t.misled || decide (t.Misjudges name)) := rfl
  refine h.unlink_step name (hw' ▸ rfl) rfl ?_ ?_
  · intro hgood name' hname' port' hport' hlive
    rw [hmisled, Bool.or_eq_false_iff, decide_eq_false_iff_not] at hgood
    obtain ⟨hfile, hnot⟩ := h.files hgood.1 name' hname' port' hport' hlive
    refine ⟨hfile, hnot, ?_⟩
    rintro rfl
    obtain rfl : port' = t.port :=
      decimal_injective ((portOf_of_isLeaseOf hport').symm.trans (portOf_of_isLeaseOf hport))
    exact hgood.2 ⟨hmine, hfile, h.live hlive, hdoubts hlive⟩
  · intro hbad
    rw [hmisled, Bool.or_eq_true, decide_eq_true_eq] at hbad
    rcases hbad with hbad | ⟨-, hfile, hlive, -⟩
    · obtain ⟨name', hname', port', hport', hlive', hgone⟩ := h.misled hbad
      exact ⟨name', hname', port', hport', hlive', fun hfile => .inl (hgone hfile)⟩
    · refine ⟨name, (h.old name hfile).resolve_right hmine, t.port, hport, ?_, fun _ => .inr rfl⟩
      simp only [LeaseWorld.hasLive, Bool.and_eq_true, decide_eq_true_eq, h.processes] at hlive ⊢
      exact ⟨fun hlink => hlive.1 (h.keptLinks name hlink hfile hmine), hlive.2⟩

/-- A lease is created, which was not there. -/
lemma write (h : t.Spares w) (hnew : name ∉ t.world.files)
    (hworld : t'.world = { t.world with files := name :: t.world.files })
    (hmine : t'.mine = name :: t.mine) (hmisled : t'.misled = t.misled) : t'.Spares w where
  processes := by
    rw [hworld]
    exact h.processes
  links := by
    rw [hworld]
    exact h.links
  keptLinks name' hname' hfile hnot := by
    rw [hworld] at hfile ⊢
    rw [hmine] at hnot
    obtain ⟨hne, hnot⟩ := List.ne_and_not_mem_of_not_mem_cons hnot
    exact h.keptLinks name' hname' ((List.mem_cons.mp hfile).resolve_left hne) hnot
  old name' hfile := by
    rw [hworld] at hfile
    rw [hmine]
    rcases List.mem_cons.mp hfile with rfl | hfile
    · exact .inr List.mem_cons_self
    · exact (h.old name' hfile).imp_right (List.mem_cons_of_mem name)
  files hgood name' hname' port hport hlive := by
    obtain ⟨hfile, hnot⟩ := h.files (hmisled ▸ hgood) name' hname' port hport hlive
    rw [hworld, hmine]
    refine ⟨List.mem_cons_of_mem _ hfile, List.not_mem_cons_of_ne_of_not_mem ?_ hnot⟩
    rintro rfl
    exact hnew hfile
  misled hbad := by
    obtain ⟨name', hname', port, hport, hlive, hgone⟩ := h.misled (hmisled ▸ hbad)
    refine ⟨name', hname', port, hport, hlive, fun hfile => ?_⟩
    rw [hworld] at hfile
    rw [hmine]
    rcases List.mem_cons.mp hfile with rfl | hfile
    · exact List.mem_cons_self
    · exact List.mem_cons_of_mem name (hgone hfile)

end Spares

end Attempt

lemma closeAll_attempts (ports : List ℕ) (hsockets : t.sockets.Perm ports)
    {R : PyError → Attempt → Prop} :
    (Prog.forEach ports fun port => Prog.op LeaseOp.Resp PyError (.close port)).Obeys (attempts i c)
      (fun _ t' => t' = { t with sockets := [] }) R t := by
  induction ports generalizing t with
  | nil =>
      have hnone := List.perm_nil.mp hsockets
      change t = { t with sockets := [] }
      rw [← hnone]
  | cons port ports ih =>
      refine Prog.obeys_bind.mpr (attempt_op fun choice r w' h => ?_)
      obtain ⟨rfl, rfl⟩ := Prod.mk.inj (Option.some.inj h)
      have herase := hsockets.erase port
      rw [List.erase_cons_head] at herase
      exact ih (t := { t with sockets := t.sockets.erase port }) herase

/-- **Taking back** leaves nothing, unless the call is spoilt. -/
lemma takeBack_attempts (h : t.Leaves w ports names) : (takeBack ports names).Obeys (attempts i c)
    (fun _ t' => t'.Over w) (fun _ t' => t'.Over w) t := by
  refine Prog.obeys_bind.mpr ((closeAll_attempts ports h.sockets).mono ?_ fun _ _ h => h)
  rintro - _ rfl
  have hspares : ({ t with sockets := [] } : Attempt).Spares w :=
    h.spares.of_same rfl rfl rfl rfl rfl
  have hmine : (({ t with sockets := [] } : Attempt).spoilt = false ∧
      ({ t with sockets := [] } : Attempt).mine.Perm names) ∨
      ({ t with sockets := [] } : Attempt).spoilt = true ∧
        ∃ late, ({ t with sockets := [] } : Attempt).mine.Perm (late :: names) := h.mine
  have hsockets : ({ t with sockets := [] } : Attempt).sockets = [] := rfl
  generalize ({ t with sockets := [] } : Attempt) = t₁ at hspares hmine hsockets
  clear h
  induction names generalizing t₁ with
  | nil =>
      refine ⟨hspares, hsockets, ?_⟩
      rcases hmine with ⟨hgood, hnone⟩ | ⟨hspoilt, late, hlate⟩
      · simp [hgood, List.perm_nil.mp hnone]
      · have hsome : t₁.mine ≠ [] := by
          intro hnil
          rw [hnil] at hlate
          exact absurd hlate.length_eq (by simp)
        simp [hspoilt, hsome]
  | cons name names ih =>
      have hmem : name ∈ t₁.mine := by
        rcases hmine with ⟨-, hperm⟩ | ⟨-, late, hperm⟩
        · exact hperm.mem_iff.mpr List.mem_cons_self
        · exact hperm.mem_iff.mpr (List.mem_cons_of_mem _ List.mem_cons_self)
      refine Prog.obeys_bind.mpr (attempt_obeys.mpr (attempt_op fun choice r w' hexec => ?_))
      have hfails : r = .error .osError → w' = t₁.world →
          (∀ a, r = .ok a → (Prog.forEach names unlink).Obeys (attempts i c)
            (fun _ t' => t'.Over w) (fun _ t' => t'.Over w) (t₁.next w' (.unlink name) r)) ∧
          ∀ e, r = .error e → (t₁.next w' (.unlink name) r).Over w := by
        rintro rfl rfl
        refine ⟨(fun a h => by cases h),
          fun e _ => ⟨hspares.of_same rfl rfl rfl rfl rfl, hsockets, ?_⟩⟩
        have hsome : t₁.mine ≠ [] := List.ne_nil_of_mem hmem
        simp [Attempt.next, hmem, hsome]
      cases choice with
      | succeeds =>
          obtain ⟨rfl, rfl⟩ := Prod.mk.inj (Option.some.inj hexec)
          refine ⟨fun _ _ => ih _ (hspares.unlink_own hmem _ rfl) ?_ hsockets,
            fun e h => by cases h⟩
          rcases hmine with ⟨hgood, hperm⟩ | ⟨hspoilt, late, hperm⟩
          · refine .inl ⟨hgood, ?_⟩
            have herase := hperm.erase name
            rwa [List.erase_cons_head] at herase
          · refine .inr ⟨hspoilt, late, ?_⟩
            have herase := (hperm.trans (List.Perm.swap name late names)).erase name
            rwa [List.erase_cons_head] at herase
      | _ =>
          obtain ⟨rfl, rfl⟩ := Prod.mk.inj (Option.some.inj hexec)
          exact hfails rfl rfl

/-! ## The loop -/

/-- The listed leases of a port are unlinked, where `ps` has not told of a process of theirs. -/
lemma unlinkStale_attempts {listed : List Str} (h : t.Has w ports names)
    (hlisted : ∀ name ∈ listed, isLeaseOf t.port name = true ∧ name ∉ names ∧
      (w.hasLive t.port name = true → t.Doubts t.port name)) :
    (Prog.forEach listed unlink).Obeys (attempts i c) (fun _ t' => t'.Has w ports names)
      (fun _ t' => t'.Has w ports names) t := by
  have hloop : (Prog.forEach listed unlink).Obeys (attempts i c)
      (fun _ t' => t'.Has w ports names ∧ t'.port = t.port ∧ t'.unseen = t.unseen)
      (fun _ t' => t'.Has w ports names ∧ t'.port = t.port ∧ t'.unseen = t.unseen) t := by
    refine Prog.obeys_forEach ⟨h, rfl, rfl⟩ ?_
    rintro name hname t₁ ⟨ht₁, hport₁, hunseen⟩
    obtain ⟨hport, hnot, hdoubts⟩ := hlisted name hname
    have hmine : name ∉ t₁.mine := fun hmem => hnot (ht₁.mine.mem_iff.mp hmem)
    have hdoubts₁ : w.hasLive t₁.port name = true → t₁.Doubts t₁.port name := by
      rw [Attempt.Doubts, hport₁, hunseen]
      exact hdoubts
    refine attempt_obeys.mpr (attempt_op fun choice r w' hexec => ?_)
    cases choice with
    | succeeds =>
        obtain ⟨rfl, rfl⟩ := Prod.mk.inj (Option.some.inj hexec)
        refine ⟨fun _ _ => ⟨⟨?_, ht₁.sockets, ?_, ht₁.spoilt⟩, hport₁, hunseen⟩,
          fun e h => by cases h⟩
        · exact ht₁.spares.unlink_listed hmine (hport₁ ▸ hport) hdoubts₁ _ rfl
        · change (t₁.mine.erase name).Perm names
          rw [List.erase_of_not_mem hmine]
          exact ht₁.mine
    | _ =>
        obtain ⟨rfl, rfl⟩ := Prod.mk.inj (Option.some.inj hexec)
        refine ⟨(fun _ h => by cases h),
          fun e _ => ⟨⟨?_, ht₁.sockets, ht₁.mine, ?_⟩, hport₁, hunseen⟩⟩
        · exact ht₁.spares.of_same rfl rfl rfl rfl rfl
        · simp [Attempt.next, ht₁.spoilt, hmine]
  exact hloop.mono (fun _ _ h => h.1) fun _ _ h => h.1

/-- The socket of a port that is given up is closed. -/
lemma giveUp_attempts (h : t.Leaves w (port :: ports) names) (e : PyError) {α : Type}
    {Q : α → Attempt → Prop} :
    ((do
      Prog.op LeaseOp.Resp PyError (.close port)
      Prog.raise e :
        LeaseProgram α)).Obeys (attempts i c) Q (fun _ t' => t'.Leaves w ports names) t := by
  refine Prog.obeys_bind.mpr (attempt_op fun choice r w' hexec => ?_)
  obtain ⟨rfl, rfl⟩ := Prod.mk.inj (Option.some.inj hexec)
  have herase := h.sockets.erase port
  rw [List.erase_cons_head] at herase
  exact ⟨h.spares.of_same rfl rfl rfl rfl rfl, herase, h.mine⟩

/-- **A write** makes the lease, makes it and raises, or only raises. -/
lemma write_attempts (h : t.Has w ports names) (name : Str) :
    (attempt (Prog.op LeaseOp.Resp PyError (.write name))).Obeys (attempts i c)
      (fun _ t' => t'.Has w ports (name :: names)) (fun _ t' => t'.Leaves w ports names) t := by
  refine attempt_obeys.mpr (attempt_op fun choice r w' hexec => ?_)
  have hfails : w' = t.world → (t.next w' (.write name) (.error .osError)).Leaves w
    ports names := by
    rintro rfl
    have hnext : t.next t.world (.write name) (.error .osError) = t := by
      simp [Attempt.next]
    rw [hnext]
    exact h.leaves
  simp only [LeaseWorld.perform] at hexec
  split_ifs at hexec with hthere
  · obtain ⟨rfl, rfl⟩ := Prod.mk.inj (Option.some.inj hexec)
    exact ⟨(fun _ h => by cases h), fun _ _ => hfails rfl⟩
  · have hnew : name ∉ t.world.files := fun hmem => hthere (List.mem_append_left _ hmem)
    cases choice with
    | succeeds =>
        obtain ⟨rfl, rfl⟩ := Prod.mk.inj (Option.some.inj hexec)
        exact ⟨fun _ _ => ⟨h.spares.write hnew rfl rfl rfl, h.sockets, h.mine.cons name, h.spoilt⟩,
          fun e h => by cases h⟩
    | failsLate =>
        obtain ⟨rfl, rfl⟩ := Prod.mk.inj (Option.some.inj hexec)
        refine ⟨(fun _ h => by cases h), fun _ _ => ?_⟩
        have hnext : t.next { t.world with files := name :: t.world.files } (.write name)
            (.error .osError) = { t with
              world := { t.world with files := name :: t.world.files }
              mine := name :: t.mine
              spoilt := true } := by
          simp [Attempt.next, hnew]
        rw [hnext]
        exact ⟨h.spares.write hnew rfl rfl rfl, h.sockets, .inr ⟨rfl, name, h.mine.cons name⟩⟩
    | _ =>
        obtain ⟨rfl, rfl⟩ := Prod.mk.inj (Option.some.inj hexec)
        exact ⟨(fun _ h => by cases h), fun _ _ => hfails rfl⟩

/-- **A round of the loop** opens one socket and creates one lease, or neither. -/
lemma takePort_attempts {pid : ℤ} {identity : ProcessIdentity}
    (hdistinct : ∀ p ∈ w.processes, ∀ q ∈ w.processes, p.pid = q.pid → p = q)
    (h : t.Has w ports names) (hnames : ∀ name ∈ names, portOf name ≠ decimal port) :
    (takePort owner pid identity port).Obeys (attempts i c)
      (fun x t' => match x with
        | none => t'.Has w ports names
        | some name => t'.Has w (port :: ports) (name :: names) ∧ portOf name = decimal port)
      (fun _ t' => t'.Leaves w ports names) t := by
  refine Prog.obeys_bind.mpr (attempt_obeys.mpr (attempt_op fun choice r w' hexec => ?_))
  have hlists : ∀ r, (t.next t.world (.glob port) r).Has w ports names := fun r =>
    ⟨h.spares.of_same rfl rfl rfl rfl rfl, h.sockets, h.mine, h.spoilt⟩
  obtain ⟨rfl, rfl⟩ | ⟨e, rfl, rfl⟩ := LeaseWorld.of_glob hexec
  on_goal 2 => exact ⟨(fun _ h => by cases h), fun _ _ => (hlists _).leaves⟩
  refine ⟨?_, fun e h => by cases h⟩
  rintro _ ⟨⟩
  have hlooks : ∀ {t₁}, (t.next t.world (.glob port) (.ok ((t.world.files ++ t.world.links).filter
      (isLeaseOf port)))).Asks t₁ → t₁.Has w ports names := fun hasks =>
    ⟨(hlists _).spares.of_asks hasks, hasks.same ▸ h.sockets, hasks.same ▸ h.mine,
      hasks.same ▸ h.spoilt⟩
  refine Prog.obeys_bind.mpr ((anyLive_attempts (t := t.next t.world (.glob port) _)
    (h.spares.processes ▸ hdistinct) port _).mono ?_ fun _ _ hasks => (hlooks hasks).leaves)
  · rintro live t₁ ⟨hasks, hdoubts⟩
    have h₁ := hlooks hasks
    have hport₁ : t₁.port = port := by rw [hasks.same]; rfl
    cases live with
    | true => exact h₁
    | false =>
        have hlisted : ∀ name ∈ (t.world.files ++ t.world.links).filter (isLeaseOf port),
            isLeaseOf t₁.port name = true ∧ name ∉ names ∧
              (w.hasLive t₁.port name = true → t₁.Doubts t₁.port name) := by
          rw [hport₁]
          intro name hname
          have hport := (List.mem_filter.mp hname).2
          exact ⟨hport, fun hmem => hnames name hmem (portOf_of_isLeaseOf hport),
            fun hlive => hdoubts rfl name hname (h.spares.live hlive)⟩
        refine Prog.obeys_bind.mpr (attempt_obeys.mpr (attempt_op fun choice r w' hexec => ?_))
        cases choice with
        | succeeds =>
            obtain ⟨rfl, rfl⟩ := Prod.mk.inj (Option.some.inj hexec)
            refine ⟨?_, fun e h => by cases h⟩
            rintro _ ⟨⟩
            have hbound : (t₁.next t₁.world (.bind port) (.ok true)).Has w (port :: ports) names :=
              ⟨h₁.spares.of_same rfl rfl rfl rfl rfl, h₁.sockets.cons port, h₁.mine, h₁.spoilt⟩
            refine Prog.obeys_tryCatch.mpr (Prog.obeys_bind.mpr
              ((unlinkStale_attempts hbound hlisted).mono ?_ ?_))
            · intro _ t₂ ht₂
              refine Prog.obeys_bind.mpr (requireDigest_obeys (fun digest _ => ?_) fun _ e => ?_)
              · refine Prog.obeys_bind.mpr ((write_attempts ht₂ _).mono ?_ ?_)
                · intro _ t₃ ht₃
                  exact ⟨ht₃, portOf_portLeaseName⟩
                · intro e t₃ ht₃
                  exact giveUp_attempts ht₃ e
              · exact giveUp_attempts ht₂.leaves e
            · intro e t₂ ht₂
              exact giveUp_attempts ht₂.leaves e
        | refuses =>
            obtain ⟨rfl, rfl⟩ := Prod.mk.inj (Option.some.inj hexec)
            refine ⟨?_, fun e h => by cases h⟩
            rintro _ ⟨⟩
            exact h₁
        | _ =>
            obtain ⟨rfl, rfl⟩ := Prod.mk.inj (Option.some.inj hexec)
            exact ⟨(fun _ h => by cases h), fun e _ => h₁.leaves⟩

/-- **The loop of `allocate`** raises only when everything has been taken back. -/
lemma takePorts_attempts {pool : LocalPortLeasePool} {pid count : ℤ} {identity : ProcessIdentity}
    (hdistinct : ∀ p ∈ w.processes, ∀ q ∈ w.processes, p.pid = q.pid → p = q) :
    ∀ (rest ports : List ℕ) (names : List Str) (t : Attempt), (ports ++ rest).Nodup →
      t.Has w ports names → (∀ name ∈ names, ∃ port ∈ ports, portOf name = decimal port) →
      (takePorts pool owner pid identity count rest ports names).Obeys (attempts i c)
        (fun _ t' => t'.Spares w) (fun _ t' => t'.Over w) t := by
  intro rest
  induction rest with
  | nil =>
      intro ports names t _ h _
      exact Prog.obeys_bind.mpr ((takeBack_attempts h.leaves).mono (fun _ _ h => h) fun _ _ h => h)
  | cons port rest ih =>
      intro ports names t hnodup h hnames
      have hfresh : ∀ name ∈ names, portOf name ≠ decimal port := by
        intro name hname hport
        obtain ⟨port', hmem, hof⟩ := hnames name hname
        obtain rfl := decimal_injective (hof.symm.trans hport)
        exact (List.nodup_append.mp hnodup).2.2 port' hmem port' List.mem_cons_self rfl
      refine Prog.obeys_bind.mpr (Prog.obeys_tryCatch.mpr
        ((takePort_attempts hdistinct h hfresh).mono ?_ ?_))
      · intro x t₁ hx
        cases x with
        | none =>
            refine ih ports names t₁ (hnodup.sublist ?_) hx hnames
            exact List.Sublist.append_left (List.sublist_cons_self port rest) ports
        | some name =>
            obtain ⟨ht₁, hof⟩ := hx
            dsimp only
            split_ifs
            · exact ht₁.spares
            · have happend : (ports ++ [port]) ++ rest = ports ++ port :: rest := by simp
              refine ih (ports ++ [port]) (names ++ [name]) t₁ (by rwa [happend]) ?_ ?_
              · refine ⟨ht₁.spares, ht₁.sockets.trans ?_, ht₁.mine.trans ?_, ht₁.spoilt⟩
                · exact (List.perm_append_singleton port ports).symm
                · exact (List.perm_append_singleton name names).symm
              · intro name' hname'
                rcases List.mem_append.mp hname' with hmem | hmem
                · obtain ⟨port', hport', hof'⟩ := hnames name' hmem
                  exact ⟨port', List.mem_append_left _ hport', hof'⟩
                · obtain rfl := List.mem_singleton.mp hmem
                  exact ⟨port, by simp, hof⟩
      · intro e t₁ ht₁
        exact Prog.obeys_bind.mpr ((takeBack_attempts ht₁).mono (fun _ _ h => h) fun _ _ h => h)

/-! ## `allocate` -/

/-- Nothing has been made yet. -/
def Attempt.fresh (w : LeaseWorld) : Attempt := { world := w }

lemma Attempt.has_fresh (w : LeaseWorld) (locked : Option (ℕ × Process)) :
    (Attempt.fresh { w with locked := locked }).Has w [] [] := by
  refine ⟨⟨rfl, fun _ h => h, fun _ h _ _ => h, fun _ h => .inl h,
    fun _ name hname _ _ _ => ⟨hname, ?_⟩, fun h => by cases h⟩, .nil, .nil, rfl⟩
  exact List.not_mem_nil

lemma Attempt.over_fresh (w : LeaseWorld) : (Attempt.fresh w).Over w := by
  have h := Attempt.has_fresh w w.locked
  exact ⟨h.spares, rfl, by simp [Attempt.fresh]⟩

/-- **A call that raises has taken everything back, unless it is spoilt.** -/
theorem allocatePool_attempts {pool : LocalPortLeasePool} {pid count : ℤ} {uid : ℤ}
    (hdistinct : ∀ p ∈ w.processes, ∀ q ∈ w.processes, p.pid = q.pid → p = q) :
    (pool.allocate c.process.pid uid owner pid count).Obeys (attempts i c)
      (fun _ _ => True) (fun _ t => t.Over w) (Attempt.fresh w) := by
  have hover := Attempt.over_fresh w
  unfold LocalPortLeasePool.allocate
  split_ifs
  · exact hover
  · exact hover
  · exact hover
  · refine Prog.obeys_bind.mpr (attempt_obeys.mpr (attempt_op fun choice r w' hexec => ?_))
    have hsame : w' = w := (LeaseWorld.of_identify hexec).1
    subst w'
    have hasks : (Attempt.fresh w).Asks ((Attempt.fresh w).next w (.identify pid) r) := .identify
    refine ⟨?_, fun e he => by subst he; exact hover⟩
    rintro found rfl
    cases found with
    | none => exact ⟨hover.spares.of_asks hasks, rfl, by simp [Attempt.next, Attempt.fresh]⟩
    | some identity =>
        dsimp only
        split_ifs
        · exact hover
        · refine Prog.obeys_bind.mpr (Prog.obeys_bind.mpr (attempt_obeys.mpr
            (attempt_op fun choice r w' hexec => ?_)))
          cases choice with
          | succeeds =>
              simp only [LeaseWorld.perform] at hexec
              split_ifs at hexec
              obtain ⟨rfl, rfl⟩ := Prod.mk.inj (Option.some.inj hexec)
              refine ⟨fun _ _ => ?_, fun e h => by cases h⟩
              have hfresh := Attempt.has_fresh w (some (i, c.process))
              have hunlock :
                ∀ {t : Attempt} {Q : Unit → Attempt → Prop} {R : PyError → Attempt → Prop},
                  Q () { t with world := { t.world with locked := none } } →
                  (Prog.op LeaseOp.Resp PyError .unlock).Obeys (attempts i c) Q R t := by
                intro t Q R hq
                refine attempt_op fun choice r w' hexec => ?_
                obtain ⟨rfl, rfl⟩ := Prod.mk.inj (Option.some.inj hexec)
                exact hq
              refine Prog.obeys_finallyDo.mpr (Prog.Obeys.mono (Q := fun _ _ => True)
                (R := fun _ t => t.Over w) ?_ ?_ ?_)
              · unfold LocalPortLeasePool.reserve
                cases hencode : encode owner with
                | none => exact ⟨hfresh.spares, rfl, by simp [Attempt.next, Attempt.fresh]⟩
                | some bytes =>
                    refine (takePorts_attempts hdistinct (pool.candidatePorts bytes)
                      [] [] _ ?_ hfresh
                      (by simp)).mono (fun _ _ _ => trivial) fun _ _ h => h
                    exact nodup_candidatePorts pool bytes
              · intro ports t _
                exact hunlock trivial
              · intro e t ht
                exact hunlock ⟨ht.spares.of_same rfl rfl rfl rfl rfl, ht.sockets, ht.mine⟩
          | _ =>
              obtain ⟨rfl, rfl⟩ := Prod.mk.inj (Option.some.inj hexec)
              exact ⟨(fun _ h => by cases h), fun e _ => hover⟩

end FreebsdLaboratory
