import FreebsdLaboratory.Tunnels.Claims

/-!
# Ports that can be had

What a call does that has the directory to itself, and whose operations succeed.  It finds out
exactly which ports a live process has leased (`anyLive_serves`), takes a port if no one has and it
can be bound (`takePort_serves`), and so returns the first free ports of the cycle of candidates, or
fails when there are too few (`allocatePool_serves`).
-/

namespace FreebsdLaboratory

open Library Library.Unicode Library.Json

/-- The name is that of a regular file that leases the port to a live process. -/
def LeaseWorld.hasLive (w : LeaseWorld) (port : ℕ) (name : Str) : Bool :=
  decide (name ∉ w.links) &&
    match parseLeaseName name port with
    | some (pid, uid, digest) => w.processes.any fun p =>
        p.pid = pid && (p.uid : ℤ) = uid && str (processDigest p.uid p.startedAt) = digest
    | none => false

/-- A live process has a lease of the port. -/
def LeaseWorld.taken (w : LeaseWorld) (port : ℕ) : Bool :=
  w.files.any fun name => isLeaseOf port name && w.hasLive port name

/-- No live process has a lease of the port, and it can be bound. -/
def LeaseWorld.free (w : LeaseWorld) (bindable : ℕ → Bool) (port : ℕ) : Bool :=
  !w.taken port && bindable port

/-- The name gives no id that processes do not have. -/
def Sensible (port : ℕ) (name : Str) : Prop :=
  ∀ pid uid digest, parseLeaseName name port = some (pid, uid, digest) → pid ≤ maxPid

/-- The names of regular files are sensible. -/
def LeaseWorld.Sensible (w : LeaseWorld) : Prop :=
  ∀ name ∈ w.files, name ∉ w.links → ∀ port, isLeaseOf port name = true →
    FreebsdLaboratory.Sensible port name

/-- Operations succeed, and a port is bound if it can be. -/
def Serves (bindable : ℕ → Bool) (_ : LeaseWorld) : LeaseOp → LeaseChoice → Prop
  | .bind port, choice => choice = if bindable port then .succeeds else .refuses
  | _, choice => choice = .succeeds

/-- A call that has the directory to itself. -/
abbrev serving (bindable : ℕ → Bool) (i : ℕ) (c : LeaseCaller) : Protocol LeaseOp.Resp LeaseWorld :=
  leases.alone (Serves bindable) i c

/-- The call goes on from `w` in `w'`, and nothing has changed but leases of the port. -/
structure LeaseWorld.Follows (w w' : LeaseWorld) (port : ℕ) : Prop where
  processes : w'.processes = w.processes
  files : ∀ name, isLeaseOf port name = false → (name ∈ w'.files ↔ name ∈ w.files)
  links : ∀ name, isLeaseOf port name = false → (name ∈ w'.links ↔ name ∈ w.links)

variable {w w' w₁ : LeaseWorld} {bindable : ℕ → Bool} {i : ℕ} {c : LeaseCaller} {port port' : ℕ}
variable {name owner digest : Str}

lemma LeaseWorld.taken_iff : w.taken port = true ↔
    ∃ name ∈ w.files, isLeaseOf port name = true ∧ w.hasLive port name = true := by
  simp [LeaseWorld.taken]

namespace LeaseWorld.Follows

/-- Names of another port are not touched. -/
lemma not_of (hne : port' ≠ port) (h : isLeaseOf port' name = true) :
    isLeaseOf port name = false := by
  by_contra hport
  have hsame := portOf_of_isLeaseOf (Bool.eq_true_of_not_eq_false hport)
  rw [portOf_of_isLeaseOf h] at hsame
  exact hne (decimal_injective hsame)

lemma hasLive_eq (h : w.Follows w' port) (hne : port' ≠ port)
    (hname : isLeaseOf port' name = true) :
    w'.hasLive port' name = w.hasLive port' name := by
  have hlinks := h.links name (not_of hne hname)
  simp only [LeaseWorld.hasLive, h.processes, hlinks]

/-- Other ports stay as they are. -/
lemma taken_eq (h : w.Follows w' port) (hne : port' ≠ port) : w'.taken port' = w.taken port' := by
  rw [Bool.eq_iff_iff, taken_iff, taken_iff]
  refine exists_congr fun name => ?_
  constructor
  · rintro ⟨hfile, hname, hlive⟩
    exact ⟨(h.files name (not_of hne hname)).mp hfile, hname, h.hasLive_eq hne hname ▸ hlive⟩
  · rintro ⟨hfile, hname, hlive⟩
    exact ⟨(h.files name (not_of hne hname)).mpr hfile, hname, by rwa [h.hasLive_eq hne hname]⟩

lemma free_eq (h : w.Follows w' port) (hne : port' ≠ port) :
    w'.free bindable port' = w.free bindable port' := by
  rw [LeaseWorld.free, LeaseWorld.free, h.taken_eq hne]

lemma filter_eq (h : w.Follows w' port) {ports : List ℕ} (hports : port ∉ ports) :
    ports.filter (w'.free bindable) = ports.filter (w.free bindable) := by
  refine List.filter_congr fun port' hport' => h.free_eq ?_
  rintro rfl
  exact hports hport'

end LeaseWorld.Follows

/-- The listed names that lease a port are those of regular files. -/
lemma any_listed (w : LeaseWorld) (port : ℕ) :
    ((w.files ++ w.links).filter (isLeaseOf port)).any (w.hasLive port) = w.taken port := by
  rw [Bool.eq_iff_iff, LeaseWorld.taken_iff, List.any_eq_true]
  constructor
  · rintro ⟨name, hname, hlive⟩
    obtain ⟨hmem, hlease⟩ := List.mem_filter.mp hname
    have hlink : name ∉ w.links := by
      simp only [LeaseWorld.hasLive, Bool.and_eq_true, decide_eq_true_eq] at hlive
      exact hlive.1
    exact ⟨name, (List.mem_append.mp hmem).resolve_right hlink, hlease, hlive⟩
  · rintro ⟨name, hfile, hlease, hlive⟩
    exact ⟨name, List.mem_filter.mpr ⟨List.mem_append_left _ hfile, hlease⟩, hlive⟩

/-- A process names its leases sensibly. -/
lemma sensible_leaseName {q : Process} (hown : 1 < q.pid ∧ q.Plausible)
    (hdigest : ownerDigest owner = some digest) : Sensible port (q.leaseName port digest) := by
  intro pid uid fingerprint hparse
  have hname : parseLeaseName (q.leaseName port digest) port
      = some (q.pid, (q.uid : ℤ), str (processDigest q.uid q.startedAt)) :=
    parseLeaseName_portLeaseName ⟨hown.1, hown.2.1⟩ hown.2.2 (isHexDigest_processDigest _ _)
      (isHexDigest_of_ownerDigest hdigest)
  cases hname.symm.trans hparse
  exact hown.2.1

lemma not_unmatchable {pid uid : ℤ} {fingerprint : Str} (hpid : 1 < pid) (huid : 0 ≤ uid)
    (hdigest : fingerprint ≠ []) : ¬ (pid ≤ 1 ∨ uid < 0 ∨ fingerprint = []) := by
  rintro (h | h | h)
  · omega
  · omega
  · exact hdigest h

/-- The process that `ps` tells of is the one there is. -/
lemma LeaseWorld.matches_eq
    (hdistinct : ∀ p ∈ w.processes, ∀ q ∈ w.processes, p.pid = q.pid → p = q)
    {pid uid : ℤ} {fingerprint : Str} :
    (match (w.processes.find? fun p => p.pid = pid).map Process.identity with
      | some identity => decide (identity.uid = uid) && decide (str identity.digest = fingerprint)
      | none => false)
      = w.processes.any fun p => p.pid = pid && (p.uid : ℤ) = uid
        && str (processDigest p.uid p.startedAt) = fingerprint := by
  cases hfind : w.processes.find? fun p => p.pid = pid with
  | none =>
      have hnone := List.find?_eq_none.mp hfind
      refine (List.any_eq_false.mpr fun p hp hmatch => ?_).symm
      simp only [Bool.and_eq_true, decide_eq_true_eq] at hmatch
      exact hnone p hp (by simpa using hmatch.1.1)
  | some p =>
      have hp := List.mem_of_find?_eq_some hfind
      have hsame : p.pid = pid := by simpa using List.find?_some hfind
      rw [Bool.eq_iff_iff]
      simp only [Option.map_some, Process.identity, List.any_eq_true, Bool.and_eq_true,
        decide_eq_true_eq]
      constructor
      · rintro ⟨hu, hd⟩
        exact ⟨p, hp, ⟨hsame, hu⟩, hd⟩
      · rintro ⟨q, hq, ⟨hqid, hu⟩, hd⟩
        obtain rfl := hdistinct q hq p hp (hqid.trans hsame.symm)
        exact ⟨hu, hd⟩

/-! ## Operations -/

section Operations

variable (hlive : c.process ∈ w.processes)
include hlive

lemma serve_op {o : LeaseOp} {r : o.Resp} {choice : LeaseChoice} {Q : o.Resp → LeaseWorld → Prop}
    {R : PyError → LeaseWorld → Prop}
    (hchoice : ∀ choice', Serves bindable w o choice' ↔ choice' = choice)
    (hexec : w.perform i c.process o choice = some (r, w')) (hq : Q r w') :
    (Prog.op LeaseOp.Resp PyError o).Obeys (serving bindable i c) Q R w := by
  have hexec' : w.exec i c o choice = some (r, w') := by
    rw [LeaseWorld.exec, if_pos hlive, hexec]
  refine ⟨⟨choice, r, w', (hchoice choice).mpr rfl, hexec'⟩, ?_⟩
  rintro r₁ w₁ ⟨choice', hserves, hexec₁⟩
  obtain rfl := (hchoice choice').mp hserves
  obtain ⟨rfl, rfl⟩ := Prod.mk.inj (Option.some.inj (hexec'.symm.trans hexec₁))
  exact hq

lemma identify_serves {pid : ℤ} {Q : Option ProcessIdentity → LeaseWorld → Prop}
    {R : PyError → LeaseWorld → Prop} {found : Option ProcessIdentity}
    (hfound : w.identify pid = .ok found) (hq : Q found w) :
    (identify pid).Obeys (serving bindable i c) Q R w := by
  refine attempt_obeys.mpr (serve_op hlive (fun _ => Iff.rfl) rfl ⟨?_, ?_⟩)
  · intro found' h
    obtain rfl := Except.ok.inj (hfound.symm.trans h)
    exact hq
  · intro e h
    cases hfound.symm.trans h

/-- **A process is matched exactly if it is there.** -/
lemma leaseMatches_serves (hdistinct : ∀ p ∈ w.processes, ∀ q ∈ w.processes, p.pid = q.pid → p = q)
    {pid uid : ℤ} {fingerprint : Str} (hpid : 1 < pid) (huid : 0 ≤ uid) (hdigest : fingerprint ≠ [])
    (hmax : pid ≤ maxPid) :
    (leaseMatches pid uid fingerprint).Obeys (serving bindable i c)
      (fun b w' => w' = w ∧ b = w.processes.any fun p =>
        p.pid = pid && (p.uid : ℤ) = uid && str (processDigest p.uid p.startedAt) = fingerprint)
      (fun _ _ => False) w := by
  have hfound : w.identify pid
      = .ok ((w.processes.find? fun p => p.pid = pid).map Process.identity) := by
    rw [LeaseWorld.identify, if_neg (by omega), if_neg (by omega)]
  rw [leaseMatches, if_neg (not_unmatchable hpid huid hdigest)]
  exact Prog.obeys_bind.mpr (identify_serves hlive hfound ⟨rfl, LeaseWorld.matches_eq hdistinct⟩)

/-- **The live leases of a port are found.** -/
lemma anyLive_serves (hdistinct : ∀ p ∈ w.processes, ∀ q ∈ w.processes, p.pid = q.pid → p = q)
    (port : ℕ) (names : List Str)
    (hsensible : ∀ name ∈ names, name ∉ w.links → Sensible port name) :
    (anyLive port names).Obeys (serving bindable i c)
      (fun b w' => w' = w ∧ b = names.any (w.hasLive port)) (fun _ _ => False) w := by
  induction names with
  | nil => exact ⟨rfl, rfl⟩
  | cons name names ih =>
      obtain ⟨hname, hnames⟩ := List.forall_mem_cons.mp hsensible
      have hskip : w.hasLive port name = false → (anyLive port names).Obeys (serving bindable i c)
          (fun b w' => w' = w ∧ b = (name :: names).any (w.hasLive port)) (fun _ _ => False) w := by
        intro hdead
        refine (ih hnames).mono ?_ fun _ _ h => h
        rintro b w' ⟨rfl, rfl⟩
        simp [hdead]
      refine Prog.obeys_bind.mpr (Prog.obeys_bind.mpr (attempt_obeys.mpr
        (serve_op hlive (fun _ => Iff.rfl) rfl ⟨?_, fun e h => by cases h⟩)))
      rintro _ ⟨⟩
      by_cases hlink : name ∈ w.links
      · rw [decide_eq_true hlink]
        exact hskip (by simp [LeaseWorld.hasLive, hlink])
      · rw [decide_eq_false hlink, if_neg (by simp)]
        cases hparse : parseLeaseName name port with
        | none => exact hskip (by simp [LeaseWorld.hasLive, hparse])
        | some t =>
            obtain ⟨pid, uid, fingerprint⟩ := t
            obtain ⟨hpid, huid, hdigest⟩ := of_parseLeaseName hparse
            refine Prog.obeys_bind.mpr ((leaseMatches_serves hlive hdistinct hpid huid hdigest
              (hname hlink pid uid fingerprint hparse)).mono ?_ fun _ _ h => h)
            rintro b w' ⟨hw', hb⟩
            subst hw'
            have hverdict : w'.hasLive port name = b := by
              simp only [LeaseWorld.hasLive, hparse, hb, decide_eq_true hlink, Bool.true_and]
            cases b with
            | false => exact hskip hverdict
            | true => exact ⟨rfl, by simp [hverdict]⟩

/-- Unlinking leaves nothing of a port whose leases have been listed, and leaves the rest. -/
lemma unlinkAll_serves (names : List Str) :
    (Prog.forEach names unlink).Obeys (serving bindable i c)
      (fun _ w' => w'.processes = w.processes ∧
        (∀ name, name ∈ w'.files ↔ name ∈ w.files ∧ name ∉ names) ∧
        ∀ name, name ∈ w'.links ↔ name ∈ w.links ∧ name ∉ names)
      (fun _ _ => False) w := by
  induction names generalizing w with
  | nil => exact ⟨rfl, by simp, by simp⟩
  | cons name names ih =>
      refine Prog.obeys_bind.mpr (attempt_obeys.mpr (serve_op hlive (fun _ => Iff.rfl) rfl
        ⟨?_, fun e h => by cases h⟩))
      rintro - -
      refine (ih (w := { w with
        files := w.files.filter (· ≠ name), links := w.links.filter (· ≠ name) }) hlive).mono ?_
        fun _ _ h => h
      rintro - w' ⟨hprocesses, hfiles, hlinks⟩
      refine ⟨hprocesses, fun name' => ?_, fun name' => ?_⟩
      · rw [hfiles]
        simp only [List.mem_filter, decide_eq_true_eq, List.mem_cons, not_or, and_assoc]
      · rw [hlinks]
        simp only [List.mem_filter, decide_eq_true_eq, List.mem_cons, not_or, and_assoc]

/-- **A round of the loop** takes the port exactly if it is free. -/
theorem takePort_serves (hdistinct : ∀ p ∈ w.processes, ∀ q ∈ w.processes, p.pid = q.pid → p = q)
    (hsensible : w.Sensible) (hown : 1 < c.process.pid ∧ c.process.Plausible)
    (hdigest : ownerDigest owner = some digest) :
    (takePort owner c.process.pid c.process.identity port).Obeys (serving bindable i c)
      (fun x w' => w.Follows w' port ∧ w'.Sensible ∧
        x = if w.free bindable port then some (c.process.leaseName port digest) else none)
      (fun _ _ => False) w := by
  refine Prog.obeys_bind.mpr (attempt_obeys.mpr
    (serve_op hlive (fun _ => Iff.rfl) rfl ⟨?_, fun e h => by cases h⟩))
  rintro _ ⟨⟩
  refine Prog.obeys_bind.mpr ((anyLive_serves hlive hdistinct port _ ?_).mono ?_ fun _ _ h => h)
  · intro name hname hlink
    obtain ⟨hmem, hlease⟩ := List.mem_filter.mp hname
    exact hsensible name ((List.mem_append.mp hmem).resolve_right hlink) hlink port hlease
  · rintro b w₀ ⟨hw₀, hb⟩
    subst hw₀
    rw [any_listed] at hb
    cases htaken : w₀.taken port with
    | true =>
        rw [htaken] at hb
        subst hb
        have hfree : w₀.free bindable port = false := by
          rw [LeaseWorld.free, htaken]
          rfl
        refine ⟨⟨rfl, fun _ _ => Iff.rfl, fun _ _ => Iff.rfl⟩, hsensible, ?_⟩
        rw [hfree]
        rfl
    | false =>
        rw [htaken] at hb
        subst hb
        rw [if_neg Bool.false_ne_true]
        cases hbindable : bindable port with
        | false =>
            have hfree : w₀.free bindable port = false := by
              rw [LeaseWorld.free, hbindable, Bool.and_false]
            have hchoice : ∀ choice, Serves bindable w₀ (.bind port) choice
              ↔ choice = .refuses := by
              intro choice
              rw [Serves, hbindable]
              rfl
            refine Prog.obeys_bind.mpr (attempt_obeys.mpr (serve_op hlive hchoice rfl
              ⟨?_, fun e h => by cases h⟩))
            rintro _ ⟨⟩
            refine ⟨⟨rfl, fun _ _ => Iff.rfl, fun _ _ => Iff.rfl⟩, hsensible, ?_⟩
            rw [hfree]
            rfl
        | true =>
            have hfree : w₀.free bindable port = true := by
              rw [LeaseWorld.free, hbindable, htaken]
              rfl
            have hchoice : ∀ choice, Serves bindable w₀ (.bind port) choice
              ↔ choice = .succeeds := by
              intro choice
              rw [Serves, hbindable]
              rfl
            refine Prog.obeys_bind.mpr (attempt_obeys.mpr (serve_op hlive hchoice rfl
              ⟨?_, fun e h => by cases h⟩))
            rintro _ ⟨⟩
            refine Prog.obeys_tryCatch.mpr (Prog.obeys_bind.mpr ((unlinkAll_serves hlive _).mono ?_
              fun _ _ h => h.elim))
            rintro - w₁ ⟨hprocesses, hfiles, hlinks⟩
            have hrequire : requireDigest owner = pure digest := by
              rw [requireDigest, hdigest]
            have hlease : isLeaseOf port (c.process.leaseName port digest) = true :=
              isLeaseOf_portLeaseName
            have hnew : c.process.leaseName port digest ∉ w₁.files ++ w₁.links := by
              rw [List.mem_append, hfiles, hlinks, List.mem_filter, List.mem_append]
              simp only [hlease, and_true, not_or]
              tauto
            have hwrite :
              w₁.perform i c.process (.write (c.process.leaseName port digest)) .succeeds
                = some (.ok (), { w₁ with files := c.process.leaseName port digest :: w₁.files }) :=
              if_neg hnew
            have hlive₁ : c.process ∈ w₁.processes := hprocesses ▸ hlive
            rw [hrequire]
            refine Prog.obeys_bind.mpr (Prog.obeys_pure.mpr (Prog.obeys_bind.mpr (attempt_obeys.mpr
              (serve_op hlive₁ (fun _ => Iff.rfl) hwrite ⟨?_, fun e h => by cases h⟩))))
            rintro - -
            rw [hfree]
            refine ⟨⟨hprocesses, fun name hname => ?_, fun name hname => ?_⟩, ?_, rfl⟩
            · have hne : name ≠ c.process.leaseName port digest := by
                rintro rfl
                simp [hlease] at hname
              simp only [List.mem_cons, hne, false_or, hfiles, List.mem_filter, hname]
              simp
            · simp only [hlinks, List.mem_filter, hname]
              simp
            · intro name hname hlink port' hport'
              rcases List.mem_cons.mp hname with rfl | hname
              · obtain rfl : port' = port := decimal_injective
                  ((portOf_of_isLeaseOf hport').symm.trans portOf_portLeaseName)
                exact sensible_leaseName hown hdigest
              · obtain ⟨hfile, hnot⟩ := (hfiles name).mp hname
                refine hsensible name hfile (fun hmem => ?_) port' hport'
                exact hlink ((hlinks name).mpr ⟨hmem, hnot⟩)

lemma takeBack_serves (ports : List ℕ) (names : List Str) :
    (takeBack ports names).Obeys (serving bindable i c) (fun _ w' => w'.processes = w.processes)
      (fun _ _ => False) w := by
  have hclose : (Prog.forEach ports fun port =>
      Prog.op LeaseOp.Resp PyError (.close port)).Obeys (serving bindable i c)
      (fun _ w' => w' = w) (fun _ _ => False) w := by
    refine Prog.obeys_forEach (I := fun w' => w' = w) rfl ?_
    rintro port - w' rfl
    exact serve_op hlive (fun _ => Iff.rfl) rfl rfl
  refine Prog.obeys_bind.mpr (hclose.mono ?_ fun _ _ h => h)
  rintro _ w' hw'
  subst hw'
  exact (unlinkAll_serves hlive names).mono (fun _ _ h => h.1) fun _ _ h => h

/-- **The loop of `allocate`** goes on to the first free ports, until it has enough of them. -/
theorem takePorts_serves {pool : LocalPortLeasePool}
    (hdistinct : ∀ p ∈ w.processes, ∀ q ∈ w.processes, p.pid = q.pid → p = q)
    (hsensible : w.Sensible) (hown : 1 < c.process.pid ∧ c.process.Plausible)
    (hdigest : ownerDigest owner = some digest) (n : ℕ) :
    ∀ (rest ports : List ℕ) (names : List Str), rest.Nodup → ports.length < n →
      (takePorts pool owner c.process.pid c.process.identity n rest ports names).Obeys
        (serving bindable i c)
        (fun taken w' => w'.processes = w.processes ∧
          taken = ports ++ (rest.filter (w.free bindable)).take (n - ports.length) ∧
          n ≤ ports.length + (rest.filter (w.free bindable)).length)
        (fun e w' => w'.processes = w.processes ∧ e = noPorts pool n ∧
          ports.length + (rest.filter (w.free bindable)).length < n) w := by
  intro rest
  induction rest generalizing w with
  | nil =>
      intro ports names _ hlt
      refine Prog.obeys_bind.mpr ((takeBack_serves hlive ports names).mono ?_ fun _ _ h => h.elim)
      intro _ w' hprocesses
      exact ⟨hprocesses, rfl, by simpa using hlt⟩
  | cons port rest ih =>
      intro ports names hnodup hlt
      obtain ⟨hnew, hrest⟩ := List.nodup_cons.mp hnodup
      refine Prog.obeys_bind.mpr (Prog.obeys_tryCatch.mpr
        ((takePort_serves hlive hdistinct hsensible hown hdigest).mono ?_ fun _ _ h => h.elim))
      rintro x w₁ ⟨hfollows, hsensible₁, hx⟩
      have hfilter : rest.filter (w₁.free bindable) = rest.filter (w.free bindable) :=
        hfollows.filter_eq hnew
      have hnext := ih (w := w₁) (hfollows.processes ▸ hlive) (hfollows.processes ▸ hdistinct)
        hsensible₁
      cases hfree : w.free bindable port with
      | false =>
          rw [hfree, if_neg Bool.false_ne_true] at hx
          subst hx
          rw [List.filter_cons_of_neg (by simp [hfree]), ← hfilter, ← hfollows.processes]
          exact hnext ports names hrest hlt
      | true =>
          rw [hfree, if_pos rfl] at hx
          subst hx
          have hlength : (ports ++ [port]).length = ports.length + 1 := by simp
          rw [List.filter_cons_of_pos hfree, ← hfilter, ← hfollows.processes]
          dsimp only
          split_ifs with hcount
          · have hn : n - ports.length = 1 := by omega
            refine ⟨rfl, ?_, ?_⟩
            · rw [hn, List.take_succ_cons, List.take_zero]
            · rw [List.length_cons]
              omega
          · have hn : n - ports.length = n - (ports ++ [port]).length + 1 := by omega
            refine (hnext (ports ++ [port]) _ hrest (by omega)).mono ?_ ?_
            · rintro taken w' ⟨hprocesses, htaken, hle⟩
              refine ⟨hprocesses, ?_, by rw [List.length_cons]; omega⟩
              rw [htaken, hn, List.take_succ_cons, List.append_assoc, List.singleton_append]
            · rintro e w' ⟨hprocesses, he, hlt'⟩
              exact ⟨hprocesses, he, by rw [List.length_cons]; omega⟩

end Operations

/-! ## `allocate` -/

/-- **The candidates are the ports of the range**, each once. -/
lemma mem_candidatePorts {pool : LocalPortLeasePool} {bytes : Bytes} :
    port ∈ pool.candidatePorts bytes ↔ pool.start ≤ port ∧ port ≤ pool.stop := by
  have hstart := pool.start_le_stop
  have hcapacity : pool.capacity = pool.stop - pool.start + 1 := rfl
  have hoffset := Nat.mod_lt (((Sha256.digest bytes).take 8).foldl (fun n b => 256 * n + b) 0)
    (show 0 < pool.capacity by omega)
  rw [LocalPortLeasePool.candidatePorts, List.mem_map]
  generalize ((Sha256.digest bytes).take 8).foldl (fun n b => 256 * n + b) 0 % pool.capacity
    = offset
    at hoffset
  constructor
  · rintro ⟨index, -, rfl⟩
    have hlt := Nat.mod_lt (offset + index) (show 0 < pool.capacity by omega)
    omega
  · rintro ⟨hle, hge⟩
    by_cases hback : pool.start + offset ≤ port
    · refine ⟨port - (pool.start + offset), List.mem_range.mpr (by omega), ?_⟩
      have hsum : offset + (port - (pool.start + offset)) = port - pool.start := by omega
      rw [hsum, Nat.mod_eq_of_lt (by omega)]
      omega
    · refine ⟨port - pool.start + pool.capacity - offset, List.mem_range.mpr (by omega), ?_⟩
      have hsum : offset + (port - pool.start + pool.capacity - offset)
          = port - pool.start + pool.capacity := by omega
      rw [hsum, Nat.add_mod_right, Nat.mod_eq_of_lt (by omega)]
      omega

/-- A live process finds itself. -/
lemma LeaseWorld.identify_own {p : Process}
    (hdistinct : ∀ p ∈ w.processes, ∀ q ∈ w.processes, p.pid = q.pid → p = q)
    (hlive : p ∈ w.processes) (hpid : 1 < p.pid) (hmax : p.pid ≤ maxPid) :
    w.identify p.pid = .ok (some p.identity) := by
  rw [LeaseWorld.identify, if_neg (by omega), if_neg (by omega)]
  cases hfind : w.processes.find? fun q => q.pid = p.pid with
  | none =>
      have hnone := List.find?_eq_none.mp hfind p hlive
      simp at hnone
  | some q =>
      have hsame : q = p := hdistinct q (List.mem_of_find?_eq_some hfind) p hlive
        (by simpa using List.find?_some hfind)
      rw [Option.map_some, hsame]

/-- **`allocate` returns the first free candidates**, or fails when there are too few. -/
theorem allocatePool_serves {pool : LocalPortLeasePool} {bytes : Bytes} {n : ℕ}
    (hdistinct : ∀ p ∈ w.processes, ∀ q ∈ w.processes, p.pid = q.pid → p = q)
    (hlive : c.process ∈ w.processes) (hown : 1 < c.process.pid ∧ c.process.Plausible)
    (hsensible : w.Sensible) (hfree : w.locked = none) (howner : owner ≠ [])
    (hencode : encode owner = some bytes) (hpositive : 0 < n) (hcapacity : n ≤ pool.capacity) :
    (pool.allocate c.process.pid c.process.uid owner c.process.pid n).Obeys (serving bindable i c)
      (fun r _ => n ≤ ((pool.candidatePorts bytes).filter (w.free bindable)).length ∧
        r.ports = ((pool.candidatePorts bytes).filter (w.free bindable)).take n)
      (fun e _ => ((pool.candidatePorts bytes).filter (w.free bindable)).length < n ∧
        e = noPorts pool n) w := by
  have hdigest : ownerDigest owner = some (sha256Bytes bytes) := by
    rw [ownerDigest, hencode, Option.map_some]
  have hidentify := LeaseWorld.identify_own hdistinct hlive hown.1 hown.2.1
  have hreserve : pool.reserve owner c.process.pid c.process.identity n
      = takePorts pool owner c.process.pid c.process.identity n (pool.candidatePorts bytes) []
        [] := by
    rw [LocalPortLeasePool.reserve, hencode]
  have hlock : w.perform i c.process .lock .succeeds
      = some (.ok (), { w with locked := some (i, c.process) }) := if_pos hfree
  have hlive₁ : c.process ∈ ({ w with locked := some (i, c.process) } : LeaseWorld).processes :=
    hlive
  have hsame : ({ w with locked := some (i, c.process) } : LeaseWorld).free bindable
      = w.free bindable := rfl
  unfold LocalPortLeasePool.allocate
  rw [if_neg howner, if_neg (by simp), if_neg (by omega)]
  refine Prog.obeys_bind.mpr (identify_serves hlive hidentify ?_)
  dsimp only
  rw [if_neg (by simp [Process.identity])]
  refine Prog.obeys_bind.mpr (Prog.obeys_bind.mpr (attempt_obeys.mpr
    (serve_op hlive (fun _ => Iff.rfl) hlock ⟨?_, fun e h => by cases h⟩)))
  rintro - -
  rw [hreserve]
  refine Prog.obeys_finallyDo.mpr ((takePorts_serves hlive₁ hdistinct hsensible hown hdigest n
    (pool.candidatePorts bytes) [] [] (nodup_candidatePorts pool bytes) hpositive).mono ?_ ?_)
  · rintro taken w' ⟨hprocesses, htaken, hle⟩
    refine serve_op (hprocesses ▸ hlive) (fun _ => Iff.rfl) rfl ⟨?_, ?_⟩
    · simpa [hsame] using hle
    · simpa [hsame] using htaken
  · rintro e w' ⟨hprocesses, he, hlt⟩
    refine serve_op (hprocesses ▸ hlive) (fun _ => Iff.rfl) rfl ⟨?_, he⟩
    simpa [hsame] using hlt

end FreebsdLaboratory
