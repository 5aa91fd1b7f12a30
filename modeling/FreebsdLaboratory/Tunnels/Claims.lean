import Mathlib.Data.List.Perm.Basic
import FreebsdLaboratory.Tunnels.Rules

/-!
# Who has which lease

A lease is claimed by the call that has written it, then by the reservation it is part of, and at
last by the call that takes it back.  `LeaseInv` is the invariant of the pool: the file of every
claim of a live process is there, no port has two such claims, and what the thread in the lock has
found out about them is right.

A step moves claims from one holder to another, drops some, or adds the one whose lease it writes.
That a write adds none to a port that is taken, and that an unlink takes away the file of no other
claim, comes from the same fact: a live claim is never dismissed (`not_dismissed`).
-/

namespace FreebsdLaboratory

open Library Library.Unicode Library.Json

/-- A process together with the name of a lease of its own. -/
abbrev Claim := Process × Str

/-- The claims of a call. -/
def callClaims (v : LeaseCaller × LeaseKnown) : List Claim :=
  (v.2.created ++ v.2.releasing).map fun name => (v.1.process, name)

/-- The claims of reservations. -/
def heldClaims (held : List (Process × LocalPortReservation)) : List Claim :=
  held.flatMap fun h => h.2.names.map fun name => (h.1, name)

def claims (held : List (Process × LocalPortReservation)) (vs : List (LeaseCaller × LeaseKnown)) :
    List Claim :=
  vs.flatMap callClaims ++ heldClaims held

/-! ## The invariant -/

/-- The name is that of a lease of the process, under the ids that processes have. -/
def Claim.Named (e : Claim) : Prop :=
  1 < e.1.pid ∧ e.1.Plausible ∧
    ∃ port owner digest, ownerDigest owner = some digest ∧ e.2 = e.1.leaseName port digest

structure LeaseWorld.Owned (w : LeaseWorld) (cs : List Claim) : Prop where
  named : ∀ e ∈ cs, Claim.Named e
  known : ∀ e ∈ cs, e.1 ∈ w.processes ∨ e.1 ∈ w.departed
  present : ∀ e ∈ cs, e.1 ∈ w.processes → e.2 ∈ w.files ∧ e.2 ∉ w.links
  nodup : cs.Nodup
  exclusive : ∀ e ∈ cs, ∀ e' ∈ cs, e.1 ∈ w.processes → e'.1 ∈ w.processes →
    portOf e.2 = portOf e'.2 → e = e'

/-- What has been found out holds of the live claims. -/
structure LeaseKnown.Accurate (k : LeaseKnown) (live : Claim → Prop) : Prop where
  listing : ∀ port names, k.listing = some (port, names) → ∀ e, live e →
    isLeaseOf port e.2 = true → e.2 ∈ names
  links : ∀ e, live e → e.2 ∉ k.links
  answers : ∀ pid found, (pid, found) ∈ k.answers → ∀ e, live e → e.1.pid = pid →
    found = some e.1.identity

/-- The claim is that of a live process. -/
def LeaseWorld.Live (w : LeaseWorld) (cs : List Claim) (e : Claim) : Prop :=
  e ∈ cs ∧ e.1 ∈ w.processes

structure LeaseInv (w : LeaseWorld) (vs : List (LeaseCaller × LeaseKnown)) : Prop where
  distinct : ∀ p ∈ w.processes, ∀ q ∈ w.processes, p.pid = q.pid → p = q
  credible : ∀ p ∈ w.processes, p.Plausible
  parted : ∀ p ∈ w.processes, p ∉ w.departed
  owned : w.Owned (claims w.held vs)
  known : ∀ v ∈ vs, v.2.inside = true → v.1.process ∈ w.processes ∨ v.1.process ∈ w.departed
  inside : ∀ i v, vs[i]? = some v → v.2.inside = true → v.1.process ∈ w.processes →
    w.locked = some (i, v.1.process) ∧ v.2.Accurate (w.Live (claims w.held vs))

variable {w w' : LeaseWorld} {vs : List (LeaseCaller × LeaseKnown)} {c : LeaseCaller}
variable {k k' : LeaseKnown} {i : ℕ} {cs cs' : List Claim} {e : Claim} {port : ℕ} {name : Str}

/-! ## Claims -/

/-- The claims of one thread, next to all others. -/
lemma claims_perm (held : List (Process × LocalPortReservation)) {v : LeaseCaller × LeaseKnown}
    (hi : vs[i]? = some v) :
    (claims held vs).Perm (callClaims v ++ claims held (vs.eraseIdx i)) := by
  obtain ⟨hlt, rfl⟩ := List.getElem?_eq_some_iff.mp hi
  have hperm := (List.getElem_cons_eraseIdx_perm hlt).symm.flatMap_right callClaims
  have hcons := hperm.append_right (heldClaims held)
  rwa [List.flatMap_cons, List.append_assoc] at hcons

lemma claims_set_perm (held : List (Process × LocalPortReservation)) {v : LeaseCaller × LeaseKnown}
    (hi : vs[i]? = some v) (v' : LeaseCaller × LeaseKnown) :
    (claims held (vs.set i v')).Perm (callClaims v' ++ claims held (vs.eraseIdx i)) := by
  obtain ⟨hlt, -⟩ := List.getElem?_eq_some_iff.mp hi
  have hperm := (List.set_perm_cons_eraseIdx hlt v').flatMap_right callClaims
  have hcons := hperm.append_right (heldClaims held)
  rwa [List.flatMap_cons, List.append_assoc] at hcons

lemma claims_append (held : List (Process × LocalPortReservation)) (c : LeaseCaller) :
    claims held (vs ++ [(c, ({} : LeaseKnown))]) = claims held vs := by
  simp [claims, callClaims]

/-- Claims do not change with what a thread finds out. -/
lemma claims_set_of_grows (held : List (Process × LocalPortReservation)) (hi : vs[i]? = some (c, k))
    (hcreated : k'.created = k.created) (hreleasing : k'.releasing = k.releasing) :
    (claims held (vs.set i (c, k'))).Perm (claims held vs) := by
  have hsame : callClaims (c, k') = callClaims (c, k) := by
    simp only [callClaims, hcreated, hreleasing]
  refine (claims_set_perm _ hi (c, k')).trans ?_
  rw [hsame]
  exact (claims_perm _ hi).symm

namespace LeaseWorld.Owned

/-- Files may be added, claims may be dropped or move from one holder to another. -/
lemma mono (h : w.Owned cs) (hsub : ∀ e ∈ cs', e ∈ cs) (hnodup : cs'.Nodup)
    (hprocesses : w'.processes = w.processes) (hdeparted : w'.departed = w.departed)
    (hfiles : ∀ e ∈ cs', e.1 ∈ w.processes → e.2 ∈ w.files → e.2 ∈ w'.files)
    (hlinks : ∀ name ∈ w'.links, name ∈ w.links) : w'.Owned cs' where
  named e he := h.named e (hsub e he)
  known e he := by
    rw [hprocesses, hdeparted]
    exact h.known e (hsub e he)
  present e he hlive := by
    rw [hprocesses] at hlive
    obtain ⟨hfile, hlink⟩ := h.present e (hsub e he) hlive
    exact ⟨hfiles e he hlive hfile, fun hmem => hlink (hlinks _ hmem)⟩
  nodup := hnodup
  exclusive e he e' he' hlive hlive' := by
    rw [hprocesses] at hlive hlive'
    exact h.exclusive e (hsub e he) e' (hsub e' he') hlive hlive'

lemma of_perm (h : w.Owned cs) (hperm : cs'.Perm cs) : w.Owned cs' :=
  h.mono (fun _ he => hperm.subset he) (hperm.nodup_iff.mpr h.nodup) rfl rfl (fun _ _ _ h => h)
    fun _ h => h

end LeaseWorld.Owned

namespace LeaseKnown.Accurate

lemma mono {live live' : Claim → Prop} (h : k.Accurate live) (hlive : ∀ e, live' e → live e) :
    k.Accurate live' where
  listing port names hlisting e he := h.listing port names hlisting e (hlive e he)
  links e he := h.links e (hlive e he)
  answers pid found hfound e he := h.answers pid found hfound e (hlive e he)

/-- Nothing known is right. -/
lemma of_forgetting {live : Claim → Prop} (hlisting : k.listing = none) (hlinks : k.links = [])
    (hanswers : k.answers = []) : k.Accurate live where
  listing port names h := by
    rw [hlisting] at h
    cases h
  links e _ := by simp [hlinks]
  answers pid found h := by simp [hanswers] at h

/-- **A live claim is never dismissed.** -/
theorem not_dismissed {live : Claim → Prop} (h : k.Accurate live) (he : live e)
    (hnamed : Claim.Named e) (hport : isLeaseOf port e.2 = true) : ¬ k.Dismissed port e.2 := by
  obtain ⟨hpid, ⟨hmax, huid⟩, port', owner, digest, hdigest, hname⟩ := hnamed
  have hport' : port = port' := by
    have hof := portOf_of_isLeaseOf hport
    rw [hname, Process.leaseName, portOf_portLeaseName] at hof
    exact (decimal_injective hof).symm
  subst hport'
  have hparse : parseLeaseName e.2 port
      = some (e.1.pid, (e.1.uid : ℤ), str (processDigest e.1.uid e.1.startedAt)) := by
    rw [hname]
    exact parseLeaseName_portLeaseName ⟨hpid, hmax⟩ huid (isHexDigest_processDigest _ _)
      (isHexDigest_of_ownerDigest hdigest)
  rintro (hlink | hmismatched)
  · exact h.links e he hlink
  · rcases hmismatched _ _ _ hparse with hle | hneg | hempty | ⟨found, hfound, hother⟩
    · omega
    · omega
    · have hlength := (isHexDigest_processDigest e.1.uid e.1.startedAt).1
      simp [hempty] at hlength
    · exact hother _ (h.answers _ _ hfound e he rfl) ⟨rfl, rfl⟩

end LeaseKnown.Accurate

/-! ## Steps -/

/-- The claim of a process in the lock, and of no one else. -/
lemma LeaseInv.alone (h : LeaseInv w vs) (hi : vs[i]? = some (c, k)) (hinside : k.inside = true)
    (hlive : c.process ∈ w.processes) {j : ℕ} {u : LeaseCaller × LeaseKnown} (hj : vs[j]? = some u)
    (hother : u.2.inside = true) (hu : u.1.process ∈ w.processes) : j = i := by
  have hmine := (h.inside i (c, k) hi hinside hlive).1
  have htheirs := (h.inside j u hj hother hu).1
  exact (Prod.mk.inj (Option.some.inj (htheirs.symm.trans hmine))).1

/-- **The step rule**: what is to be shown of the claims, of the thread that moves, and of the
others. -/
lemma LeaseInv.step (h : LeaseInv w vs) (hi : vs[i]? = some (c, k))
    (hlive : c.process ∈ w.processes)
    (hprocesses : w'.processes = w.processes) (hdeparted : w'.departed = w.departed)
    (howned : w'.Owned (claims w'.held (vs.set i (c, k'))))
    (hself : k'.inside = true → w'.locked = some (i, c.process) ∧
      k'.Accurate (w'.Live (claims w'.held (vs.set i (c, k')))))
    (hothers : ∀ j u, j ≠ i → vs[j]? = some u → u.2.inside = true → u.1.process ∈ w.processes →
      w'.locked = w.locked ∧ ∀ e ∈ claims w'.held (vs.set i (c, k')), e ∈ claims w.held vs) :
    LeaseInv w' (vs.set i (c, k')) where
  distinct := by
    rw [hprocesses]
    exact h.distinct
  credible := by
    rw [hprocesses]
    exact h.credible
  parted := by
    rw [hprocesses, hdeparted]
    exact h.parted
  owned := howned
  known v hv hinside := by
    rw [hprocesses, hdeparted]
    rcases List.mem_or_eq_of_mem_set hv with hv | rfl
    · exact h.known v hv hinside
    · exact .inl hlive
  inside j v hj hinside hv := by
    rw [hprocesses] at hv
    rcases getElem?_set_cases hj with ⟨rfl, rfl⟩ | ⟨hne, hj⟩
    · exact hself hinside
    · obtain ⟨hlocked, hsub⟩ := hothers j v hne hj hinside hv
      obtain ⟨hmine, haccurate⟩ := h.inside j v hj hinside hv
      refine ⟨hlocked.trans hmine, haccurate.mono fun e he => ⟨hsub e he.1, ?_⟩⟩
      rw [← hprocesses]
      exact he.2

/-- Only what the thread knows changes. -/
lemma LeaseInv.learns (h : LeaseInv w vs) (hi : vs[i]? = some (c, k))
    (hlive : c.process ∈ w.processes)
    (hinside : k'.inside = k.inside) (hcreated : k'.created = k.created)
    (hreleasing : k'.releasing = k.releasing)
    (haccurate : k.Accurate (w.Live (claims w.held vs)) → k'.Accurate (w.Live (claims w.held vs))) :
    LeaseInv w (vs.set i (c, k')) := by
  have hperm := claims_set_of_grows w.held hi hcreated hreleasing
  refine h.step hi hlive rfl rfl (h.owned.of_perm hperm) ?_ ?_
  · intro hin
    obtain ⟨hlocked, hold⟩ := h.inside i (c, k) hi (hinside ▸ hin) hlive
    exact ⟨hlocked, (haccurate hold).mono fun e he => ⟨hperm.subset he.1, he.2⟩⟩
  · exact fun j u _ _ _ _ => ⟨rfl, fun e he => hperm.subset he⟩

/-- Claims move between the thread and the reservations. -/
lemma LeaseInv.moves (h : LeaseInv w vs) (hi : vs[i]? = some (c, k))
    (hlive : c.process ∈ w.processes)
    {held : List (Process × LocalPortReservation)} (hinside : k'.inside = false)
    (hperm : (claims held (vs.set i (c, k'))).Perm (claims w.held vs)) :
    LeaseInv { w with held := held } (vs.set i (c, k')) := by
  refine h.step hi hlive rfl rfl ?_ ?_ ?_
  · exact h.owned.mono (fun e he => hperm.subset he) (hperm.nodup_iff.mpr h.owned.nodup) rfl rfl
      (fun _ _ _ hmem => hmem) fun _ hmem => hmem
  · intro hin
    simp [hinside] at hin
  · exact fun j u _ _ _ _ => ⟨rfl, fun e he => hperm.subset he⟩

/-! ## Operations -/

section Operations

variable (h : LeaseInv w vs) (hi : vs[i]? = some (c, k)) (hlive : c.process ∈ w.processes)
include h hi hlive

omit hi hlive in
/-- What `ps` tells about a live process. -/
lemma LeaseInv.identify_of_mem {p : Process} (hp : p ∈ w.processes) {found : Option ProcessIdentity}
    (hfound : w.identify p.pid = .ok found) : found = some p.identity ∨ p.pid ≤ 1 := by
  unfold LeaseWorld.identify at hfound
  split_ifs at hfound with hsmall
  · exact .inr hsmall
  · left
    cases hfind : w.processes.find? fun q => q.pid = p.pid with
    | none =>
        have hnone := List.find?_eq_none.mp hfind p hp
        simp at hnone
    | some q =>
        have hq := List.mem_of_find?_eq_some hfind
        have hpid := List.find?_some hfind
        have hsame : q = p := h.distinct q hq p hp (by simpa using hpid)
        rw [hfind, Option.map_some, hsame] at hfound
        exact (Except.ok.inj hfound).symm

lemma LeaseInv.identifies (pid : ℤ) : c.Admits k (.identify pid) (w.identify pid) ∧
    LeaseInv w (vs.set i (c, k.learn (.identify pid) (w.identify pid))) := by
  constructor
  · rintro rfl identity hidentity
    rcases h.identify_of_mem hlive hidentity with hfound | hsmall
    · refine ⟨Option.some.inj hfound, ?_⟩
      by_contra hle
      simp [LeaseWorld.identify, not_lt.mp hle] at hidentity
    · simp [LeaseWorld.identify, hsmall] at hidentity
  · cases hfound : w.identify pid with
    | error e => exact h.learns hi hlive rfl rfl rfl id
    | ok found =>
        refine h.learns hi hlive rfl rfl rfl fun hold => ⟨hold.listing, hold.links, ?_⟩
        intro pid' found' hmem e he hpid
        rcases List.mem_cons.mp hmem with heq | hmem
        · obtain ⟨rfl, rfl⟩ := Prod.mk.inj heq
          subst hpid
          rcases h.identify_of_mem he.2 hfound with hsame | hsmall
          · exact hsame
          · have hnamed := (h.owned.named e he.1).1
            omega
        · exact hold.answers pid' found' hmem e he hpid

lemma LeaseInv.looks (name : Str) :
    LeaseInv w (vs.set i (c, k.learn (.isSymlink name) (.ok (decide (name ∈ w.links))))) := by
  by_cases hlink : name ∈ w.links
  · rw [decide_eq_true hlink]
    refine h.learns hi hlive rfl rfl rfl fun hold => ⟨hold.listing, ?_, hold.answers⟩
    intro e he hmem
    rcases List.mem_cons.mp hmem with rfl | hmem
    · exact (h.owned.present e he.1 he.2).2 hlink
    · exact hold.links e he hmem
  · rw [decide_eq_false hlink]
    exact h.learns hi hlive rfl rfl rfl id

lemma LeaseInv.lists (port : ℕ) : LeaseInv w
    (vs.set i (c, k.learn (.glob port) (.ok ((w.files ++ w.links).filter (isLeaseOf port))))) := by
  refine h.learns hi hlive rfl rfl rfl fun _ =>
    ⟨?_, by simp [LeaseKnown.learn, LeaseKnown.forgetting], ?_⟩
  · intro port' names hlisting e he hport
    obtain ⟨rfl, rfl⟩ := Prod.mk.inj (Option.some.inj hlisting)
    exact List.mem_filter.mpr
      ⟨List.mem_append_left _ (h.owned.present e he.1 he.2).1, hport⟩
  · intro pid found hmem
    simp [LeaseKnown.learn, LeaseKnown.forgetting] at hmem

lemma LeaseInv.locks (hfree : w.locked = none) :
    LeaseInv { w with locked := some (i, c.process) } (vs.set i (c, k.learn .lock (.ok ()))) := by
  have hperm : (claims w.held (vs.set i (c, k.learn .lock (.ok ())))).Perm (claims w.held vs) :=
    claims_set_of_grows _ hi rfl rfl
  refine h.step hi hlive rfl rfl ?_ (fun _ => ⟨rfl, .of_forgetting rfl rfl rfl⟩) ?_
  · exact h.owned.mono (fun e he => hperm.subset he) (hperm.nodup_iff.mpr h.owned.nodup) rfl rfl
      (fun _ _ _ hmem => hmem) fun _ hmem => hmem
  · intro j u _ hj hinside hu
    have hlocked := (h.inside j u hj hinside hu).1
    simp [hfree] at hlocked

lemma LeaseInv.unlocks (hinside : k.inside = true) :
    LeaseInv { w with locked := none } (vs.set i (c, k.learn .unlock ())) := by
  have hperm : (claims w.held (vs.set i (c, k.learn .unlock ()))).Perm (claims w.held vs) :=
    claims_set_of_grows _ hi rfl rfl
  refine h.step hi hlive rfl rfl ?_ (fun hin => by cases hin) ?_
  · exact h.owned.mono (fun e he => hperm.subset he) (hperm.nodup_iff.mpr h.owned.nodup) rfl rfl
      (fun _ _ _ hmem => hmem) fun _ hmem => hmem
  · intro j u hne hj hother hu
    exact absurd (h.alone hi hinside hlive hj hother hu) hne

/-- **An unlink takes away the file of no other claim.** -/
lemma LeaseInv.unlinks (hperm : c.Permits k (.unlink name)) :
    LeaseInv { w with
      files := w.files.filter (· ≠ name)
      links := w.links.filter (· ≠ name) } (vs.set i (c, k.learn (.unlink name) (.ok ()))) := by
  obtain ⟨hinside, hmay⟩ := hperm
  have hold := (h.inside i (c, k) hi hinside hlive).2
  have hbefore := claims_perm w.held hi
  have hafter := claims_set_perm w.held hi (c, k.learn (.unlink name) (.ok ()))
  have hsublist : (callClaims (c, k.learn (.unlink name) (.ok ()))).Sublist (callClaims (c, k)) :=
    (List.erase_sublist.append List.erase_sublist).map _
  have hsub : ∀ e ∈ claims w.held (vs.set i (c, k.learn (.unlink name) (.ok ()))),
      e ∈ claims w.held vs := by
    intro e he
    refine hbefore.mem_iff.mpr ?_
    rcases List.mem_append.mp (hafter.mem_iff.mp he) with he | he
    · exact List.mem_append_left _ (hsublist.subset he)
    · exact List.mem_append_right _ he
  have hnodup := hbefore.nodup_iff.mp h.owned.nodup
  have hkept : ∀ e ∈ claims w.held (vs.set i (c, k.learn (.unlink name) (.ok ()))),
      e.1 ∈ w.processes → e.2 ≠ name := by
    rintro e he hliving rfl
    have hown : e.2 ∈ k.created ++ k.releasing → False := by
      intro hmem
      have hmine : (c.process, e.2) ∈ callClaims (c, k) := List.mem_map.mpr ⟨e.2, hmem, rfl⟩
      have hsame : e = (c.process, e.2) := h.owned.exclusive e (hsub e he) _
        (hbefore.mem_iff.mpr (List.mem_append_left _ hmine)) hliving hlive rfl
      have hcall : (k.created ++ k.releasing).Nodup :=
        List.Nodup.of_map _ (List.nodup_append.mp hnodup).1
      rcases List.mem_append.mp (hafter.mem_iff.mp he) with he | he
      · obtain ⟨name', hname', heq⟩ := List.mem_map.mp he
        rw [← heq] at hname'
        rcases List.mem_append.mp hname' with hmem | hmem
        · exact (List.nodup_append.mp hcall).1.not_mem_erase hmem
        · exact (List.nodup_append.mp hcall).2.1.not_mem_erase hmem
      · rw [hsame] at he
        exact (List.nodup_append.mp hnodup).2.2 _ hmine _ he rfl
    rcases hmay with hmem | hmem | ⟨port, hport, hdismissed⟩
    · exact hown (List.mem_append_left _ hmem)
    · exact hown (List.mem_append_right _ hmem)
    · exact hold.not_dismissed ⟨hsub e he, hliving⟩ (h.owned.named e (hsub e he)) hport hdismissed
  refine h.step hi hlive rfl rfl ?_ ?_ ?_
  · refine h.owned.mono hsub ?_ rfl rfl ?_ fun _ hmem => (List.mem_filter.mp hmem).1
    · exact hafter.nodup_iff.mpr (hnodup.sublist (hsublist.append_right _))
    · intro e he hliving hmem
      exact List.mem_filter.mpr ⟨hmem, by simpa using hkept e he hliving⟩
  · intro _
    refine ⟨(h.inside i (c, k) hi hinside hlive).1, ?_⟩
    have hlater : k.Accurate (w.Live (claims w.held
        (vs.set i (c, k.learn (.unlink name) (.ok ()))))) :=
      hold.mono fun e he => ⟨hsub e he.1, he.2⟩
    exact ⟨hlater.listing, hlater.links, hlater.answers⟩
  · intro j u hne hj hother hu
    exact absurd (h.alone hi hinside hlive hj hother hu) hne

/-- **A write claims a port that no live process has.** -/
lemma LeaseInv.writes (hperm : c.Permits k (.write name)) (hnew : name ∉ w.files ++ w.links) :
    name ∉ k.created ∧ LeaseInv { w with files := name :: w.files }
      (vs.set i (c, k.learn (.write name) (.ok ()))) := by
  obtain ⟨hinside, hpid, port, owner, digest, hdigest, hname, listed, hlisting, hcleared⟩ := hperm
  obtain ⟨hlocked, hold⟩ := h.inside i (c, k) hi hinside hlive
  rw [List.mem_append, not_or] at hnew
  have hbefore := claims_perm w.held hi
  have hafter : (claims w.held (vs.set i (c, k.learn (.write name) (.ok ())))).Perm
      ((c.process, name) :: claims w.held vs) := by
    refine (claims_set_perm _ hi _).trans ?_
    refine List.Perm.trans ?_ (hbefore.symm.cons _)
    rw [← List.cons_append]
    refine List.Perm.append_right _ ?_
    simp only [callClaims, LeaseKnown.learn, LeaseKnown.forgetting, List.append_assoc,
      List.singleton_append, List.map_append, List.map_cons]
    exact List.perm_middle
  have hother : ∀ e ∈ claims w.held vs, e.1 ∈ w.processes → portOf e.2 ≠ portOf name := by
    intro e he hliving hport
    have hnamed := h.owned.named e he
    obtain ⟨-, -, port', owner', digest', -, hename⟩ := hnamed
    rw [hename, hname, Process.leaseName, Process.leaseName, portOf_portLeaseName,
      portOf_portLeaseName] at hport
    obtain rfl := decimal_injective hport
    have hof : isLeaseOf port' e.2 = true := by
      rw [hename]
      exact isLeaseOf_portLeaseName
    exact hold.not_dismissed ⟨he, hliving⟩ (h.owned.named e he) hof
      (hcleared e.2 (hold.listing _ _ hlisting e ⟨he, hliving⟩ hof))
  have hfresh : (c.process, name) ∉ claims w.held vs := fun hmem => hother _ hmem hlive rfl
  constructor
  · intro hmem
    refine hfresh (hbefore.mem_iff.mpr (List.mem_append_left _ ?_))
    exact List.mem_map.mpr ⟨name, List.mem_append_left _ hmem, rfl⟩
  · refine h.step hi hlive rfl rfl ?_ (fun _ => ⟨hlocked, .of_forgetting rfl rfl rfl⟩) ?_
    · refine LeaseWorld.Owned.of_perm ?_ hafter
      refine ⟨?_, ?_, ?_, ?_, ?_⟩
      · exact List.forall_mem_cons.mpr
          ⟨⟨hpid, h.credible _ hlive, port, owner, digest, hdigest, hname⟩, h.owned.named⟩
      · exact List.forall_mem_cons.mpr ⟨.inl hlive, h.owned.known⟩
      · refine List.forall_mem_cons.mpr ⟨fun _ => ⟨List.mem_cons_self, hnew.2⟩,
          fun e he hliving => ?_⟩
        obtain ⟨hfile, hlink⟩ := h.owned.present e he hliving
        exact ⟨List.mem_cons_of_mem _ hfile, hlink⟩
      · exact List.nodup_cons.mpr ⟨hfresh, h.owned.nodup⟩
      · intro e he e' he' hliving hliving' hport
        rcases List.mem_cons.mp he with rfl | he <;> rcases List.mem_cons.mp he' with rfl | he'
        · rfl
        · exact absurd hport.symm (hother e' he' hliving')
        · exact absurd hport (hother e he hliving)
        · exact h.owned.exclusive e he e' he' hliving hliving' hport
    · intro j u hne hj hin hu
      exact absurd (h.alone hi hinside hlive hj hin hu) hne

/-- A write that fails may leave its file behind. -/
lemma LeaseInv.writesLate (hinside : k.inside = true) (e : PyError) :
    LeaseInv { w with files := name :: w.files }
      (vs.set i (c, k.learn (.write name) (.error e))) := by
  have hperm : (claims w.held (vs.set i (c, k.learn (.write name) (.error e)))).Perm
      (claims w.held vs) := claims_set_of_grows _ hi rfl rfl
  refine h.step hi hlive rfl rfl ?_ ?_ ?_
  · exact h.owned.mono (fun e he => hperm.subset he) (hperm.nodup_iff.mpr h.owned.nodup) rfl rfl
      (fun _ _ _ hmem => List.mem_cons_of_mem _ hmem) fun _ hmem => hmem
  · exact fun _ => ⟨(h.inside i (c, k) hi hinside hlive).1, .of_forgetting rfl rfl rfl⟩
  · intro j u hne hj hin hu
    exact absurd (h.alone hi hinside hlive hj hin hu) hne

/-- The claims of a call pass to the reservation it returns. -/
lemma LeaseInv.holds {r : LocalPortReservation} (hperm : c.Permits k (.hold r)) :
    LeaseInv { w with held := (c.process, r) :: w.held } (vs.set i (c, k.learn (.hold r) ())) := by
  obtain ⟨hinside, hnames⟩ := hperm
  refine h.moves hi hlive hinside ?_
  refine (claims_set_perm _ hi _).trans (List.Perm.trans ?_ (claims_perm _ hi).symm)
  simp only [claims, heldClaims, callClaims, LeaseKnown.learn, List.nil_append, List.flatMap_cons,
    List.map_append, hnames, List.append_assoc]
  refine (List.Perm.append_left _ (List.perm_append_comm_assoc _ _ _)).trans ?_
  exact List.perm_append_comm_assoc _ _ _

/-- The claims of a reservation pass to the call that releases it. -/
lemma LeaseInv.drops {r : LocalPortReservation} (hperm : c.Permits k (.drop r))
    (hheld : (c.process, r) ∈ w.held) : r.names.Nodup ∧
      LeaseInv { w with held := w.held.erase (c.process, r) }
        (vs.set i (c, k.learn (.drop r) ())) := by
  obtain ⟨hinside, hnone⟩ := hperm
  have hsplit : (heldClaims w.held).Perm
      (r.names.map (fun name => (c.process, name)) ++ heldClaims (w.held.erase (c.process, r))) :=
    (List.perm_cons_erase hheld).flatMap_right _
  constructor
  · have hnodup := (List.nodup_append.mp h.owned.nodup).2.1
    exact List.Nodup.of_map _ (List.nodup_append.mp (hsplit.nodup_iff.mp hnodup)).1
  · refine h.moves hi hlive hinside ?_
    refine (claims_set_perm _ hi _).trans (List.Perm.trans ?_ (claims_perm _ hi).symm)
    simp only [claims, callClaims, LeaseKnown.learn, hnone, List.append_nil, List.map_append,
      List.append_assoc]
    refine List.Perm.append_left _ (List.Perm.trans ?_ (List.Perm.append_left _ hsplit.symm))
    exact List.perm_append_comm_assoc _ _ _

/-- **One operation of one thread keeps the invariant.** -/
theorem LeaseInv.operation {o : LeaseOp} {r : o.Resp} {choice : LeaseChoice} (hperm : c.Permits k o)
    (hps : ∀ pid, o = .identify pid → choice = .succeeds)
    (hexec : w.perform i c.process o choice = some (r, w')) :
    c.Admits k o r ∧ LeaseInv w' (vs.set i (c, k.learn o r)) := by
  cases o with
  | identify pid =>
      obtain rfl := hps pid rfl
      obtain ⟨rfl, rfl⟩ := Prod.mk.inj (Option.some.inj hexec)
      exact h.identifies hi hlive pid
  | isSymlink name =>
      cases choice with
      | succeeds =>
          obtain ⟨rfl, rfl⟩ := Prod.mk.inj (Option.some.inj hexec)
          exact ⟨trivial, h.looks hi hlive name⟩
      | _ =>
          obtain ⟨rfl, rfl⟩ := Prod.mk.inj (Option.some.inj hexec)
          exact ⟨trivial, h.learns hi hlive rfl rfl rfl id⟩
  | glob port =>
      cases choice with
      | succeeds =>
          obtain ⟨rfl, rfl⟩ := Prod.mk.inj (Option.some.inj hexec)
          refine ⟨?_, h.lists hi hlive port⟩
          rintro _ ⟨⟩ name hname
          exact (List.mem_filter.mp hname).2
      | _ =>
          obtain ⟨rfl, rfl⟩ := Prod.mk.inj (Option.some.inj hexec)
          exact ⟨(fun _ h => by cases h), h.learns hi hlive rfl rfl rfl id⟩
  | lock =>
      cases choice with
      | succeeds =>
          simp only [LeaseWorld.perform] at hexec
          split_ifs at hexec with hfree
          obtain ⟨rfl, rfl⟩ := Prod.mk.inj (Option.some.inj hexec)
          exact ⟨trivial, h.locks hi hlive hfree⟩
      | _ =>
          obtain ⟨rfl, rfl⟩ := Prod.mk.inj (Option.some.inj hexec)
          exact ⟨trivial, h.learns hi hlive rfl rfl rfl id⟩
  | unlock =>
      obtain ⟨rfl, rfl⟩ := Prod.mk.inj (Option.some.inj hexec)
      exact ⟨trivial, h.unlocks hi hlive hperm⟩
  | bind port =>
      cases choice <;> obtain ⟨rfl, rfl⟩ := Prod.mk.inj (Option.some.inj hexec) <;>
        exact ⟨trivial, h.learns hi hlive rfl rfl rfl id⟩
  | close port =>
      obtain ⟨rfl, rfl⟩ := Prod.mk.inj (Option.some.inj hexec)
      exact ⟨trivial, h.learns hi hlive rfl rfl rfl id⟩
  | unlink name =>
      cases choice with
      | succeeds =>
          obtain ⟨rfl, rfl⟩ := Prod.mk.inj (Option.some.inj hexec)
          exact ⟨trivial, h.unlinks hi hlive hperm⟩
      | _ =>
          obtain ⟨rfl, rfl⟩ := Prod.mk.inj (Option.some.inj hexec)
          exact ⟨trivial, h.learns hi hlive rfl rfl rfl id⟩
  | write name =>
      have hforget : LeaseInv w (vs.set i (c, k.learn (.write name) (.error .osError))) :=
        h.learns hi hlive rfl rfl rfl fun _ => .of_forgetting rfl rfl rfl
      have hfails : c.Admits k (.write name) (.error .osError) := by
        intro hok
        cases hok
      simp only [LeaseWorld.perform] at hexec
      split_ifs at hexec with hthere
      · obtain ⟨rfl, rfl⟩ := Prod.mk.inj (Option.some.inj hexec)
        exact ⟨hfails, hforget⟩
      · cases choice with
        | succeeds =>
            obtain ⟨rfl, rfl⟩ := Prod.mk.inj (Option.some.inj hexec)
            obtain ⟨hnew, hinv⟩ := h.writes hi hlive hperm hthere
            exact ⟨fun _ => hnew, hinv⟩
        | failsLate =>
            obtain ⟨rfl, rfl⟩ := Prod.mk.inj (Option.some.inj hexec)
            exact ⟨hfails, h.writesLate hi hlive hperm.1 .osError⟩
        | _ =>
            obtain ⟨rfl, rfl⟩ := Prod.mk.inj (Option.some.inj hexec)
            exact ⟨hfails, hforget⟩
  | hold r =>
      obtain ⟨rfl, rfl⟩ := Prod.mk.inj (Option.some.inj hexec)
      exact ⟨trivial, h.holds hi hlive hperm⟩
  | drop r =>
      simp only [LeaseWorld.perform] at hexec
      split_ifs at hexec with hheld
      obtain ⟨rfl, rfl⟩ := Prod.mk.inj (Option.some.inj hexec)
      exact h.drops hi hlive hperm hheld

end Operations

/-! ## Events -/

/-- A process that starts has no claims, and no thread of it is in the lock. -/
lemma LeaseInv.started (h : LeaseInv w vs) {p : Process} (hcredible : p.Plausible)
    (hpid : ∀ q ∈ w.processes, q.pid ≠ p.pid) (hnew : p ∉ w.departed) :
    LeaseInv { w with processes := p :: w.processes } vs := by
  have hold : ∀ q, q ∈ w.processes ∨ q ∈ w.departed → q ∈ p :: w.processes → q ∈ w.processes := by
    rintro q hq hmem
    rcases List.mem_cons.mp hmem with rfl | hmem
    · exact hq.resolve_right hnew
    · exact hmem
  have hliving : ∀ e ∈ claims w.held vs, e.1 ∈ p :: w.processes → e.1 ∈ w.processes :=
    fun e he => hold e.1 (h.owned.known e he)
  refine ⟨?_, List.forall_mem_cons.mpr ⟨hcredible, h.credible⟩,
    List.forall_mem_cons.mpr ⟨hnew, h.parted⟩, ⟨h.owned.named, ?_, ?_, h.owned.nodup, ?_⟩, ?_, ?_⟩
  · intro q hq q' hq' hsame
    rw [List.mem_cons] at hq hq'
    rcases hq with heq | hq
    · rcases hq' with heq' | hq'
      · rw [heq, heq']
      · exact absurd (heq ▸ hsame.symm) (hpid q' hq')
    · rcases hq' with heq' | hq'
      · exact absurd (heq' ▸ hsame) (hpid q hq)
      · exact h.distinct q hq q' hq' hsame
  · exact fun e he => (h.owned.known e he).imp_left (List.mem_cons_of_mem _)
  · exact fun e he hlive => h.owned.present e he (hliving e he hlive)
  · exact fun e he e' he' hlive hlive' =>
      h.owned.exclusive e he e' he' (hliving e he hlive) (hliving e' he' hlive')
  · exact fun v hv hinside => (h.known v hv hinside).imp_left (List.mem_cons_of_mem _)
  · intro i v hv hinside hlive
    obtain ⟨hlocked, haccurate⟩ := h.inside i v hv hinside
      (hold _ (h.known v (List.mem_of_getElem? hv) hinside) hlive)
    exact ⟨hlocked, haccurate.mono fun e he => ⟨he.1, hliving e he.1 he.2⟩⟩

/-- A process that ends takes its claims with it, and gives the lock back. -/
lemma LeaseInv.ended (h : LeaseInv w vs) (pid : ℤ) : LeaseInv
    { w with
      processes := w.processes.filter fun p => p.pid ≠ pid
      departed := w.processes.filter (fun p => p.pid = pid) ++ w.departed
      locked := w.locked.filter fun l => l.2.pid ≠ pid } vs := by
  have hold : ∀ q ∈ w.processes.filter (fun p => p.pid ≠ pid), q ∈ w.processes ∧ q.pid ≠ pid := by
    intro q hq
    simpa using List.mem_filter.mp hq
  have hknown : ∀ q, q ∈ w.processes ∨ q ∈ w.departed →
      q ∈ w.processes.filter (fun p => p.pid ≠ pid) ∨
        q ∈ w.processes.filter (fun p => p.pid = pid) ++ w.departed := by
    rintro q (hq | hq)
    · by_cases hpid : q.pid = pid
      · exact .inr (List.mem_append_left _ (List.mem_filter.mpr ⟨hq, by simpa using hpid⟩))
      · exact .inl (List.mem_filter.mpr ⟨hq, by simpa using hpid⟩)
    · exact .inr (List.mem_append_right _ hq)
  refine ⟨?_, fun p hp => h.credible p (hold p hp).1, ?_,
    ⟨h.owned.named, ?_, ?_, h.owned.nodup, ?_⟩, ?_, ?_⟩
  · exact fun p hp q hq => h.distinct p (hold p hp).1 q (hold q hq).1
  · intro p hp hmem
    rcases List.mem_append.mp hmem with hmem | hmem
    · exact (hold p hp).2 (by simpa using (List.mem_filter.mp hmem).2)
    · exact h.parted p (hold p hp).1 hmem
  · exact fun e he => hknown e.1 (h.owned.known e he)
  · exact fun e he hlive => h.owned.present e he (hold e.1 hlive).1
  · exact fun e he e' he' hlive hlive' =>
      h.owned.exclusive e he e' he' (hold e.1 hlive).1 (hold e'.1 hlive').1
  · exact fun v hv hinside => hknown _ (h.known v hv hinside)
  · intro i v hv hinside hlive
    obtain ⟨hlocked, haccurate⟩ := h.inside i v hv hinside (hold _ hlive).1
    refine ⟨?_, haccurate.mono fun e he => ⟨he.1, (hold e.1 he.2).1⟩⟩
    simp only [hlocked]
    rw [Option.filter_some, if_pos (by simpa using (hold _ hlive).2)]

lemma LeaseInv.happens (h : LeaseInv w vs) {event : ProcessEvent}
    (hevent : w.environment event = some w') : LeaseInv w' vs := by
  cases event with
  | started p =>
      simp only [LeaseWorld.environment] at hevent
      split_ifs at hevent with hstarts
      obtain ⟨hcredible, hpid, hkey⟩ := hstarts
      obtain rfl := Option.some.inj hevent
      exact h.started hcredible hpid fun hmem => hkey p hmem rfl
  | ended pid =>
      obtain rfl := Option.some.inj hevent
      exact h.ended pid

lemma LeaseInv.arrives (h : LeaseInv w vs) (c : LeaseCaller) :
    LeaseInv w (vs ++ [(c, ({} : LeaseKnown))]) := by
  have hclaims : claims w.held (vs ++ [(c, ({} : LeaseKnown))]) = claims w.held vs :=
    claims_append w.held c
  refine ⟨h.distinct, h.credible, h.parted, hclaims ▸ h.owned, ?_, ?_⟩
  · intro v hv hinside
    rcases List.mem_append.mp hv with hv | hv
    · exact h.known v hv hinside
    · rw [List.mem_singleton.mp hv] at hinside
      cases hinside
  · intro i v hv hinside hlive
    rw [hclaims]
    by_cases hlt : i < vs.length
    · rw [List.getElem?_append_left hlt] at hv
      exact h.inside i v hv hinside hlive
    · rw [List.getElem?_append_right (Nat.le_of_not_lt hlt)] at hv
      rw [List.mem_singleton.mp (List.mem_of_getElem? hv)] at hinside
      cases hinside

/-- `ps` tells the user and the start time of every live process. -/
def PsAnswers (p : leases.Pool) : leases.Label → Prop
  | .step i choice => ∀ (t : leases.Thread) (pid : ℤ), p.threads[i]? = some t →
      t.pending = some (.identify pid) → choice = .succeeds
  | _ => True

/-- **The step lemma.** -/
theorem leaseInv_preserves : Machine.Preserves (M := leases) PsAnswers LeaseInv where
  arrive p c _ h := h.arrives c
  event p e w _ h hevent := h.happens hevent
  step p i choice t o r w hps h ht ho hperm hexec := by
    have hi : p.views[i]? = some (t.context, t.known) := by
      simp [Machine.Pool.views, ht, Machine.Thread.view]
    change (if t.context.process ∈ p.world.processes then
      LeaseWorld.perform i t.context.process p.world o choice else none) = some (r, w) at hexec
    split_ifs at hexec with hlive
    exact h.operation hi hlive hperm (fun pid hpid => hps t pid ht (hpid ▸ ho)) hexec

end FreebsdLaboratory
