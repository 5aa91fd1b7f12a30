import Mathlib.Data.List.Dedup
import FreebsdLaboratory.Protocol.Creating

/-!
# The collector and the whole daemon follow the protocol

Between two operations on a runtime the collector holds the shared lock and knows two things: the
records its last reading of the registry gave, and what it has found out about processes since.
`fresh_sound` is the result for a connection of any kind.
-/

namespace FreebsdLaboratory

open Library Program

variable {m : RuntimeManager} {c : Connection} {s : Known} {name : String} {staleOnly : Bool}
variable {snapshot : List (String × RuntimeRecord)} {verdicts : List (ℤ × Option ProcessIdentity)}

/-- The collector between two operations on a runtime. -/
def collecting (snapshot : List (String × RuntimeRecord))
    (verdicts : List (ℤ × Option ProcessIdentity)) : Known :=
  { holds := [.shared], snapshot := snapshot, verdicts := verdicts }

/-- It is between two such operations, whatever it knows. -/
def Collecting (s : Known) : Prop := ∃ snapshot verdicts, s = collecting snapshot verdicts

theorem collecting_collecting : Collecting (collecting snapshot verdicts) :=
  ⟨snapshot, verdicts, rfl⟩

/-! ## Reading the registry -/

theorem registeredLoop_obeys (hcollects : c.Collects staleOnly) :
    ∀ (names : List String) (acc : List (String × RuntimeRecord)), names.Nodup →
      (∀ n ∈ names, n ∉ acc.map Prod.fst) →
      (registeredLoop names).Obeys (rules m c) (fun rs s' => s' = collecting (acc ++ rs) [])
        (fun _ => Collecting) (collecting acc [])
  | [], acc, _, _ => by simp [registeredLoop]
  | name :: names, acc, hnodup, hacc => by
      obtain ⟨hname, hnodup⟩ := List.nodup_cons.mp hnodup
      have hrest : ∀ n ∈ names, n ∉ acc.map Prod.fst :=
        fun n hn => hacc n (List.mem_cons_of_mem _ hn)
      unfold registeredLoop
      split_ifs
      · rw [Prog.obeys_bind, loadRegistry, Prog.obeys_bind]
        refine obeys_op_iff.mpr
          ⟨.inr ⟨⟨staleOnly, hcollects⟩, rfl, hacc name (by simp)⟩, fun r _ => ?_⟩
        cases r with
        | error e => exact collecting_collecting
        | ok x =>
            have hlearn : (collecting acc []).learn (.loadRegistry name) (.ok x)
                = collecting (acc ++ (x.map fun r => (name, r)).toList) [] := by
              simp [Known.learn, collecting]
            rw [hlearn]
            cases x with
            | none =>
                rw [Option.map_none, Option.toList_none, List.append_nil]
                exact registeredLoop_obeys hcollects names acc hnodup hrest
            | some record =>
                refine Prog.obeys_bind.mpr ((registeredLoop_obeys hcollects names
                  (acc ++ [(name, record)]) hnodup fun n hn => ?_).mono (fun rs s' hs' => ?_)
                  fun _ _ h => h)
                · have hne : n ≠ name := by
                    rintro rfl
                    exact hname hn
                  simpa [hne] using hrest n hn
                · rw [hs']
                  simp
      · exact registeredLoop_obeys hcollects names acc hnodup hrest

/-- **What the collector knows after reading the registry is what it has read.** -/
theorem registered_obeys (hcollects : c.Collects staleOnly) :
    registered.Obeys (rules m c) (fun rs s' => s' = collecting rs []) (fun _ => Collecting)
      (collecting snapshot verdicts) := by
  rw [registered, Prog.obeys_bind]
  exact obeys_op_iff.mpr ⟨⟨⟨staleOnly, hcollects⟩, rfl⟩, fun names hnames =>
    registeredLoop_obeys hcollects names [] hnames (by simp)⟩

/-! ## Judging an owner -/

theorem processMatches_obeys {r : RuntimeRecord} {pid uid : ℤ} {digest : String}
    (hpid : r.ownerPid = .int pid) (huid : r.ownerUid = .int uid)
    (hdigest : r.ownerProcessDigest = .str digest) :
    (processMatches pid uid digest).Obeys (rules m c)
      (fun alive s' => (∃ verdicts, s' = { s with verdicts := verdicts })
        ∧ (alive = false → s'.JudgedDead r))
      (fun _ s' => ∃ verdicts, s' = { s with verdicts := verdicts }) s := by
  have hsame : ∀ {s' : Known}, (∀ pid' uid' digest', pid' = pid → uid' = uid →
      digest' = digest → 1 < pid' → 0 ≤ uid' → digest' ≠ "" → ∃ found, (pid', found) ∈ s'.verdicts ∧
        ∀ identity, found = some identity → ¬ (identity.uid = uid' ∧ identity.digest = digest')) →
      s'.JudgedDead r := by
    intro s' h pid' uid' digest' hpid' huid' hdigest'
    rw [hpid] at hpid'; rw [huid] at huid'; rw [hdigest] at hdigest'
    exact h pid' uid' digest' (by simpa using hpid'.symm) (by simpa using huid'.symm)
      (by simpa using hdigest'.symm)
  unfold processMatches
  split_ifs with hbad
  · refine ⟨⟨s.verdicts, rfl⟩, fun _ => hsame ?_⟩
    rintro pid' uid' digest' rfl rfl rfl h1 h0 hne
    rcases hbad with hbad | hbad | hbad
    · omega
    · omega
    · exact absurd hbad hne
  · rw [Prog.obeys_bind]
    refine (queryProcessIdentity_obeys pid).mono (fun found s' hs' => ?_) ?_
    · have hpid1 : ¬ pid ≤ 1 := fun h => hbad (.inl h)
      obtain rfl : s' = { s with verdicts := (pid, found) :: s.verdicts } := by
        rcases hs' with ⟨-, -, hle⟩ | rfl
        · exact absurd hle hpid1
        · rfl
      cases found with
      | none =>
          refine ⟨⟨_, rfl⟩, fun _ => hsame ?_⟩
          rintro pid' uid' digest' rfl rfl rfl - - -
          exact ⟨none, by simp, by simp⟩
      | some identity =>
          refine ⟨⟨_, rfl⟩, fun hfalse => hsame ?_⟩
          rintro pid' uid' digest' rfl rfl rfl - - -
          refine ⟨some identity, by simp, ?_⟩
          rintro _ ⟨rfl⟩
          simpa using hfalse
    · rintro - _ rfl
      exact ⟨_, rfl⟩

/-- **An owner said to be dead has been judged so.** -/
theorem ownerAlive_obeys (r : RuntimeRecord) :
    (ownerAlive r).Obeys (rules m c)
      (fun alive s' => (∃ verdicts, s' = { s with verdicts := verdicts })
        ∧ (alive = false → s'.JudgedDead r))
      (fun _ s' => ∃ verdicts, s' = { s with verdicts := verdicts }) s := by
  unfold ownerAlive
  split
  · rename_i pid uid digest hpid huid hdigest
    rw [RecordValue.asInt_eq_some] at hpid huid
    rw [RecordValue.asStr_eq_some] at hdigest
    split_ifs with hbad
    · refine ⟨⟨s.verdicts, rfl⟩, fun _ pid' uid' digest' hpid' _ hdigest' h1 _ hne => ?_⟩
      obtain rfl : pid = pid' := by simpa [hpid] using hpid'
      obtain rfl : digest = digest' := by simpa [hdigest] using hdigest'
      rcases hbad with hbad | hbad
      · omega
      · exact absurd hbad hne
    · exact processMatches_obeys hpid huid hdigest
  · rename_i pid uid hpid huid hdigest
    have hjudged : ∀ s' : Known, s'.JudgedDead r := fun s' _ _ digest _ _ hstr => by
      simp [hstr, RecordValue.asStr] at hdigest
    split_ifs
    · exact ⟨⟨s.verdicts, rfl⟩, fun _ => hjudged s⟩
    · refine Prog.obeys_bind.mpr ((queryProcessIdentity_obeys pid).mono (fun found s' hs' => ?_) ?_)
      · rcases hs' with ⟨-, rfl, -⟩ | rfl
        · exact ⟨⟨s'.verdicts, rfl⟩, fun _ => hjudged s'⟩
        · exact ⟨⟨_, rfl⟩, fun _ => hjudged _⟩
      · rintro - _ rfl
        exact ⟨_, rfl⟩
  · rename_i hnot _
    refine ⟨⟨s.verdicts, rfl⟩, fun _ pid uid digest hpid huid hdigest _ _ _ => ?_⟩
    exact absurd (RecordValue.asStr_eq_some.mpr hdigest)
      (hnot pid uid digest (RecordValue.asInt_eq_some.mpr hpid)
        (RecordValue.asInt_eq_some.mpr huid))

/-! ## The phases of gc -/

/-- A step after which the collector is still the collector, and that may raise. -/
theorem obeys_bind_collecting {α β : Type} {p : Program α} {f : α → Program β}
    {Q : β → Known → Prop} {P : α → Known → Prop}
    (hp : p.Obeys (rules m c) P (fun _ => Collecting) s)
    (hf : ∀ a s', P a s' → (f a).Obeys (rules m c) Q (fun _ => Collecting) s') :
    (p >>= f).Obeys (rules m c) Q (fun _ => Collecting) s :=
  Prog.obeys_bind.mpr (hp.mono hf fun _ _ h => h)

theorem gcRegistered_obeys (hcollects : c.Collects staleOnly) :
    ∀ (records : List (String × RuntimeRecord)) (st : GcState)
      (verdicts : List (ℤ × Option ProcessIdentity)), (∀ e ∈ records, e ∈ snapshot) →
      (gcRegistered m staleOnly c.peer.uid records st).Obeys (rules m c) (fun _ => Collecting)
        (fun _ => Collecting) (collecting snapshot verdicts)
  | [], st, verdicts, _ => collecting_collecting
  | (name, record) :: records, st, verdicts, hrecords => by
      have hrest : ∀ e ∈ records, e ∈ snapshot := fun e he => hrecords e (by simp [he])
      unfold gcRegistered
      split_ifs
      · exact gcRegistered_obeys hcollects records _ verdicts hrest
      · refine obeys_bind_collecting ((ownerAlive_obeys record).mono (fun _ _ h => h) ?_) ?_
        · rintro - _ ⟨verdicts', rfl⟩
          exact ⟨snapshot, verdicts', rfl⟩
        rintro alive _ ⟨⟨verdicts', rfl⟩, hdead⟩
        change Prog.Obeys _ _ _ _ (collecting snapshot verdicts')
        split_ifs with hkeep
        · exact gcRegistered_obeys hcollects records _ verdicts' hrest
        · have htargets : staleOnly = true → c.peer.uid = 0 →
              (collecting snapshot verdicts').Targets name := by
            rintro rfl -
            exact .inl ⟨record, hrecords _ (by simp), hdead (by simpa using hkeep)⟩
          have hdestroy : Keeps m c (collecting snapshot verdicts')
              (destroy m name (some c.peer.uid) (c.peer.uid = 0)) :=
            keeps_destroy_collecting hcollects rfl rfl rfl rfl ⟨rfl, rfl, rfl⟩ htargets
              (by simp) fun _ => rfl
          rw [Prog.obeys_bind, Prog.obeys_tryCatch, Prog.obeys_bind]
          exact hdestroy.obeys (fun _ => gcRegistered_obeys hcollects records _ verdicts' hrest)
            fun _ => gcRegistered_obeys hcollects records _ verdicts' hrest

theorem mem_sortedSet {names : List String} : name ∈ sortedSet names ↔ name ∈ names := by
  simp [sortedSet, List.mem_dedup]

theorem keeps_gcDiscovered (hcollects : c.Collects staleOnly) (hroot : c.peer.uid = 0) :
    ∀ (names : List String) (st : GcState), (∀ n ∈ names, n ∉ snapshot.map Prod.fst) →
      Keeps m c (collecting snapshot verdicts) (gcDiscovered m names st)
  | [], st, _ => keeps_pure _
  | name :: names, st, hnames => by
      have hdestroy : Keeps m c (collecting snapshot verdicts) (destroy m name none true) :=
        keeps_destroy_collecting hcollects rfl rfl rfl rfl ⟨rfl, rfl, rfl⟩
          (fun _ _ => .inr (hnames name (by simp))) (fun _ => hroot) (by simp)
      have hrest := fun st => keeps_gcDiscovered hcollects hroot names st
        fun n hn => hnames n (by simp [hn])
      rw [gcDiscovered, Keeps, Prog.obeys_bind, Prog.obeys_tryCatch, Prog.obeys_bind]
      exact hdestroy.obeys (fun _ => hrest _) fun _ => hrest _

theorem keeps_gcEpairs (hcollects : c.Collects staleOnly) (hroot : c.peer.uid = 0) :
    ∀ interfaces : List String,
      (∀ i ∈ interfaces, i ∉ snapshot.filterMap fun e => referencedEpair e.2) →
      Keeps m c (collecting snapshot verdicts) (gcEpairs interfaces)
  | [], _ => keeps_pure _
  | interface :: interfaces, h =>
      have hperm : PermitsRun m c (collecting snapshot verdicts) (.ifconfigDestroy interface) :=
        .inr ⟨⟨staleOnly, hcollects⟩, hroot, rfl, h interface (by simp)⟩
      keeps_bind (keeps_succeeds _ hperm fun _ => rfl) fun _ =>
        keeps_bind (keeps_gcEpairs hcollects hroot interfaces fun i hi => h i (by simp [hi]))
          fun _ => keeps_pure _

theorem keeps_discoverJails : Keeps m c s discoverJails :=
  keeps_bind (keeps_run _ _ trivial fun _ => rfl) fun _ =>
    keeps_ite (fun _ => keeps_pure _) fun _ => keeps_pure _

theorem keeps_discoverVms : Keeps m c s discoverVms :=
  keeps_bind keeps_vmAvailable fun _ => keeps_ite
    (fun _ => keeps_bind (keeps_run _ _ trivial fun _ => rfl) fun _ =>
      keeps_ite (fun _ => keeps_pure _) fun _ => keeps_pure _)
    fun _ => keeps_pure _

theorem keeps_discoverDatasets : Keeps m c s (discoverDatasets m) :=
  keeps_bind (keeps_run _ _ trivial fun _ => rfl) fun _ =>
    keeps_ite (fun _ => keeps_pure _) fun _ => keeps_pure _

theorem keeps_bridgeEpairs : Keeps m c s bridgeEpairs :=
  keeps_bind (keeps_run _ _ trivial fun _ => rfl) fun _ =>
    keeps_ite (fun _ => keeps_pure _) fun _ => keeps_pure _

theorem Keeps.collecting {α : Type} {p : Program α}
    (h : Keeps m c (collecting snapshot verdicts) p) :
    p.Obeys (rules m c) (fun _ s' => s' = FreebsdLaboratory.collecting snapshot verdicts)
      (fun _ => Collecting) (FreebsdLaboratory.collecting snapshot verdicts) :=
  h.obeys (fun _ => rfl) fun _ => collecting_collecting

theorem gcOrphans_obeys (hcollects : c.Collects staleOnly) (hroot : c.peer.uid = 0) (st : GcState)
    (hretained : ∀ n ∈ snapshot.map Prod.fst, n ∈ st.retained) :
    (gcOrphans m st).Obeys (rules m c) (fun _ => Collecting) (fun _ => Collecting)
      (collecting snapshot verdicts) := by
  unfold gcOrphans
  refine obeys_bind_collecting keeps_discoverJails.collecting ?_
  rintro jails _ rfl
  refine obeys_bind_collecting keeps_discoverVms.collecting ?_
  rintro vms _ rfl
  refine obeys_bind_collecting keeps_discoverDatasets.collecting ?_
  rintro datasets _ rfl
  refine obeys_bind_collecting (keeps_gcDiscovered hcollects hroot _ st ?_).collecting ?_
  · intro n hn hmem
    simp only [mem_sortedSet, List.mem_filter, decide_eq_true_eq] at hn
    exact hn.2 (hretained n hmem)
  rintro st' _ rfl
  refine obeys_bind_collecting (registered_obeys hcollects) ?_
  rintro records _ rfl
  refine obeys_bind_collecting keeps_bridgeEpairs.collecting ?_
  rintro members _ rfl
  refine obeys_bind_collecting (keeps_gcEpairs hcollects hroot _ ?_).collecting ?_
  · intro i hi
    simp only [mem_sortedSet, List.mem_filter, decide_eq_true_eq] at hi
    exact hi.2
  · rintro removed _ rfl
    exact collecting_collecting

theorem gcBody_obeys (hcollects : c.Collects staleOnly) :
    (gcBody m staleOnly c.peer.uid).Obeys (rules m c) (fun _ => Collecting) (fun _ => Collecting)
      (collecting [] []) := by
  unfold gcBody
  refine obeys_bind_collecting (registered_obeys hcollects) ?_
  rintro records _ rfl
  refine obeys_bind_collecting (gcRegistered_obeys hcollects records {} [] fun _ he => he) ?_
  rintro st _ ⟨snapshot', verdicts', rfl⟩
  refine obeys_bind_collecting (registered_obeys hcollects) ?_
  rintro registeredAfter _ rfl
  refine obeys_bind_collecting (P := fun _ => Collecting) ?_ ?_
  · split_ifs with hroot
    · exact gcOrphans_obeys hcollects hroot _ fun n hn => by simp [List.mem_append, hn]
    · exact collecting_collecting
  rintro ⟨st', removedEpairs⟩ _ ⟨snapshot', verdicts', rfl⟩
  refine obeys_bind_collecting (registered_obeys hcollects) ?_
  rintro active _ rfl
  refine obeys_bind_collecting (P := fun _ => Collecting) ?_ ?_
  · split_ifs with hroot
    · rw [Prog.obeys_bind]
      refine obeys_op_iff.mpr ⟨⟨⟨staleOnly, hcollects⟩, hroot, rfl, rfl⟩, fun r _ => ?_⟩
      cases r <;> exact collecting_collecting
    · exact collecting_collecting
  rintro released _ ⟨snapshot', verdicts', rfl⟩
  refine obeys_bind_collecting (P := fun _ => Collecting) ?_ fun _ _ h => h
  refine Prog.obeys_forEach collecting_collecting ?_
  rintro address - _ ⟨snapshot'', verdicts'', rfl⟩
  exact Keeps.obeys (keeps_bind (keeps_arpDelete address rfl) fun _ => keeps_pure _)
    (fun _ => collecting_collecting) fun _ => collecting_collecting

theorem keeps_gc (hcollects : c.Collects staleOnly) : Keeps m c {} (gc m staleOnly c.peer.uid) := by
  refine withLock_obeys (.inl ⟨⟨staleOnly, hcollects⟩, rfl⟩) ?_
  refine Prog.Obeys.mono (gcBody_obeys hcollects) ?_ ?_
  all_goals
    rintro - _ ⟨snapshot', verdicts', rfl⟩
    exact ⟨⟨rfl, rfl⟩, rfl⟩

/-! ## The request handler -/

theorem keeps_perform {action : Action} (h : c.action = .ok action) :
    Keeps m c {} (perform m c.peer action) := by
  cases action with
  | ping => exact keeps_pure _
  | createJail name pid key => exact keeps_bind (keeps_createJail h) fun _ => keeps_pure _
  | createBhyve name pid key profile => exact keeps_bind (keeps_createBhyve h) fun _ => keeps_pure _
  | destroy name => exact keeps_bind (keeps_destroy_request h) fun _ => keeps_pure _
  | gc staleOnly => exact keeps_bind (keeps_gc h) fun _ => keeps_pure _

theorem keeps_handle : Keeps m c {} (handle m c) := by
  unfold handle
  split
  · exact keeps_pure _
  · rw [Keeps, Prog.obeys_tryCatch, Prog.obeys_bind, obeys_ofExcept]
    refine ⟨fun action haction => ?_, fun _ _ => rfl⟩
    rw [Prog.obeys_bind]
    exact (keeps_perform haction).obeys (fun _ => rfl) fun _ => rfl

/-- **Every connection's thread follows the protocol**, and ends knowing nothing: in particular it
has given back every lock it took. -/
theorem fresh_sound (m : RuntimeManager) (reentrant : Bool) (c : Connection) :
    (Machine.Thread.fresh (M := daemon m reentrant) c).Sound fun s => s = ({} : Known) :=
  keeps_handle

end FreebsdLaboratory
