import Mathlib.Logic.Relation
import FreebsdLaboratory.Model.RuntimeClient
import FreebsdLaboratory.Protocol.Coherence

/-!
# Threads that wait for each other

`gc` takes the shared lock and then locks of runtimes; a create request takes the lock of its
runtime and then, while a caching flag is unset, the shared lock.  So the two can wait for each
other, and a cycle of waiting threads is always made of such pairs: a thread in a cycle holds a lock
and waits for one, and only these two kinds do (`holds_of_waits`).

A cycle forms only where one of them goes on although the other is already on its way
(`LocksInOrder`); in runs without such a step there is none.
-/

namespace FreebsdLaboratory

open Library

variable {m : RuntimeManager} {reentrant : Bool} {i j g k : ℕ} {name : String} {w w₀ w' : World}
variable {o : Op} {a : Answer} {c : Connection} {s : Known} {vs : List (Connection × Known)}

/-- Thread `i` wants a lock that thread `j` holds. -/
def Waits (p : Pool m reentrant) (i j : ℕ) : Prop :=
  i ≠ j ∧ ∃ t lock n, p.threads[i]? = some t ∧ t.pending = some (.acquire lock)
    ∧ World.held p.world lock = some (j, n)

/-- A thread in a cycle of threads each of which waits for the next. -/
def Deadlocked (p : Pool m reentrant) (i : ℕ) : Prop := Relation.TransGen (Waits p) i i

/-! ## Cycles -/

section Cycles

variable {p : Pool m reentrant}

/-- The next thread of a cycle. -/
theorem Deadlocked.next (h : Deadlocked p i) : ∃ j, Waits p i j ∧ Deadlocked p j := by
  rcases Relation.TransGen.head'_iff.mp h with ⟨j, hij, hji⟩
  exact ⟨j, hij, Relation.TransGen.tail' hji hij⟩

/-- The thread before in a cycle. -/
theorem Deadlocked.previous (h : Deadlocked p i) : ∃ j, Waits p j i := by
  obtain ⟨j, -, hji⟩ := Relation.TransGen.tail'_iff.mp h
  exact ⟨j, hji⟩

end Cycles

/-! ## The condition -/

/-- A thread that is about to take the lock of a runtime and holds the shared lock. -/
def Known.Asks (s : Known) (name : String) : Prop := s.asked = some name ∧ s.holds = [.shared]

instance (s : Known) (name : String) : Decidable (s.Asks name) :=
  inferInstanceAs (Decidable (_ ∧ _))

/-- A thread in the lock of a runtime that is about to take the shared lock. -/
def Known.Configures (s : Known) (name : String) : Prop :=
  s.slow = true ∧ .runtime name ∈ s.holds ∧ .shared ∉ s.holds

instance (s : Known) (name : String) : Decidable (s.Configures name) :=
  inferInstanceAs (Decidable (_ ∧ _))

/-- The collector does not turn to a runtime while its create request is about to take the shared
lock, and a create request does not find a flag unset while the collector is about to take the lock
of its runtime. -/
def LocksInOrder : StepCondition := fun w vs _ _ s o _ =>
  (∀ name, o = .runtimeLock name → .shared ∈ s.holds → ∀ v ∈ vs, ¬ v.2.Configures name) ∧
    ∀ flag name, o = .readFlag flag → w.flag flag = false → .runtime name ∈ s.holds →
      .shared ∉ s.holds → ∀ v ∈ vs, ¬ v.2.Asks name

/-! ## The invariant -/

/-- No thread is about to take the lock of a runtime under the shared lock while another is about to
take the shared lock under that lock.  A thread in a slow section holds a lock. -/
structure Ordered (vs : List (Connection × Known)) : Prop where
  apart : ∀ v ∈ vs, ∀ v' ∈ vs, ∀ name, v.2.Asks name → ¬ v'.2.Configures name
  slow : ∀ v ∈ vs, v.2.slow = true → v.2.holds ≠ []

/-- How a thread comes to be about to take a runtime's lock. -/
theorem asks_of_learn {r : o.Resp} (h : (s.learn o r).Asks name) :
    (o = .runtimeLock name ∧ .shared ∈ s.holds) ∨ s.Asks name := by
  obtain ⟨hasked, hholds⟩ := h
  cases o with
  | runtimeLock name' =>
      obtain rfl : name' = name := by simpa [Known.learn] using hasked
      have hholds : s.holds = [.shared] := hholds
      exact .inl ⟨rfl, by simp [hholds]⟩
  | acquire l => simp [Known.learn] at hasked
  | release l => simp [Known.learn] at hasked
  | readFlag flag => exact .inr ⟨hasked, hholds⟩
  | _ =>
      rw [Known.learn_asked rfl] at hasked
      rw [Known.learn_holds rfl] at hholds
      exact .inr ⟨hasked, hholds⟩

/-- How a thread comes to be about to take the shared lock. -/
theorem configures_of_learn {r : o.Resp} (hslow : s.slow = true → s.holds ≠ [])
    (hp : Permits m c s o) (he : exec m reentrant i c.runtime w o a = some (r, w'))
    (h : (s.learn o r).Configures name) :
    (∃ flag, o = .readFlag flag ∧ w.flag flag = false ∧ .runtime name ∈ s.holds
      ∧ .shared ∉ s.holds) ∨ s.Configures name := by
  obtain ⟨hs, hmem, hshared⟩ := h
  cases o with
  | runtimeLock name' => exact .inr ⟨hs, hmem, hshared⟩
  | acquire l =>
      have hs : s.slow = true := hs
      have hmem : .runtime name ∈ l :: s.holds := hmem
      have hshared : .shared ∉ l :: s.holds := hshared
      have hshared' : .shared ∉ s.holds := fun h => hshared (List.mem_cons_of_mem _ h)
      rcases List.mem_cons.mp hmem with rfl | hmem
      · -- a thread in a slow section takes no further lock of a runtime
        rcases hp with ⟨-, ⟨-, hnil⟩ | ⟨-, hnil | hown⟩ | ⟨staleOnly, -, hcollector, -⟩⟩
        · exact absurd hnil (hslow hs)
        · exact absurd hnil (hslow hs)
        · exact .inr ⟨hs, by simp [hown], hshared'⟩
        · exact absurd (by simp [hcollector]) hshared'
      · exact .inr ⟨hs, hmem, hshared'⟩
  | release l =>
      obtain ⟨-, hl, hs⟩ := Known.releasing_slow hs
      rw [Known.learn, Known.releasing_holds] at hmem hshared
      refine .inr ⟨hs, List.mem_of_mem_erase hmem, fun hmem' => hshared ?_⟩
      exact (List.mem_erase_of_ne (Ne.symm hl)).mpr hmem'
  | readFlag flag =>
      obtain ⟨rfl, -⟩ := Prod.mk.inj (Option.some.inj he)
      have hs : (s.slow || !w.flag flag) = true := hs
      by_cases hold : s.slow = true
      · exact .inr ⟨hold, hmem, hshared⟩
      · exact .inl ⟨flag, rfl, by simpa [hold] using hs, hmem, hshared⟩
  | _ =>
      rw [Known.learn_slow rfl] at hs
      rw [Known.learn_holds rfl] at hmem hshared
      exact .inr ⟨hs, hmem, hshared⟩

/-- A thread in a slow section still holds a lock. -/
theorem slow_of_learn {r : o.Resp} (hslow : s.slow = true → s.holds ≠ []) (hp : Permits m c s o)
    (h : (s.learn o r).slow = true) : (s.learn o r).holds ≠ [] := by
  cases o with
  | runtimeLock name => exact hslow h
  | acquire l => exact List.cons_ne_nil _ _
  | release l =>
      rw [Known.learn, Known.releasing_holds]
      exact (Known.releasing_slow h).1
  | readFlag flag => exact hp
  | _ =>
      rw [Known.learn_slow rfl] at h
      rw [Known.learn_holds rfl]
      exact hslow h

/-- **A step in order keeps the two kinds of threads apart.** -/
theorem Ordered.step (h : Ordered vs) (hcond : LocksInOrder w vs i c s o a)
    (hi : vs[i]? = some (c, s)) {r : o.Resp} (hp : Permits m c s o)
    (he : exec m reentrant i c.runtime w o a = some (r, w')) :
    Ordered (vs.set i (c, s.learn o r)) := by
  have hmem := List.mem_of_getElem? hi
  have hslow := h.slow _ hmem
  constructor
  · intro v hv v' hv' name hasks hconfigures
    -- whichever of the two has moved was on its way before, or the condition forbids the step
    rcases List.mem_or_eq_of_mem_set hv with hv | rfl <;>
      rcases List.mem_or_eq_of_mem_set hv' with hv' | rfl
    · exact h.apart v hv v' hv' name hasks hconfigures
    · rcases configures_of_learn hslow hp he hconfigures with ⟨flag, ho, hflag, hin, hout⟩ | hold
      · exact hcond.2 flag name ho hflag hin hout v hv hasks
      · exact h.apart v hv _ hmem name hasks hold
    · rcases asks_of_learn hasks with ⟨ho, hshared⟩ | hold
      · exact hcond.1 name ho hshared v' hv' hconfigures
      · exact h.apart _ hmem v' hv' name hold hconfigures
    · exact hconfigures.2.2 (by rw [hasks.2]; simp)
  · intro v hv hs
    rcases List.mem_or_eq_of_mem_set hv with hv | rfl
    · exact h.slow v hv hs
    · exact slow_of_learn hslow hp hs

theorem Ordered.append (h : Ordered vs) : Ordered (vs ++ [(c, ({} : Known))]) := by
  constructor
  · intro v hv v' hv' name hasks hconfigures
    simp only [List.mem_append, List.mem_singleton] at hv hv'
    rcases hv with hv | rfl
    · rcases hv' with hv' | rfl
      · exact h.apart v hv v' hv' name hasks hconfigures
      · simp [Known.Configures] at hconfigures
    · simp [Known.Asks] at hasks
  · intro v hv hs
    simp only [List.mem_append, List.mem_singleton] at hv
    rcases hv with hv | rfl
    · exact h.slow v hv hs
    · simp at hs

theorem ordered_preserved (m : RuntimeManager) (reentrant : Bool) :
    Machine.PreservesWith (whenStep LocksInOrder : LabelCondition m reentrant) Coherent
      (fun _ => Ordered) :=
  preserves_of_steps (fun _ _ _ _ h => h.append) (fun _ _ _ _ _ h _ => h)
    fun _ _ _ _ _ _ _ _ _ hcond _ h hi hp he _ => h.step hcond hi hp he

/-! ## No cycle -/

/-- The holder of a lock has it among those it holds. -/
theorem mem_holds_of_held {p : Pool m reentrant} (h : Coherent p.world p.views)
    {lock : LockId} {n : ℕ}
    (hheld : World.held p.world lock = some (i, n)) {t : (daemon m reentrant).Thread}
    (ht : p.threads[i]? = some t) : lock ∈ Known.holds t.known := by
  obtain ⟨hpos, hdepth⟩ := (h.locks lock i n).mp hheld
  rw [depth_of_getElem? (views_getElem? ht)] at hdepth
  exact List.count_pos_iff.mp (hdepth ▸ hpos)

/-- What a thread in a cycle is: the collector on its way to a runtime, or a create request on its
way to the shared lock. -/
theorem asks_or_configures {p : Pool m reentrant}
    (hp : p.Sound (fun s : Known => s = ({} : Known)) fun w vs => Coherent w vs ∧ Ordered vs)
    (hdead : Deadlocked p i) :
    ∃ t j, p.threads[i]? = some t ∧ Waits p i j ∧ Deadlocked p j ∧
      ((∃ name n, Known.Asks t.known name ∧ World.held p.world (.runtime name) = some (j, n))
        ∨ ∃ name n, Known.Configures t.known name ∧ World.held p.world .shared = some (j, n)) := by
  obtain ⟨hcoherent, hordered⟩ := hp.holds
  obtain ⟨j, hwait, hj⟩ := hdead.next
  obtain ⟨i', hbefore⟩ := hdead.previous
  obtain ⟨hne, t, lock, n, ht, ho, hheld⟩ := hwait
  obtain ⟨-, -, lock', n', -, -, hheld'⟩ := hbefore
  have hi := views_getElem? ht
  -- the thread before waits for a lock of this one
  have hholds : Known.holds t.known ≠ [] :=
    List.ne_nil_of_mem (mem_holds_of_held hcoherent hheld' ht)
  have hperm : Permits m t.context t.known (.acquire lock) := hp.permits ht ho
  have hother : lock ∉ Known.holds t.known := by
    intro hmem
    have hself := (hcoherent.locks lock i _).mpr
      ⟨List.count_pos_iff.mpr hmem, depth_of_getElem? hi lock⟩
    rw [hheld] at hself
    exact hne (congrArg Prod.fst (Option.some.inj hself)).symm
  refine ⟨t, j, ht, ⟨hne, t, lock, n, ht, ho, hheld⟩, hj, ?_⟩
  cases lock with
  | shared =>
      rcases hperm with ⟨-, hnil⟩ | ⟨name, hcreating, hslow⟩
      · exact absurd hnil hholds
      · exact .inr ⟨name, n, ⟨hslow, by simp [hcreating.holds], hother⟩, hheld⟩
  | runtime name =>
      rcases hperm with ⟨hasked, ⟨-, hnil⟩ | ⟨-, hnil | hown⟩ | ⟨-, -, hcollector, -⟩⟩
      · exact absurd hnil hholds
      · exact absurd hnil hholds
      · exact absurd (by simp [hown]) hother
      · exact .inl ⟨name, n, ⟨hasked, hcollector⟩, hheld⟩

/-- The collector is in no cycle: the next thread would be a create request it is kept apart
from. -/
theorem not_asks_of_deadlocked {p : Pool m reentrant}
    (hp : p.Sound (fun s : Known => s = ({} : Known)) fun w vs => Coherent w vs ∧ Ordered vs)
    (hdead : Deadlocked p i) {t : (daemon m reentrant).Thread} (ht : p.threads[i]? = some t) :
    ¬ Known.Asks t.known name := by
  intro hasks
  obtain ⟨hcoherent, hordered⟩ := hp.holds
  obtain ⟨t₁, j, ht₁, -, hj, ⟨name', n, hasks', hheld⟩ | ⟨_, _, hconfigures, -⟩⟩ :=
    asks_or_configures hp hdead
  · obtain rfl : t₁ = t := by simpa [ht] using ht₁.symm
    obtain rfl : name' = name := by simpa [hasks.1] using hasks'.1.symm
    obtain ⟨t', -, ht', -, -, ⟨_, _, hnext, -⟩ | ⟨_, _, hnext, -⟩⟩ := asks_or_configures hp hj
    · have := mem_holds_of_held hcoherent hheld ht'
      simp [hnext.2] at this
    · exact hordered.apart _ (List.mem_of_getElem? (views_getElem? ht)) _
        (List.mem_of_getElem? (views_getElem? ht')) name' hasks
        ⟨hnext.1, mem_holds_of_held hcoherent hheld ht', hnext.2.2⟩
  · obtain rfl : t₁ = t := by simpa [ht] using ht₁.symm
    exact hconfigures.2.2 (by simp [hasks.2])

/-- **No cycle of waiting threads**: in every run whose steps are in order, with locks of runtimes
re-enterable or not, no reachable pool has a thread in a cycle. -/
theorem no_deadlock (m : RuntimeManager) (reentrant : Bool) {w₀ : World} (hw₀ : w₀.Started m)
    {p : Pool m reentrant} (hp : Machine.Reaches (whenStep LocksInOrder) ⟨w₀, []⟩ p) (i : ℕ) :
    ¬ Deadlocked p i := by
  have hsound := sound_of_reaches
    ((coherent_preserved m reentrant _).and (ordered_preserved m reentrant))
    ⟨hw₀.coherent, ⟨by simp, by simp⟩⟩ hp
  intro hdead
  obtain ⟨t, j, ht, -, hj, ⟨_, _, hasks, -⟩ | ⟨_, _, hconfigures, hheld⟩⟩ :=
    asks_or_configures hsound hdead
  · exact not_asks_of_deadlocked hsound hdead ht hasks
  · -- the next thread holds the shared lock, so it is the collector
    obtain ⟨t', -, ht', -, -, ⟨_, _, hasks, -⟩ | ⟨_, _, hnext, -⟩⟩ := asks_or_configures hsound hj
    · exact not_asks_of_deadlocked hsound hj ht' hasks
    · exact hnext.2.2 (mem_holds_of_held hsound.holds.1 hheld ht')

/-! ## Who waits for whom -/

/-- The lock a thread wants. -/
def wanted (p : Pool m reentrant) (i : ℕ) : Option LockId :=
  match p.threads[i]?.bind (·.pending) with
  | some (.acquire lock) => some lock
  | _ => none

theorem waits_of_wanted {p : Pool m reentrant} {lock : LockId} {n : ℕ} (hne : i ≠ j)
    (hwanted : wanted p i = some lock) (hheld : World.held p.world lock = some (j, n)) :
    Waits p i j := by
  unfold wanted at hwanted
  split at hwanted
  · rename_i lock' hpending
    obtain rfl : lock' = lock := by simpa using hwanted
    obtain ⟨t, ht, ho⟩ := Option.bind_eq_some_iff.mp hpending
    exact ⟨hne, t, lock', n, ht, ho, hheld⟩
  · simp at hwanted

/-- A stale runtime, and its owner's user with a new server. -/
def staleWorld : World :=
  World.storeRecord { sampleWorld with departed := [formerJupyter] } "freebsd-lab-a"
    (sampleRecord "freebsd-lab-a" formerJupyter (.ofOctets 172 31 254 10))

lemma staleWorld_started : staleWorld.Started .standard :=
  World.Started.storeRecord (c := ⟨⟨99, 1001, 1001⟩, .nothing⟩)
    (.of_empty rfl rfl) (by decide) ⟨rfl, rfl, rfl, rfl, .inr (.inl rfl)⟩

/-- The steps that take the locks in order. -/
def inOrder (w : World) (vs : List (Connection × Known)) (_ : ℕ) (_ : Connection) (s : Known)
    (o : Op)
    (_ : Answer) : Bool :=
  match o with
  | .runtimeLock name => !s.holds.contains .shared || vs.all fun v => !decide (v.2.Configures name)
  | .readFlag flag =>
      w.flag flag || s.holds.contains .shared
        || s.holds.all fun
          | .runtime name => vs.all fun v => !decide (v.2.Asks name)
          | .shared => true
  | _ => true

lemma locksInOrder_of_inOrder (h : inOrder w vs i c s o a = true) :
    LocksInOrder w vs i c s o a := by
  constructor
  · rintro name rfl hshared v hv
    simp only [inOrder, Bool.or_eq_true, Bool.not_eq_true', List.contains_eq_mem,
      decide_eq_false_iff_not, List.all_eq_true] at h
    exact (h.resolve_left (not_not_intro hshared)) v hv
  · rintro flag name rfl hunset hmem hshared v hv
    simp only [inOrder, hunset, Bool.false_or, Bool.or_eq_true, List.contains_eq_mem,
      decide_eq_true_eq, List.all_eq_true] at h
    have hname := h.resolve_left hshared _ hmem
    simp only [List.all_eq_true, Bool.not_eq_true', decide_eq_false_iff_not] at hname
    exact hname v hv

/-- Root's collector turns to the stale runtime, which its owner's user is destroying; a create
request for another runtime waits for the collector to be done with the bridge. -/
def queueingSchedule : List (daemon .standard true).Label :=
  .arrive (fromRoot RuntimeClient.gc) :: turns 0 4
    ++ .arrive (fromJupyter (RuntimeClient.destroy "freebsd-lab-a")) :: turns 1 6
    ++ .arrive (fromJupyter (RuntimeClient.createJail "freebsd-lab-b" 100 sampleKey)) :: turns 2 9
    ++ turns 0 1

/-- The create request waits for the collector, and the collector for the destroy request; nobody
waits in a circle. -/
theorem no_deadlock_of_queue : ∃ p : Pool .standard true,
    Machine.Reaches (whenStep LocksInOrder) ⟨staleWorld, []⟩ p
      ∧ Waits p 2 0 ∧ Waits p 0 1 ∧ ∀ i, ¬ Deadlocked p i := by
  have hrun : ((⟨staleWorld, []⟩ : Pool .standard true).checkedRun (passesStep inOrder)
        queueingSchedule).map
      (fun p => (wanted p 2, World.held p.world .shared, wanted p 0,
        World.held p.world (.runtime "freebsd-lab-a")))
      = some (some .shared, some (0, 1), some (.runtime "freebsd-lab-a"), some (1, 1)) := by
    decide +kernel
  obtain ⟨p, hp, hstate⟩ := Option.map_eq_some_iff.mp hrun
  simp only [Prod.mk.injEq] at hstate
  obtain ⟨hwant, hheld, hwant', hheld'⟩ := hstate
  have hreaches : Machine.Reaches (whenStep LocksInOrder) ⟨staleWorld, []⟩ p :=
    Machine.reaches_of_checkedRun
      (fun _ _ => whenStep_of_passesStep fun _ _ _ _ _ _ _ => locksInOrder_of_inOrder) _ .start hp
  exact ⟨p, hreaches, waits_of_wanted (by decide) hwant hheld,
    waits_of_wanted (by decide) hwant' hheld', no_deadlock .standard true
      staleWorld_started hreaches⟩

/-! ## A cycle -/

/-- Root's collector reads the stale record and is about to take its lock; a destroy request of the
user removes the record; a create request of the same name takes the lock and finds the bridge not
yet configured. -/
def crossingSchedule : List (daemon .standard true).Label :=
  .arrive (fromRoot RuntimeClient.gc) :: turns 0 5
    ++ .arrive (fromJupyter (RuntimeClient.destroy "freebsd-lab-a")) :: turns 1 19
    ++ .arrive (fromJupyter (RuntimeClient.createJail "freebsd-lab-a" 100 sampleKey)) :: turns 2 9

/-- The collector and the create request wait for each other. -/
theorem gc_and_create_deadlock :
    staleWorld.Started .standard ∧ ∃ p : Pool .standard true,
      Machine.Reaches (fun _ _ => True) ⟨staleWorld, []⟩ p ∧ Deadlocked p 0 := by
  refine ⟨staleWorld_started, ?_⟩
  have hrun : ((⟨staleWorld, []⟩ : Pool .standard true).run crossingSchedule).map
      (fun p => (wanted p 0, World.held p.world (.runtime "freebsd-lab-a"), wanted p 2,
        World.held p.world .shared))
      = some (some (.runtime "freebsd-lab-a"), some (2, 1), some .shared, some (0, 1)) := by
    decide +kernel
  obtain ⟨p, hp, hstate⟩ := Option.map_eq_some_iff.mp hrun
  simp only [Prod.mk.injEq] at hstate
  obtain ⟨hwant, hheld, hwant', hheld'⟩ := hstate
  exact ⟨p, Machine.reaches_of_free_run _ hp,
    .tail (.single (waits_of_wanted (by decide) hwant hheld))
      (waits_of_wanted (by decide) hwant' hheld')⟩

end FreebsdLaboratory
